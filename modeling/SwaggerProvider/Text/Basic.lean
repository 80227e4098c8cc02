/-!
Text as lists of characters: blanks, trimming, splitting and replacing. Blank is the Unicode
property `White_Space`.
-/

set_option autoImplicit false

namespace SwaggerProvider.Text

def isBlank (c : Char) : Bool :=
  (9 ≤ c.toNat && c.toNat ≤ 13) || c.toNat == 32 || c.toNat == 0x85 || c.toNat == 0xA0 ||
  c.toNat == 0x1680 || (0x2000 ≤ c.toNat && c.toNat ≤ 0x200A) || c.toNat == 0x2028 ||
  c.toNat == 0x2029 || c.toNat == 0x202F || c.toNat == 0x205F || c.toNat == 0x3000

def trimStartBy (p : Char → Bool) (cs : List Char) : List Char := cs.dropWhile p

def trimEndBy (p : Char → Bool) (cs : List Char) : List Char :=
  (cs.reverse.dropWhile p).reverse

def trimBy (p : Char → Bool) (cs : List Char) : List Char := trimEndBy p (trimStartBy p cs)

def trim (s : String) : String := String.ofList (trimBy isBlank s.toList)

/-- The pieces between the separators; a text without a separator is one piece. -/
def pieces (separator : Char) : List Char → List (List Char)
  | [] => [[]]
  | c :: rest =>
    if c = separator then [] :: pieces separator rest
    else match pieces separator rest with
      | [] => [[c]]
      | piece :: more => (c :: piece) :: more

def join (separator : List Char) : List (List Char) → List Char
  | [] => []
  | [piece] => piece
  | piece :: more => piece ++ separator ++ join separator more

/-- What comes before the first separator and what comes after it. -/
def cut? (separator : Char) : List Char → Option (List Char × List Char)
  | [] => none
  | c :: rest =>
    if c = separator then some ([], rest)
    else (cut? separator rest).map fun (before, after) => (c :: before, after)

def after? : List Char → List Char → Option (List Char)
  | [], rest => some rest
  | _ :: _, [] => none
  | s :: start, c :: rest => if s = c then after? start rest else none

def before? (ending cs : List Char) : Option (List Char) :=
  (after? ending.reverse cs.reverse).map List.reverse

def startsWith (start cs : List Char) : Bool := (after? start cs).isSome

def holds (part : List Char) : List Char → Bool
  | [] => part.isEmpty
  | c :: rest => startsWith part (c :: rest) || holds part rest

/-- Replaces every occurrence of a non-empty pattern, from the left and without overlap. -/
def replaceAll (pattern image : List Char) (cs : List Char) : List Char :=
  go cs.length cs
where
  go : Nat → List Char → List Char
    | 0, cs => cs
    | _ + 1, [] => []
    | n + 1, c :: rest =>
      match after? pattern (c :: rest) with
      | some tail => image ++ go n tail
      | none => c :: go n rest

def lowerAscii (c : Char) : Char :=
  if 'A' ≤ c ∧ c ≤ 'Z' then Char.ofNat (c.toNat + 32) else c

def hexDigit (n : Nat) : Char :=
  if n < 10 then Char.ofNat (48 + n) else Char.ofNat (87 + n)

def hexValue? (c : Char) : Option Nat :=
  if '0' ≤ c ∧ c ≤ '9' then some (c.toNat - 48)
  else if 'a' ≤ c ∧ c ≤ 'f' then some (c.toNat - 87)
  else if 'A' ≤ c ∧ c ≤ 'F' then some (c.toNat - 55)
  else none

/-- The value of a text of ASCII digits, none for any other text. -/
def natural? (cs : List Char) : Option Nat :=
  if cs.isEmpty then none
  else cs.foldl (fun value c =>
    match value with
    | some n => if '0' ≤ c ∧ c ≤ '9' then some (10 * n + (c.toNat - 48)) else none
    | none => none) (some 0)

/-- The value of a text of digits, after a plus sign or not, up to a bound. -/
def unsigned? (bound : Nat) (cs : List Char) : Option Nat :=
  let digits := match cs with
    | '+' :: rest => rest
    | _ => cs
  match natural? digits with
  | some n => if n ≤ bound then some n else none
  | none => none

/-- The entries of a comma separated text, trimmed, without the empty ones. -/
def commaList (s : String) : List String :=
  ((pieces ',' s.toList).map (trimBy isBlank)).filterMap fun entry =>
    if entry.isEmpty then none else some (String.ofList entry)

@[simp] theorem pieces_ne_nil (separator : Char) (cs : List Char) : pieces separator cs ≠ [] := by
  cases cs with
  | nil => simp [pieces]
  | cons c rest =>
    simp only [pieces]
    split
    · simp
    · split <;> simp

theorem join_pieces (separator : Char) (cs : List Char) :
    join [separator] (pieces separator cs) = cs := by
  induction cs with
  | nil => rfl
  | cons c rest ih =>
    simp only [pieces]
    split
    · next h =>
      subst h
      cases hp : pieces c rest with
      | nil => exact absurd hp (pieces_ne_nil _ _)
      | cons piece more =>
        rw [hp] at ih
        simp [join, ih]
    · split
      · next hp => exact absurd hp (pieces_ne_nil _ _)
      · next piece more hp =>
        rw [hp] at ih
        cases more with
        | nil => simpa [join] using ih
        | cons next more => simpa [join] using ih

theorem mem_pieces (separator : Char) {c : Char} {cs : List Char} (h : c ∈ cs) :
    c = separator ∨ ∃ piece ∈ pieces separator cs, c ∈ piece := by
  induction cs with
  | nil => simp at h
  | cons first rest ih =>
    by_cases hsep : first = separator
    · rcases List.mem_cons.1 h with rfl | h
      · exact .inl hsep
      · rcases ih h with heq | ⟨piece, hpiece, hc⟩
        · exact .inl heq
        · exact .inr ⟨piece, by simp [pieces, hsep, hpiece], hc⟩
    · cases hp : pieces separator rest with
      | nil => exact absurd hp (pieces_ne_nil _ _)
      | cons piece more =>
        have hcons : pieces separator (first :: rest) = (first :: piece) :: more := by
          simp [pieces, hsep, hp]
        rw [hcons]
        rcases List.mem_cons.1 h with rfl | h
        · exact .inr ⟨c :: piece, by simp, by simp⟩
        · rcases ih h with heq | ⟨other, hother, hc⟩
          · exact .inl heq
          · rw [hp] at hother
            rcases List.mem_cons.1 hother with rfl | hother
            · exact .inr ⟨first :: other, by simp, by simp [hc]⟩
            · exact .inr ⟨other, by simp [hother], hc⟩

theorem cut?_append {separator : Char} {before : List Char} (h : separator ∉ before)
    (after : List Char) : cut? separator (before ++ separator :: after) = some (before, after) := by
  induction before with
  | nil => simp [cut?]
  | cons c rest ih =>
    have hc : c ≠ separator := fun heq => h (heq ▸ List.mem_cons_self)
    have hrest : separator ∉ rest := fun hmem => h (List.mem_cons_of_mem _ hmem)
    simp [cut?, hc, ih hrest]

theorem eq_of_cut? {separator : Char} {cs before after : List Char}
    (h : cut? separator cs = some (before, after)) : cs = before ++ separator :: after := by
  induction cs generalizing before with
  | nil => simp [cut?] at h
  | cons c rest ih =>
    by_cases hc : c = separator
    · simp only [cut?, hc, if_true, Option.some.injEq, Prod.mk.injEq] at h
      obtain ⟨rfl, rfl⟩ := h
      simp [hc]
    · simp only [cut?, hc, if_false, Option.map_eq_some_iff] at h
      obtain ⟨⟨front, back⟩, hcut, heq⟩ := h
      obtain ⟨rfl, rfl⟩ := Prod.mk.inj heq
      simp [ih hcut]

theorem after?_eq_some_iff (start cs rest : List Char) :
    after? start cs = some rest ↔ cs = start ++ rest := by
  induction start generalizing cs with
  | nil => simp [after?]
  | cons s start ih =>
    cases cs with
    | nil => simp [after?]
    | cons c cs =>
      by_cases h : s = c
      · simp [after?, h, ih]
      · simp [after?, h, Ne.symm h]

theorem before?_eq_some_iff (ending cs front : List Char) :
    before? ending cs = some front ↔ cs = front ++ ending := by
  have hreverse : cs.reverse = ending.reverse ++ front.reverse ↔ cs = front ++ ending := by
    rw [← List.reverse_append, List.reverse_inj]
  simp only [before?, Option.map_eq_some_iff, after?_eq_some_iff, ← hreverse]
  constructor
  · rintro ⟨rest, hcs, rfl⟩
    rw [hcs, List.reverse_reverse]
  · intro hcs
    exact ⟨front.reverse, hcs, List.reverse_reverse front⟩

end SwaggerProvider.Text
