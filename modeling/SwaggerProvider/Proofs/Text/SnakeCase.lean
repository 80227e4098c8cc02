import Mathlib.Data.List.Chain
import SwaggerProvider.Text.SnakeCase

/-!
Names that are brought into snake case twice. A capital that has no small form stays a capital, and
the second time it may stand behind a letter that was a capital before; then an underscore comes in
between. A third time nothing changes any more.
-/

set_option autoImplicit false

namespace SwaggerProvider.Text

def Shift.lastImage : Shift → Nat
  | (first, last, _, image) => image + (last - first)

/-- A code point to which the row leads. -/
structure Shift.Reaches (r : Shift) (code : Nat) : Prop where
  first : r.2.2.2 ≤ code
  last : code ≤ r.lastImage
  step : (code - r.2.2.2) % r.2.2.1 = 0

def Shift.misses (r : Shift) (s : Stride) : Bool :=
  r.lastImage < s.1 || s.2.1 < r.2.2.2 ||
    (r.2.2.1 % 2 == 0 && (s.2.2 % 2 == 0 || s.1 == s.2.1) && (r.2.2.2 + s.1) % 2 == 1)

def Shift.missesAll (r : Shift) : List Stride → Bool
  | [] => true
  | s :: rest => if r.lastImage < s.1 then true else r.misses s && r.missesAll rest

theorem shifted_eq_some {code image : Nat} {rows : List Shift}
    (h : shifted code rows = some image) : ∃ r ∈ rows, r.Reaches image := by
  induction rows with
  | nil => cases h
  | cons r rest ih =>
    obtain ⟨first, last, step, start⟩ := r
    rw [shifted] at h
    split at h
    · cases h
    · split at h
      · next hin =>
        simp only [Bool.and_eq_true, decide_eq_true_eq, beq_iff_eq] at hin
        cases h
        refine ⟨_, List.mem_cons_self, Nat.le_add_right _ _, ?_, ?_⟩
        · simp only [Shift.lastImage]
          omega
        · simpa using hin.2
      · obtain ⟨r, hr, hreaches⟩ := ih h
        exact ⟨r, List.mem_cons_of_mem _ hr, hreaches⟩

theorem mod_two_of_step {n step : Nat} (hstep : step % 2 = 0) (h : n % step = 0) : n % 2 = 0 :=
  Nat.mod_eq_zero_of_dvd
    (Nat.dvd_trans (Nat.dvd_of_mod_eq_zero hstep) (Nat.dvd_of_mod_eq_zero h))

theorem Shift.Reaches.not_holds {r : Shift} {s : Stride} {code : Nat} (h : r.Reaches code)
    (hmisses : r.misses s = true) : s.holds code = false := by
  obtain ⟨hfirst, hlast, hstep⟩ := h
  rw [← Bool.not_eq_true]
  intro hholds
  simp only [Stride.holds, Bool.and_eq_true, decide_eq_true_eq, beq_iff_eq] at hholds
  obtain ⟨⟨hlow, hhigh⟩, hstride⟩ := hholds
  simp only [Shift.misses, Bool.or_eq_true, Bool.and_eq_true, decide_eq_true_eq, beq_iff_eq]
    at hmisses
  rcases hmisses with (hbefore | hbehind) | ⟨⟨heven, hother⟩, hodd⟩
  · omega
  · omega
  · have hrow := mod_two_of_step heven hstep
    have hapart : (code - s.1) % 2 = 0 := by
      rcases hother with hother | hone
      · exact mod_two_of_step hother hstride
      · omega
    omega

theorem Shift.Reaches.not_inStrides {r : Shift} {code : Nat} (h : r.Reaches code)
    {strides : List Stride} (hmisses : r.missesAll strides = true) :
    inStrides code strides = false := by
  induction strides with
  | nil => rfl
  | cons s rest ih =>
    have hlast := h.last
    rw [Shift.missesAll] at hmisses
    rw [inStrides]
    split at hmisses
    · next habove => rw [if_pos (by omega)]
    · rw [Bool.and_eq_true] at hmisses
      rw [h.not_holds hmisses.1, ih hmisses.2, Bool.or_self, ite_self]

theorem toLowerShifts_miss : toLowerShifts.all (fun r =>
    r.missesAll uppercase && 45 < r.2.2.2 &&
      (r.lastImage < 0xd800 || 0xdfff < r.2.2.2 && r.lastImage < 0x110000)) = true := by
  decide +kernel

theorem toNat_ofNat {code : Nat} (h : code.isValidChar) : (Char.ofNat code).toNat = code := by
  rw [Char.ofNat, dif_pos h]
  rfl

def Plain (c : Char) : Prop := c ≠ '-' ∧ isUpper c = false

theorem plain_of_shifted {code image : Nat} (h : shifted code toLowerShifts = some image) :
    Plain (Char.ofNat image) := by
  obtain ⟨r, hr, hreaches⟩ := shifted_eq_some h
  have hrow := List.all_eq_true.1 toLowerShifts_miss r hr
  simp only [Bool.and_eq_true, Bool.or_eq_true, decide_eq_true_eq] at hrow
  obtain ⟨⟨hmisses, hhyphen⟩, hvalid⟩ := hrow
  have hfirst := hreaches.first
  have hlast := hreaches.last
  have hcode : (Char.ofNat image).toNat = image := by
    refine toNat_ofNat ?_
    rw [Nat.isValidChar]
    omega
  constructor
  · intro heq
    have hfortyFive : '-'.toNat = 45 := rfl
    rw [heq] at hcode
    omega
  · rw [isUpper, hcode]
    exact hreaches.not_inStrides hmisses

theorem plain_dotted : Plain 'i' ∧ Plain '\u0307' := by
  unfold Plain
  decide +kernel

theorem toLower_cases {c : Char} (h : isUpper c = true) :
    toLower c = [c] ∨ (toLower c ≠ [] ∧ toLower c ≠ [c] ∧ ∀ e ∈ toLower c, Plain e) := by
  unfold toLower
  split
  · refine .inr ⟨by simp, by simp, ?_⟩
    exact List.forall_mem_cons.2 ⟨plain_dotted.1, List.forall_mem_singleton.2 plain_dotted.2⟩
  · cases hshifted : shifted c.toNat toLowerShifts with
    | none => exact .inl rfl
    | some image =>
      have hplain := plain_of_shifted hshifted
      refine .inr ⟨by simp, fun heq => ?_, by simpa using hplain⟩
      rw [List.cons.injEq] at heq
      rw [← heq.1, hplain.2] at h
      cases h

def staysCapital (c : Char) : Bool := isUpper c && toLower c == [c]

def endsSmall (cs : List Char) : Bool := cs.getLast?.any isLower

/-- A capital whose small form ends in a small letter. -/
def turnsSmall (c : Char) : Bool := isUpper c && toLower c != [c] && endsSmall (toLower c)

/-- No capital without a small form stands right behind one that turns small. -/
def Smooth (cs : List Char) : Prop :=
  cs.IsChain fun c d => turnsSmall c = true → staysCapital d = false

@[simp] theorem smooth_cons {c : Char} {cs : List Char} :
    Smooth (c :: cs) ↔
      (turnsSmall c = true → ∀ d ∈ cs.head?, staysCapital d = false) ∧ Smooth cs := by
  rw [Smooth, List.isChain_cons, ← Smooth]
  exact and_congr_left fun _ => ⟨fun h hc d hd => h d hd hc, fun h d hd hc => h hc d hd⟩

theorem smooth_cons_of_not_turnsSmall {c : Char} {cs : List Char} (h : turnsSmall c = false) :
    Smooth (c :: cs) ↔ Smooth cs := by
  rw [smooth_cons, h]
  simp

theorem snakeChars_plain {c : Char} (h : Plain c) (afterSmall : Bool) (cs : List Char) :
    snakeChars afterSmall (c :: cs) = c :: snakeChars (isLower c) cs := by
  rw [snakeChars, if_neg h.1, if_neg (by simp [h.2])]

theorem snakeChars_plain_append {cs : List Char} (hne : cs ≠ []) (h : ∀ c ∈ cs, Plain c)
    (afterSmall : Bool) (rest : List Char) :
    snakeChars afterSmall (cs ++ rest) = cs ++ snakeChars (endsSmall cs) rest := by
  induction cs generalizing afterSmall with
  | nil => exact absurd rfl hne
  | cons c more ih =>
    rw [List.cons_append, snakeChars_plain (h c List.mem_cons_self), List.cons_append]
    cases more with
    | nil => rfl
    | cons d more =>
      rw [ih (by simp) fun e he => h e (List.mem_cons_of_mem _ he)]
      rfl

theorem snakeChars_capital {c : Char} (h : isUpper c = true) (afterSmall : Bool)
    (cs : List Char) : snakeChars afterSmall (c :: cs) =
      (if afterSmall then ['_'] else []) ++ toLower c ++ snakeChars false cs := by
  have hne : c ≠ '-' := by
    rintro rfl
    revert h
    decide
  rw [snakeChars, if_neg hne, if_pos h]

theorem plain_underscore : Plain '_' := by
  unfold Plain
  decide

/-- What a capital became stays the second time, unless it is a capital still and a small letter
has come to stand before it. -/
theorem capital_again {c : Char} {cs rest : List Char} (h : isUpper c = true) (again : Bool)
    (ih : ∀ flag, snakeChars flag rest = rest ↔
      (flag = true → ∀ d ∈ cs.head?, staysCapital d = false) ∧ Smooth cs) :
    snakeChars again (toLower c ++ rest) = toLower c ++ rest ↔
      (again = true → staysCapital c = false) ∧ Smooth (c :: cs) := by
  rcases toLower_cases h with hsame | ⟨hne, hother, hplain⟩
  · have hstays : staysCapital c = true := by simp [staysCapital, h, hsame]
    have hsmall : turnsSmall c = false := by simp [turnsSmall, hsame]
    rw [hsame, List.singleton_append, snakeChars_capital h, hsame,
      smooth_cons_of_not_turnsSmall hsmall, hstays]
    cases again with
    | false => simpa using ih false
    | true =>
      have hunderscore : '_' ≠ c := by
        rintro rfl
        rw [plain_underscore.2] at h
        cases h
      simp [hunderscore]
  · have hstays : staysCapital c = false := by simp [staysCapital, hother]
    have hsmall : turnsSmall c = endsSmall (toLower c) := by simp [turnsSmall, h, hother]
    rw [snakeChars_plain_append hne hplain, List.append_cancel_left_eq, ih, smooth_cons, hsmall,
      hstays]
    simp

/-- The flag of the second pass differs from that of the first one behind a capital that has turned
small. -/
theorem snakeChars_again (cs : List Char) {first again : Bool}
    (hflags : first = true → again = true) :
    snakeChars again (snakeChars first cs) = snakeChars first cs ↔
      (again = true → first = false → ∀ d ∈ cs.head?, staysCapital d = false) ∧ Smooth cs := by
  induction cs generalizing first again with
  | nil => simp [snakeChars, Smooth]
  | cons c cs ih =>
    have hequal (flag : Bool) :
        snakeChars flag (snakeChars flag cs) = snakeChars flag cs ↔ Smooth cs := by
      rw [ih id]
      cases flag <;> simp
    cases hupper : isUpper c with
    | false =>
      have hstays : staysCapital c = false := by simp [staysCapital, hupper]
      have hsmall : turnsSmall c = false := by simp [turnsSmall, hupper]
      rw [smooth_cons_of_not_turnsSmall hsmall]
      by_cases hhyphen : c = '-'
      · have hflag : isLower '_' = false := by decide
        rw [hhyphen] at hstays ⊢
        rw [snakeChars, if_pos rfl, snakeChars_plain plain_underscore, hflag, List.cons.injEq,
          hequal]
        simp [hstays]
      · rw [snakeChars_plain ⟨hhyphen, hupper⟩, snakeChars_plain ⟨hhyphen, hupper⟩,
          List.cons.injEq, hequal]
        simp [hstays]
    | true =>
      have hagain := @capital_again c cs (snakeChars false cs) hupper
      have hbehind (flag : Bool) : snakeChars flag (snakeChars false cs) = snakeChars false cs ↔
          (flag = true → ∀ d ∈ cs.head?, staysCapital d = false) ∧ Smooth cs := by
        rw [ih (by simp)]
        simp
      rw [snakeChars_capital hupper]
      cases first with
      | false => simpa using hagain again hbehind
      | true =>
        have hflag : isLower '_' = false := by decide
        rw [if_pos rfl, List.singleton_append, List.cons_append, snakeChars_plain plain_underscore,
          hflag, List.cons.injEq, hagain false hbehind]
        simp

theorem not_turnsSmall_of_mem {cs : List Char} {afterSmall : Bool} {c : Char}
    (h : c ∈ snakeChars afterSmall cs) : turnsSmall c = false := by
  have hplain {e : Char} (he : isUpper e = false) : turnsSmall e = false := by
    simp [turnsSmall, he]
  induction cs generalizing afterSmall with
  | nil => cases h
  | cons d cs ih =>
    cases hupper : isUpper d with
    | false =>
      rw [snakeChars, hupper] at h
      split at h
      · rcases List.mem_cons.1 h with rfl | h
        · exact hplain plain_underscore.2
        · exact ih h
      · rcases List.mem_cons.1 h with rfl | h
        · exact hplain hupper
        · exact ih h
    | true =>
      rw [snakeChars_capital hupper, List.mem_append, List.mem_append] at h
      rcases h with (h | h) | h
      · have hc : c = '_' := by
          split at h
          · exact List.mem_singleton.1 h
          · cases h
        exact hplain (hc ▸ plain_underscore.2)
      · rcases toLower_cases hupper with hsame | ⟨-, -, hsmall⟩
        · rw [hsame, List.mem_singleton] at h
          simp [turnsSmall, h, hsame]
        · exact hplain (hsmall c h).2
      · exact ih h

theorem smooth_of_forall {cs : List Char} (h : ∀ c ∈ cs, turnsSmall c = false) : Smooth cs := by
  induction cs with
  | nil => exact .nil
  | cons c cs ih =>
    obtain ⟨hc, hcs⟩ := List.forall_mem_cons.1 h
    exact (smooth_cons_of_not_turnsSmall hc).2 (ih hcs)

theorem toList_snakeCase (s : String) : (snakeCase s).toList = snakeChars false s.toList :=
  String.toList_ofList

theorem snakeCase_snakeCase_eq_iff (s : String) :
    snakeCase (snakeCase s) = snakeCase s ↔ Smooth s.toList := by
  rw [← String.toList_inj, toList_snakeCase, toList_snakeCase, snakeChars_again _ id]
  simp

/-- A second time changes a name exactly where a capital without a small form stands right behind
one that turns small. A third time changes nothing. -/
theorem snakeCase_idempotent_iff (s : String) :
    (snakeCase (snakeCase s) = snakeCase s ↔ Smooth s.toList) ∧
      snakeCase (snakeCase (snakeCase s)) = snakeCase (snakeCase s) := by
  refine ⟨snakeCase_snakeCase_eq_iff s, (snakeCase_snakeCase_eq_iff (snakeCase s)).2 ?_⟩
  rw [toList_snakeCase]
  exact smooth_of_forall fun c hc => not_turnsSmall_of_mem hc

/-- The mathematical bold capital has no small form. -/
theorem snakeCase_idempotent_iff_bold :
    snakeCase "B𝐀" = "b𝐀" ∧ snakeCase "b𝐀" = "b_𝐀" ∧
      ¬∀ s, snakeCase (snakeCase s) = snakeCase s := by
  have honce : snakeCase "B𝐀" = "b𝐀" := by decide +kernel
  have htwice : snakeCase "b𝐀" = "b_𝐀" := by decide +kernel
  refine ⟨honce, htwice, fun h => ?_⟩
  have hsame := h "B𝐀"
  rw [honce, htwice] at hsame
  exact absurd hsame (by decide)

end SwaggerProvider.Text
