import SwaggerProvider.Url.Parse

/-!
Percent encoding loses nothing, and what it writes has none of the characters that mean something in
a URL. An encoded text is read back byte by byte.
-/

set_option autoImplicit false

namespace SwaggerProvider.Url

open Text (isAsciiAlnum isAsciiDigit hexValue?)

theorem forall_ascii {P : Char → Prop} (h : ∀ n < 0x80, P (Char.ofNat n)) (c : Char)
    (hc : c.toNat < 0x80) : P c := by
  have hnumber := h c.toNat hc
  rwa [Char.ofNat_toNat] at hnumber

theorem isAsciiAlnum_upperHexDigit {n : Nat} (h : n < 16) :
    isAsciiAlnum (upperHexDigit n) = true := by
  decide +revert

theorem hexValue?_upperHexDigit {n : Nat} (h : n < 16) : hexValue? (upperHexDigit n) = some n := by
  decide +revert

theorem mem_escapeByte {b : UInt8} {c : Char} (h : c ∈ escapeByte b) :
    c = '%' ∨ isAsciiAlnum c = true := by
  have hb : b.toNat < 256 := b.toNat_lt
  simp only [escapeByte, List.mem_cons, List.not_mem_nil, or_false] at h
  rcases h with rfl | rfl | rfl
  · exact .inl rfl
  · exact .inr (isAsciiAlnum_upperHexDigit (by omega))
  · exact .inr (isAsciiAlnum_upperHexDigit (by omega))

theorem mem_escapeChar {c d : Char} (h : d ∈ escapeChar c) : d = '%' ∨ isAsciiAlnum d = true := by
  obtain ⟨b, -, hd⟩ := List.mem_flatMap.1 h
  exact mem_escapeByte hd

@[simp] theorem escapeChar_ne_nil (c : Char) : escapeChar c ≠ [] := by
  obtain ⟨b, rest, hbytes⟩ := List.exists_cons_of_ne_nil (String.utf8EncodeChar_ne_nil (c := c))
  rw [escapeChar, hbytes]
  simp [escapeByte]

section Escape

variable {p : Char → Bool}

@[simp] theorem escapeBy_cons (c : Char) (rest : List Char) :
    escapeBy p (c :: rest) = (if p c then escapeChar c else [c]) ++ escapeBy p rest := rfl

theorem mem_escapeBy {cs : List Char} {d : Char} (h : d ∈ escapeBy p cs) :
    (d ∈ cs ∧ p d = false) ∨ d = '%' ∨ isAsciiAlnum d = true := by
  obtain ⟨c, hc, hd⟩ := List.mem_flatMap.1 h
  split at hd
  · exact .inr (mem_escapeChar hd)
  · next hp =>
    cases List.mem_singleton.1 hd
    exact .inl ⟨hc, by simpa using hp⟩

theorem escapeBy_of_safe {cs : List Char} (h : ∀ c ∈ cs, p c = false) : escapeBy p cs = cs := by
  induction cs with
  | nil => rfl
  | cons c rest ih =>
    simp [h c List.mem_cons_self, ih fun d hd => h d (List.mem_cons_of_mem _ hd)]

@[simp] theorem escapeBy_eq_nil {cs : List Char} : escapeBy p cs = [] ↔ cs = [] := by
  refine ⟨fun h => ?_, fun h => by rw [h]; rfl⟩
  cases cs with
  | nil => rfl
  | cons c rest =>
    rw [escapeBy_cons, List.append_eq_nil_iff] at h
    have hfirst := h.1
    split at hfirst
    · exact absurd hfirst (escapeChar_ne_nil c)
    · cases hfirst

end Escape

theorem encodeChars_eq (cs : List Char) :
    encodeChars cs = escapeBy (fun c => !isUnreserved c) cs := by
  have hchar : encodeChar = fun c => if !isUnreserved c then escapeChar c else [c] := by
    funext c
    unfold encodeChar
    cases isUnreserved c <;> rfl
  rw [encodeChars, hchar, escapeBy]

theorem mem_encodeChars {cs : List Char} {d : Char} (h : d ∈ encodeChars cs) :
    d = '%' ∨ isUnreserved d = true := by
  rw [encodeChars_eq] at h
  rcases mem_escapeBy h with ⟨-, hd⟩ | hd | hd
  · exact .inr (by simpa using hd)
  · exact .inl hd
  · exact .inr (by simp [isUnreserved, hd])

theorem toNat_lt_of_isUnreserved {c : Char} (h : isUnreserved c = true) : c.toNat < 0x80 := by
  have hle {d : Char} (hd : d.toNat < 0x80) (hc : c ≤ d) : c.toNat < 0x80 :=
    Nat.lt_of_le_of_lt (UInt32.le_iff_toNat_le.1 hc) hd
  simp only [isUnreserved, isAsciiAlnum, isAsciiDigit, Bool.or_eq_true, Bool.and_eq_true,
    decide_eq_true_eq, beq_iff_eq] at h
  rcases h with ((((h | rfl) | rfl) | rfl) | rfl)
  · rcases h with (h | h) | h
    · exact hle (by decide) h.2
    · exact hle (by decide) h.2
    · exact hle (by decide) h.2
  all_goals decide

def isQueryMark (c : Char) : Bool := c == '?' || c == '&' || c == '=' || c == '#'

theorem mem_formChars {cs : List Char} {d : Char} (h : d ∈ formChars cs) :
    isQueryMark d = false := by
  have hplain {c : Char} (hc : c = '%' ∨ isAsciiAlnum c = true) : isQueryMark c = false := by
    rcases hc with rfl | hc
    · rfl
    · refine Bool.eq_false_iff.2 fun hmark => ?_
      simp only [isQueryMark, Bool.or_eq_true, beq_iff_eq] at hmark
      rcases hmark with ((rfl | rfl) | rfl) | rfl <;> exact absurd hc (by decide)
  obtain ⟨c, -, hd⟩ := List.mem_flatMap.1 h
  unfold formChar at hd
  split at hd
  · cases List.mem_singleton.1 hd
    rfl
  · split at hd
    · next hc =>
      cases List.mem_singleton.1 hd
      simp only [Bool.or_eq_true, beq_iff_eq] at hc
      rcases hc with (((hc | rfl) | rfl) | rfl) | rfl
      · exact hplain (.inr hc)
      all_goals rfl
    · exact hplain (mem_escapeChar hd)

section Decode

def utf8 (cs : List Char) : List UInt8 := cs.flatMap String.utf8EncodeChar

theorem decodeBytes_escapeByte (b : UInt8) (rest : List Char) :
    decodeBytes (escapeByte b ++ rest) = b :: decodeBytes rest := by
  have hb : b.toNat < 256 := b.toNat_lt
  have hvalue : UInt8.ofNat (16 * (b.toNat / 16) + b.toNat % 16) = b := by
    rw [Nat.div_add_mod]
    exact UInt8.ofNat_toNat
  have hhigh : hexValue? (upperHexDigit (b.toNat / 16)) = some (b.toNat / 16) :=
    hexValue?_upperHexDigit (by omega)
  have hlow : hexValue? (upperHexDigit (b.toNat % 16)) = some (b.toNat % 16) :=
    hexValue?_upperHexDigit (by omega)
  simp only [escapeByte, List.cons_append, List.nil_append, decodeBytes, hhigh, hlow, hvalue]

theorem decodeBytes_escaped (bytes : List UInt8) (rest : List Char) :
    decodeBytes (bytes.flatMap escapeByte ++ rest) = bytes ++ decodeBytes rest := by
  induction bytes with
  | nil => rfl
  | cons b more ih =>
    rw [List.flatMap_cons, List.append_assoc, decodeBytes_escapeByte, ih, List.cons_append]

@[simp] theorem decodeBytes_cons {c : Char} (h : c ≠ '%') (rest : List Char) :
    decodeBytes (c :: rest) = String.utf8EncodeChar c ++ decodeBytes rest := by
  rw [decodeBytes]
  rintro a b more rfl
  exact absurd rfl h

/-- Decoding gives back the bytes of the text, if no percent sign was left as it is. -/
theorem decodeBytes_escapeBy {p : Char → Bool} {cs : List Char}
    (h : ∀ c ∈ cs, p c = false → c ≠ '%') :
    decodeBytes (escapeBy p cs) = utf8 cs := by
  induction cs with
  | nil => rfl
  | cons c rest ih =>
    have hrest := ih fun d hd => h d (List.mem_cons_of_mem _ hd)
    rw [escapeBy_cons, utf8, List.flatMap_cons, ← utf8, ← hrest]
    split
    · exact decodeBytes_escaped _ _
    · next hp => exact decodeBytes_cons (h c List.mem_cons_self (by simpa using hp)) _

theorem decodeBytes_encodeChars (cs : List Char) : decodeBytes (encodeChars cs) = utf8 cs := by
  rw [encodeChars_eq]
  refine decodeBytes_escapeBy fun c _ hc => ?_
  rintro rfl
  exact absurd hc (by decide)

end Decode

end SwaggerProvider.Url
