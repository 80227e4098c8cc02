import SwaggerProvider.Path.Basic
import SwaggerProvider.Proofs.Text.Pieces
import SwaggerProvider.Proofs.Url.Percent
import SwaggerProvider.Url.Join
import SwaggerProvider.Url.Parse

/-!
The segments of a normal path. Dot segments are taken out, and a double dot takes the segment before
it along; all other segments stay, with what is unsafe in them in percent notation.
-/

set_option autoImplicit false

namespace SwaggerProvider.Url

def filled (segments : List (List Char)) : List (List Char) :=
  segments.filter fun segment => !segment.isEmpty

theorem mem_filled {segments : List (List Char)} {segment : List Char} :
    segment ∈ filled segments ↔ segment ∈ segments ∧ segment ≠ [] := by
  simp [filled]

theorem segments_eq (path : String) :
    Path.segments path = filled (Text.pieces '/' path.toList) := rfl

@[simp] theorem filled_append (segments more : List (List Char)) :
    filled (segments ++ more) = filled segments ++ filled more := List.filter_append segments more

@[simp] theorem filled_empty_cons (segments : List (List Char)) :
    filled ([] :: segments) = filled segments := rfl

@[simp] theorem filled_cons {segment : List Char} (h : segment ≠ []) (segments : List (List Char)) :
    filled (segment :: segments) = segment :: filled segments :=
  List.filter_cons_of_pos (by simpa using h)

@[simp] theorem filled_reverse (segments : List (List Char)) :
    filled segments.reverse = (filled segments).reverse := List.filter_reverse

theorem filled_pieces_trim (cs : List Char) :
    filled (Text.pieces '/' (Text.trimStartBy isSlash cs)) = filled (Text.pieces '/' cs) := by
  induction cs with
  | nil => rfl
  | cons c rest ih =>
    by_cases hc : isSlash c = true
    · have hslash : c = '/' := by simpa [isSlash] using hc
      rw [Text.trimStartBy, List.dropWhile_cons_of_pos hc, Text.pieces, if_pos hslash,
        filled_empty_cons, ← ih, Text.trimStartBy]
    · rw [Text.trimStartBy, List.dropWhile_cons_of_neg hc]

section Dots

def isDots (segment : List Char) : Bool := isDot segment || isDoubleDot segment

def passDots : List (List Char) → List (List Char) → List (List Char)
  | done, [] => done
  | done, segment :: rest =>
    if isDoubleDot segment then passDots (done.drop 1) rest
    else if isDot segment then passDots done rest
    else passDots (segment :: done) rest

@[simp] theorem passDots_append (done front back : List (List Char)) :
    passDots done (front ++ back) = passDots (passDots done front) back := by
  induction front generalizing done with
  | nil => rfl
  | cons segment rest ih => simp only [List.cons_append, passDots, ih, apply_ite (passDots · back)]

theorem resolveDots_eq (done segments : List (List Char)) :
    ∃ ending, filled ending = [] ∧
      resolveDots done segments = (passDots done segments).reverse ++ ending := by
  induction segments generalizing done with
  | nil => exact ⟨[], rfl, by rw [List.append_nil]; rfl⟩
  | cons segment rest ih =>
    cases rest with
    | nil =>
      have hend (done : List (List Char)) : resolveDots done [] = done.reverse := by
        rw [resolveDots]
      have hempty (done : List (List Char)) :
          resolveDots ([] :: done) [] = done.reverse ++ [[]] := by
        rw [hend, List.reverse_cons]
      rw [resolveDots, passDots]
      split
      · exact ⟨[[]], rfl, hempty _⟩
      · split
        · exact ⟨[[]], rfl, hempty _⟩
        · exact ⟨[], rfl, by rw [hend, List.append_nil]; rfl⟩
    | cons next more =>
      rw [resolveDots, passDots]
      · split
        · exact ih _
        · split
          · exact ih _
          · exact ih _
      · simp

theorem filled_resolveDots (done segments : List (List Char)) :
    filled (resolveDots done segments) = (filled (passDots done segments)).reverse := by
  obtain ⟨ending, hending, heq⟩ := resolveDots_eq done segments
  simp [heq, hending]

theorem passDots_of_plain (done : List (List Char)) {segments : List (List Char)}
    (h : ∀ segment ∈ segments, isDots segment = false) :
    passDots done segments = segments.reverse ++ done := by
  induction segments generalizing done with
  | nil => rfl
  | cons segment rest ih =>
    have hsegment := h segment List.mem_cons_self
    simp only [isDots, Bool.or_eq_false_iff] at hsegment
    rw [passDots, hsegment.1, hsegment.2, List.reverse_cons, List.append_assoc]
    exact ih _ fun s hs => h s (List.mem_cons_of_mem _ hs)

theorem filled_passDots (done : List (List Char)) {segments : List (List Char)}
    (h : ∀ segment ∈ filled segments, isDots segment = false) :
    filled (passDots done segments) = (filled segments).reverse ++ filled done := by
  have hplain : ∀ segment ∈ segments, isDots segment = false := by
    intro segment hsegment
    by_cases hempty : segment = []
    · rw [hempty]
      decide
    · exact h segment (mem_filled.2 ⟨hsegment, hempty⟩)
  simp [passDots_of_plain done hplain]

theorem mem_passDots {done segments : List (List Char)} {s : List Char}
    (h : s ∈ passDots done segments) : s ∈ done ∨ s ∈ segments := by
  induction segments generalizing done with
  | nil => exact .inl h
  | cons segment rest ih =>
    rw [passDots] at h
    split at h
    · exact (ih h).imp List.mem_of_mem_drop (List.mem_cons_of_mem _)
    · split at h
      · exact (ih h).imp_right (List.mem_cons_of_mem _)
      · rcases ih h with hdone | hrest
        · rcases List.mem_cons.1 hdone with rfl | hdone
          · exact .inr List.mem_cons_self
          · exact .inl hdone
        · exact .inr (List.mem_cons_of_mem _ hrest)

/-- A segment that names something: it is neither empty nor resolved. -/
def names (segment : List Char) : Bool := !segment.isEmpty && !isDots segment

theorem countP_names (segments : List (List Char)) :
    segments.countP names = (filled segments).countP fun segment => !isDots segment := by
  rw [filled, List.countP_filter]
  exact List.countP_congr fun s _ => by rw [names, Bool.and_comm]

theorem countP_names_trim (cs : List Char) :
    (Text.pieces '/' (Text.trimStartBy isSlash cs)).countP names =
      (Text.pieces '/' cs).countP names := by
  rw [countP_names, countP_names, filled_pieces_trim]

theorem length_filled_passDots (done segments : List (List Char)) :
    (filled (passDots done segments)).length ≤ (filled done).length + segments.countP names := by
  induction segments generalizing done with
  | nil => exact Nat.le_refl _
  | cons segment rest ih =>
    have hdrop : (filled (done.drop 1)).length ≤ (filled done).length :=
      ((List.drop_sublist 1 done).filter _).length_le
    have hmore : rest.countP names ≤ (segment :: rest).countP names :=
      (List.sublist_cons_self segment rest).countP_le
    rw [passDots]
    split
    · exact Nat.le_trans (ih _) (Nat.add_le_add hdrop hmore)
    · next hdouble =>
      split
      · exact Nat.le_trans (ih _) (Nat.add_le_add_left hmore _)
      · next hdot =>
        have hrest := ih (segment :: done)
        by_cases hempty : segment = []
        · subst hempty
          rw [filled_empty_cons] at hrest
          omega
        · have hnames : names segment = true := by simp [names, isDots, hdouble, hdot, hempty]
          rw [filled_cons hempty, List.length_cons] at hrest
          rw [List.countP_cons_of_pos hnames]
          omega

end Dots

section Escaping

def wire (segment : List Char) : List Char := escapeBy inPathSet segment

theorem slash_notMem_wire {segment : List Char} (h : '/' ∉ segment) : '/' ∉ wire segment := by
  intro hmem
  rcases mem_escapeBy hmem with ⟨hc, -⟩ | hc | hc
  · exact h hc
  · cases hc
  · exact absurd hc (by decide)

theorem filled_map_wire (segments : List (List Char)) :
    filled (segments.map wire) = (filled segments).map wire := by
  have hempty (s : List Char) : (wire s).isEmpty = s.isEmpty := by
    rw [Bool.eq_iff_iff, List.isEmpty_iff, List.isEmpty_iff, wire, escapeBy_eq_nil]
  have hcomp : (fun s : List Char => !s.isEmpty) ∘ wire = fun s => !s.isEmpty :=
    funext fun s => by rw [Function.comp_apply, hempty]
  rw [filled, List.filter_map, hcomp, filled]

theorem segments_normal {segments : List (List Char)} (h : ∀ s ∈ segments, '/' ∉ s) :
    Path.segments (String.ofList ('/' :: Text.join ['/'] (segments.map wire))) =
      (filled segments).map wire := by
  have hwires : ∀ s ∈ segments.map wire, '/' ∉ s := by
    intro s hs
    obtain ⟨segment, hsegment, rfl⟩ := List.mem_map.1 hs
    exact slash_notMem_wire (h segment hsegment)
  cases segments with
  | nil => rfl
  | cons first rest =>
    have hpieces : Text.pieces '/' ('/' :: Text.join ['/'] ((first :: rest).map wire)) =
        [] :: (first :: rest).map wire := by
      rw [← List.nil_append ('/' :: _), Text.pieces_append_cons, Text.pieces_join (by simp) hwires]
      rfl
    rw [← filled_map_wire, ← filled_empty_cons, ← hpieces, Path.segments, String.toList_ofList,
      filled]

theorem slash_notMem_resolveDots {segments : List (List Char)} (h : ∀ s ∈ segments, '/' ∉ s) :
    ∀ s ∈ resolveDots [] segments, '/' ∉ s := by
  intro s hs
  obtain ⟨ending, hending, heq⟩ := resolveDots_eq [] segments
  rw [heq, List.mem_append, List.mem_reverse] at hs
  rcases hs with hs | hs
  · rcases mem_passDots hs with hs | hs
    · cases hs
    · exact h s hs
  · have hempty := List.filter_eq_nil_iff.1 hending s hs
    have hnil : s = [] := by simpa using hempty
    simp [hnil]

theorem segments_resolved {segments : List (List Char)} (h : ∀ s ∈ segments, '/' ∉ s) :
    Path.segments
        (String.ofList ('/' :: Text.join ['/'] ((resolveDots [] segments).map wire))) =
      (filled (passDots [] segments)).reverse.map wire := by
  rw [segments_normal (slash_notMem_resolveDots h), filled_resolveDots]

end Escaping

section Identifiers

theorem lowerAscii_cases (c : Char) :
    Text.lowerAscii c = c ∨
      ∃ n < 26, c = Char.ofNat (65 + n) ∧ Text.lowerAscii c = Char.ofNat (97 + n) := by
  by_cases h : 'A' ≤ c ∧ c ≤ 'Z'
  · have hlow : 65 ≤ c.toNat := UInt32.le_iff_toNat_le.1 h.1
    have hhigh : c.toNat ≤ 90 := UInt32.le_iff_toNat_le.1 h.2
    refine .inr ⟨c.toNat - 65, by omega, ?_, ?_⟩
    · rw [Nat.add_sub_cancel' hlow, Char.ofNat_toNat]
    · rw [Text.lowerAscii, if_pos h]
      congr 1
      omega
  · exact .inl (if_neg h)

theorem eq_of_lowerAscii {c d : Char} (hd : ∀ n < 26, d ≠ Char.ofNat (97 + n))
    (h : Text.lowerAscii c = d) : c = d := by
  rcases lowerAscii_cases c with heq | ⟨n, hn, -, heq⟩
  · rw [← heq, h]
  · exact absurd (h.symm.trans heq) (hd n hn)

theorem eq_e_of_lowerAscii {c : Char} (h : Text.lowerAscii c = 'e') : c = 'e' ∨ c = 'E' := by
  rcases lowerAscii_cases c with heq | ⟨n, hn, rfl, heq⟩
  · exact .inl (by rw [← heq, h])
  · have hletter : ∀ n < 26, 'e' = Char.ofNat (97 + n) → Char.ofNat (65 + n) = 'E' := by decide
    exact .inr (hletter n hn (h.symm.trans heq))

def IsDotSign (cs : List Char) : Prop :=
  cs.map Text.lowerAscii = ['.'] ∨ cs.map Text.lowerAscii = ['%', '2', 'e']

theorem decodeBytes_dotSign {cs : List Char} (h : IsDotSign cs) (rest : List Char) :
    decodeBytes (cs ++ rest) = 0x2E :: decodeBytes rest := by
  rcases h with h | h
  · obtain ⟨c, _, rfl, hc, hnil⟩ := List.map_eq_cons_iff.1 h
    cases List.map_eq_nil_iff.1 hnil
    cases eq_of_lowerAscii (by decide) hc
    exact decodeBytes_cons (by decide) rest
  · obtain ⟨a, _, rfl, ha, h⟩ := List.map_eq_cons_iff.1 h
    obtain ⟨b, _, rfl, hb, h⟩ := List.map_eq_cons_iff.1 h
    obtain ⟨c, _, rfl, hc, hnil⟩ := List.map_eq_cons_iff.1 h
    cases List.map_eq_nil_iff.1 hnil
    cases eq_of_lowerAscii (by decide) ha
    cases eq_of_lowerAscii (by decide) hb
    rcases eq_e_of_lowerAscii hc with rfl | rfl
    · rfl
    · rfl

theorem decodeBytes_of_isDots {segment : List Char} (h : isDots segment = true) :
    decodeBytes segment = [0x2E] ∨ decodeBytes segment = [0x2E, 0x2E] := by
  rcases Bool.or_eq_true_iff.1 h with h | h
  · have hsign : IsDotSign segment := by
      simpa [isDot, IsDotSign, ← String.toList_inj] using h
    have hdecode := decodeBytes_dotSign hsign []
    rw [List.append_nil] at hdecode
    exact .inl hdecode
  · have hsigns : ∃ a ∈ [['.'], ['%', '2', 'e']], ∃ b ∈ [['.'], ['%', '2', 'e']],
        segment.map Text.lowerAscii = a ++ b := by
      simpa [isDoubleDot, ← String.toList_inj, or_assoc] using h
    obtain ⟨_, ha, _, hb, hmap⟩ := hsigns
    obtain ⟨first, second, rfl, rfl, rfl⟩ := List.map_eq_append_iff.1 hmap
    replace ha : IsDotSign first := by simpa [IsDotSign] using ha
    replace hb : IsDotSign second := by simpa [IsDotSign] using hb
    have hdecode := decodeBytes_dotSign hb []
    rw [List.append_nil] at hdecode
    exact .inr (by rw [decodeBytes_dotSign ha, hdecode]; rfl)

theorem utf8_injective {cs ds : List Char} (h : utf8 cs = utf8 ds) : cs = ds := by
  have hbytes : (String.ofList cs).toByteArray = (String.ofList ds).toByteArray := by
    rw [String.toByteArray_ofList, String.toByteArray_ofList, List.utf8Encode, List.utf8Encode,
      ← utf8, ← utf8, h]
  exact String.ofList_injective (String.toByteArray_inj.1 hbytes)

theorem isDots_encodeChars {cs : List Char} :
    isDots (encodeChars cs) = true ↔ cs = ['.'] ∨ cs = ['.', '.'] := by
  constructor
  · intro h
    have hdots := decodeBytes_of_isDots h
    rw [decodeBytes_encodeChars] at hdots
    exact hdots.imp (fun h => utf8_injective h) fun h => utf8_injective h
  · rintro (rfl | rfl)
    · decide
    · decide

@[simp] theorem encodeChars_eq_nil {cs : List Char} : encodeChars cs = [] ↔ cs = [] := by
  simp [encodeChars_eq]

end Identifiers

end SwaggerProvider.Url
