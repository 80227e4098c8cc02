import SwaggerProvider.Proofs.Path.Places
import SwaggerProvider.Proofs.Url.Address

/-!
Templates whose segments are literals or single parameters, and what filling makes of them. Every
identifier becomes one segment from which it can be read back, unless it is empty or dots.
-/

set_option autoImplicit false

namespace SwaggerProvider.Path

open SwaggerProvider.Url (decodeBytes encodeChars filled isDots isPathChar names utf8 wire)

def IsLiteral (segment : List Char) : Prop := ∀ c ∈ segment, isSegmentChar c = true

def IsSlot (segment : List Char) : Prop := ∃ name, IsName name ∧ segment = braced name

/-- A path whose segments are literals or single parameters. -/
def Regular (path : String) : Prop := ∀ segment ∈ segments path, IsLiteral segment ∨ IsSlot segment

def slotName (segment : List Char) : List Char := (segment.drop 1).dropLast

theorem isSlot_iff {segment : List Char} :
    IsSlot segment ↔ IsName (slotName segment) ∧ segment = braced (slotName segment) := by
  constructor
  · rintro ⟨name, hname, rfl⟩
    have hinner : slotName (braced name) = name := List.dropLast_concat
    rw [hinner]
    exact ⟨hname, rfl⟩
  · exact fun h => ⟨_, h⟩

def isRegularSegment (segment : List Char) : Bool :=
  segment.all isSegmentChar ||
    (!(slotName segment).isEmpty && (slotName segment).all (fun c => !isDelimiter c) &&
      segment == braced (slotName segment))

theorem regular_iff {path : String} :
    (segments path).all isRegularSegment = true ↔ Regular path := by
  simp [Regular, isRegularSegment, isSlot_iff, IsName, IsLiteral]

instance : DecidablePred Regular := fun _ => decidable_of_iff _ regular_iff

/-- An identifier that stands for itself in a path; others are left out or resolved. -/
def Usable (id : String) : Prop := id ≠ "" ∧ id ≠ "." ∧ id ≠ ".."

instance : DecidablePred Usable := fun id =>
  inferInstanceAs (Decidable (id ≠ "" ∧ id ≠ "." ∧ id ≠ ".."))

section Segments

variable {segment : List Char}

theorem isSegmentChar_safe {c : Char} (h : isSegmentChar c = true) :
    isPathChar c = true ∧ (c.toNat < 0x80 → Url.inPathSet c = false) := by
  have hascii := Url.forall_ascii (P := fun d => isSegmentChar d = true →
    isPathChar d = true ∧ Url.inPathSet d = false) (by decide +kernel)
  by_cases hc : c.toNat < 0x80
  · have hsafe := hascii c hc h
    exact ⟨hsafe.1, fun _ => hsafe.2⟩
  · exact ⟨Url.isPathChar_of_le (by omega), fun hlt => absurd hlt hc⟩

theorem IsLiteral.notMem (h : IsLiteral segment) {c : Char} (hc : isSegmentChar c = false) :
    c ∉ segment := by
  intro hmem
  rw [h c hmem] at hc
  cases hc

theorem IsSlot.not_literal (h : IsSlot segment) : ¬ IsLiteral segment := by
  obtain ⟨name, -, rfl⟩ := h
  exact fun hliteral => hliteral.notMem (by decide) List.mem_cons_self

theorem IsSlot.ne_nil (h : IsSlot segment) : segment ≠ [] := by
  rintro rfl
  exact h.not_literal (by simp [IsLiteral])

theorem IsSlot.isParameter (h : IsSlot segment) : Path.isParameter segment = true := by
  obtain ⟨name, -, rfl⟩ := h
  have hlast : (braced name).getLast? = some '}' := List.getLast?_concat
  rw [Path.isParameter, hlast]
  rfl

theorem IsLiteral.decodes_wire (h : IsLiteral segment) :
    decodeBytes (wire segment) = utf8 segment := by
  refine Url.decodeBytes_escapeBy fun c hc _ => ?_
  rintro rfl
  exact h.notMem (by decide) hc

theorem IsLiteral.wire_eq (h : IsLiteral segment) (hascii : ∀ c ∈ segment, c.toNat < 0x80) :
    wire segment = segment :=
  Url.escapeBy_of_safe fun c hc => (isSegmentChar_safe (h c hc)).2 (hascii c hc)

theorem IsLiteral.not_dots (h : IsLiteral segment) : isDots segment = false := by
  refine Bool.eq_false_iff.2 fun hdots => ?_
  have hdot : '.' ∉ segment := h.notMem (by decide)
  have hdecode : decodeBytes segment = utf8 segment := by
    have hescape : decodeBytes (Url.escapeBy (fun _ => false) segment) = utf8 segment := by
      refine Url.decodeBytes_escapeBy fun c hc _ => ?_
      rintro rfl
      exact h.notMem (by decide) hc
    rwa [Url.escapeBy_of_safe fun _ _ => rfl] at hescape
  have hsame : segment = ['.'] ∨ segment = ['.', '.'] := by
    have hbytes := Url.decodeBytes_of_isDots hdots
    rw [hdecode] at hbytes
    exact hbytes.imp (fun h => Url.utf8_injective h) fun h => Url.utf8_injective h
  rcases hsame with rfl | rfl
  · exact hdot List.mem_cons_self
  · exact hdot List.mem_cons_self

end Segments

/-- The segments of a request for those of a template: literals, and identifiers that can be decoded
in the place of the parameters. -/
inductive Carries : List (List Char) → List String → List (List Char) → Prop where
  | nil : Carries [] [] []
  | literal {segment sent : List Char} {template more : List (List Char)} {ids : List String}
    (plain : IsLiteral segment) (decodes : decodeBytes sent = utf8 segment)
    (same : (∀ c ∈ segment, c.toNat < 0x80) → sent = segment) (rest : Carries template ids more) :
    Carries (segment :: template) ids (sent :: more)
  | slot {segment sent : List Char} {id : String} {template more : List (List Char)}
    {ids : List String} (slot : IsSlot segment) (decodes : decodeBytes sent = utf8 id.toList)
    (rest : Carries template ids more) : Carries (segment :: template) (id :: ids) (sent :: more)

namespace Carries

variable {template sent : List (List Char)} {ids others : List String}

theorem length_eq (h : Carries template ids sent) : sent.length = template.length := by
  induction h with
  | nil => rfl
  | literal _ _ _ _ ih => simp [ih]
  | slot _ _ _ ih => simp [ih]

theorem ids_eq (h : Carries template ids sent) (h' : Carries template others sent) :
    ids = others := by
  induction h generalizing others with
  | nil =>
    cases h'
    rfl
  | literal plain _ _ _ ih =>
    cases h' with
    | literal _ _ _ rest => exact ih rest
    | slot slot _ _ => exact absurd plain slot.not_literal
  | slot slot decodes _ ih =>
    cases h' with
    | literal plain _ _ _ => exact absurd plain slot.not_literal
    | slot _ decodes' rest =>
      rw [ih rest, String.toList_inj.1 (Url.utf8_injective (decodes.symm.trans decodes'))]

end Carries

inductive Filling : List (List Char) → List String → List (List Char) → Prop where
  | nil : Filling [] [] []
  | literal {segment : List Char} {template sent : List (List Char)} {ids : List String}
    (plain : IsLiteral segment) (rest : Filling template ids sent) :
    Filling (segment :: template) ids (segment :: sent)
  | slot {segment : List Char} {id : String} {template sent : List (List Char)}
    {ids : List String} (slot : IsSlot segment) (rest : Filling template ids sent) :
    Filling (segment :: template) (id :: ids) (encodeChars id.toList :: sent)

section Fill

variable {segment : List Char} {template sent : List (List Char)} {ids : List String}

theorem fillPieces_literals (cs : List Char) (rest : List Piece) (ids : List String) :
    fillPieces (literals cs ++ rest) ids = cs ++ fillPieces rest ids := by
  induction cs with
  | nil => rfl
  | cons c cs ih => exact congrArg (c :: ·) ih

theorem pieces_follow_literal (h : IsLiteral segment) (rest : List Char) :
    pieces ('/' :: segment ++ rest) = .literal '/' :: (literals segment ++ pieces rest) := by
  rw [List.cons_append, pieces_cons (by decide), pieces_append (h.notMem (by decide))]

theorem pieces_follow_slot {name : List Char} (h : IsName name) (rest : List Char) :
    pieces ('/' :: braced name ++ rest) = .literal '/' :: .parameter name :: pieces rest := by
  rw [List.cons_append, pieces_cons (by decide), pieces_braced h]

theorem Filling.fillPieces_eq (h : Filling template ids sent) :
    fillPieces (pieces (template.flatMap ('/' :: ·))) ids = sent.flatMap ('/' :: ·) := by
  induction h with
  | nil => rfl
  | literal plain rest ih =>
    rw [List.flatMap_cons, List.flatMap_cons, pieces_follow_literal plain, fillPieces,
      fillPieces_literals, ih, List.cons_append]
  | slot slot rest ih =>
    obtain ⟨name, hname, rfl⟩ := slot
    rw [List.flatMap_cons, List.flatMap_cons, pieces_follow_slot hname, fillPieces, fillPieces, ih,
      List.cons_append]

theorem exists_filling (h : ∀ segment ∈ template, IsLiteral segment ∨ IsSlot segment)
    (hcount :
      ((pieces (template.flatMap ('/' :: ·))).filter Piece.isParameter).length = ids.length) :
    ∃ sent, Filling template ids sent := by
  have hliteral (cs : List Char) (rest : List Piece) :
      (literals cs ++ rest).filter Piece.isParameter = rest.filter Piece.isParameter := by
    rw [List.filter_append, List.filter_eq_nil_iff.2 (by simp [literals, Piece.isParameter]),
      List.nil_append]
  induction template generalizing ids with
  | nil =>
    cases List.eq_nil_of_length_eq_zero hcount.symm
    exact ⟨[], .nil⟩
  | cons segment rest ih =>
    have hrest := fun s hs => h s (List.mem_cons_of_mem _ hs)
    rw [List.flatMap_cons] at hcount
    rcases h segment List.mem_cons_self with plain | ⟨name, hname, rfl⟩
    · rw [pieces_follow_literal plain, List.filter_cons_of_neg (by simp [Piece.isParameter]),
        hliteral] at hcount
      obtain ⟨sent, hsent⟩ := ih hrest hcount
      exact ⟨_, .literal plain hsent⟩
    · rw [pieces_follow_slot hname, List.filter_cons_of_neg (by simp [Piece.isParameter]),
        List.filter_cons_of_pos rfl, List.length_cons] at hcount
      cases ids with
      | nil => cases hcount
      | cons id ids =>
        obtain ⟨sent, hsent⟩ := ih hrest (Nat.succ.inj hcount)
        exact ⟨_, .slot ⟨name, hname, rfl⟩ hsent⟩

theorem Filling.chars (h : Filling template ids sent) :
    ∀ segment ∈ sent, '/' ∉ segment ∧ ∀ c ∈ segment, isPathChar c = true := by
  induction h with
  | nil => simp
  | literal plain _ ih =>
    exact List.forall_mem_cons.2
      ⟨⟨plain.notMem (by decide), fun c hc => (isSegmentChar_safe (plain c hc)).1⟩, ih⟩
  | slot _ _ ih =>
    refine List.forall_mem_cons.2 ⟨⟨fun hslash => ?_, fun c hc => (Url.encodeChars_safe hc).1⟩, ih⟩
    rcases Url.mem_encodeChars hslash with hslash | hslash
    · cases hslash
    · cases hslash

theorem fill_eq_ok {path text : String} (hregular : Regular path) (h : fill path ids = .ok text) :
    Filling (Text.pieces '/' path.toList) ids (Text.pieces '/' text.toList) := by
  have hslash : (Text.pieces '/' path.toList).flatMap ('/' :: ·) = '/' :: path.toList := by
    rw [← Text.cons_join _ (Text.pieces_ne_nil _ _), Text.join_pieces]
  have hmore : pieces ('/' :: path.toList) = .literal '/' :: pieces path.toList :=
    pieces_cons (by decide) _
  have hsegments : ∀ segment ∈ Text.pieces '/' path.toList, IsLiteral segment ∨ IsSlot segment := by
    intro segment hsegment
    by_cases hempty : segment = []
    · exact .inl (by simp [IsLiteral, hempty])
    · exact hregular segment (Url.mem_filled.2 ⟨hsegment, hempty⟩)
  unfold fill at h
  dsimp only at h
  split at h
  · next hcount =>
    cases h
    have hparameters : ((pieces ((Text.pieces '/' path.toList).flatMap ('/' :: ·))).filter
        Piece.isParameter).length = ids.length := by
      rw [hslash, hmore, List.filter_cons_of_neg (by simp [Piece.isParameter])]
      exact hcount
    obtain ⟨sent, hsent⟩ := exists_filling hsegments hparameters
    have hfill := hsent.fillPieces_eq
    rw [hslash, hmore, fillPieces] at hfill
    have hne : sent ≠ [] := by
      rintro rfl
      cases hfill
    rw [← Text.cons_join _ hne] at hfill
    have htext : fillPieces (templatePieces path) ids = Text.join ['/'] sent :=
      (List.cons.inj hfill).2
    rw [String.toList_ofList, htext, Text.pieces_join hne fun s hs => (hsent.chars s hs).1]
    exact hsent
  · cases h

end Fill

namespace Filling

variable {template sent : List (List Char)} {ids : List String}

theorem mem_of_literal (h : Filling template ids sent) {segment : List Char}
    (hsegment : segment ∈ template) (hliteral : IsLiteral segment) : segment ∈ sent := by
  induction h with
  | nil => cases hsegment
  | literal _ _ ih =>
    rcases List.mem_cons.1 hsegment with rfl | hsegment
    · exact List.mem_cons_self
    · exact List.mem_cons_of_mem _ (ih hsegment)
  | slot slot _ ih =>
    rcases List.mem_cons.1 hsegment with rfl | hsegment
    · exact absurd hliteral slot.not_literal
    · exact List.mem_cons_of_mem _ (ih hsegment)

theorem names_encodeChars (id : String) : names (encodeChars id.toList) = true ↔ Usable id := by
  have hdots : isDots (encodeChars id.toList) = false ↔ id ≠ "." ∧ id ≠ ".." := by
    rw [Bool.eq_false_iff, Ne, Url.isDots_encodeChars, not_or]
    simp only [Ne, ← String.toList_inj]
    rfl
  have hempty : (encodeChars id.toList).isEmpty = false ↔ id ≠ "" := by
    rw [Bool.eq_false_iff, Ne, List.isEmpty_iff, Url.encodeChars_eq_nil, Ne, ← String.toList_inj]
    rfl
  rw [names, Bool.and_eq_true, Bool.not_eq_true', Bool.not_eq_true', hdots, hempty]
  rfl

/-- Every identifier that cannot be used takes a segment from the request. -/
theorem accounting (h : Filling template ids sent) :
    sent.countP names + ids.countP (fun id => ¬ Usable id) = (filled template).length := by
  induction h with
  | nil => rfl
  | @literal segment template sent ids plain rest ih =>
    by_cases hempty : segment = []
    · rw [hempty]
      exact ih
    · have hnames : names segment = true := by simp [names, plain.not_dots, hempty]
      rw [List.countP_cons_of_pos hnames, Url.filled_cons hempty, List.length_cons]
      omega
  | @slot segment id template sent ids slot rest ih =>
    rw [Url.filled_cons slot.ne_nil, List.length_cons]
    by_cases husable : Usable id
    · rw [List.countP_cons_of_pos ((names_encodeChars id).2 husable),
        List.countP_cons_of_neg (by simpa using husable)]
      omega
    · rw [List.countP_cons_of_neg (fun hnames => husable ((names_encodeChars id).1 hnames)),
        List.countP_cons_of_pos (by simpa using husable)]
      omega

theorem wire_encodeChars (cs : List Char) : wire (encodeChars cs) = encodeChars cs :=
  Url.escapeBy_of_safe fun _ hc => (Url.encodeChars_safe hc).2

theorem carries (h : Filling template ids sent) (husable : ∀ id ∈ ids, Usable id) :
    Carries (filled template) ids ((filled sent).map wire) := by
  induction h with
  | nil => exact .nil
  | @literal segment template sent ids plain rest ih =>
    by_cases hempty : segment = []
    · rw [hempty]
      exact ih husable
    · rw [Url.filled_cons hempty, Url.filled_cons hempty]
      exact .literal plain plain.decodes_wire plain.wire_eq (ih husable)
  | @slot segment id template sent ids slot rest ih =>
    obtain ⟨hid, hids⟩ := List.forall_mem_cons.1 husable
    have hencoded : encodeChars id.toList ≠ [] := fun hempty =>
      hid.1 (String.toList_inj.1 (Url.encodeChars_eq_nil.1 hempty))
    rw [Url.filled_cons slot.ne_nil, Url.filled_cons hencoded, List.map_cons, wire_encodeChars]
    exact .slot slot (Url.decodeBytes_encodeChars _) (ih hids)

theorem not_dots (h : Filling template ids sent) (husable : ∀ id ∈ ids, Usable id) :
    ∀ segment ∈ sent, isDots segment = false := by
  induction h with
  | nil => simp
  | literal plain _ ih => exact List.forall_mem_cons.2 ⟨plain.not_dots, ih husable⟩
  | slot _ _ ih =>
    obtain ⟨hid, hids⟩ := List.forall_mem_cons.1 husable
    have hnames := (names_encodeChars _).2 hid
    have hdots := (Bool.and_eq_true_iff.1 hnames).2
    exact List.forall_mem_cons.2 ⟨by simpa using hdots, ih hids⟩

section Trimmed

variable {cs : List Char}

theorem trim_ne_nil (h : Filling template ids (Text.pieces '/' cs)) {segment : List Char}
    (hsegment : segment ∈ filled template) (hliteral : IsLiteral segment) :
    Text.trimStartBy Url.isSlash cs ≠ [] := by
  intro hempty
  obtain ⟨hmem, hfull⟩ := Url.mem_filled.1 hsegment
  have hleft := Url.mem_filled.2 ⟨h.mem_of_literal hmem hliteral, hfull⟩
  rw [← Url.filled_pieces_trim, hempty] at hleft
  cases hleft

theorem trim_chars (h : Filling template ids (Text.pieces '/' cs)) :
    ∀ c ∈ Text.trimStartBy Url.isSlash cs, isPathChar c = true := by
  intro c hc
  rcases Text.mem_pieces '/' ((List.dropWhile_sublist _).subset hc) with rfl | ⟨piece, hpiece, hc⟩
  · decide
  · exact (h.chars piece hpiece).2 c hc

theorem trim_not_dots (h : Filling template ids (Text.pieces '/' cs))
    (husable : ∀ id ∈ ids, Usable id) :
    ∀ segment ∈ filled (Text.pieces '/' (Text.trimStartBy Url.isSlash cs)),
      isDots segment = false := by
  intro segment hsegment
  rw [Url.filled_pieces_trim] at hsegment
  exact h.not_dots husable segment (Url.mem_filled.1 hsegment).1

end Trimmed

end Filling

end SwaggerProvider.Path
