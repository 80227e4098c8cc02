import SwaggerProvider.Proofs.Outcome
import SwaggerProvider.Proofs.Url.Segments

/-!
A path behind the address of an API. If the address is a URL that has neither a query nor a
fragment, then so is the address with a path behind it: it has the same authority, and the segments
of the path follow those of the address.
-/

set_option autoImplicit false

namespace SwaggerProvider.Url

section Significant

def isKept (c : Char) : Bool := c ≠ '\t' ∧ c ≠ '\n' ∧ c ≠ '\r'

theorem trimBy_of_ends {p : Char → Bool} {cs : List Char} (hhead : ∀ c ∈ cs.head?, p c = false)
    (hlast : ∀ c ∈ cs.getLast?, p c = false) : Text.trimBy p cs = cs := by
  have hdrop {ds : List Char} (h : ∀ c ∈ ds.head?, p c = false) : ds.dropWhile p = ds := by
    cases ds with
    | nil => rfl
    | cons d rest => rw [List.dropWhile_cons_of_neg (by simp [h d rfl])]
  have hreverse : cs.reverse.dropWhile p = cs.reverse := hdrop (by simpa using hlast)
  rw [Text.trimBy, Text.trimEndBy, Text.trimStartBy, hdrop hhead, hreverse, List.reverse_reverse]

def isPathChar (c : Char) : Bool := 0x20 < c.toNat && c != '?' && c != '#' && c != '\\'

theorem isKept_of_isPathChar {c : Char} (h : isPathChar c = true) : isKept c = true := by
  by_contra hnot
  have hcontrol : c = '\t' ∨ c = '\n' ∨ c = '\r' := by
    by_contra hother
    simp only [not_or] at hother
    exact hnot (by simpa [isKept] using hother)
  rcases hcontrol with rfl | rfl | rfl <;> exact absurd h (by decide)

theorem isPathChar_of_le {c : Char} (h : 0x80 ≤ c.toNat) : isPathChar c = true := by
  have hne (d : Char) (hd : d.toNat < 0x80) : c ≠ d := by
    rintro rfl
    omega
  simp only [isPathChar, Bool.and_eq_true, decide_eq_true_eq, bne_iff_ne]
  exact ⟨⟨⟨by omega, hne _ (by decide)⟩, hne _ (by decide)⟩, hne _ (by decide)⟩

theorem encodeChars_safe {cs : List Char} {c : Char} (h : c ∈ encodeChars cs) :
    isPathChar c = true ∧ inPathSet c = false := by
  have hascii := forall_ascii (P := fun d => d = '%' ∨ isUnreserved d = true →
    isPathChar d = true ∧ inPathSet d = false) (by decide)
  have hc := mem_encodeChars h
  have hlt : c.toNat < 0x80 := by
    rcases hc with rfl | hc
    · decide
    · exact toNat_lt_of_isUnreserved hc
  exact hascii c hlt hc

variable {path : List Char}

theorem filter_isKept (h : ∀ c ∈ path, isPathChar c = true) : path.filter isKept = path :=
  List.filter_eq_self.2 fun c hc => isKept_of_isPathChar (h c hc)

theorem significant_append (first : Char) (hfirst : 0x20 < first.toNat) (front : List Char)
    (hpath : path ≠ []) (h : ∀ c ∈ path, isPathChar c = true) :
    significant (String.ofList (first :: front ++ path)) =
      (first :: front).filter isKept ++ path := by
  have hlast : ∀ c ∈ (first :: front ++ path).getLast?, decide (c.toNat ≤ 0x20) = false := by
    intro c hc
    rw [List.getLast?_append_of_ne_nil _ hpath] at hc
    have hchar := h c (List.mem_of_getLast? hc)
    simp only [isPathChar, Bool.and_eq_true, decide_eq_true_eq] at hchar
    simp only [decide_eq_false_iff_not]
    omega
  have hhead : ∀ c ∈ (first :: front ++ path).head?, decide (c.toNat ≤ 0x20) = false := by
    intro c hc
    cases hc
    simp only [decide_eq_false_iff_not]
    omega
  rw [significant, String.toList_ofList, trimBy_of_ends hhead hlast]
  change List.filter isKept _ = _
  rw [List.filter_append, filter_isKept h]

end Significant

def IsWeb (scheme : String) : Prop := scheme = "http" ∨ scheme = "https"

theorem IsWeb.special {scheme : String} (h : IsWeb scheme) : isSpecial scheme = true := by
  rcases h with rfl | rfl <;> decide

def addressed (scheme : String) (address path : List Char) : String :=
  String.ofList (scheme.toList ++ "://".toList ++ address ++ path)

theorem parse_addressed {scheme : String} (hscheme : IsWeb scheme) (address : List Char)
    {path : List Char} (hpath : path ≠ []) (h : ∀ c ∈ path, isPathChar c = true) :
    parse (addressed scheme address path) =
      withAuthority scheme (dropSlashes true (address.filter isKept ++ path)) := by
  have hletters : ∃ more, scheme.toList = 'h' :: more ∧ more.filter isKept = more := by
    rcases hscheme with rfl | rfl <;> exact ⟨_, rfl, by decide⟩
  have hsignificant : significant (addressed scheme address path) =
      scheme.toList ++ ':' :: ('/' :: '/' :: (address.filter isKept ++ path)) := by
    obtain ⟨more, hmore, hkept⟩ := hletters
    have happend := significant_append 'h' (by decide) (more ++ "://".toList ++ address) hpath h
    have hmarks : "://".toList.filter isKept = "://".toList := by decide
    rw [List.filter_cons_of_pos (by decide), List.filter_append, List.filter_append, hkept,
      hmarks] at happend
    rw [addressed, hmore]
    simpa using happend
  have hread (rest : List Char) : scheme? (scheme.toList ++ ':' :: rest) = some (scheme, rest) := by
    rcases hscheme with rfl | rfl
    · rw [scheme?, Text.cut?_append (by decide)]
      rfl
    · rw [scheme?, Text.cut?_append (by decide)]
      rfl
  have hport : (defaultPort? scheme).isSome = true := by
    rcases hscheme with rfl | rfl <;> rfl
  have hslashes (rest : List Char) :
      dropSlashes true ('/' :: '/' :: rest) = dropSlashes true rest := rfl
  rw [parse, hsignificant, hread]
  dsimp only
  rw [if_pos hport, hslashes]

section Authority

/-- The user information, the host and the port that an authority gives. -/
def site (scheme : String) (authority : List Char) :
    Except UrlFault (String × Option String × Option Nat) := do
  let special := isSpecial scheme
  let (user, address) := cutUserInfo authority
  let (name, digits) := cutPort address
  if special && name.isEmpty && scheme != "file" then throw .emptyHost
  let host ←
    if name.isEmpty then .ok none
    else if special then
      (normalHost name).map fun h => if scheme == "file" && h == "localhost" then none else some h
    else .ok (some (String.ofList (escapeBy isControl name)))
  let port ← port? scheme digits
  return (userInfoText user, host, port)

theorem drop_length_takeWhile (p : Char → Bool) (cs : List Char) :
    cs.drop (cs.takeWhile p).length = cs.dropWhile p := by
  induction cs with
  | nil => rfl
  | cons c rest ih => by_cases h : p c <;> simp [h, ih]

theorem withAuthority_eq (scheme : String) (cs : List Char) :
    withAuthority scheme cs = (site scheme ((cutTail cs).path.takeWhile fun c =>
        !isPathSlash (isSpecial scheme) c)).map fun s =>
      let special := isSpecial scheme
      let path := (cutTail cs).path.dropWhile fun c => !isPathSlash special c
      finish scheme s.1 s.2.1 s.2.2
        (if path.isEmpty && !special then [] else normalPath special path) (cutTail cs) := by
  unfold withAuthority site
  simp only [drop_length_takeWhile]
  rcases cutUserInfo _ with ⟨user, address⟩
  dsimp only
  rcases cutPort address with ⟨name, digits⟩
  dsimp only
  split
  · rfl
  · split
    · cases port? scheme digits <;> rfl
    · split
      · cases normalHost name with
        | error e => rfl
        | ok host => cases port? scheme digits <;> rfl
      · cases port? scheme digits <;> rfl

theorem cut?_eq_none_iff {separator : Char} {cs : List Char} :
    Text.cut? separator cs = none ↔ separator ∉ cs := by
  constructor
  · intro h hmem
    obtain ⟨before, after, rfl, hbefore⟩ := List.eq_append_cons_of_mem hmem
    rw [Text.cut?_append hbefore] at h
    cases h
  · intro h
    cases hcut : Text.cut? separator cs with
    | none => rfl
    | some parts =>
      refine absurd ?_ h
      rw [Text.eq_of_cut? hcut]
      simp

theorem cutTail_iff {cs : List Char} :
    (cutTail cs).query = none ∧ (cutTail cs).fragment = none ↔ '#' ∉ cs ∧ '?' ∉ cs := by
  unfold cutTail
  cases hhash : Text.cut? '#' cs with
  | none =>
    rw [cut?_eq_none_iff] at hhash
    dsimp only
    cases hmark : Text.cut? '?' cs with
    | none => simp [hhash, cut?_eq_none_iff.1 hmark]
    | some parts =>
      have hmem : '?' ∈ cs := by
        rw [Text.eq_of_cut? hmark]
        simp
      simp [hmem]
  | some parts =>
    have hmem : '#' ∈ cs := by
      rw [Text.eq_of_cut? hhash]
      simp
    simp only [hmem, not_true_eq_false, false_and, iff_false]
    split <;> simp

theorem cutTail_of_plain {cs : List Char} (hhash : '#' ∉ cs) (hmark : '?' ∉ cs) :
    cutTail cs = ⟨cs, none, none⟩ := by
  rw [cutTail, cut?_eq_none_iff.2 hhash]
  dsimp only
  rw [cut?_eq_none_iff.2 hmark]

section Stop

variable {p : Char → Bool} {c : Char}

theorem takeWhile_stop (h : p c = false) (front rest : List Char) :
    (front ++ c :: rest).takeWhile p = front.takeWhile p := by
  induction front with
  | nil => simp [h]
  | cons d front ih => by_cases hd : p d <;> simp [hd, ih]

theorem dropWhile_stop (h : p c = false) (front rest : List Char) :
    (front ++ c :: rest).dropWhile p = front.dropWhile p ++ c :: rest := by
  induction front with
  | nil => simp [h]
  | cons d front ih => by_cases hd : p d <;> simp [hd, ih]

end Stop

end Authority

section Behind

/-- The segments of a path that begins with a slash, with no regard to dots. -/
def rawSegments : List Char → List (List Char)
  | [] => []
  | _ :: rest => splitSegments true rest

theorem splitSegments_of_path {path : List Char} (h : ∀ c ∈ path, isPathChar c = true) :
    splitSegments true path = Text.pieces '/' path := by
  have hsame : ∀ c ∈ path, (if isPathSlash true c then '/' else c) = c := by
    intro c hc
    have hchar := h c hc
    simp only [isPathChar, Bool.and_eq_true, bne_iff_ne] at hchar
    split
    · next hslash => exact (by simpa [isPathSlash, hchar.2] using hslash : c = '/').symm
    · rfl
  rw [splitSegments, List.map_congr_left hsame, List.map_id']

@[simp] theorem splitSegments_append (front rest : List Char) :
    splitSegments true (front ++ '/' :: rest) =
      splitSegments true front ++ splitSegments true rest := by
  rw [splitSegments, List.map_append, List.map_cons]
  exact Text.pieces_append_cons _ _

/-- The segments of what stands behind a path follow those of the path. -/
theorem normalPath_append {front path : List Char}
    (hfront : ∀ c ∈ front.head?, isPathSlash true c = true)
    (h : ∀ c ∈ path, isPathChar c = true) :
    normalPath true (front ++ '/' :: path) = '/' :: Text.join ['/']
      ((resolveDots [] (rawSegments front ++ Text.pieces '/' path)).map wire) := by
  rw [← splitSegments_of_path h]
  cases front with
  | nil => rfl
  | cons c rest =>
    have hbody : normalPath true (c :: rest ++ '/' :: path) = '/' :: Text.join ['/']
        ((resolveDots [] (splitSegments true (if isPathSlash true c then rest ++ '/' :: path
          else c :: rest ++ '/' :: path))).map wire) := rfl
    rw [hbody, if_pos (hfront c rfl), splitSegments_append]
    rfl

theorem slash_notMem_rawSegments (front : List Char) : ∀ s ∈ rawSegments front, '/' ∉ s := by
  cases front with
  | nil => simp [rawSegments]
  | cons c rest => exact fun s hs => Text.notMem_of_mem_pieces hs

def behind (above path : List Char) : String :=
  String.ofList ('/' :: Text.join ['/']
    ((resolveDots [] (rawSegments above ++ Text.pieces '/' path)).map wire))

theorem segments_behind (above path : List Char) :
    Path.segments (behind above path) =
      (filled (passDots (passDots [] (rawSegments above)) (Text.pieces '/' path))).reverse.map
        wire := by
  have hslash : ∀ s ∈ rawSegments above ++ Text.pieces '/' path, '/' ∉ s := by
    intro s hs
    rcases List.mem_append.1 hs with hs | hs
    · exact slash_notMem_rawSegments above s hs
    · exact Text.notMem_of_mem_pieces hs
  rw [behind, segments_resolved hslash, passDots_append]

variable {scheme : String} {front address path : List Char} {root : Url}

theorem withAuthority_behind (hscheme : IsWeb scheme) (hhash : '#' ∉ front) (hmark : '?' ∉ front)
    (h : ∀ c ∈ path, isPathChar c = true) :
    withAuthority scheme (front ++ '/' :: path) =
      (site scheme (front.takeWhile fun c => !isPathSlash true c)).map fun s =>
        ⟨scheme, s.1, s.2.1, s.2.2, behind (front.dropWhile fun c => !isPathSlash true c) path,
          none, none⟩ := by
  have hpath : '#' ∉ path ∧ '?' ∉ path :=
    ⟨fun hmem => absurd (h _ hmem) (by decide), fun hmem => absurd (h _ hmem) (by decide)⟩
  have hhead : ∀ c ∈ (front.dropWhile fun c => !isPathSlash true c).head?,
      isPathSlash true c = true := by
    intro c hc
    have hstop := List.head?_dropWhile_not (fun c => !isPathSlash true c) front
    rw [hc] at hstop
    simpa using hstop
  have hnormal := normalPath_append hhead h
  rw [withAuthority_eq, cutTail_of_plain (by simp [hhash, hpath.1]) (by simp [hmark, hpath.2]),
    hscheme.special]
  dsimp only
  rw [takeWhile_stop (by decide), dropWhile_stop (by decide), hnormal]
  simp only [Bool.not_true, Bool.and_false, Bool.false_eq_true, if_false]
  rfl

structure Site (scheme : String) (address : List Char) (root : Url) (done : List (List Char)) :
    Prop where
  segments : Path.segments root.path = (filled done).reverse.map wire
  behind : ∀ path, (∀ c ∈ path, isPathChar c = true) → ∃ text,
    parse (addressed scheme address ('/' :: path)) = .ok { root with path := text } ∧
    Path.segments text = (filled (passDots done (Text.pieces '/' path))).reverse.map wire

theorem isPathChar_cons (h : ∀ c ∈ path, isPathChar c = true) :
    ∀ c ∈ '/' :: path, isPathChar c = true := by
  intro c hc
  rcases List.mem_cons.1 hc with rfl | hc
  · decide
  · exact h c hc

theorem marks_of_withAuthority {cs : List Char} (h : withAuthority scheme cs = .ok root)
    (hquery : root.query = none) (hfragment : root.fragment = none) : '#' ∉ cs ∧ '?' ∉ cs := by
  rw [withAuthority_eq] at h
  obtain ⟨place, -, rfl⟩ := Except.map_eq_ok.1 h
  exact cutTail_iff.1 ⟨Option.map_eq_none_iff.1 hquery, Option.map_eq_none_iff.1 hfragment⟩

theorem exists_site (hscheme : IsWeb scheme)
    (hroot : parse (addressed scheme address ['/']) = .ok root) (hquery : root.query = none)
    (hfragment : root.fragment = none) : ∃ done, Site scheme address root done := by
  have hparse (path : List Char) (h : ∀ c ∈ path, isPathChar c = true) :=
    parse_addressed hscheme address (List.cons_ne_nil '/' path) (isPathChar_cons h)
  rw [hparse [] (by simp)] at hroot
  generalize address.filter isKept = kept at hparse hroot
  have hfront : dropSlashes true kept ≠ [] := by
    intro hempty
    have hnothing : dropSlashes true (kept ++ ['/']) = [] := by
      rw [dropSlashes] at hempty ⊢
      rw [List.dropWhile_append, hempty]
      decide
    rw [hnothing] at hroot
    rcases hscheme with rfl | rfl <;> cases hroot
  have hdrop (path : List Char) :
      dropSlashes true (kept ++ path) = dropSlashes true kept ++ path := by
    rw [dropSlashes] at hfront ⊢
    rw [List.dropWhile_append, if_neg (by simpa using hfront)]
  simp only [hdrop] at hparse hroot
  generalize dropSlashes true kept = front at hparse hroot
  obtain ⟨hhash, hmark⟩ := marks_of_withAuthority hroot hquery hfragment
  simp only [List.mem_append, not_or] at hhash hmark
  have hbehind {path : List Char} (h : ∀ c ∈ path, isPathChar c = true) :=
    withAuthority_behind hscheme hhash.1 hmark.1 h
  rw [hbehind (by simp)] at hroot
  obtain ⟨place, hplace, rfl⟩ := Except.map_eq_ok.1 hroot
  refine ⟨passDots [] (rawSegments (front.dropWhile fun c => !isPathSlash true c)), ?_, ?_⟩
  · exact segments_behind _ []
  · intro path h
    refine ⟨_, ?_, segments_behind _ path⟩
    rw [hparse path h, hbehind h, hplace]
    rfl

end Behind

section Join

def apiAddress (host base : String) : List Char :=
  Text.trimEndBy isSlash host.toList ++ slashed (Text.trimBy isSlash base.toList)

theorem join_eq_addressed (scheme host base : String) {path : String}
    (h : Text.trimStartBy isSlash path.toList ≠ []) :
    join scheme host base path =
      addressed scheme (apiAddress host base) ('/' :: Text.trimStartBy isSlash path.toList) := by
  have hslashed : slashed (Text.trimStartBy isSlash path.toList) =
      '/' :: Text.trimStartBy isSlash path.toList := if_neg (by simpa using h)
  simp [join, addressed, apiAddress, hslashed]

@[simp] theorem join_empty (scheme host base : String) :
    join scheme host base "" ++ "/" = addressed scheme (apiAddress host base) ['/'] := by
  rw [← String.toList_inj]
  simp [join, addressed, apiAddress, slashed, Text.trimStartBy]

end Join

end SwaggerProvider.Url
