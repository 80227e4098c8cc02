import SwaggerProvider.Config.Provider
import SwaggerProvider.Proofs.Outcome

/-!
Endpoints of an accepted configuration, and the text that stands for them. Every endpoint is a line
of its own, a name and a host. A host has no equals sign and neither of them breaks the line, so the
text tells the endpoints.
-/

set_option autoImplicit false

namespace SwaggerProvider

namespace Endpoint

def isHostChar (c : Char) : Bool :=
  Text.isAsciiAlnum c || c == '-' || c == '.' || c == ':' || Text.isDigit c

theorem isHostChar_of_isLabel {cs : List Char} (h : isLabel cs = true) :
    ∀ c ∈ cs, isHostChar c = true := by
  intro c hc
  simp only [isLabel, Bool.and_eq_true, List.all_eq_true] at h
  have hchar := h.1.1.2 c hc
  unfold isHostChar
  rw [hchar]
  simp

theorem isHostChar_of_isName {cs : List Char} (h : isName cs = true) :
    ∀ c ∈ cs, isHostChar c = true := by
  intro c hc
  rcases Text.mem_pieces '.' hc with rfl | ⟨piece, hpiece, hmem⟩
  · decide
  · have hlabel := List.all_eq_true.1 h piece hpiece
    exact isHostChar_of_isLabel hlabel c hmem

theorem isHostChar_of_isValid {cs : List Char} (h : isValid cs = true) :
    ∀ c ∈ cs, isHostChar c = true := by
  unfold isValid at h
  cases hcut : Text.cut? ':' cs with
  | none =>
    rw [hcut] at h
    exact isHostChar_of_isName h
  | some parts =>
    obtain ⟨name, port⟩ := parts
    rw [hcut] at h
    simp only [isPort, Bool.and_eq_true, List.all_eq_true] at h
    obtain ⟨hname, -, hport⟩ := h
    intro c hc
    rw [Text.eq_of_cut? hcut] at hc
    rcases List.mem_append.1 hc with hc | hc
    · exact isHostChar_of_isName hname c hc
    · rcases List.mem_cons.1 hc with rfl | hc
      · decide
      · simp [isHostChar, hport c hc]

theorem isHostChar_of_check {endpoint : String} (h : check endpoint = .ok ()) :
    ∀ c ∈ endpoint.toList, isHostChar c = true := by
  unfold check at h
  dsimp only at h
  split at h
  · cases h
  · split at h
    · next hvalid => exact isHostChar_of_isValid hvalid
    · cases h

end Endpoint

namespace Configuration

variable {values : Members} {a : Analysis}

theorem ofValues_eq_ok {c : Configuration} (h : ofValues values a = .ok c) :
    ∃ security endpoints, readSecurity values a.security a.security.definitions.values =
        .ok security ∧
      readEndpoints a (givenEndpoints values) = .ok endpoints ∧
      readRegion values a.backend = .ok c.region ∧ c.security = Table.sorted security ∧
      c.headers = Table.sorted (readHeaders values a.headers) ∧
      c.endpoints = Table.sorted endpoints := by
  obtain ⟨security, hsecurity, h⟩ := Except.bind_eq_ok.1 h
  obtain ⟨endpoints, hendpoints, h⟩ := Except.bind_eq_ok.1 h
  obtain ⟨region, hregion, h⟩ := Except.bind_eq_ok.1 h
  cases h
  exact ⟨security, endpoints, hsecurity, hendpoints, hregion, rfl, rfl, rfl⟩

theorem readEndpoints_eq_ok {entries found : List (String × String)}
    (h : readEndpoints a entries = .ok found) :
    found = (entries.filter fun e => isResource a e.1) ∧
      ∀ e ∈ entries, Endpoint.check e.2 = .ok () := by
  induction entries generalizing found with
  | nil =>
    cases h
    simp
  | cons e rest ih =>
    obtain ⟨name, host⟩ := e
    obtain ⟨_, hcheck, h⟩ := Except.bind_eq_ok.1 h
    obtain ⟨more, hmore, h⟩ := Except.bind_eq_ok.1 h
    cases h
    obtain ⟨rfl, hrest⟩ := ih hmore
    refine ⟨?_, List.forall_mem_cons.2 ⟨hcheck, hrest⟩⟩
    cases hresource : isResource a name <;> simp [hresource]

theorem ofValues_endpoints {c : Configuration} (h : ofValues values a = .ok c) :
    ∀ e ∈ c.endpoints, isResource a e.1 = true ∧ Endpoint.check e.2 = .ok () := by
  obtain ⟨-, endpoints, -, hendpoints, -, -, -, hsorted⟩ := ofValues_eq_ok h
  obtain ⟨rfl, hvalid⟩ := readEndpoints_eq_ok hendpoints
  intro e he
  rw [hsorted] at he
  obtain ⟨hgiven, hresource⟩ := List.mem_filter.1 (Table.mem_of_mem_sorted he)
  exact ⟨hresource, hvalid e hgiven⟩

def Lined (t : Table String) : Prop :=
  ∀ e ∈ t, '\n' ∉ e.1.toList ∧ '\n' ∉ e.2.toList ∧ '=' ∉ e.2.toList

theorem lined_endpoints {c : Configuration} (h : ofValues values a = .ok c)
    (hnames : ∀ r ∈ a.resources, '\n' ∉ r.name.toList) : Lined c.endpoints := by
  intro e he
  obtain ⟨hresource, hcheck⟩ := ofValues_endpoints h e he
  obtain ⟨r, hr, hname⟩ := List.any_eq_true.1 hresource
  have hname : r.name = e.1 := by simpa using hname
  have hchars := Endpoint.isHostChar_of_check hcheck
  refine ⟨hname ▸ hnames r hr, fun hmem => ?_, fun hmem => ?_⟩
  · exact absurd (hchars _ hmem) (by decide)
  · exact absurd (hchars _ hmem) (by decide)

theorem eq_of_append_cons {separator : Char} {before other after rest : List Char}
    (hafter : separator ∉ after) (hrest : separator ∉ rest)
    (h : before ++ separator :: after = other ++ separator :: rest) :
    before = other ∧ after = rest := by
  have hreverse : after.reverse ++ separator :: before.reverse =
      rest.reverse ++ separator :: other.reverse := by
    simpa using congrArg List.reverse h
  have hcut := congrArg (Text.cut? separator) hreverse
  rw [Text.cut?_append (by simpa using hafter), Text.cut?_append (by simpa using hrest)] at hcut
  simpa [and_comm] using hcut

def line (e : String × String) : List Char := e.1.toList ++ '=' :: e.2.toList

@[simp] theorem toList_hashedText_cons (e : String × String) (t : Table String) :
    (hashedText (e :: t)).toList = line e ++ '\n' :: (hashedText t).toList := by
  simp [hashedText, line, String.toList_join]

theorem hashedText_injective {t u : Table String} (ht : Lined t) (hu : Lined u)
    (h : hashedText t = hashedText u) : t = u := by
  induction t generalizing u with
  | nil =>
    cases u with
    | nil => rfl
    | cons e u =>
      have htext := congrArg String.toList h
      rw [toList_hashedText_cons] at htext
      simp [hashedText] at htext
  | cons e t ih =>
    cases u with
    | nil =>
      have htext := congrArg String.toList h
      rw [toList_hashedText_cons] at htext
      simp [hashedText] at htext
    | cons f u =>
      obtain ⟨he, ht⟩ := List.forall_mem_cons.1 ht
      obtain ⟨hf, hu⟩ := List.forall_mem_cons.1 hu
      have hline {e : String × String}
          (h : '\n' ∉ e.1.toList ∧ '\n' ∉ e.2.toList ∧ '=' ∉ e.2.toList) : '\n' ∉ line e := by
        simp [line, h.1, h.2.1]
      have htext := congrArg (fun s => Text.cut? '\n' s.toList) h
      simp only [toList_hashedText_cons, Text.cut?_append (hline he),
        Text.cut?_append (hline hf), Option.some.injEq, Prod.mk.injEq, String.toList_inj] at htext
      obtain ⟨hfirst, hrest⟩ := htext
      obtain ⟨hname, hhost⟩ := eq_of_append_cons he.2.2 hf.2.2 hfirst
      have hentry : e = f := Prod.ext (String.toList_inj.1 hname) (String.toList_inj.1 hhost)
      rw [hentry, ih ht hu hrest]

/-- Equivalent configurations are equal, if their endpoints are not confused by their hashes. -/
theorem isEquivalent_iff {other : Members} {c d : Configuration}
    (hc : ofValues values a = .ok c) (hd : ofValues other a = .ok d)
    (hnames : ∀ r ∈ a.resources, '\n' ∉ r.name.toList)
    (hhash : c.endpointsHash = d.endpointsHash →
      hashedText c.endpoints = hashedText d.endpoints) :
    c.isEquivalent d = true ↔ c = d := by
  constructor
  · intro h
    simp only [isEquivalent, Bool.and_eq_true, beq_iff_eq] at h
    obtain ⟨⟨⟨hsecurity, hheaders⟩, hregion⟩, hendpoints⟩ := h
    have hsame := hashedText_injective (lined_endpoints hc hnames) (lined_endpoints hd hnames)
      (hhash hendpoints)
    cases c
    cases d
    simp only [mk.injEq]
    exact ⟨hsecurity, hheaders, hsame, hregion⟩
  · rintro rfl
    simp [isEquivalent]

end Configuration

end SwaggerProvider
