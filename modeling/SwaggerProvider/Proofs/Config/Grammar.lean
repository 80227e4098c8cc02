import SwaggerProvider.Proofs.Config.Endpoints
import SwaggerProvider.Proofs.Lifecycle.Refresh
import SwaggerProvider.Proofs.Text.Pieces
import SwaggerProvider.Proofs.Url.Address
import SwaggerProvider.Proofs.Url.Assembly

/-!
The grammar of endpoints: labels with dots between them, and perhaps a port. Nothing in an endpoint
ends the host of a URL, so a URL that is built with one goes there and nowhere else.
-/

set_option autoImplicit false

namespace SwaggerProvider

namespace Text

theorem infix_of_holds {part cs : List Char} (h : holds part cs = true) : part <:+: cs := by
  induction cs with
  | nil =>
    rw [holds, List.isEmpty_iff] at h
    exact h ▸ List.nil_infix
  | cons c rest ih =>
    rw [holds, Bool.or_eq_true] at h
    rcases h with hstart | hrest
    · obtain ⟨tail, htail⟩ := Option.isSome_iff_exists.1 hstart
      exact ⟨[], tail, ((after?_eq_some_iff _ _ _).1 htail).symm⟩
    · exact (ih hrest).trans (List.suffix_cons c rest).isInfix

theorem isAsciiDigit_of_isDigit {c : Char} (h : isDigit c = true) (hc : c.toNat < 0x80) :
    isAsciiDigit c = true := by
  have hascii := Url.forall_ascii
    (P := fun d => isDigit d = true → isAsciiDigit d = true) (by decide)
  exact hascii c hc h

theorem toNat_lt_of_isAsciiAlnum {c : Char} (h : isAsciiAlnum c = true) : c.toNat < 0x80 :=
  Url.toNat_lt_of_isUnreserved (by simp [Url.isUnreserved, h])

theorem isDigit_of_isAsciiDigit {c : Char} (h : isAsciiDigit c = true) : isDigit c = true := by
  have hascii := Url.forall_ascii
    (P := fun d => isAsciiDigit d = true → isDigit d = true) (by decide)
  exact hascii c (toNat_lt_of_isAsciiAlnum (by simp [isAsciiAlnum, h])) h

def blankCodes : List Nat :=
  [9, 10, 11, 12, 13, 32, 0x85, 0xA0, 0x1680, 0x2000, 0x2001, 0x2002, 0x2003, 0x2004, 0x2005,
    0x2006, 0x2007, 0x2008, 0x2009, 0x200A, 0x2028, 0x2029, 0x202F, 0x205F, 0x3000]

theorem mem_blankCodes {c : Char} (h : isBlank c = true) : c.toNat ∈ blankCodes := by
  simp only [isBlank, Bool.or_eq_true, Bool.and_eq_true, decide_eq_true_eq, beq_iff_eq] at h
  simp only [blankCodes, List.mem_cons, List.not_mem_nil, or_false]
  omega

end Text

namespace Endpoint

/-- From 1 to 63 letters, digits and hyphens, the first and the last of them no hyphen. -/
structure Label (cs : List Char) : Prop where
  length : 1 ≤ cs.length ∧ cs.length ≤ 63
  chars : ∀ c ∈ cs, Text.isAsciiAlnum c = true ∨ c = '-'
  first : ∀ c ∈ cs.head?, Text.isAsciiAlnum c = true
  last : ∀ c ∈ cs.getLast?, Text.isAsciiAlnum c = true

/-- At least one label, and a dot between two of them. -/
def HostName (cs : List Char) : Prop :=
  ∃ labels, labels ≠ [] ∧ (∀ label ∈ labels, Label label) ∧ cs = Text.join ['.'] labels

/-- A host name, or one with a colon and from 1 to 5 digits behind it. -/
inductive Form (digit : Char → Bool) : List Char → Prop
  | bare {name : List Char} (host : HostName name) : Form digit name
  | withPort {name port : List Char} (host : HostName name)
    (length : 1 ≤ port.length ∧ port.length ≤ 5) (digits : ∀ c ∈ port, digit c = true) :
    Form digit (name ++ ':' :: port)

variable {cs : List Char}

theorem isLabel_iff : isLabel cs = true ↔ Label cs := by
  have hhyphen : Text.isAsciiAlnum '-' = false := by decide
  simp only [isLabel, Bool.and_eq_true, Bool.not_eq_true', List.isEmpty_eq_false_iff,
    decide_eq_true_eq, List.all_eq_true, Bool.or_eq_true, beq_iff_eq, bne_iff_ne]
  constructor
  · rintro ⟨⟨⟨⟨hne, hlength⟩, hchars⟩, hfirst⟩, hlast⟩
    refine ⟨⟨List.length_pos_iff.2 hne, hlength⟩, hchars, fun c hc => ?_, fun c hc => ?_⟩
    · refine (hchars c (List.mem_of_head? hc)).resolve_right ?_
      rintro rfl
      exact hfirst hc
    · refine (hchars c (List.mem_of_getLast? hc)).resolve_right ?_
      rintro rfl
      exact hlast hc
  · rintro ⟨hlength, hchars, hfirst, hlast⟩
    refine ⟨⟨⟨⟨List.length_pos_iff.1 hlength.1, hlength.2⟩, hchars⟩, fun h => ?_⟩, fun h => ?_⟩
    · exact absurd (hfirst '-' h) (by rw [hhyphen]; decide)
    · exact absurd (hlast '-' h) (by rw [hhyphen]; decide)

theorem Label.notMem {label : List Char} (h : Label label) {c : Char}
    (hc : Text.isAsciiAlnum c = false) (hhyphen : c ≠ '-') : c ∉ label := by
  intro hmem
  rcases h.chars c hmem with halnum | heq
  · rw [hc] at halnum
    cases halnum
  · exact hhyphen heq

theorem isName_iff : isName cs = true ↔ HostName cs := by
  rw [isName, List.all_eq_true]
  constructor
  · intro h
    exact ⟨Text.pieces '.' cs, Text.pieces_ne_nil _ _,
      fun label hmem => isLabel_iff.1 (h label hmem), (Text.join_pieces '.' cs).symm⟩
  · rintro ⟨labels, hne, hlabels, rfl⟩
    rw [Text.pieces_join hne fun label hmem => (hlabels label hmem).notMem (by decide) (by decide)]
    exact fun label hmem => isLabel_iff.2 (hlabels label hmem)

theorem HostName.chars (h : HostName cs) :
    ∀ c ∈ cs, Text.isAsciiAlnum c = true ∨ c = '-' ∨ c = '.' := by
  obtain ⟨labels, hne, hlabels, rfl⟩ := h
  intro c hc
  rcases Text.mem_pieces '.' hc with hdot | ⟨label, hlabel, hmem⟩
  · exact .inr (.inr hdot)
  · rw [Text.pieces_join hne fun label hmem =>
      (hlabels label hmem).notMem (by decide) (by decide)] at hlabel
    exact ((hlabels label hlabel).chars c hmem).imp_right .inl

theorem HostName.colon_notMem (h : HostName cs) : ':' ∉ cs := by
  intro hmem
  exact absurd (h.chars ':' hmem) (by decide)

theorem isPort_iff : isPort cs = true ↔
    (1 ≤ cs.length ∧ cs.length ≤ 5) ∧ ∀ c ∈ cs, Text.isDigit c = true := by
  simp only [isPort, Bool.and_eq_true, Bool.not_eq_true', List.isEmpty_eq_false_iff,
    decide_eq_true_eq, List.all_eq_true, ← List.length_pos_iff, Nat.succ_le_iff]

/-- A host name has no colon, so the first one of an endpoint is that of the port. -/
theorem isValid_iff : isValid cs = true ↔ Form Text.isDigit cs := by
  constructor
  · intro h
    unfold isValid at h
    cases hcut : Text.cut? ':' cs with
    | none =>
      rw [hcut] at h
      exact .bare (isName_iff.1 h)
    | some parts =>
      rw [hcut] at h
      obtain ⟨hname, hport⟩ := (Bool.and_eq_true _ _).mp h
      obtain ⟨hlength, hdigits⟩ := isPort_iff.1 hport
      rw [Text.eq_of_cut? hcut]
      exact .withPort (isName_iff.1 hname) hlength hdigits
  · intro h
    unfold isValid
    cases h with
    | bare hname =>
      rw [Url.cut?_eq_none_iff.2 hname.colon_notMem]
      exact isName_iff.2 hname
    | withPort hname hlength hdigits =>
      rw [Text.cut?_append hname.colon_notMem]
      exact (Bool.and_eq_true _ _).mpr ⟨isName_iff.2 hname, isPort_iff.2 ⟨hlength, hdigits⟩⟩

theorem check_iff {v : String} : check v = .ok () ↔ Form Text.isDigit v.toList := by
  rw [← isValid_iff]
  unfold check
  dsimp only
  split
  · next hscheme =>
    refine ⟨nofun, fun hvalid => ?_⟩
    have hslash : '/' ∈ v.toList := (Text.infix_of_holds hscheme).subset (by decide)
    exact absurd (isHostChar_of_isValid hvalid '/' hslash) (by decide)
  · split <;> simp_all

theorem Form.mono {p q : Char → Bool} (h : Form p cs)
    (hpq : ∀ c ∈ cs, p c = true → q c = true) : Form q cs := by
  cases h with
  | bare host => exact .bare host
  | withPort host length digits =>
    exact .withPort host length fun c hc =>
      hpq c (List.mem_append_right _ (List.mem_cons_of_mem _ hc)) (digits c hc)

theorem form_ascii_iff : Form Text.isAsciiDigit cs ↔
    Form Text.isDigit cs ∧ ∀ c ∈ cs, c.toNat < 0x80 := by
  have hname {name : List Char} (h : HostName name) : ∀ c ∈ name, c.toNat < 0x80 := by
    intro c hc
    rcases h.chars c hc with halnum | rfl | rfl
    · exact Text.toNat_lt_of_isAsciiAlnum halnum
    · decide
    · decide
  constructor
  · intro h
    refine ⟨h.mono fun c _ => Text.isDigit_of_isAsciiDigit, ?_⟩
    cases h with
    | bare host => exact hname host
    | withPort host length digits =>
      refine List.forall_mem_append.2 ⟨hname host, List.forall_mem_cons.2 ⟨by decide, ?_⟩⟩
      exact fun c hc => Text.toNat_lt_of_isAsciiAlnum (by simp [Text.isAsciiAlnum, digits c hc])
  · rintro ⟨h, hascii⟩
    exact h.mono fun c hc hdigit => Text.isAsciiDigit_of_isDigit hdigit (hascii c hc)

theorem plain_of_isHostChar {c : Char} (h : isHostChar c = true) :
    c ∉ ['/', '?', '#', '@', '='] ∧ Text.isBlank c = false := by
  constructor
  · intro hmem
    have hmarks : ['/', '?', '#', '@', '='].all (fun d => !isHostChar d) = true := by decide
    have hother := List.all_eq_true.1 hmarks c hmem
    rw [h] at hother
    cases hother
  · refine Bool.eq_false_iff.2 fun hblank => ?_
    have hblanks : ∀ code ∈ Text.blankCodes, isHostChar (Char.ofNat code) = false := by decide
    have hother := hblanks _ (Text.mem_blankCodes hblank)
    rw [Char.ofNat_toNat, h] at hother
    cases hother

end Endpoint

namespace Url

def endsHost (c : Char) : Bool := c == '/' || c == '?' || c == '#'

/-- The text between `://` and the first slash, question mark or number sign behind it, or the end
of the URL. -/
def hostText? (url : List Char) : Option (List Char) := do
  let (_, behind) ← Text.cut? ':' url
  let rest ← Text.after? ['/', '/'] behind
  some (rest.takeWhile fun c => !endsHost c)

theorem hostText?_append {scheme host rest : List Char} (hscheme : ':' ∉ scheme)
    (hhost : ∀ c ∈ host, endsHost c = false) (hrest : ∀ c ∈ rest.head?, endsHost c = true) :
    hostText? (scheme ++ "://".toList ++ (host ++ rest)) = some host := by
  have hstop : rest.takeWhile (fun c => !endsHost c) = [] := by
    cases rest with
    | nil => rfl
    | cons c rest => rw [List.takeWhile_cons_of_neg (by simp [hrest c rfl])]
  have hurl : scheme ++ "://".toList ++ (host ++ rest) =
      scheme ++ ':' :: (['/', '/'] ++ (host ++ rest)) := by simp
  have hafter := (Text.after?_eq_some_iff ['/', '/'] _ (host ++ rest)).2 rfl
  rw [hostText?, hurl, Text.cut?_append hscheme]
  simp only [Option.bind_eq_bind, Option.bind_some, hafter, Option.some.injEq]
  rw [List.takeWhile_append_of_pos (by simpa using hhost), hstop, List.append_nil]

theorem hostText?_join {scheme host base path : String} (hscheme : ':' ∉ scheme.toList)
    (hhost : ∀ c ∈ host.toList, endsHost c = false) :
    hostText? (join scheme host base path).toList = some host.toList := by
  obtain ⟨H, b, p, htrimmed, hjoin⟩ := exists_trimmed scheme host base path
  obtain ⟨n, hn⟩ := htrimmed.hostEnd
  have hwhole : host.toList = H := by
    cases n with
    | zero => simpa using hn
    | succ n =>
      have hslash : '/' ∈ host.toList := by simp [hn, List.replicate_succ]
      exact absurd (hhost '/' hslash) (by decide)
  have hslashed (part : List Char) : slashed part = [] ∨ ∃ more, slashed part = '/' :: more := by
    cases part with
    | nil => exact .inl rfl
    | cons c part => exact .inr ⟨_, rfl⟩
  rw [hjoin, ← hwhole, List.append_assoc host.toList]
  refine hostText?_append hscheme hhost fun c hc => ?_
  rcases hslashed b with hb | ⟨more, hb⟩
  · rw [hb, List.nil_append] at hc
    rcases hslashed p with hp | ⟨more, hp⟩
    · simp [hp] at hc
    · rw [hp] at hc
      cases hc
      decide
  · rw [hb] at hc
    cases hc
    decide

end Url

theorem Backend.colon_notMem_scheme (b : Backend) : ':' ∉ b.scheme.toList := by
  unfold scheme
  split <;> decide

theorem Client.url_of_endpoint {c : Client} {name endpoint template url : String} {host : Host}
    {ids : List String} (hendpoint : c.config.endpoints.get? name = some endpoint)
    (h : c.url name host template ids = .ok url) :
    ∃ path, url = Url.join c.backend.scheme endpoint c.backend.basePath path := by
  have hhost : c.config.hostOf c.backend name host = .ok endpoint := by
    unfold Configuration.hostOf
    rw [hendpoint]
  obtain ⟨address, haddress, h⟩ := Except.bind_eq_ok.1 h
  obtain ⟨path, -, h⟩ := Except.bind_eq_ok.1 h
  rw [hhost] at haddress
  cases haddress
  cases h
  exact ⟨path, rfl⟩

/-- An endpoint is accepted when it is a host name, perhaps with a port of decimal digits of any
script; they are ASCII digits exactly when the whole endpoint is ASCII. The endpoints that a
configuration keeps hold nothing that could end them, and are the hosts of the URLs that are built
with them. -/
theorem endpoint_grammar (v : String) :
    (Endpoint.check v = .ok () ↔ Endpoint.Form Text.isDigit v.toList) ∧
    (Endpoint.Form Text.isAsciiDigit v.toList ↔
      Endpoint.check v = .ok () ∧ ∀ c ∈ v.toList, c.toNat < 0x80) ∧
    ∀ (values : Members) (a : Analysis) (c : Client) (name : String),
      Configuration.ofValues values a = .ok c.config → c.config.endpoints.get? name = some v →
        (∀ d ∈ v.toList, d ∉ ['/', '?', '#', '@', '='] ∧ Text.isBlank d = false) ∧
        ∀ host template ids url, c.url name host template ids = .ok url →
          Url.hostText? url.toList = some v.toList := by
  refine ⟨Endpoint.check_iff, ?_, ?_⟩
  · rw [Endpoint.form_ascii_iff, Endpoint.check_iff]
  · intro values a c name hconfig hendpoint
    obtain ⟨-, hcheck⟩ := Configuration.ofValues_endpoints hconfig _ (Table.mem_of_get? hendpoint)
    have hplain (d : Char) (hd : d ∈ v.toList) :=
      Endpoint.plain_of_isHostChar (Endpoint.isHostChar_of_check hcheck d hd)
    refine ⟨hplain, fun host template ids url hurl => ?_⟩
    obtain ⟨path, rfl⟩ := Client.url_of_endpoint hendpoint hurl
    refine Url.hostText?_join c.backend.colon_notMem_scheme fun d hd => ?_
    have hmarks := (hplain d hd).1
    simp only [List.mem_cons, not_or] at hmarks
    simp [Url.endsHost, hmarks]

open Lifecycle (firewall firewallClient)

def stagingValues : Members :=
  [(Analysis.endpointsName, .object [("cdns_firewalls", .string "staging-1.example.com:8443")])]

def stagingAnalysis : Analysis :=
  { Analysis.start .empty firewallClient.backend .empty with resources := [firewall] }

def stagingClient : Client :=
  { firewallClient with
    config := { Configuration.empty with
      endpoints := [("cdns_firewalls", "staging-1.example.com:8443")] } }

theorem endpoint_grammar_staging :
    Configuration.ofValues stagingValues stagingAnalysis = .ok stagingClient.config ∧
    stagingClient.config.endpoints.get? "cdns_firewalls" = some "staging-1.example.com:8443" ∧
    stagingClient.url "cdns_firewalls" .global firewall.root ["1"] =
      .ok "http://staging-1.example.com:8443/cdns/1/firewalls" ∧
    Url.hostText? "http://staging-1.example.com:8443/cdns/1/firewalls".toList =
      some "staging-1.example.com:8443".toList := by
  have hconfig : Configuration.ofValues stagingValues stagingAnalysis =
      .ok stagingClient.config := by decide +kernel
  have hendpoint : stagingClient.config.endpoints.get? "cdns_firewalls" =
      some "staging-1.example.com:8443" := by decide
  have hurl : stagingClient.url "cdns_firewalls" .global firewall.root ["1"] =
      .ok "http://staging-1.example.com:8443/cdns/1/firewalls" := by decide +kernel
  obtain ⟨-, -, hstored⟩ := endpoint_grammar "staging-1.example.com:8443"
  obtain ⟨-, hurls⟩ := hstored stagingValues stagingAnalysis stagingClient _ hconfig hendpoint
  exact ⟨hconfig, hendpoint, hurl, hurls _ _ _ _ hurl⟩

/-- A port of another script passes for one. -/
theorem endpoint_grammar_arabic :
    Endpoint.check "host:\u0663" = .ok () ∧
      ¬ Endpoint.Form Text.isAsciiDigit "host:\u0663".toList := by
  refine ⟨by decide, fun h => ?_⟩
  obtain ⟨-, hascii⟩ := Endpoint.form_ascii_iff.1 h
  exact absurd (hascii '\u0663' (by decide)) (by decide)

end SwaggerProvider
