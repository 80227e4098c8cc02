import SwaggerProvider.Config.Provider
import SwaggerProvider.Proofs.Outcome

/-!
Credentials in the block that the host shows and in the values that it gives. Definitions, headers
and the region share one set of names, and of attributes with one name the last one stands. Where no
credential is lost that way, the block asks for what the configuration needs.
-/

set_option autoImplicit false

namespace SwaggerProvider

namespace Configuration

variable {values : Members} {a : Analysis}

def NotMissing (e : Error) : Prop := ∀ key, e ≠ .runtimeConfig (.missingProviderAttribute key)

theorem check_notMissing (endpoint : String) :
    Except.FailsOnly NotMissing (Endpoint.check endpoint) := by
  unfold Endpoint.check
  dsimp only
  split
  · exact .error fun key h => by cases h
  · split
    · exact .ok ()
    · exact .error fun key h => by cases h

theorem readEndpoints_notMissing (entries : List (String × String)) :
    Except.FailsOnly NotMissing (readEndpoints a entries) := by
  induction entries with
  | nil => exact .ok []
  | cons e rest ih =>
    exact .bind (check_notMissing e.2) fun _ => .bind ih fun more => .ok _

theorem readRegion_notMissing (b : Backend) :
    Except.FailsOnly NotMissing (readRegion values b) := by
  unfold readRegion
  split
  · exact .ok none
  · split
    · exact .error fun key h => by cases h
    · split
      · exact .ok _
      · exact .error fun key h => by cases h

/-- A credential is missing when one of the whole document has no value. -/
theorem readSecurity_missing_iff {schemes : Security.Schemes}
    {definitions : List Security.Definition} :
    (∃ key, readSecurity values schemes definitions =
      .error (.runtimeConfig (.missingProviderAttribute key))) ↔
    ∃ d ∈ definitions, schemes.isGlobal d.name = true ∧ value? values d.configName = none := by
  induction definitions with
  | nil => simp [readSecurity]
  | cons d rest ih =>
    rw [List.exists_mem_cons_iff, ← ih]
    cases hvalue : value? values d.configName with
    | some value =>
      have hcons : readSecurity values schemes (d :: rest) =
          (readSecurity values schemes rest).map ((d.configName, value) :: ·) := by
        rw [readSecurity, hvalue]
      rw [hcons]
      cases readSecurity values schemes rest <;> simp [Except.map]
    | none =>
      by_cases hglobal : schemes.isGlobal d.name = true
      · have hcons : readSecurity values schemes (d :: rest) =
            .error (.runtimeConfig (.missingProviderAttribute d.configName)) := by
          rw [readSecurity, hvalue]
          exact if_pos hglobal
        simp [hcons, hglobal]
      · have hcons : readSecurity values schemes (d :: rest) =
            readSecurity values schemes rest := by
          rw [readSecurity, hvalue]
          exact if_neg hglobal
        simp [hcons, hglobal]

theorem ofValues_missing_iff :
    (∃ key, ofValues values a = .error (.runtimeConfig (.missingProviderAttribute key))) ↔
    ∃ d ∈ a.security.definitions.values,
      a.security.isGlobal d.name = true ∧ value? values d.configName = none := by
  rw [← readSecurity_missing_iff]
  unfold ofValues
  cases hsecurity : readSecurity values a.security a.security.definitions.values with
  | error e => exact exists_congr fun key => ⟨fun h => by cases h; rfl, fun h => by cases h; rfl⟩
  | ok security =>
    have hrest (f : List (String × String) → Option String → Configuration) :
        Except.FailsOnly NotMissing ((readEndpoints a (givenEndpoints values)).bind fun endpoints =>
          (readRegion values a.backend).bind fun region => .ok (f endpoints region)) :=
      .bind (readEndpoints_notMissing _) fun _ => .bind (readRegion_notMissing _) fun _ => .ok _
    constructor
    · rintro ⟨key, h⟩
      exact absurd rfl (hrest _ _ h key)
    · rintro ⟨key, h⟩
      cases h

end Configuration

namespace Analysis

variable {a : Analysis}

def regionEntry (b : Backend) : Table Attribute :=
  if b.isMultiRegion then [(regionName, regionAttribute b)] else []

/-- The definition that has the last word about a name. -/
def credential? (a : Analysis) (name : String) : Option Security.Definition :=
  a.security.definitions.values.reverse.find? fun d => d.configName == name

def header? (a : Analysis) (name : String) : Option Header :=
  a.headers.reverse.find? fun h => h.configName == name

theorem configBlock_attribute? (name : String) :
    a.configBlock.attribute? name =
      ((regionEntry a.backend).get? name).or
        (((a.header? name).map headerAttribute).or
          ((a.credential? name).map a.securityAttribute)) := by
  have hblock : a.configBlock.attributes = Table.sorted
      (a.security.definitions.values.map (fun d => (d.configName, a.securityAttribute d)) ++
        a.headers.map (fun h => (h.configName, headerAttribute h)) ++ regionEntry a.backend) := by
    unfold configBlock
    cases a.offered <;> rfl
  have hregion : (regionEntry a.backend).reverse = regionEntry a.backend := by
    unfold regionEntry
    split <;> rfl
  unfold Block.attribute?
  rw [hblock, Table.get?_sorted, List.reverse_append, List.reverse_append, hregion,
    Table.get?_append, Table.get?_append, ← List.map_reverse, ← List.map_reverse,
    Table.get?_map, Table.get?_map]
  rfl

theorem securityAttribute_sensitive (d : Security.Definition) :
    (a.securityAttribute d).sensitive = true := by
  unfold securityAttribute
  split <;> rfl

theorem securityAttribute_required (d : Security.Definition) :
    (a.securityAttribute d).required = a.security.isGlobal d.name := by
  unfold securityAttribute
  cases a.security.isGlobal d.name <;> rfl

theorem get?_regionEntry (b : Backend) (name : String) :
    (regionEntry b).get? name =
      if b.isMultiRegion = true ∧ regionName = name then some (regionAttribute b) else none := by
  unfold regionEntry
  cases b.isMultiRegion <;> simp [Table.get?]

theorem header?_eq_none_iff (name : String) :
    a.header? name = none ↔ ∀ h ∈ a.headers, h.configName ≠ name := by
  simp [header?]

theorem mem_of_credential? {name : String} {d : Security.Definition}
    (h : a.credential? name = some d) :
    d ∈ a.security.definitions.values ∧ d.configName = name := by
  have hmem := List.mem_of_find?_eq_some h
  have hname := List.find?_some h
  exact ⟨List.mem_reverse.1 hmem, by simpa using hname⟩

theorem exists_credential? {d : Security.Definition} (h : d ∈ a.security.definitions.values) :
    ∃ e, a.credential? d.configName = some e := by
  rw [← Option.isSome_iff_exists, credential?, List.find?_isSome]
  exact ⟨d, List.mem_reverse.2 h, beq_self_eq_true _⟩

theorem credential?_of_attribute? {name : String} {shown : Attribute}
    (h : a.configBlock.attribute? name = some shown)
    (hsecret : shown.sensitive = true ∨ shown.required = true) :
    (regionEntry a.backend).get? name = none ∧ a.header? name = none ∧
      ∃ d, a.credential? name = some d ∧ a.securityAttribute d = shown := by
  rw [configBlock_attribute?] at h
  cases hregion : (regionEntry a.backend).get? name with
  | some region =>
    rw [hregion] at h
    cases h
    rw [get?_regionEntry] at hregion
    split at hregion
    · cases hregion
      rcases hsecret with hsecret | hsecret <;> cases hsecret
    · cases hregion
  | none =>
    cases hheader : a.header? name with
    | some header =>
      rw [hregion, hheader] at h
      cases h
      rcases hsecret with hsecret | hsecret <;> cases hsecret
    | none =>
      rw [hregion, hheader] at h
      exact ⟨rfl, rfl, by simpa using h⟩

/-- The block asks for the credentials that the configuration needs, and keeps them all secret. -/
structure CredentialsAgree (a : Analysis) : Prop where
  published : ∀ d ∈ a.security.definitions.values, ∃ shown,
    a.configBlock.attribute? d.configName = some shown ∧ shown.sensitive = true ∧
      (a.security.isGlobal d.name = true → shown.required = true)
  missing_iff : ∀ values,
    (∃ key, Configuration.ofValues values a =
      .error (.runtimeConfig (.missingProviderAttribute key))) ↔
    ∃ name shown, a.configBlock.attribute? name = some shown ∧
      shown.required = true ∧ Configuration.value? values name = none

/-- No name of a credential is lost to a header or to the region, or to another credential that is
needed less. -/
structure CredentialsKept (a : Analysis) : Prop where
  headers : ∀ d ∈ a.security.definitions.values, ∀ h ∈ a.headers, h.configName ≠ d.configName
  region : a.backend.isMultiRegion = true →
    ∀ d ∈ a.security.definitions.values, regionName ≠ d.configName
  global : ∀ d ∈ a.security.definitions.values, a.security.isGlobal d.name = true →
    ∀ e, a.credential? d.configName = some e → a.security.isGlobal e.name = true

theorem CredentialsKept.attribute? (h : a.CredentialsKept) {d : Security.Definition}
    (hd : d ∈ a.security.definitions.values) :
    a.configBlock.attribute? d.configName =
      (a.credential? d.configName).map a.securityAttribute := by
  have hregion : (regionEntry a.backend).get? d.configName = none := by
    rw [get?_regionEntry, if_neg]
    rintro ⟨hmulti, hname⟩
    exact h.region hmulti d hd hname
  rw [configBlock_attribute?, hregion, (header?_eq_none_iff _).2 (h.headers d hd)]
  rfl

theorem CredentialsAgree.credential? (h : a.CredentialsAgree) {d : Security.Definition}
    (hd : d ∈ a.security.definitions.values) :
    (regionEntry a.backend).get? d.configName = none ∧ a.header? d.configName = none ∧
      ∃ e, a.credential? d.configName = some e ∧
        (a.security.isGlobal d.name = true → a.security.isGlobal e.name = true) := by
  obtain ⟨shown, hshown, hsensitive, hrequired⟩ := h.published d hd
  obtain ⟨hregion, hheader, e, he, rfl⟩ := credential?_of_attribute? hshown (.inl hsensitive)
  refine ⟨hregion, hheader, e, he, fun hglobal => ?_⟩
  rw [← securityAttribute_required]
  exact hrequired hglobal

theorem CredentialsAgree.kept (h : a.CredentialsAgree) : a.CredentialsKept where
  headers := by
    intro d hd
    obtain ⟨-, hheader, -⟩ := h.credential? hd
    exact (header?_eq_none_iff _).1 hheader
  region := by
    intro hmulti d hd hname
    obtain ⟨hregion, -⟩ := h.credential? hd
    rw [get?_regionEntry, if_pos ⟨hmulti, hname⟩] at hregion
    cases hregion
  global := by
    intro d hd hglobal e he
    obtain ⟨-, -, last, hlast, hneeded⟩ := h.credential? hd
    rw [hlast] at he
    cases he
    exact hneeded hglobal

theorem CredentialsKept.published (h : a.CredentialsKept) {d : Security.Definition}
    (hd : d ∈ a.security.definitions.values) :
    ∃ shown, a.configBlock.attribute? d.configName = some shown ∧ shown.sensitive = true ∧
      (a.security.isGlobal d.name = true → shown.required = true) := by
  obtain ⟨e, he⟩ := exists_credential? hd
  refine ⟨a.securityAttribute e, ?_, securityAttribute_sensitive e, fun hglobal => ?_⟩
  · rw [h.attribute? hd, he]
    rfl
  · rw [securityAttribute_required]
    exact h.global d hd hglobal e he

theorem CredentialsKept.agree (h : a.CredentialsKept) : a.CredentialsAgree where
  published d hd := h.published hd
  missing_iff := by
    intro values
    rw [Configuration.ofValues_missing_iff]
    constructor
    · rintro ⟨d, hd, hglobal, hvalue⟩
      obtain ⟨shown, hshown, -, hrequired⟩ := h.published hd
      exact ⟨d.configName, shown, hshown, hrequired hglobal, hvalue⟩
    · rintro ⟨name, shown, hshown, hrequired, hvalue⟩
      obtain ⟨-, -, e, he, rfl⟩ := credential?_of_attribute? hshown (.inr hrequired)
      obtain ⟨hmem, rfl⟩ := mem_of_credential? he
      rw [securityAttribute_required] at hrequired
      exact ⟨e, hmem, hrequired, hvalue⟩

/-- What the block says about credentials is true exactly where no credential is lost. -/
theorem credentials_agree_iff_kept : a.CredentialsAgree ↔ a.CredentialsKept := by
  constructor
  · intro h
    exact h.kept
  · intro h
    exact h.agree

def keyedDocument (header : String) : Swagger.Document := { Swagger.Document.empty with
  host := some "api.example.com"
  schemes := ["http"]
  paths := [("/status", { Swagger.PathItem.empty with
    get := some { Swagger.Operation.empty with
      parameters := [{ Swagger.Parameter.empty with name := header, location := "header" }] } })]
  securityDefinitions := [("X-API-Key", ⟨"apiKey", some "X-API-Key", some "header", []⟩)]
  security := some [[("X-API-Key", [])]] }

def keyedAnalysis (header : String) : Analysis where
  resources := []
  dataSources := []
  skipped := []
  backend := ⟨"api.example.com", "", ["http"], none⟩
  security := ⟨[("X-API-Key", ⟨"X-API-Key", .keyHeader "X-API-Key"⟩)], [[⟨"X-API-Key", []⟩]]⟩
  headers := [⟨header, none, false⟩]
  events := []

/-- A key and a header with names of their own. -/
theorem credentials_agree_iff_kept_request :
    ∃ analysis, analyse (keyedDocument "X-Request-ID") "" = .ok analysis ∧
      analysis.CredentialsAgree := by
  have hheaders : ∀ d ∈ (keyedAnalysis "X-Request-ID").security.definitions.values,
      ∀ h ∈ (keyedAnalysis "X-Request-ID").headers, h.configName ≠ d.configName := by
    decide +kernel
  have hkept : (keyedAnalysis "X-Request-ID").CredentialsKept := by
    refine ⟨hheaders, nofun, fun _ _ _ e he => ?_⟩
    obtain ⟨hmem, -⟩ := mem_of_credential? he
    rw [List.mem_singleton.1 hmem]
    rfl
  have hanalysis : analyse (keyedDocument "X-Request-ID") "" =
      .ok (keyedAnalysis "X-Request-ID") := by with_unfolding_all rfl
  exact ⟨_, hanalysis, credentials_agree_iff_kept.2 hkept⟩

/-- The header of the key is declared as a parameter, too: then the key may be left out in the block
and is not kept secret, and is still asked for. -/
theorem credentials_agree_iff_kept_header :
    analyse (keyedDocument "X-API-Key") "" = .ok (keyedAnalysis "X-API-Key") ∧
    (∃ shown, (keyedAnalysis "X-API-Key").configBlock.attribute? "x_api_key" = some shown ∧
      shown.optional = true ∧ shown.required = false ∧ shown.sensitive = false) ∧
    Configuration.ofValues [] (keyedAnalysis "X-API-Key") =
      .error (.runtimeConfig (.missingProviderAttribute "x_api_key")) ∧
    ¬(keyedAnalysis "X-API-Key").CredentialsAgree := by
  have hshown : (keyedAnalysis "X-API-Key").configBlock.attribute? "x_api_key" =
      some (headerAttribute ⟨"X-API-Key", none, false⟩) := by with_unfolding_all rfl
  have hanalysis : analyse (keyedDocument "X-API-Key") "" = .ok (keyedAnalysis "X-API-Key") := by
    with_unfolding_all rfl
  refine ⟨hanalysis, ⟨_, hshown, rfl, rfl, rfl⟩, by decide +kernel, fun h => ?_⟩
  obtain ⟨shown, hpublished, hsensitive, -⟩ :=
    h.published ⟨"X-API-Key", .keyHeader "X-API-Key"⟩ (.head _)
  have hname : Security.Definition.configName ⟨"X-API-Key", .keyHeader "X-API-Key"⟩ =
      "x_api_key" := by decide +kernel
  rw [hname, hshown] at hpublished
  cases hpublished
  cases hsensitive

end Analysis

end SwaggerProvider
