import SwaggerProvider.Proofs.Analysis.Origin
import SwaggerProvider.Proofs.Config.Credentials
import SwaggerProvider.Proofs.Config.Endpoints
import SwaggerProvider.Proofs.Lifecycle.Failures
import SwaggerProvider.Proofs.Lifecycle.Sending

/-!
Requirements of the whole document under an accepted configuration. What the document asks for with
definitions that are supported, the configuration has; so an operation that asks for nothing of its
own gets the credentials of the first requirement of that kind.
-/

set_option autoImplicit false

namespace SwaggerProvider

open Swagger (Document)

section Definitions

variable {document : Document}

/-- The document has a definition of the name, and of a supported type. -/
def Swagger.Document.Defines (document : Document) (name : String) : Prop :=
  ∃ d, (name, d) ∈ document.securityDefinitions ∧ ∃ s, Security.scheme d = .ok s

/-- A requirement that refers to supported definitions only. -/
def Swagger.Document.Supports (document : Document) (r : Security.Requirement) : Prop :=
  ∀ s ∈ r, document.Defines s.name

theorem Security.mem_definitions_iff {name : String} {d : Security.Definition} :
    (name, d) ∈ (Security.Schemes.ofDocument document).definitions ↔ d.name = name ∧
      ∃ e, (name, e) ∈ document.securityDefinitions ∧ Security.scheme e = .ok d.scheme := by
  unfold Security.Schemes.ofDocument
  simp only [List.mem_filterMap]
  constructor
  · rintro ⟨⟨key, e⟩, he, hd⟩
    dsimp only at hd
    split at hd
    · next s hs =>
      cases hd
      exact ⟨rfl, e, he, hs⟩
    · cases hd
  · rintro ⟨rfl, e, he, hs⟩
    exact ⟨(d.name, e), he, by rw [hs]⟩

theorem Security.get?_definitions {name : String} {d : Security.Definition}
    (h : (Security.Schemes.ofDocument document).definitions.get? name = some d) :
    d.name = name ∧ d ∈ (Security.Schemes.ofDocument document).definitions.values :=
  ⟨(Security.mem_definitions_iff.1 (Table.mem_of_get? h)).1,
    List.mem_map_of_mem (Table.mem_of_get? h)⟩

theorem Security.isSome_definitions_iff (name : String) :
    ((Security.Schemes.ofDocument document).definitions.get? name).isSome = true ↔
      document.Defines name := by
  rw [← Table.mem_keys_iff, Table.keys, List.mem_map]
  constructor
  · rintro ⟨⟨key, d⟩, hd, rfl⟩
    obtain ⟨-, e, he, hs⟩ := Security.mem_definitions_iff.1 hd
    exact ⟨e, he, _, hs⟩
  · rintro ⟨e, he, s, hs⟩
    exact ⟨(name, ⟨name, s⟩), Security.mem_definitions_iff.2 ⟨rfl, e, he, hs⟩, rfl⟩

end Definitions

namespace Configuration

variable {values : Members} {a : Analysis}

theorem mem_readSecurity {schemes : Security.Schemes} {definitions : List Security.Definition}
    {entries : List (String × String)} (h : readSecurity values schemes definitions = .ok entries) :
    ∀ e, e ∈ entries ↔ ∃ d ∈ definitions, d.configName = e.1 ∧ value? values e.1 = some e.2 := by
  induction definitions generalizing entries with
  | nil =>
    cases h
    simp
  | cons d rest ih =>
    rintro ⟨key, value⟩
    rw [List.exists_mem_cons_iff]
    unfold readSecurity at h
    cases hvalue : value? values d.configName with
    | some first =>
      rw [hvalue] at h
      obtain ⟨more, hmore, rfl⟩ := Except.map_eq_ok.1 h
      rw [List.mem_cons, ih hmore]
      refine or_congr ⟨fun heq => ?_, fun hfirst => ?_⟩ Iff.rfl
      · cases heq
        exact ⟨rfl, hvalue⟩
      · obtain ⟨hname, hkey⟩ := hfirst
        subst hname
        rw [hvalue] at hkey
        cases hkey
        rfl
    | none =>
      rw [hvalue] at h
      dsimp only at h
      split at h
      · cases h
      · rw [ih h]
        refine ⟨.inr, fun hfound => hfound.resolve_left fun hfirst => ?_⟩
        obtain ⟨hname, hkey⟩ := hfirst
        subst hname
        rw [hvalue] at hkey
        cases hkey

theorem get?_security {c : Configuration} (h : ofValues values a = .ok c)
    {d : Security.Definition} (hd : d ∈ a.security.definitions.values) :
    c.security.get? d.configName = value? values d.configName := by
  obtain ⟨entries, -, hentries, -, -, hsecurity, -⟩ := ofValues_eq_ok h
  rw [hsecurity]
  refine Table.get?_sorted_eq fun found => ?_
  rw [mem_readSecurity hentries]
  exact ⟨fun ⟨_, _, _, hgiven⟩ => hgiven, fun hgiven => ⟨d, hd, rfl, hgiven⟩⟩

theorem isSome_value?_of_global {c : Configuration} (h : ofValues values a = .ok c)
    {d : Security.Definition} (hd : d ∈ a.security.definitions.values)
    (hglobal : a.security.isGlobal d.name = true) :
    (value? values d.configName).isSome = true := by
  cases hvalue : value? values d.configName with
  | some value => rfl
  | none =>
    obtain ⟨key, hmissing⟩ := ofValues_missing_iff.2 ⟨d, hd, hglobal, hvalue⟩
    rw [h] at hmissing
    cases hmissing

end Configuration

namespace Security

/-- The definition that a use of a scheme names, with the value that the host gives for it. -/
structure Given (document : Document) (values : Members) (s : SchemeUse) (choice : Choice) :
    Prop where
  name : choice.1.name = s.name
  defined : ∃ d, (s.name, d) ∈ document.securityDefinitions ∧ scheme d = .ok choice.1.scheme
  value : Configuration.value? values choice.1.configName = some choice.2

/-- Errors other than that no requirement can be satisfied. -/
def NotUnsatisfied (e : Error) : Prop := ∀ names, e ≠ .runtimeConfig (.unsatisfiedSecurity names)

theorem isGlobal_of_mem {schemes : Schemes} {r : Requirement} (hr : r ∈ schemes.global)
    {s : SchemeUse} (hs : s ∈ r) : schemes.isGlobal s.name = true :=
  List.any_eq_true.2 ⟨r, hr, List.any_eq_true.2 ⟨s, hs, beq_self_eq_true _⟩⟩

theorem select_of_first {schemes : Schemes} {values : Table String} {front back : List Requirement}
    {r : Requirement} {choices : List Choice}
    (hfront : ∀ q ∈ front, satisfy? schemes values q = none)
    (hr : satisfy? schemes values r = some choices) :
    select schemes values (front ++ r :: back) = .ok choices := by
  have hfound : (front ++ r :: back).findSome? (satisfy? schemes values) = some choices :=
    List.findSome?_eq_some_iff.2 ⟨front, r, back, rfl, hr, hfront⟩
  unfold select
  rw [hfound]
  cases front <;> rfl

theorem select_of_mem {schemes : Schemes} {values : Table String}
    {requirements : List Requirement} {r : Requirement} {choices : List Choice}
    (hmem : r ∈ requirements) (hr : satisfy? schemes values r = some choices) :
    ∃ choices, select schemes values requirements = .ok choices := by
  have hfound : (requirements.findSome? (satisfy? schemes values)).isSome = true :=
    List.findSome?_isSome_iff.2 ⟨r, hmem, by rw [hr]; rfl⟩
  obtain ⟨first, hfirst⟩ := Option.isSome_iff_exists.1 hfound
  unfold select
  rw [hfirst]
  split <;> exact ⟨_, rfl⟩

theorem select_of_none {schemes : Schemes} {values : Table String}
    {requirements : List Requirement} (hne : requirements ≠ [])
    (h : ∀ r ∈ requirements, satisfy? schemes values r = none) :
    ∃ names, select schemes values requirements =
      .error (.runtimeConfig (.unsatisfiedSecurity names)) := by
  have hnone : requirements.findSome? (satisfy? schemes values) = none :=
    List.findSome?_eq_none_iff.2 h
  unfold select
  rw [hnone, if_neg (by simpa using hne)]
  exact ⟨_, rfl⟩

section Accepted

variable {document : Document} {url : String} {a : Analysis} {values : Members}
  {config : Configuration}

theorem security_of_analyse (h : analyse document url = .ok a) :
    a.security = Schemes.ofDocument document := by
  obtain ⟨backend, -, hbasis⟩ := sameBasis_of_analyse h
  exact hbasis.security

theorem satisfy?_of_supported (hanalysis : analyse document url = .ok a)
    (hconfig : Configuration.ofValues values a = .ok config) {r : Requirement}
    (hr : r ∈ a.security.global) (hsupported : document.Supports r) :
    ∃ choices, satisfy? a.security config.security r = some choices ∧
      List.Forall₂ (Given document values) r choices := by
  have hchoose : ∀ s ∈ r, ∃ choice, choose? a.security config.security s = some choice ∧
      Given document values s choice := by
    intro s hs
    have hknown := (isSome_definitions_iff s.name).2 (hsupported s hs)
    rw [← security_of_analyse hanalysis] at hknown
    obtain ⟨d, hd⟩ := Option.isSome_iff_exists.1 hknown
    have hdefinition := hd
    rw [security_of_analyse hanalysis] at hdefinition
    obtain ⟨hname, hmem⟩ := get?_definitions hdefinition
    obtain ⟨-, defined⟩ := mem_definitions_iff.1 (Table.mem_of_get? hdefinition)
    rw [← security_of_analyse hanalysis] at hmem
    have hglobal : a.security.isGlobal d.name = true := hname ▸ isGlobal_of_mem hr hs
    obtain ⟨value, hvalue⟩ :=
      Option.isSome_iff_exists.1 (Configuration.isSome_value?_of_global hconfig hmem hglobal)
    refine ⟨(d, value), ?_, hname, defined, hvalue⟩
    rw [choose?, hd, Option.bind_eq_bind, Option.bind_some,
      Configuration.get?_security hconfig hmem,
      hvalue]
    rfl
  obtain ⟨choices, hchoices⟩ := List.exists_forall₂ hchoose
  exact ⟨choices, Option.mapM_eq_some.2 (hchoices.imp fun _ _ h => h.1),
    hchoices.imp fun _ _ h => h.2⟩

theorem satisfy?_of_not_supported (hanalysis : analyse document url = .ok a) {r : Requirement}
    (hsupported : ¬ document.Supports r) : satisfy? a.security config.security r = none := by
  refine Option.eq_none_iff_forall_ne_some.2 fun choices h => hsupported fun s hs => ?_
  obtain ⟨choice, -, hchoice⟩ := (mem_of_satisfy? h).1 s hs
  rw [← isSome_definitions_iff, ← security_of_analyse hanalysis, (choose?_eq_some hchoice).1]
  rfl

theorem run_authenticate {schemes : Schemes} {table : Table String}
    {requirements : List Requirement} {choices : List Choice}
    (h : select schemes table requirements = .ok choices) (t : Http.Timeline) :
    (authenticate schemes table requirements).run t = (credentials choices).run t :=
  Http.Run.run_lift_ok h

theorem notUnsatisfied_authenticate {schemes : Schemes} {table : Table String}
    {requirements : List Requirement} {choices : List Choice}
    (h : select schemes table requirements = .ok choices) :
    Http.Run.FailsOnly NotUnsatisfied (authenticate schemes table requirements) := by
  intro t e he names
  rw [run_authenticate h] at he
  rintro rfl
  exact credentials_ofExchange choices t _ he

/-- The first requirement of the document that is supported is the one that is satisfied. -/
theorem select_first_supported (hanalysis : analyse document url = .ok a)
    (hconfig : Configuration.ofValues values a = .ok config) {front back : List Requirement}
    {r : Requirement} (hlist : a.security.global = front ++ r :: back)
    (hfront : ∀ q ∈ front, ¬ document.Supports q) (hr : document.Supports r) :
    ∃ choices, List.Forall₂ (Given document values) r choices ∧
      select a.security config.security a.security.global = .ok choices := by
  have hmem : r ∈ a.security.global := by
    rw [hlist]
    exact List.mem_append_right _ List.mem_cons_self
  obtain ⟨choices, hchoices, hgiven⟩ := satisfy?_of_supported hanalysis hconfig hmem hr
  rw [hlist]
  exact ⟨choices, hgiven, select_of_first
    (fun q hq => satisfy?_of_not_supported hanalysis (hfront q hq)) hchoices⟩

theorem notUnsatisfied_global_iff (hanalysis : analyse document url = .ok a)
    (hconfig : Configuration.ofValues values a = .ok config) :
    Http.Run.FailsOnly NotUnsatisfied
        (authenticate a.security config.security a.security.global) ↔
      a.security.global = [] ∨ ∃ r ∈ a.security.global, document.Supports r := by
  constructor
  · intro hfails
    by_contra hnot
    obtain ⟨hne, hunsupported⟩ := not_or.1 hnot
    obtain ⟨names, hnames⟩ := select_of_none hne fun r hr =>
      satisfy?_of_not_supported hanalysis fun h => hunsupported ⟨r, hr, h⟩
    have hrun : ((authenticate a.security config.security a.security.global).run
        (.ofReplies [])).1 = .error (.runtimeConfig (.unsatisfiedSecurity names)) := by
      unfold authenticate
      rw [Http.Run.run_lift_error hnames]
    exact hfails _ _ hrun names rfl
  · rintro (hnone | ⟨r, hr, hsupported⟩)
    · rw [hnone]
      exact notUnsatisfied_authenticate rfl
    · obtain ⟨choices, hchoices, -⟩ := satisfy?_of_supported hanalysis hconfig hr hsupported
      obtain ⟨first, hselect⟩ := select_of_mem hr hchoices
      exact notUnsatisfied_authenticate hselect

theorem security_of_compile {op : Swagger.Operation} {parameters : List Swagger.Parameter}
    {schemes : Schemes} {operation : Operation}
    (h : Operation.compile op parameters schemes = .ok operation) :
    operation.security = schemes.requirements op.security :=
  (Operation.compile_eq_ok h).2

/-- An operation without requirements of its own gets the credentials of the first requirement of
the document that refers to supported definitions only, each with the value that the host has
given, and none where the document requires nothing. It lacks credentials only where every
requirement of the document refers to something that is not supported. -/
theorem document_security_satisfied (hanalysis : analyse document url = .ok a)
    (hconfig : Configuration.ofValues values a = .ok config) {op : Swagger.Operation}
    (hown : op.security = none) {parameters : List Swagger.Parameter} {operation : Operation}
    (hop : Operation.compile op parameters a.security = .ok operation) :
    (document.security.getD [] = [] → ∀ t,
      (authenticate a.security config.security operation.security).run t = (.ok .empty, t)) ∧
    (∀ front r back, (document.security.getD []).map requirement = front ++ r :: back →
      (∀ q ∈ front, ¬ document.Supports q) → document.Supports r →
      ∃ choices, List.Forall₂ (Given document values) r choices ∧
        select a.security config.security operation.security = .ok choices ∧
        ∀ t, (authenticate a.security config.security operation.security).run t =
          (credentials choices).run t) ∧
    (Http.Run.FailsOnly NotUnsatisfied
        (authenticate a.security config.security operation.security) ↔
      document.security.getD [] = [] ∨
        ∃ r ∈ (document.security.getD []).map requirement, document.Supports r) := by
  have hglobal : a.security.global = (document.security.getD []).map requirement := by
    rw [security_of_analyse hanalysis]
    rfl
  have hsecurity : operation.security = a.security.global := by
    rw [security_of_compile hop, hown]
    rfl
  rw [hsecurity]
  refine ⟨fun hnone t => ?_, fun front r back hlist hfront hr => ?_, ?_⟩
  · rw [hglobal, hnone]
    rfl
  · obtain ⟨choices, hgiven, hselect⟩ :=
      select_first_supported hanalysis hconfig (hglobal.trans hlist) hfront hr
    exact ⟨choices, hgiven, hselect, run_authenticate hselect⟩
  · rw [notUnsatisfied_global_iff hanalysis hconfig, hglobal, List.map_eq_nil_iff]

end Accepted

def guardedDocument : Document := { Document.empty with
  host := some "api.example.com"
  schemes := ["http"]
  securityDefinitions := [("login", ⟨"oauth2", none, none, []⟩),
    ("key", ⟨"apiKey", some "X-API-Key", some "header", []⟩),
    ("token", ⟨"apiKey", some "token", some "query", []⟩)]
  security := some [[("login", [])], [("key", []), ("token", [])]] }

def guardedValues : Members := [("key", .string "k"), ("token", .string "t")]

def guardedAnalysis : Analysis :=
  .start guardedDocument ⟨"api.example.com", "", ["http"], none⟩ (.ofDocument guardedDocument)

/-- The login is passed over, key and token are used together. -/
theorem document_security_satisfied_key :
    analyse guardedDocument "" = .ok guardedAnalysis ∧
    ∃ config operation choices, Configuration.ofValues guardedValues guardedAnalysis = .ok config ∧
      Operation.compile .empty [] guardedAnalysis.security = .ok operation ∧
      choices.map (fun choice => (choice.1.name, choice.2)) = [("key", "k"), ("token", "t")] ∧
      ∀ t, (authenticate guardedAnalysis.security config.security operation.security).run t =
        (credentials choices).run t := by
  have hanalysis : analyse guardedDocument "" = .ok guardedAnalysis := by with_unfolding_all rfl
  have hconfig : Configuration.ofValues guardedValues guardedAnalysis =
      .ok ⟨[("key", "k"), ("token", "t")], [], [], none⟩ := by decide +kernel
  have hlogin : ¬ guardedDocument.Supports [⟨"login", []⟩] := by
    intro h
    obtain ⟨d, hd, s, hs⟩ := h ⟨"login", []⟩ List.mem_cons_self
    obtain rfl : d = ⟨"oauth2", none, none, []⟩ := by simpa [guardedDocument] using hd
    cases hs
  have hkeys : guardedDocument.Supports [⟨"key", []⟩, ⟨"token", []⟩] := by
    intro s hs
    rcases List.mem_pair.1 hs with rfl | rfl
    · exact ⟨_, .tail _ (.head _), _, rfl⟩
    · exact ⟨_, .tail _ (.tail _ (.head _)), _, rfl⟩
  have hop : Operation.compile .empty [] guardedAnalysis.security =
      .ok { Operation.empty with security := guardedAnalysis.security.global } := rfl
  obtain ⟨-, hfirst, -⟩ := document_security_satisfied hanalysis hconfig rfl hop
  obtain ⟨choices, hgiven, -, hrun⟩ := hfirst [[⟨"login", []⟩]] [⟨"key", []⟩, ⟨"token", []⟩] [] rfl
    (by simpa using hlogin) hkeys
  refine ⟨hanalysis, _, _, choices, hconfig, hop, ?_, hrun⟩
  obtain ⟨key, more, hkey, hmore, rfl⟩ := List.forall₂_cons_left_iff.1 hgiven
  obtain ⟨token, rest, htoken, hrest, rfl⟩ := List.forall₂_cons_left_iff.1 hmore
  rw [List.forall₂_nil_left_iff] at hrest
  have hvalue {s : SchemeUse} {choice : Choice} (h : Given guardedDocument guardedValues s choice)
      (value : String)
      (hs : Configuration.value? guardedValues (Text.snakeCase s.name) = some value) :
      (choice.1.name, choice.2) = (s.name, value) := by
    have hgiven := h.value
    rw [Definition.configName, h.name, hs] at hgiven
    rw [h.name, Option.some.inj hgiven]
  rw [hrest, List.map_cons, List.map_cons, hvalue hkey "k" (by decide +kernel),
    hvalue htoken "t" (by decide +kernel)]
  rfl

end Security

end SwaggerProvider
