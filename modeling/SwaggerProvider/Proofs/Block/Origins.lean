import SwaggerProvider.Proofs.Block.Attributes

/-!
What the attributes of a block stem from, at every depth. Of the fields and parents that share a
name the last one is published, and the block inside an attribute shows the fields of its field.
-/

set_option autoImplicit false

namespace SwaggerProvider

/-- The block has the attribute, or under the host names one of the blocks inside it has. -/
inductive Block.Has : Block → List String → String → Attribute → Prop
  | own {block : Block} {name : String} {a : Attribute} (mem : (name, a) ∈ block.attributes) :
    Has block [] name a
  | inside {block inner : Block} {host name : String} {hosts : List String} {outer a : Attribute}
    (mem : (host, outer) ∈ block.attributes) (held : outer.type.block? = some inner)
    (next : Has inner hosts name a) : Has block (host :: hosts) name a

namespace Publish

/-- What an attribute stems from: a field, a parent, or the identifier of the thing to read. -/
inductive Origin where
  | field (f : Field)
  | parent (p : Parent)
  | identifier (name : String)

def identifierAttribute (name : String) : Attribute :=
  { (Attribute.ofType .string).asRequired with
    description := some s!"Identifier of the {name} to read" }

namespace Origin

def fields? : Origin → Option (List Field)
  | .field f => f.kind.fields?
  | .parent _ | .identifier _ => none

def inResource (replaces : Bool) : Origin → Attribute
  | .field f => fieldAttribute replaces f
  | .parent p => parentAttribute p
  | .identifier name => identifierAttribute name

def inSource : Origin → Attribute
  | .field f => Publish.readAttribute f
  | .parent p => parentAttribute p
  | .identifier name => identifierAttribute name

end Origin

def origins (fields : List Field) (parents : List Parent) : Table Origin :=
  fields.map (fun f => (f.hostName, .field f)) ++ parents.map fun p => (p.attribute, .parent p)

theorem mem_origins {fields : List Field} {parents : List Parent} {e : String × Origin} :
    e ∈ origins fields parents ↔
      (∃ f ∈ fields, (f.hostName, .field f) = e) ∨ ∃ p ∈ parents, (p.attribute, .parent p) = e := by
  simp [origins]

/-- The origin of what is published under a name, below host names. -/
def originBelow? (name : String) : List String → Table Origin → Option Origin
  | [], entries => Table.get? entries.reverse name
  | host :: hosts, entries =>
    ((Table.get? entries.reverse host).bind Origin.fields?).bind fun fields =>
      originBelow? name hosts (origins fields [])

def Displays (attr : Origin → Attribute) (entries : Table Origin) (block : Block) : Prop :=
  block.attributes = Table.sorted (entries.map fun e => (e.1, attr e.2))

variable {replaces : Bool} {attr : Origin → Attribute} {entries : Table Origin} {block : Block}
  {hosts : List String} {name : String} {a : Attribute}

theorem block?_inResource (origin : Origin) :
    (origin.inResource replaces).type.block? =
      origin.fields?.map fun fields => .ofAttributes (fieldAttributes replaces fields) := by
  cases origin with
  | field f => exact block?_fieldAttribute f
  | parent _ | identifier _ => rfl

theorem block?_inSource (origin : Origin) :
    origin.inSource.type.block? =
      origin.fields?.map fun fields => .ofAttributes (fieldAttributes false fields) := by
  cases origin with
  | field f => exact block?_fieldAttribute f
  | parent _ | identifier _ => rfl

theorem displays_fields (fields : List Field) :
    Displays (Origin.inResource replaces) (origins fields [])
      (.ofAttributes (fieldAttributes replaces fields)) := by
  rw [Displays, origins, List.map_nil, List.append_nil, List.map_map, fieldAttributes_eq_map]
  rfl

theorem displays_shown (fields : Record) (parents : List Parent) :
    Displays (Origin.inResource replaces) (origins fields parents)
      (shown replaces fields parents) := by
  rw [Displays, shown_attributes, origins, List.map_append, List.map_map, List.map_map]
  rfl

theorem Displays.mem_iff (h : Displays attr entries block) :
    (name, a) ∈ block.attributes ↔
      ∃ origin, Table.get? entries.reverse name = some origin ∧ a = attr origin := by
  rw [h, ← Table.get?_eq_some_iff (Table.nodup_keys_sorted _), Table.get?_sorted,
    ← List.map_reverse, Table.get?_map_values, Option.map_eq_some_iff]
  exact exists_congr fun origin => and_congr_right fun _ => eq_comm

theorem Displays.has_iff (h : Displays attr entries block)
    (hblock : ∀ origin, (attr origin).type.block? =
      origin.fields?.map fun fields => .ofAttributes (fieldAttributes replaces fields)) :
    block.Has hosts name a ↔ ∃ origin, originBelow? name hosts entries = some origin ∧
      a = if hosts = [] then attr origin else origin.inResource replaces := by
  induction hosts generalizing attr entries block with
  | nil =>
    simp only [originBelow?, if_true, ← h.mem_iff]
    constructor
    · rintro ⟨mem⟩
      exact mem
    · exact .own
  | cons host hosts ih =>
    have hinner (fields : List Field) := ih (displays_fields fields) block?_inResource
    simp only [ite_self] at hinner
    simp only [originBelow?, List.cons_ne_nil, if_false]
    constructor
    · rintro (_ | ⟨mem, held, next⟩)
      obtain ⟨outer, houter, rfl⟩ := h.mem_iff.1 mem
      rw [hblock] at held
      obtain ⟨fields, hfields, rfl⟩ := Option.map_eq_some_iff.1 held
      rw [houter, Option.bind_some, hfields, Option.bind_some]
      exact (hinner fields).1 next
    · rintro ⟨origin, horigin, ha⟩
      obtain ⟨fields, hfields, hbelow⟩ := Option.bind_eq_some_iff.1 horigin
      obtain ⟨outer, houter, hfields⟩ := Option.bind_eq_some_iff.1 hfields
      refine .inside (h.mem_iff.2 ⟨outer, houter, rfl⟩) ?_ ((hinner fields).2 ⟨origin, hbelow, ha⟩)
      rw [hblock, hfields]
      rfl

/-- What holds of all entries, and of the fields inside a field of which it holds, holds of every
origin. -/
theorem originBelow?_induction {P : Origin → Prop} {origin : Origin}
    (hinside : ∀ outer fields, P outer → outer.fields? = some fields → ∀ f ∈ fields, P (.field f))
    (hentries : ∀ e ∈ entries, P e.2) (h : originBelow? name hosts entries = some origin) :
    P origin := by
  have hentry {key : String} {found : Origin} {entries : Table Origin}
      (hentries : ∀ e ∈ entries, P e.2) (h : Table.get? entries.reverse key = some found) :
      P found :=
    hentries _ (List.mem_reverse.1 (Table.mem_of_get? h))
  induction hosts generalizing entries with
  | nil => exact hentry hentries h
  | cons host hosts ih =>
    obtain ⟨fields, hfields, hbelow⟩ := Option.bind_eq_some_iff.1 h
    obtain ⟨outer, houter, hfields⟩ := Option.bind_eq_some_iff.1 hfields
    have hfields := hinside outer fields (hentry hentries houter) hfields
    refine ih (fun e he => ?_) hbelow
    rcases mem_origins.1 he with ⟨f, hf, rfl⟩ | ⟨p, hp, -⟩
    · exact hfields f hf
    · cases hp

end Publish

end SwaggerProvider
