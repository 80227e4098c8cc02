import SwaggerProvider.Block.Publish
import SwaggerProvider.Payload

/-!
Filters, with which the host selects one item of a collection. A filter names a scalar field by its
host name and lists the values to accept; it is matched against the field's wire name. The value of
an item counts as its scalar text.
-/

set_option autoImplicit false

namespace SwaggerProvider

/-- The wire name of a field, and the scalar texts to accept. -/
structure Filter where
  name : String
  values : List String
  deriving DecidableEq

namespace Filter

def nameKey : String := "name"

def valuesKey : String := "values"

def field (r : Record) (name : String) : Except Error Field :=
  match r.find? fun f => f.hostName == name with
  | none => .error (.runtimeConfig (.filterUnknown name))
  | some f => if f.kind.isScalar then .ok f else .error (.runtimeConfig (.filterNotScalar name))

def ofBlock (r : Record) (block : Json) : Except Error Filter :=
  match (block.member? nameKey).bind Json.string? with
  | none => .error (.runtimeConfig .filterWithoutName)
  | some name =>
    (field r name).map fun f =>
      ⟨f.name, (((block.member? valuesKey).bind Json.items?).getD []).filterMap Json.scalarText?⟩

/-- The filter blocks of a configuration; a single one need not stand in a list. -/
def blocks (config : Members) : Except Error (List Json) :=
  match config.get? Publish.filterName with
  | none | some .null => .ok []
  | some (.array blocks) => .ok blocks
  | some (.object block) => .ok [.object block]
  | some other => .error (.runtimeConfig (.filterShape other.text))

def ofConfig (r : Record) (config : Members) : Except Error (List Filter) := do
  (← blocks config).mapM (ofBlock r)

def accepts (filter : Filter) (item : Members) : Bool :=
  ((item.get? filter.name).bind Json.scalarText?).any fun value => filter.values.contains value

def select (filters : List Filter) (items : List Json) : List Members :=
  (items.filterMap Json.members?).filter fun item => filters.all fun f => f.accepts item

def single (dataSource : String) (filters : List Filter) (items : List Json) :
    Except Error Members :=
  match select filters items with
  | [item] => .ok item
  | found => .error (.runtimeConfig (.matchCount dataSource found.length))

end Filter

end SwaggerProvider
