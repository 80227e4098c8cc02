import SwaggerProvider.Block.Basic

/-!
Blocks as JSON values, with their members in a fixed order.
-/

set_option autoImplicit false

namespace SwaggerProvider

def optionalMember {α : Type} (name : String) (write : α → Json) : Option α → Members
  | some a => [(name, write a)]
  | none => []

mutual

def AttributeType.encode : AttributeType → Json
  | .string => .object [("kind", .string "string")]
  | .int => .object [("kind", .string "int")]
  | .float => .object [("kind", .string "float")]
  | .bool => .object [("kind", .string "bool")]
  | .list item => .object [("kind", .string "list"), ("of", item.encode)]
  | .object block => .object [("kind", .string "object"), ("of", block.encode)]

def Attribute.encode : Attribute → Json
  | ⟨type, description, required, optional, computed, sensitive, forceNew, default⟩ =>
    .object ([("type", type.encode)] ++ optionalMember "description" .string description ++
      [("required", .bool required), ("optional", .bool optional), ("computed", .bool computed),
        ("sensitive", .bool sensitive), ("force_new", .bool forceNew)] ++
      optionalMember "default" id default)

def NestedBlock.encode : NestedBlock → Json
  | ⟨block, minItems, maxItems⟩ =>
    .object ([("block", block.encode), ("min_items", .ofNat minItems)] ++
      optionalMember "max_items" .ofNat maxItems)

def Block.encode : Block → Json
  | ⟨attributes, blocks⟩ =>
    .object ([("attributes", .object (encodeAttributes attributes))] ++
      match blocks with
      | [] => []
      | block :: rest => [("blocks", .object (encodeBlocks (block :: rest)))])

def encodeAttributes : List (String × Attribute) → List (String × Json)
  | [] => []
  | (name, a) :: rest => (name, a.encode) :: encodeAttributes rest

def encodeBlocks : List (String × NestedBlock) → List (String × Json)
  | [] => []
  | (name, b) :: rest => (name, b.encode) :: encodeBlocks rest

end

def Duration.encode (d : Duration) : Json :=
  match d.toDouble with
  | some seconds => .number (.double seconds)
  | none => .null

def Timeouts.encode (t : Timeouts) : Json :=
  let seconds : Option Duration → Json
    | some d => d.encode
    | none => .null
  .object [("create", seconds t.create), ("read", seconds t.read), ("update", seconds t.update),
    ("delete", seconds t.delete)]

def TypeSchema.encode (s : TypeSchema) : Json :=
  .object [("block", s.block.encode), ("timeouts", s.timeouts.encode)]

def ProviderSchema.encode (s : ProviderSchema) : Json :=
  .object [("provider", s.provider.encode),
    ("resources", .object (s.resources.map fun e => (e.1, e.2.encode))),
    ("data_sources", .object (s.dataSources.map fun e => (e.1, e.2.encode)))]

end SwaggerProvider
