import SwaggerProvider.Table
import SwaggerProvider.Yaml.Token

/-!
The node tree of a YAML text with a single document. An alias is kept as the number of its anchor;
an anchor's number is the count of the anchor names known when it is met, and a number that is used
again leads to its latest node.
-/

set_option autoImplicit false

namespace SwaggerProvider.Yaml

inductive Node where
  | alias (anchor : Nat)
  | scalar (tag : Option String) (style : Style) (text : String)
  | sequence (tag : Option String) (items : List Node)
  | mapping (tag : Option String) (entries : List (Node × Node))

namespace Node

def absent : Node := .scalar none .plain ""

mutual

def size : Node → Nat
  | .alias _ => 1
  | .scalar _ _ _ => 1
  | .sequence _ items => 2 + sizeItems items
  | .mapping _ entries => 2 + sizeEntries entries

def sizeItems : List Node → Nat
  | [] => 0
  | item :: rest => size item + sizeItems rest

def sizeEntries : List (Node × Node) → Nat
  | [] => 0
  | (key, value) :: rest => size key + size value + sizeEntries rest

end

end Node

/-- The anchors of a document: the number of each name, the node that each number leads to, counted
in the order of their beginnings, and the nodes that are complete. -/
structure Anchors where
  numbers : Table Nat
  targets : List (Nat × Nat)
  started : Nat
  nodes : List (Nat × Node)

namespace Anchors

def empty : Anchors := ⟨[], [], 0, []⟩

def start (anchors : Anchors) (name : String) : Anchors × Nat :=
  let number := anchors.numbers.length
  ({ anchors with
      numbers := anchors.numbers.insert name number
      targets := (number, anchors.started) :: anchors.targets
      started := anchors.started + 1 }, anchors.started)

def finish (anchors : Anchors) (position : Nat) (node : Node) : Anchors :=
  { anchors with nodes := (position, node) :: anchors.nodes }

def target? (anchors : Anchors) (number : Nat) : Option Node :=
  (anchors.targets.lookup number).bind fun position => anchors.nodes.lookup position

end Anchors

/-- What is left to read, with the tag handles and anchors that are known. -/
structure Reading where
  tokens : List Token
  handles : Table String
  anchors : Anchors

abbrev Reader := StateT Reading Option

namespace Reader

def peek : Reader (Option Token) := return (← get).tokens.head?

def skip : Reader Unit := modify fun r => { r with tokens := r.tokens.drop 1 }

def refuse {α : Type} : Reader α := fun _ => none

def expect (token : Token) : Reader Unit := do
  if (← peek) == some token then skip else refuse

def sees (tokens : List Token) : Reader Bool := return (← peek).any tokens.contains

def anchor? : Reader (Option String) := do
  match ← peek with
  | some (.anchor name) => skip; return some name
  | _ => return none

def tag? : Reader (Option String) := do
  match ← peek with
  | some (.tag handle suffix) =>
    skip
    if handle.isEmpty then return some suffix
    else match (← get).handles.get? handle with
      | some start => return some (start ++ suffix)
      | none => refuse
  | _ => return none

def properties : Reader (Option String × Option String) := do
  match ← anchor? with
  | some name => return (some name, ← tag?)
  | none =>
    let tag ← tag?
    if tag.isSome then return (← anchor?, tag) else return (none, none)

def afterBlockEntry : List Token := [.blockEntry, .blockEnd]

def afterIndentlessEntry : List Token := [.blockEntry, .key, .value, .blockEnd]

def afterBlockKey : List Token := [.key, .value, .blockEnd]

def afterFlowKey : List Token := [.value, .flowEntry, .flowMappingEnd]

def afterFlowValue : List Token := [.flowEntry, .flowMappingEnd]

def afterPairKey : List Token := [.value, .flowEntry, .flowSequenceEnd]

def afterPairValue : List Token := [.flowEntry, .flowSequenceEnd]

/-- Registers the anchor of a node around the reading of its contents. -/
def anchored (name : Option String) (contents : Reader Node) : Reader Node := do
  match name with
  | none => contents
  | some name =>
    let (anchors, position) := (← get).anchors.start name
    modify fun r => { r with anchors }
    let node ← contents
    modify fun r => { r with anchors := r.anchors.finish position node }
    return node

mutual

/-- Reads a node. Block collections are refused inside flow collections; a sequence without
indentation of its own may only be the value of a block mapping. -/
def node : Nat → Bool → Bool → Reader Node
  | 0, _, _ => refuse
  | fuel + 1, block, indentless => do
    match ← peek with
    | some (.alias name) =>
      skip
      match (← get).anchors.numbers.get? name with
      | some number => return .alias number
      | none => refuse
    | _ =>
      let (anchor, tag) ← properties
      anchored anchor (contents fuel block indentless anchor.isSome tag)

def contents : Nat → Bool → Bool → Bool → Option String → Reader Node
  | 0, _, _, _, _ => refuse
  | fuel + 1, block, indentless, anchored, tag => do
    match ← peek with
    | some .blockEntry =>
      if indentless then return .sequence tag (← indentlessItems fuel)
      else bare anchored tag
    | some (.scalar style text) =>
      skip
      return .scalar (if tag == some "!" then none else tag) style text
    | some .flowSequenceStart => skip; return .sequence tag (← flowItems fuel true)
    | some .flowMappingStart => skip; return .mapping tag (← flowEntries fuel true)
    | some .blockSequenceStart =>
      if block then do skip; return .sequence tag (← blockItems fuel) else bare anchored tag
    | some .blockMappingStart =>
      if block then do skip; return .mapping tag (← blockEntries fuel) else bare anchored tag
    | _ => bare anchored tag

def bare (anchored : Bool) (tag : Option String) : Reader Node :=
  if anchored || tag.isSome then return .scalar tag .plain "" else refuse

def nodeUnless : Nat → List Token → Bool → Bool → Reader Node
  | 0, _, _, _ => refuse
  | fuel + 1, stops, block, indentless => do
    if ← sees stops then return .absent else node fuel block indentless

def blockItems : Nat → Reader (List Node)
  | 0 => refuse
  | fuel + 1 => do
    if ← sees [.blockEntry] then
      skip
      let item ← nodeUnless fuel afterBlockEntry true false
      return item :: (← blockItems fuel)
    else
      expect .blockEnd
      return []

def indentlessItems : Nat → Reader (List Node)
  | 0 => refuse
  | fuel + 1 => do
    if ← sees [.blockEntry] then
      skip
      let item ← nodeUnless fuel afterIndentlessEntry true false
      return item :: (← indentlessItems fuel)
    else return []

def blockEntries : Nat → Reader (List (Node × Node))
  | 0 => refuse
  | fuel + 1 => do
    if ← sees [.key] then
      skip
      let key ← nodeUnless fuel afterBlockKey true true
      let value ← valueUnless fuel afterBlockKey true
      return (key, value) :: (← blockEntries fuel)
    else
      expect .blockEnd
      return []

def valueUnless : Nat → List Token → Bool → Reader Node
  | 0, _, _ => refuse
  | fuel + 1, stops, block => do
    if ← sees [.value] then
      skip
      nodeUnless fuel stops block block
    else return .absent

def flowItems : Nat → Bool → Reader (List Node)
  | 0, _ => refuse
  | fuel + 1, first => do
    if ← sees [.flowSequenceEnd] then
      skip
      return []
    else
      if !first then expect .flowEntry
      if ← sees [.key] then
        skip
        let key ← pairKey fuel
        let value ← valueUnless fuel afterPairValue false
        return .mapping none [(key, value)] :: (← flowItems fuel false)
      else if ← sees [.flowSequenceEnd] then
        skip
        return []
      else
        let item ← node fuel false false
        return item :: (← flowItems fuel false)

/-- The key of a pair inside a flow sequence. The token that shows its absence is passed over. -/
def pairKey : Nat → Reader Node
  | 0 => refuse
  | fuel + 1 => do
    if ← sees afterPairKey then
      skip
      return .absent
    else node fuel false false

def flowEntries : Nat → Bool → Reader (List (Node × Node))
  | 0, _ => refuse
  | fuel + 1, first => do
    if ← sees [.flowMappingEnd] then
      skip
      return []
    else
      if !first then expect .flowEntry
      if ← sees [.key] then
        skip
        let key ← nodeUnless fuel afterFlowKey false false
        let value ← valueUnless fuel afterFlowValue false
        return (key, value) :: (← flowEntries fuel false)
      else if ← sees [.flowMappingEnd] then
        skip
        return []
      else
        let key ← node fuel false false
        return (key, .absent) :: (← flowEntries fuel false)

end

/-- Reads the directives in front of a document. A version other than 1.1 and 1.2, a second one
and a handle that is declared twice are refused. -/
def directives : Nat → Bool → Table String → Reader (Table String)
  | 0, _, _ => refuse
  | fuel + 1, versioned, handles => do
    match ← peek with
    | some (.version major minor) =>
      if versioned || major ≠ 1 || !(minor = 1 || minor = 2) then refuse
      else
        skip
        directives fuel true handles
    | some (.handle name start) =>
      if handles.contains name then refuse
      else
        skip
        directives fuel versioned (handles.insert name start)
    | _ => return handles

def defaultHandles : Table String := [("!", "!"), ("!!", "tag:yaml.org,2002:")]

def isDirective : Token → Bool
  | .version _ _ | .handle _ _ => true
  | _ => false

def skipDocumentEnds : Nat → Reader Unit
  | 0 => return ()
  | fuel + 1 => do
    if ← sees [.documentEnd] then
      skip
      skipDocumentEnds fuel

/-- Reads the only document of a text; a text without one has no root. -/
def document (fuel : Nat) : Reader (Option Node) := do
  match ← peek with
  | none => return none
  | some first =>
    let explicit := isDirective first || first == .documentStart
    let declared ← directives fuel false []
    modify fun r => { r with handles := declared ++ defaultHandles }
    if explicit then expect .documentStart
    let next ← peek
    let isEmpty := explicit && next.all fun token =>
      isDirective token || token == .documentStart || token == .documentEnd
    let root ← if isEmpty then pure .absent else node fuel true false
    skipDocumentEnds fuel
    if (← peek).isNone then return some root else refuse

end Reader

structure Document where
  root : Option Node
  anchors : Anchors

def document? (text : String) : Option Document := do
  let tokens ← tokens? text
  let (root, reading) ←
    (Reader.document (4 * tokens.length + 8)).run ⟨tokens, [], .empty⟩
  some ⟨root, reading.anchors⟩

end SwaggerProvider.Yaml
