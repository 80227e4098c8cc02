import SwaggerProvider.Swagger.Source
import SwaggerProvider.Text.Case
import SwaggerProvider.Yaml.Value

/-!
Where a provider's document is: in a variable of the environment, or in the plugin configuration
file, which lists services by the names of their providers.
-/

set_option autoImplicit false

namespace SwaggerProvider

structure Service where
  url : String
  insecure : Bool
  deriving DecidableEq

structure PluginConfig where
  version : String
  services : Table Service

namespace PluginConfig

open Yaml (Node Anchors)

def follow (anchors : Anchors) (node : Node) : Option Node :=
  match node with
  | .alias number => anchors.target? number
  | other => some other

def text? (anchors : Anchors) (node : Node) : Option String :=
  match follow anchors node with
  | some (.scalar _ _ text) => some text
  | _ => none

/-- A flag is a plain scalar, or a literal one that is tagged as flag. -/
def flag? (anchors : Anchors) (node : Node) : Option Bool :=
  match follow anchors node with
  | some (.scalar tag style text) =>
    if style = .plain ∨ (style = .literal ∧ tag = some (Yaml.Value.coreTag "bool")) then
      Yaml.Plain.bool? text
    else none
  | _ => none

def entries? (anchors : Anchors) (entries : List (Node × Node)) : Option (List (String × Node)) :=
  entries.mapM fun (key, value) => (text? anchors key).map fun name => (name, value)

def member? (members : List (String × Node)) (name : String) : Option (Option Node) :=
  match members.filter fun e => e.1 == name with
  | [] => some none
  | [(_, node)] => some (some node)
  | _ => none

def optional {α : Type} (read : Node → Option α) (absent : α) : Option Node → Option α
  | none => some absent
  | some node => read node

/-- A node with two members, given by name or, in their order, as a list. -/
def pair? (anchors : Anchors) (first second : String) (node : Node) :
    Option (Option Node × Option Node) := do
  match ← follow anchors node with
  | .mapping _ entries =>
    let members ← entries? anchors entries
    let a ← member? members first
    let b ← member? members second
    some (a, b)
  | .sequence _ [a] => some (some a, none)
  | .sequence _ [a, b] => some (some a, some b)
  | _ => none

def service? (anchors : Anchors) (node : Node) : Option Service := do
  let (url, insecure) ← pair? anchors "swagger-url" "insecure_skip_verify" node
  let url ← text? anchors (← url)
  let insecure ← optional (flag? anchors) false insecure
  some ⟨url, insecure⟩

def services? (anchors : Anchors) (node : Node) : Option (Table Service) := do
  match ← follow anchors node with
  | .mapping _ entries =>
    let members ← entries? anchors entries
    let services ← members.mapM fun e => (service? anchors e.2).map fun s => (e.1, s)
    some (Table.ofEntries services)
  | .scalar _ .plain "" => some []
  | _ => none

def decode (document : Yaml.Document) : Option PluginConfig := do
  let (version, services) ← pair? document.anchors "version" "services" (← document.root)
  let version ← text? document.anchors (← version)
  let services ← optional (services? document.anchors) [] services
  some ⟨version, services⟩

def supportedVersion : String := "1"

def parse (content : String) : Except Error PluginConfig :=
  match (Yaml.document? content).bind decode with
  | none => .error (.yaml "")
  | some config =>
    if config.version = supportedVersion then .ok config
    else .error (.runtimeConfig (.pluginVersion config.version))

def pathVariable : String := "OPENAPI_PROVIDER_PLUGIN_CONFIG"

def defaultFile : String := ".terraform.d/plugins/terraform-provider-openapi.yaml"

/-- Where the plugin configuration lies: where a variable says, or else below the home directory. -/
def path (home setting : Option String) : Option String :=
  match setting with
  | some path => some (Swagger.expandHome home path)
  | none => home.map fun home =>
    if home.toList.getLast? == some '/' then home ++ defaultFile else home ++ "/" ++ defaultFile

end PluginConfig

namespace Service

def checkName (name : String) : Except Error Unit :=
  let cs := name.toList
  if !cs.isEmpty && cs.all (fun c => Text.isAsciiDigit c || ('a' ≤ c && c ≤ 'z')) then .ok ()
  else .error (.runtimeConfig (.providerName name))

def urlVariables (name : String) : List String :=
  ["OTF_VAR_" ++ Text.upperText name ++ "_SWAGGER_URL", "OTF_VAR_" ++ name ++ "_SWAGGER_URL"]

def fromVariables (lookup : String → Option String) (name : String) : Option String :=
  (urlVariables name).findSome? fun key => (lookup key).filter fun v => !(Text.trim v).isEmpty

/-- The service of a provider: from the environment, or else from the plugin configuration. -/
def resolve (name : String) (lookup : String → Option String) (file : Swagger.FileText) :
    Except Error Service := do
  checkName name
  match fromVariables lookup name with
  | some url => return ⟨url, false⟩
  | none =>
    let missing : Error := .runtimeConfig (.noDocument name ((urlVariables name).headD ""))
    match file with
    | .absent _ => throw missing
    | .unreadable detail => throw (.fileSystem detail)
    | .content text =>
      let config ← PluginConfig.parse text
      match config.services.get? name with
      | some service => return service
      | none => throw missing

end Service

end SwaggerProvider
