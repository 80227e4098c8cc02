import SwaggerProvider.Block.Encode
import SwaggerProvider.Provider

/-!
The command line: it prints the published schema of a provider, or the names of its resources and
data sources. The document is found through the environment or the plugin configuration.
-/

set_option autoImplicit false

namespace SwaggerProvider.CommandLine

inductive Command where
  | schema (provider : String) (compact : Bool)
  | resources (provider : String) (skipped : Bool)
  deriving DecidableEq

structure Invocation where
  command : Command
  jsonErrors : Bool
  verbosity : Nat
  deriving DecidableEq

inductive Request where
  | run (invocation : Invocation)
  | help
  | version
  | misuse
  deriving DecidableEq

/-- Flags that may stand before and after the name of the command. -/
structure Common where
  jsonErrors : Bool
  verbosity : Nat

def Common.none : Common := ⟨false, 0⟩

inductive Meaning where
  | jsonErrors
  | verbose (times : Nat)
  | help
  | version
  | switch
  | endOfFlags
  | word (text : String)
  | unknown

def letters (hasVersion : Bool) : List Char → Nat → Meaning
  | [], times => .verbose times
  | 'v' :: rest, times => letters hasVersion rest (times + 1)
  | 'h' :: _, _ => .help
  | 'V' :: _, _ => if hasVersion then .version else .unknown
  | _ :: _, _ => .unknown

def meaning (hasVersion : Bool) (switch : Option String) (argument : String) : Meaning :=
  match argument.toList with
  | ['-', '-'] => .endOfFlags
  | '-' :: '-' :: _ =>
    if argument == "--json-errors" then .jsonErrors
    else if argument == "--help" then .help
    else if hasVersion && argument == "--version" then .version
    else if switch == some argument then .switch
    else .unknown
  | '-' :: c :: rest => letters hasVersion (c :: rest) 0
  | _ => .word argument

structure Given where
  common : Common
  provider : Option String
  switch : Bool
  flagsEnded : Bool

/-- Reads the arguments of a command from left to right; none if there is nothing to run. -/
def arguments (switch : String) (g : Given) : List String → Except Request Given
  | [] => .ok g
  | argument :: rest =>
    match if g.flagsEnded then .word argument else meaning false (some switch) argument with
    | .jsonErrors =>
      if g.common.jsonErrors then .error .misuse
      else arguments switch { g with common := { g.common with jsonErrors := true } } rest
    | .verbose times =>
      arguments switch
        { g with common := { g.common with verbosity := g.common.verbosity + times } } rest
    | .help => .error .help
    | .version => .error .version
    | .switch =>
      if g.switch then .error .misuse else arguments switch { g with switch := true } rest
    | .endOfFlags => arguments switch { g with flagsEnded := true } rest
    | .word text =>
      if g.provider.isSome then .error .misuse
      else arguments switch { g with provider := some text } rest
    | .unknown => .error .misuse

def command (switch : String) (make : String → Bool → Command) (before : Common)
    (rest : List String) : Request :=
  match arguments switch ⟨.none, none, false, false⟩ rest with
  | .error request => request
  | .ok g =>
    match g.provider with
    | none => .misuse
    | some provider =>
      .run ⟨make provider g.switch, before.jsonErrors || g.common.jsonErrors,
        if g.common.verbosity = 0 then before.verbosity else g.common.verbosity⟩

def commandNames : List String := ["schema", "resources", "help"]

def helpOn : List String → Request
  | [] => .help
  | [name] => if commandNames.contains name then .help else .misuse
  | _ => .misuse

def readFrom (common : Common) : List String → Request
  | [] => .misuse
  | argument :: rest =>
    match meaning true none argument with
    | .jsonErrors =>
      if common.jsonErrors then .misuse else readFrom { common with jsonErrors := true } rest
    | .verbose times => readFrom { common with verbosity := common.verbosity + times } rest
    | .help => .help
    | .version => .version
    | .word "schema" => command "--compact" .schema common rest
    | .word "resources" => command "--skipped" .resources common rest
    | .word "help" => helpOn rest
    | .word _ | .switch | .endOfFlags | .unknown => .misuse

def read (arguments : List String) : Request := readFrom .none arguments

def versionText : String := s!"openapi-provider {Settings.standard.version}\n"

/-- What a run leaves behind: its exit code, its texts, what it said and the file for that. -/
structure Output where
  exit : Nat
  out : String
  err : String
  events : List Log.Event
  logFile : Option String

/-- The places that a run depends on. Opening a file for the log yields a reason if it fails. -/
structure Surroundings (m : Type → Type) where
  setting : String → Option String
  access : Swagger.Access m
  openLog : String → m (Except String Unit)

def lines (texts : List String) : String := String.join (texts.map fun text => text ++ "\n")

def logFormatVariable : String := "OPENAPI_PROVIDER_LOG_FORMAT"

def formatWarning (setting : String → Option String) : List String :=
  match (setting logFormatVariable).map Text.lowerText with
  | none | some "json" | some "text" => []
  | some other =>
    [s!"Warning: unrecognised {logFormatVariable} '{other}', expected 'json' or 'text'. " ++
      "Using 'text'."]

def logFileVariable : String := "OPENAPI_PROVIDER_LOG_FILE"

/-- The file that takes the log, if one is named and can be opened, and what is said if not. -/
def logFile {m : Type → Type} [Monad m] (s : Surroundings m) :
    m (Option String × List String) := do
  match s.setting logFileVariable with
  | none => return (none, [])
  | some path =>
    match ← s.openLog path with
    | .ok _ => return (some path, [])
    | .error reason =>
      return (none, [s!"Warning: could not open log file '{path}': {reason}. Using stderr."])

def errorText (json : Bool) (e : Error) : String :=
  if json then
    (Json.object [("error_type", .string e.kind), ("message", .string e.message),
      ("context", match e.hint with
        | some hint => .string hint
        | none => .null)]).pretty ++ "\n"
  else
    lines ([e.title, e.message] ++ match e.hint with
      | some hint => ["", "Hint: " ++ hint]
      | none => [])

/-- The provider that is configured under a name, and what is said meanwhile. -/
def openProvider {m : Type → Type} [Monad m] (s : Surroundings m) (name : String) :
    m (Except Error Provider) := do
  let file ← match PluginConfig.path s.access.home (s.setting PluginConfig.pathVariable) with
    | some path => s.access.fileText path
    | none => pure (.absent "")
  match Service.resolve name s.setting file with
  | .error e => return .error e
  | .ok service =>
    match ← Swagger.load s.access service.url service.insecure with
    | .error e => return .error e
    | .ok document => return Provider.ofDocument name document service.url .standard

def schemaText (p : Provider) (compact : Bool) : String :=
  let value := p.schema.encode
  (if compact then value.text else value.pretty) ++ "\n"

def resourcesText (p : Provider) (skipped : Bool) : String :=
  lines (p.schema.resources.keys.map ("resource     " ++ ·) ++
    p.schema.dataSources.keys.map ("data-source  " ++ ·) ++
    if skipped then p.analysis.skipped.map fun s => s!"skipped      {s.path}: {s.reason}" else [])

def providerName : Command → String
  | .schema provider _ | .resources provider _ => provider

def commandText (p : Provider) : Command → String
  | .schema _ compact => schemaText p compact
  | .resources _ skipped => resourcesText p skipped

def variableNames (i : Invocation) : List String :=
  [PluginConfig.pathVariable, logFileVariable, logFormatVariable] ++
    Service.urlVariables (providerName i.command)

def shown (verbosity : Nat) (events : List Log.Event) : List Log.Event :=
  match verbosity with
  | 0 => []
  | 1 => events.filter fun e => e.level ≠ .trace
  | _ => events

def run {m : Type → Type} [Monad m] (s : Surroundings m) (i : Invocation) : m Output := do
  let (file, refusal) ← logFile s
  let warnings := lines (refusal ++ formatWarning s.setting)
  match ← openProvider s (providerName i.command) with
  | .error e => return ⟨1, "", warnings ++ errorText i.jsonErrors e, [], file⟩
  | .ok p =>
    return ⟨0, commandText p i.command, warnings, shown i.verbosity p.openingEvents, file⟩

end SwaggerProvider.CommandLine
