import SwaggerProvider.Duration

/-!
What can go wrong, as causes. Each family of causes says its reason in words; `Error.message` is
the one place that puts an error into a sentence; `Error.kind` and `Error.hint` classify it.
-/

set_option autoImplicit false

namespace SwaggerProvider

inductive UrlFault where
  | relative
  | emptyHost
  | invalidDomain
  | invalidIpv4
  | invalidIpv6
  | invalidPort
  deriving DecidableEq

def UrlFault.reason : UrlFault → String
  | .relative => "relative URL without a base"
  | .emptyHost => "empty host"
  | .invalidDomain => "invalid international domain name"
  | .invalidIpv4 => "invalid IPv4 address"
  | .invalidIpv6 => "invalid IPv6 address"
  | .invalidPort => "invalid port number"

inductive TransportFault where
  | invalidUrl (fault : UrlFault)
  | unsendable
  | unsendableTo (url : String)
  | noResponse (url : String)
  | brokenBody (url : String)
  | stated (reason : String)
  deriving DecidableEq

def TransportFault.reason : TransportFault → String
  | .invalidUrl fault => fault.reason
  | .unsendable => "builder error"
  | .unsendableTo url => s!"builder error for url ({url})"
  | .noResponse url => s!"error sending request for url ({url})"
  | .brokenBody url => s!"error decoding response body for url ({url})"
  | .stated reason => reason

inductive LoadFault where
  | emptyLocation
  | unreadable (detail : String)
  | malformed
  | unfit
  | remoteReference (reference : String)
  | missingTarget (reference : String)
  | malformedVersion3 (version : String)
  | httpStatus (line : String)
  | tooLarge (bytes : Nat)
  | timedOut (seconds : Nat)
  | network (fault : TransportFault)
  | bodyUnread (fault : TransportFault)
  | stated (reason : String)
  deriving DecidableEq

def maxDocumentSize : Nat := 10 * 1024 * 1024

def LoadFault.reason : LoadFault → String
  | .emptyLocation => "document location is empty"
  | .unreadable detail => detail
  | .malformed => "the text is neither JSON nor YAML"
  | .unfit => "the document does not have the shape of a Swagger document"
  | .remoteReference reference => s!"remote reference '{reference}' is not supported"
  | .missingTarget reference => s!"missing schema for ref {reference}"
  | .malformedVersion3 version => s!"invalid OpenAPI {version} document"
  | .httpStatus line => s!"HTTP {line}"
  | .tooLarge bytes => s!"document too large: {bytes} bytes (max {maxDocumentSize} bytes)"
  | .timedOut seconds => s!"request timed out after {seconds} seconds"
  | .network fault => s!"network error: {fault.reason}"
  | .bodyUnread fault => s!"failed to read response body: {fault.reason}"
  | .stated reason => reason

/-- Which promise to the whole provider a document breaks. -/
inductive DocumentFault where
  | version3 (version : String)
  | unsupportedVersion (version : String)
  | missingVersion
  | noScheme
  | regionsMissing
  | noHost
  | notUrl (url : String) (fault : UrlFault)
  | urlWithoutHost (url : String)
  | hostRegionsUndeclared (resource host key : String)
  | hostRegionsEmpty (resource host key : String)
  | stated (reason : String)
  deriving DecidableEq

def multiRegionKey : String := "x-terraform-provider-multiregion-fqdn"

def providerRegionsKey : String := "x-terraform-provider-regions"

def DocumentFault.reason : DocumentFault → String
  | .version3 version => s!"OpenAPI {version} documents are not supported, only Swagger 2.0 is"
  | .unsupportedVersion version => s!"unsupported swagger version '{version}', expected '2.0'"
  | .missingVersion => "missing 'swagger' version field"
  | .noScheme => "document must declare the 'http' or 'https' scheme"
  | .regionsMissing => s!"{multiRegionKey} is declared but {providerRegionsKey} is missing or empty"
  | .noHost => "document declares no host and the document URL is empty"
  | .notUrl url fault => s!"document declares no host and '{url}' is not a URL: {fault.reason}"
  | .urlWithoutHost url => s!"document declares no host and '{url}' has none"
  | .hostRegionsUndeclared resource host key =>
    s!"resource '{resource}' uses the multi-region host '{host}' but {key} is not declared"
  | .hostRegionsEmpty resource host key =>
    s!"resource '{resource}' uses the multi-region host '{host}' but {key} is empty"
  | .stated reason => reason

def identifierKey : String := "x-terraform-id"

inductive PropertyFault where
  | noItems
  | listOfLists
  | unsupportedType (type : String)
  | cyclicReference (reference : String)
  | missingReference (reference : String)
  | severalIdentifiers
  | requiredReadOnly
  | computedReadOnly
  | computedDefault
  | statusNotReadOnly
  | timeout (value : String) (fault : TimeoutFault)
  | stated (reason : String)
  deriving DecidableEq

def PropertyFault.reason : PropertyFault → String
  | .noItems => "array property does not declare 'items'"
  | .listOfLists => "lists of lists are not supported"
  | .unsupportedType type => s!"type '{type}' is not supported"
  | .cyclicReference reference => s!"cyclic schema reference {reference} is not supported"
  | .missingReference reference => s!"missing schema for ref {reference}"
  | .severalIdentifiers => s!"only one property may be marked with {identifierKey}"
  | .requiredReadOnly => "a property cannot be both required and readOnly"
  | .computedReadOnly => "x-terraform-computed cannot be combined with readOnly"
  | .computedDefault => "x-terraform-computed cannot be combined with a default value"
  | .statusNotReadOnly => "x-terraform-field-status must be readOnly"
  | .timeout value fault => s!"invalid timeout '{value}': {fault.reason}"
  | .stated reason => reason

inductive PathFault where
  | notInstancePath
  | rootUndefined (root : String)
  | noName
  | noObjectGet
  | noPost
  | emptyBody
  | writableWithoutBody (property : String)
  | noSchema
  | missingInResponse (properties : List String)
  | severalIdentifiers (count : Nat)
  | noIdentifier
  | parentRootUndefined (path : String)
  | parentInstanceUndefined (path : String)
  | parentExcluded (path : String)
  | propertyFault (name : String) (fault : PropertyFault)
  | stated (reason : String)
  deriving DecidableEq

def PathFault.reason : PathFault → String
  | .notInstancePath => "path is not an instance path"
  | .rootUndefined root => s!"root path '{root}' is not defined in the document"
  | .noName => "could not derive a resource name"
  | .noObjectGet => "missing GET operation with a 200 object response"
  | .noPost => "root path has no POST operation"
  | .emptyBody => "POST body schema has no properties"
  | .writableWithoutBody property =>
    s!"POST has no body and response property '{property}' is not readOnly"
  | .noSchema => "POST has neither a body nor a successful response schema with properties"
  | .missingInResponse properties =>
    "response schema is missing request properties: " ++ ", ".intercalate properties
  | .severalIdentifiers count => s!"{count} properties are marked with {identifierKey}"
  | .noIdentifier => s!"schema has no 'id' property and none is marked with {identifierKey}"
  | .parentRootUndefined path => s!"parent root path '{path}' is not defined"
  | .parentInstanceUndefined path => s!"parent instance path '{path}' is not defined"
  | .parentExcluded path => s!"parent '{path}' is excluded"
  | .propertyFault name fault => s!"property '{name}': {fault.reason}"
  | .stated reason => reason

/-- Why the provider's or an operation's configuration is refused. -/
inductive ConfigFault where
  | pluginVersion (found : String)
  | providerName (name : String)
  | noDocument (provider variableName : String)
  | missingProviderAttribute (name : String)
  | endpointScheme (endpoint : String)
  | endpointHost (endpoint : String)
  | notMultiRegion
  | regionWithoutRegions
  | unknownRegion (region : String) (allowed : List String)
  | noRegion
  | identifierCount (template : String) (expected given : Nat)
  | unsatisfiedSecurity (requirements : List (List String))
  | requiredHeader (header method url configName : String)
  | headerName (name : String)
  | headerValue (name : String)
  | missingAttribute (name : String)
  | immutableProperty (name : String)
  | filterShape (value : String)
  | filterWithoutName
  | filterUnknown (name : String)
  | filterNotScalar (name : String)
  | matchCount (dataSource : String) (count : Nat)
  | clientBuild (reason : String)
  | stated (reason : String)
  deriving DecidableEq

def ConfigFault.reason : ConfigFault → String
  | .pluginVersion found =>
    s!"plugin configuration version '{found}' is not supported, expected '1'"
  | .providerName name => s!"provider name '{name}' must match ^[a-z0-9]+$"
  | .noDocument provider variableName =>
    s!"no document configured for provider '{provider}': set {variableName} or add it to the plugin configuration file"
  | .missingProviderAttribute name => s!"missing required provider attribute '{name}'"
  | .endpointScheme endpoint => s!"endpoint '{endpoint}' must be a host without a scheme"
  | .endpointHost endpoint => s!"endpoint '{endpoint}' is not a valid hostname or IP"
  | .notMultiRegion => "the API does not declare a multi-region host"
  | .regionWithoutRegions => "'region' is set but the API is not multi-region"
  | .unknownRegion region allowed =>
    s!"region '{region}' is not one of the allowed regions: " ++ ", ".intercalate allowed
  | .noRegion => "no region available"
  | .identifierCount template expected given =>
    s!"path '{template}' needs {expected} identifier(s), got {given}"
  | .unsatisfiedSecurity requirements =>
    "no configured credentials satisfy the security requirements: " ++
      " or ".intercalate (requirements.map fun names => " + ".intercalate names)
  | .requiredHeader header method url configName =>
    s!"header '{header}' is required by {method} {url} but '{configName}' is not configured"
  | .headerName name => s!"invalid header name '{name}': invalid HTTP header name"
  | .headerValue name => s!"invalid value for header '{name}': failed to parse header value"
  | .missingAttribute name => s!"missing required attribute '{name}'"
  | .immutableProperty name => s!"property '{name}' is immutable and cannot be updated"
  | .filterShape value => s!"'filter' must be a list of blocks, got {value}"
  | .filterWithoutName => "every 'filter' block needs a 'name'"
  | .filterUnknown name => s!"filter property '{name}' does not exist"
  | .filterNotScalar name => s!"filter property '{name}' must be a string, number or boolean"
  | .matchCount dataSource count =>
    s!"data source '{dataSource}' expects exactly one result, the filters matched {count}"
  | .clientBuild reason => s!"failed to build HTTP client: {reason}"
  | .stated reason => reason

/-- Why waiting for a status ended without one of the awaited ones. -/
inductive PollFault where
  | unexpected (targets pending : List String)
  | timedOut (timeout : Duration)
  | disappeared
  | noStatus
  | stated (reason : String)
  deriving DecidableEq

def PollFault.reason : PollFault → String
  | .unexpected targets pending =>
    "unexpected status; expected one of [" ++ ", ".intercalate targets ++ "] or pending [" ++
      ", ".intercalate pending ++ "]"
  | .timedOut timeout => s!"timed out after {timeout.text}"
  | .disappeared => "resource disappeared while waiting for it"
  | .noStatus => "response carries no status field"
  | .stated reason => reason

inductive Error where
  | fileSystem (detail : String)
  | yaml (detail : String)
  | json (detail : String)
  | documentLoad (location : String) (fault : LoadFault)
  | documentValidation (fault : DocumentFault)
  | resourceCompilation (resource : String) (fault : PathFault)
  | invalidProperty (property : String) (fault : PropertyFault)
  | runtimeConfig (fault : ConfigFault)
  | transport (method url : String) (fault : TransportFault)
  | apiResponse (method url : String) (status : Nat) (body : String)
  | polling (resource : String) (fault : PollFault) (lastStatus : String)
  | cancelled (resource : String)
  | unsupportedOperation (resource operation : String)
  | unknownResource (name : String)
  | notConfigured
  deriving DecidableEq

namespace Error

def message : Error → String
  | .fileSystem detail => s!"I/O error: {detail}"
  | .yaml detail => s!"YAML parsing error: {detail}"
  | .json detail => s!"JSON parsing error: {detail}"
  | .documentLoad location fault =>
    s!"Failed to load OpenAPI document '{location}': {fault.reason}"
  | .documentValidation fault => s!"Invalid OpenAPI document: {fault.reason}"
  | .resourceCompilation resource fault =>
    s!"Resource '{resource}' could not be compiled: {fault.reason}"
  | .invalidProperty property fault => s!"Property '{property}' is invalid: {fault.reason}"
  | .runtimeConfig fault => s!"Invalid provider configuration: {fault.reason}"
  | .transport method url fault => s!"{method} {url} failed: {fault.reason}"
  | .apiResponse method url status body => s!"{method} {url} returned HTTP {status}: {body}"
  | .polling resource fault lastStatus =>
    s!"Polling resource '{resource}' failed: {fault.reason} (last observed status: '{lastStatus}')"
  | .cancelled resource => s!"Operation on resource '{resource}' was cancelled"
  | .unsupportedOperation resource operation =>
    s!"Resource '{resource}' does not support the {operation} operation"
  | .unknownResource name => s!"Unknown resource type '{name}'"
  | .notConfigured => "Provider has not been configured yet"

/-- Compilation errors skip the path they belong to; all others end what is going on. -/
def isCompilation : Error → Bool
  | .resourceCompilation _ _ | .invalidProperty _ _ => true
  | _ => false

def isCancelled : Error → Bool
  | .cancelled _ => true
  | _ => false

def isNotFound : Error → Bool
  | .apiResponse _ _ status _ => status == 404
  | _ => false

/-- Puts a compilation error under the name of the resource it belongs to. -/
def inResource (resource : String) : Error → Error
  | .invalidProperty property fault => .resourceCompilation resource (.propertyFault property fault)
  | .resourceCompilation _ fault => .resourceCompilation resource fault
  | other => other

def serverTrouble (status : Nat) : Bool := 500 ≤ status && status ≤ 599

def kind : Error → String
  | .fileSystem _ => "FileSystem"
  | .yaml _ | .json _ | .documentLoad _ _ => "DocumentLoad"
  | .documentValidation _ => "DocumentValidation"
  | .resourceCompilation _ _ | .invalidProperty _ _ => "ResourceCompilation"
  | .runtimeConfig _ | .notConfigured | .unknownResource _ => "RuntimeConfig"
  | .transport _ _ _ | .apiResponse _ _ _ _ | .unsupportedOperation _ _ => "RuntimeHTTP"
  | .polling _ _ _ => "RuntimePolling"
  | .cancelled _ => "Cancellation"

def hint : Error → Option String
  | .yaml _ | .json _ | .documentLoad _ _ | .documentValidation _ =>
    some "Check that the OpenAPI document is a valid Swagger 2.0 document."
  | .resourceCompilation _ _ | .invalidProperty _ _ =>
    some "The resource was skipped; fix its definition in the OpenAPI document."
  | .runtimeConfig _ | .notConfigured | .unknownResource _ =>
    some "Check the provider block in your configuration."
  | .transport _ _ _ => some "Check that the API server is running and accessible."
  | .apiResponse _ _ status _ =>
    if status = 401 then some "Check the provider credentials and authentication configuration."
    else if status = 403 then
      some "The credentials may be valid but lack permission for this operation."
    else if serverTrouble status then
      some "The API server is experiencing issues. Try again later."
    else none
  | .polling _ _ _ =>
    some "The API did not reach a completed status; inspect the resource on the API side."
  | .fileSystem _ | .cancelled _ | .unsupportedOperation _ _ => none

def title : Error → String
  | .fileSystem _ => "File System Error"
  | .yaml _ | .json _ | .documentLoad _ _ => "Document Load Error"
  | .documentValidation _ => "Document Validation Error"
  | .resourceCompilation _ _ | .invalidProperty _ _ => "Resource Compilation Error"
  | .runtimeConfig _ | .notConfigured | .unknownResource _ => "Configuration Error"
  | .transport _ _ _ => "Connection Error"
  | .apiResponse _ _ status _ =>
    if status = 401 then "Authentication Error (401)"
    else if status = 403 then "Authorization Error (403)"
    else if status = 404 then "Resource Not Found (404)"
    else if serverTrouble status then "Server Error"
    else "HTTP Error"
  | .polling _ _ _ => "Polling Error"
  | .cancelled _ => "Cancelled"
  | .unsupportedOperation _ _ => "Unsupported Operation"

end Error

def resourceTimeoutKey : String := "x-terraform-resource-timeout"

/-- Reads the timeout of an operation; a refusal names the extension and the trimmed value. -/
def Duration.parseTimeout (value : String) : Except Error Duration :=
  match Duration.parse value with
  | .ok duration => .ok duration
  | .error fault => .error (.invalidProperty resourceTimeoutKey (.timeout (Text.trim value) fault))

end SwaggerProvider
