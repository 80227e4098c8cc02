import SwaggerProvider.Swagger.Document
import SwaggerProvider.Text.SnakeCase

/-!
Headers that operations declare as parameters. The host configures them under their configuration
names, so of several headers with one such name the first counts.
-/

set_option autoImplicit false

namespace SwaggerProvider

structure Header where
  name : String
  preferred : Option String
  required : Bool
  deriving DecidableEq

namespace Header

def nameKey : String := "x-terraform-header"

def configName (h : Header) : String := Text.snakeCase (h.preferred.getD h.name)

def ofParameter? (p : Swagger.Parameter) : Option Header :=
  if p.location == "header" then some ⟨p.name, p.extensions.text? nameKey, p.required⟩ else none

def addNew (headers : List Header) (h : Header) : List Header :=
  if headers.any fun other => other.configName == h.configName then headers else headers ++ [h]

def distinct (headers : List Header) : List Header := headers.foldl addNew []

def ofParameters (parameters : List Swagger.Parameter) : List Header :=
  distinct (parameters.filterMap ofParameter?)

def ofDocument (document : Swagger.Document) : List Header :=
  distinct (document.paths.values.flatMap fun item =>
    item.operations.flatMap fun op => ofParameters (item.parameters ++ op.parameters))

end Header

end SwaggerProvider
