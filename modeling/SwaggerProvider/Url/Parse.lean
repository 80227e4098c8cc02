import SwaggerProvider.Url.Host

/-!
Absolute URLs in their normal form: scheme and host in lower case, default ports left out, dot
segments resolved, and characters that are not safe in percent notation.
-/

set_option autoImplicit false

namespace SwaggerProvider

structure Url where
  scheme : String
  userInfo : String
  host : Option String
  port : Option Nat
  path : String
  query : Option String
  fragment : Option String
  deriving DecidableEq

namespace Url

/-- The default port of the schemes whose URLs always have an authority. -/
def defaultPort? (scheme : String) : Option Nat :=
  match scheme with
  | "http" | "ws" => some 80
  | "https" | "wss" => some 443
  | "ftp" => some 21
  | _ => none

def isSpecial (scheme : String) : Bool := scheme == "file" || (defaultPort? scheme).isSome

def isPathSlash (special : Bool) (c : Char) : Bool := c == '/' || (special && c == '\\')

def isControl (c : Char) : Bool := c.toNat < 0x20 || 0x7F ≤ c.toNat

def inFragmentSet (c : Char) : Bool := isControl c || [' ', '"', '<', '>', '\x60'].contains c

def inQuerySet (special : Bool) (c : Char) : Bool :=
  isControl c || [' ', '"', '#', '<', '>'].contains c || (special && c == '\'')

def inPathSet (c : Char) : Bool := inFragmentSet c || ['#', '?', '{', '}'].contains c

def inUserInfoSet (c : Char) : Bool :=
  inPathSet c || ['/', ':', ';', '=', '@', '[', '\\', ']', '^', '|'].contains c

def escapeBy (p : Char → Bool) (cs : List Char) : List Char :=
  cs.flatMap fun c => if p c then escapeChar c else [c]

def isLetter (c : Char) : Bool := ('a' ≤ c && c ≤ 'z') || ('A' ≤ c && c ≤ 'Z')

def scheme? (cs : List Char) : Option (String × List Char) :=
  match Text.cut? ':' cs with
  | some (c :: more, rest) =>
    if isLetter c && more.all (fun d => isLetter d || Text.isAsciiDigit d ||
        d == '+' || d == '-' || d == '.') then
      some (String.ofList ((c :: more).map Text.lowerAscii), rest)
    else none
  | _ => none

def isDot (segment : List Char) : Bool :=
  [".", "%2e"].contains (String.ofList (segment.map Text.lowerAscii))

def isDoubleDot (segment : List Char) : Bool :=
  ["..", ".%2e", "%2e.", "%2e%2e"].contains (String.ofList (segment.map Text.lowerAscii))

def splitSegments (special : Bool) (cs : List Char) : List (List Char) :=
  Text.pieces '/' (cs.map fun c => if isPathSlash special c then '/' else c)

/-- Resolves dot segments; `done` holds the segments so far, backwards. A dot segment at the end
leaves an empty one behind. -/
def resolveDots : List (List Char) → List (List Char) → List (List Char)
  | done, [] => done.reverse
  | done, [last] =>
    if isDoubleDot last then resolveDots ([] :: done.drop 1) []
    else if isDot last then resolveDots ([] :: done) []
    else resolveDots (last :: done) []
  | done, segment :: rest =>
    if isDoubleDot segment then resolveDots (done.drop 1) rest
    else if isDot segment then resolveDots done rest
    else resolveDots (segment :: done) rest

def normalPath (special : Bool) (cs : List Char) : List Char :=
  let body := match cs with
    | c :: rest => if isPathSlash special c then rest else cs
    | [] => []
  let segments := resolveDots [] (splitSegments special body)
  '/' :: Text.join ['/'] (segments.map (escapeBy inPathSet))

structure Tail where
  path : List Char
  query : Option (List Char)
  fragment : Option (List Char)

def cutTail (cs : List Char) : Tail :=
  let (front, fragment) := match Text.cut? '#' cs with
    | some (before, after) => (before, some after)
    | none => (cs, none)
  match Text.cut? '?' front with
  | some (path, query) => ⟨path, some query, fragment⟩
  | none => ⟨front, none, fragment⟩

def port? (scheme : String) (digits : List Char) : Except UrlFault (Option Nat) :=
  if digits.isEmpty then .ok none
  else match Text.natural? digits with
    | some n =>
      if 65535 < n then .error .invalidPort
      else .ok (if defaultPort? scheme = some n then none else some n)
    | none => .error .invalidPort

/-- The host and the digits of the port; colons inside brackets belong to the host. -/
def cutPort (cs : List Char) : List Char × List Char :=
  match cs with
  | '[' :: _ =>
    let host := cs.takeWhile (· ≠ ']')
    match cs.drop host.length with
    | ']' :: ':' :: digits => (host ++ [']'], digits)
    | rest => (host ++ rest, [])
  | _ =>
    match Text.cut? ':' cs with
    | some (host, digits) => (host, digits)
    | none => (cs, [])

def cutUserInfo (cs : List Char) : List Char × List Char :=
  match Text.cut? '@' cs.reverse with
  | some (host, user) => (user.reverse, host.reverse)
  | none => ([], cs)

def userInfoText (cs : List Char) : String :=
  match Text.cut? ':' cs with
  | some (user, password) =>
    let user := String.ofList (escapeBy inUserInfoSet user)
    if password.isEmpty then user
    else user ++ ":" ++ String.ofList (escapeBy inUserInfoSet password)
  | none => String.ofList (escapeBy inUserInfoSet cs)

def finish (scheme userInfo : String) (host : Option String) (port : Option Nat) (path : List Char)
    (tail : Tail) : Url where
  scheme := scheme
  userInfo := userInfo
  host := host
  port := port
  path := String.ofList path
  query := tail.query.map fun q => String.ofList (escapeBy (inQuerySet (isSpecial scheme)) q)
  fragment := tail.fragment.map fun f => String.ofList (escapeBy inFragmentSet f)

def withAuthority (scheme : String) (cs : List Char) : Except UrlFault Url := do
  let special := isSpecial scheme
  let tail := cutTail cs
  let authority := tail.path.takeWhile fun c => !isPathSlash special c
  let path := tail.path.drop authority.length
  let (user, address) := cutUserInfo authority
  let (name, digits) := cutPort address
  if special && name.isEmpty && scheme != "file" then throw .emptyHost
  let host ←
    if name.isEmpty then .ok none
    else if special then
      (normalHost name).map fun h => if scheme == "file" && h == "localhost" then none else some h
    else .ok (some (String.ofList (escapeBy isControl name)))
  let port ← port? scheme digits
  return finish scheme (userInfoText user) host port
    (if path.isEmpty && !special then [] else normalPath special path) tail

def withoutAuthority (scheme : String) (cs : List Char) : Url :=
  let tail := cutTail cs
  let path := if tail.path.head? == some '/' then normalPath false tail.path
    else escapeBy isControl tail.path
  finish scheme "" none none path tail

def dropSlashes (special : Bool) : List Char → List Char := List.dropWhile (isPathSlash special)

def significant (text : String) : List Char :=
  (Text.trimBy (fun c => c.toNat ≤ 0x20) text.toList).filter fun c =>
    c ≠ '\t' ∧ c ≠ '\n' ∧ c ≠ '\r'

def parse (text : String) : Except UrlFault Url :=
  match scheme? (significant text) with
  | none => .error .relative
  | some (scheme, rest) =>
    if (defaultPort? scheme).isSome then withAuthority scheme (dropSlashes true rest)
    else match rest with
      | '/' :: '/' :: more => withAuthority scheme more
      | _ =>
        if scheme == "file" then
          match rest with
          | a :: b :: more =>
            if isPathSlash true a && isPathSlash true b then withAuthority scheme more
            else withAuthority scheme ('/' :: rest)
          | _ => withAuthority scheme ('/' :: rest)
        else .ok (withoutAuthority scheme rest)

def authority (url : Url) : String :=
  (url.host.getD "") ++ match url.port with
    | some port => s!":{port}"
    | none => ""

def part (mark : String) : Option String → String
  | some text => mark ++ text
  | none => ""

def target (url : Url) : String :=
  let user := if url.userInfo.isEmpty then "" else url.userInfo ++ "@"
  let front := if url.host.isSome || url.scheme == "file" then "//" ++ user ++ url.authority else ""
  url.scheme ++ ":" ++ front ++ url.path ++ part "?" url.query

def text (url : Url) : String := url.target ++ part "#" url.fragment

def anonymous (url : Url) : Url := { url with userInfo := "" }

def pairText (pair : String × String) : List Char :=
  formChars pair.1.toList ++ '=' :: formChars pair.2.toList

def appendQuery (url : Url) (pairs : List (String × String)) : Url :=
  match pairs with
  | [] => url
  | _ =>
    let added := String.ofList (Text.join ['&'] (pairs.map pairText))
    { url with
      query := some (match url.query with
        | some query => if query.isEmpty then added else query ++ "&" ++ added
        | none => added) }

end Url

end SwaggerProvider
