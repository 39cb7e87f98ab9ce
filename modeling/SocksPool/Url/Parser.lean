import SocksPool.Text.Blank
import SocksPool.Url.Authority

/-!
# Locations

A location is read as browsers read it: blanks around it and line breaks
inside it are ignored, the scheme decides how host and path are treated,
and everything that is accepted has one written form. The schemes of the
web have a host that is never empty, a path that starts with a slash and
has no dot segments, and a default port that is left out.

## Main definitions

* `Url.parse` — reads a location, on its own or against a base.
* `Url.print` — its written form.
-/

namespace SocksPool

/-- A location. A path without an authority before it is divided by slashes only if it
starts with one. -/
structure Url where
  scheme : List Char
  authority : Option Url.Authority
  path : List Char
  query : Option (List Char)
  fragment : Option (List Char)
deriving DecidableEq, Repr

namespace Url

/-- Why a text is no location. -/
inductive ParseError where
  /-- There is no scheme, and no base to read the text against. -/
  | relative
  /-- A part of the text breaks the rules of its scheme. -/
  | malformed
deriving DecidableEq, Repr

/-- The default ports of the schemes of the web. -/
def defaultPort? (scheme : List Char) : Option Nat :=
  match String.ofList scheme with
  | "http" => some 80
  | "ws" => some 80
  | "https" => some 443
  | "wss" => some 443
  | "ftp" => some 21
  | _ => none

/-- Whether a scheme is one of the web. -/
def isSpecial (scheme : List Char) : Bool := (defaultPort? scheme).isSome

/-- Reads a scheme and the colon after it. -/
def splitScheme? (text : List Char) : Option (List Char × List Char) :=
  match Text.cutFirst ':' text with
  | some (c :: name, rest) =>
    if c.isAlpha && name.all (fun d => d.isAlphanum || d = '+' || d = '-' || d = '.') then
      some ((c :: name).map Char.toLower, rest)
    else none
  | _ => none

/-! ## Paths -/

/-- Characters that a path escapes. -/
def escapesInPath (c : Char) : Bool :=
  c ∈ [' ', '\x22', '#', '<', '>', '?', '\x60', '\x7b', '\x7d']

/-- Characters that the query of a scheme of the web escapes. -/
def escapesInQuery (special : Bool) (c : Char) : Bool :=
  c ∈ [' ', '\x22', '#', '<', '>'] || (special && c = '\x27')

/-- Characters that a fragment escapes. -/
def escapesInFragment (c : Char) : Bool := c ∈ [' ', '\x22', '<', '>', '\x60']

/-- Whether a segment of a path means the directory itself. -/
def isSingleDot (segment : List Char) : Bool :=
  String.ofList (segment.map Char.toLower) ∈ [".", "%2e"]

/-- Whether a segment of a path means the directory above. -/
def isDoubleDot (segment : List Char) : Bool :=
  String.ofList (segment.map Char.toLower) ∈ ["..", ".%2e", "%2e.", "%2e%2e"]

/-- Adds the segments of a path to those above them, which are in reverse
order. A dot segment at the end leaves an empty segment. -/
def resolveSegments (above : List (List Char)) : List (List Char) → List (List Char)
  | [] => above.reverse
  | [last] =>
    if isDoubleDot last then ([] :: above.tail).reverse
    else if isSingleDot last then ([] :: above).reverse
    else (last :: above).reverse
  | segment :: more =>
    if isDoubleDot segment then resolveSegments above.tail more
    else if isSingleDot segment then resolveSegments above more
    else resolveSegments (segment :: above) more

/-- The path made of the given segments. -/
def joinSegments (segments : List (List Char)) : List Char :=
  segments.flatMap ('/' :: ·)

/-- The segments of a path, without the slash at its start. In a scheme of
the web a backslash divides as well. -/
def segments (special : Bool) (text : List Char) : List (List Char) :=
  let text := if special then text.map fun c => if c = '\\' then '/' else c else text
  (Text.pieces '/' text).map (Text.Percent.encode escapesInPath)

/-- Reads a path that follows an authority. -/
def readPath (special : Bool) : List Char → List Char
  | [] => if special then ['/'] else []
  | c :: rest =>
    if c = '/' || (special && c = '\\') then
      joinSegments (resolveSegments [] (segments special rest))
    else joinSegments (resolveSegments [] (segments special (c :: rest)))

/-- Divides what follows a scheme or a path: path, query and fragment. -/
def splitTail (text : List Char) : List Char × Option (List Char) × Option (List Char) :=
  let (front, fragment) :=
    match Text.cutFirst '#' text with
    | some (front, fragment) => (front, some fragment)
    | none => (text, none)
  match Text.cutFirst '?' front with
  | some (path, query) => (path, some query, fragment)
  | none => (front, none, fragment)

/-- Escapes query and fragment. -/
def encodeTail (special : Bool) (query fragment : Option (List Char)) :
    Option (List Char) × Option (List Char) :=
  (query.map (Text.Percent.encode (escapesInQuery special)),
    fragment.map (Text.Percent.encode escapesInFragment))

/-! ## Reading -/

/-- Characters that end an authority. -/
def endsAuthority (special : Bool) (c : Char) : Bool :=
  c = '/' || c = '?' || c = '#' || (special && c = '\\')

/-- Characters that user and password escape. -/
def escapesInUser (c : Char) : Bool :=
  escapesInPath c || c ∈ ['/', ':', ';', '=', '@', '[', '\\', ']', '^', '|']

/-- Leaves out a port that is the scheme's default, and escapes user and
password. -/
def tidy (scheme : List Char) (a : Authority) : Authority :=
  { a with
    user := Text.Percent.encode escapesInUser a.user
    password := Text.Percent.encode escapesInUser a.password
    port := if a.port = defaultPort? scheme then none else a.port }

/-- Reads the text after the two slashes of a location. -/
def readAfterSlashes (scheme text : List Char) : Except ParseError Url :=
  let special := isSpecial scheme
  let host? := if special then Host.parseSpecial? else Host.parseOpaque?
  let authorityText := text.takeWhile (!endsAuthority special ·)
  let (path, query, fragment) := splitTail (text.dropWhile (!endsAuthority special ·))
  let (query, fragment) := encodeTail special query fragment
  match Authority.parse? host? authorityText with
  | some authority =>
    .ok ⟨scheme, some (tidy scheme authority), readPath special path, query, fragment⟩
  | none => .error .malformed

/-- Reads the text after a scheme. -/
def readAfterScheme (scheme text : List Char) : Except ParseError Url :=
  if isSpecial scheme then
    readAfterSlashes scheme (text.dropWhile fun c => c = '/' || c = '\\')
  else
    match text with
    | '/' :: '/' :: rest => readAfterSlashes scheme rest
    | _ =>
      let (path, query, fragment) := splitTail text
      let (query, fragment) := encodeTail false query fragment
      let path :=
        match path with
        | '/' :: _ => readPath false path
        | _ => Text.Percent.encode (fun _ => false) path
      .ok ⟨scheme, none, path, query, fragment⟩

/-- Reads a reference against a location of a scheme of the web. -/
def readAgainst (base : Url) (text : List Char) : Except ParseError Url :=
  let isSlash := fun c : Char => c = '/' || c = '\\'
  match text with
  | [] => .ok { base with fragment := none }
  | c :: rest =>
    if isSlash c then
      match rest with
      | d :: _ =>
        if isSlash d then readAfterSlashes base.scheme (text.dropWhile isSlash)
        else finish [] rest
      | [] => finish [] rest
    else if c = '#' then
      .ok { base with fragment := some (Text.Percent.encode escapesInFragment rest) }
    else if c = '?' then
      let (_, query, fragment) := splitTail text
      let (query, fragment) := encodeTail true query fragment
      .ok { base with query, fragment }
    else finish ((Text.pieces '/' (base.path.drop 1)).dropLast.reverse) text
where
  /-- Reads path, query and fragment below the segments `above`. -/
  finish (above : List (List Char)) (text : List Char) : Except ParseError Url :=
    let (path, query, fragment) := splitTail text
    let (query, fragment) := encodeTail true query fragment
    .ok { base with
      path := joinSegments (resolveSegments above (segments true path)), query, fragment }

/-- The text that counts: no controls or spaces around it, no tabs and line
breaks inside it. -/
def clean (text : List Char) : List Char :=
  let isOuter := fun c : Char => c.toNat ≤ 0x20
  (Text.dropEndWhile isOuter (text.dropWhile isOuter)).filter
    fun c => !(c = '\t' || c = '\n' || c = '\r')

/-- Reads a location on its own. -/
def parseChars (text : List Char) : Except ParseError Url :=
  let text := clean text
  match splitScheme? text with
  | some (scheme, rest) => readAfterScheme scheme rest
  | none => .error .relative

/-- Reads a location on its own. -/
def parse (text : String) : Except ParseError Url := parseChars text.toList

/-- Reads a reference found at a location of a scheme of the web. -/
def join (base : Url) (reference : String) : Except ParseError Url :=
  let text := clean reference.toList
  match splitScheme? text with
  | some (scheme, rest) =>
    if scheme = base.scheme ∧ ¬ (rest.take 1 = ['/'] ∨ rest.take 1 = ['\\']) then
      readAgainst base rest
    else readAfterScheme scheme rest
  | none => readAgainst base text

/-! ## Writing -/

/-- The written form of user and password, with the at-sign after them. -/
def Authority.printUser (a : Authority) : List Char :=
  if a.user.isEmpty && a.password.isEmpty then []
  else if a.password.isEmpty then a.user ++ ['@']
  else a.user ++ ':' :: a.password ++ ['@']

/-- The written form of an authority. -/
def Authority.print (a : Authority) : List Char :=
  a.printUser ++ a.host.print ++
    match a.port with
    | some port => ':' :: Text.decimal port
    | none => []

/-- Path and query, as a request names them. -/
def target (url : Url) : List Char :=
  url.path ++
    match url.query with
    | some query => '?' :: query
    | none => []

/-- The written form of a location. -/
def print (url : Url) : List Char :=
  url.scheme ++ ':' ::
    (match url.authority with
    | some authority => "//".toList ++ authority.print
    | none => []) ++ url.target ++
    match url.fragment with
    | some fragment => '#' :: fragment
    | none => []

/-- The written form of a location. -/
def toText (url : Url) : String := String.ofList url.print

/-- Whether a location names a host. -/
def hasHost (url : Url) : Bool :=
  match url.authority with
  | some authority => !authority.host.print.isEmpty
  | none => false

end Url

end SocksPool
