import SocksPool.Url.Host

/-!
# Authorities

The authority of a location is the text between its two slashes and its
path: an optional user information that ends at the *last* at-sign, a host,
and an optional port after the first colon that stands outside brackets. A
port is a decimal number below `2 ^ 16`; an empty port is no port.

## Main definitions

* `Authority.parse?` — reads an authority with a given reader of hosts.
-/

namespace SocksPool.Url

/-- The parts of an authority. User and password are kept as written. -/
structure Authority where
  user : List Char
  password : List Char
  host : Host
  port : Option Nat
deriving DecidableEq, Repr

namespace Authority

/-- Splits off the user information: name, password and the rest. -/
def splitUser (text : List Char) : List Char × List Char × List Char :=
  match Text.cutLast '@' text with
  | none => ([], [], text)
  | some (info, rest) =>
    match Text.cutFirst ':' info with
    | none => (info, [], rest)
    | some (user, password) => (user, password, rest)

/-- Splits at the first colon that no bracket encloses: the host, and the
text after the colon. -/
def splitPort (inBrackets : Bool) : List Char → List Char × Option (List Char)
  | [] => ([], none)
  | c :: rest =>
    if c = ':' ∧ inBrackets = false then ([], some rest)
    else
      let inside := if c = '[' then true else if c = ']' then false else inBrackets
      let parts := splitPort inside rest
      (c :: parts.1, parts.2)

/-- Reads the text after the colon. -/
def port? : Option (List Char) → Option (Option Nat)
  | none => some none
  | some [] => some none
  | some digits => (Text.decimal? 65535 digits).map some

/-- Reads an authority. An empty host takes no port. -/
def parse? (host? : List Char → Option Host) (text : List Char) : Option Authority := do
  let (user, password, rest) := splitUser text
  let (hostText, portText) := splitPort false rest
  if hostText.isEmpty && portText.isSome then none
  else return ⟨user, password, ← host? hostText, ← port? portText⟩

end Authority

end SocksPool.Url
