import SocksPool.Text.Blank
import SocksPool.Url.Authority

/-!
# Endpoints

An *endpoint* is the `host:port` text under which a proxy is known. Seed
lists spell the same endpoint in many ways: with a scheme, with slashes at
the end, with blanks around it. `Endpoint.normalize?` reads a line as the
authority of a location with an opaque host and writes it back in one
*normal form*, or refuses it.

A line is refused when it is empty or a comment, has a user name, a path, no
port or port zero, or when its host is no host.

## Main definitions

* `Endpoint.normalize?` — the normal form of a line.
* `Endpoint.parseList` — the normal forms of the lines of a text.
-/

namespace SocksPool.Endpoint

/-- The schemes that may stand in front of an endpoint. -/
def knownSchemes : List (List Char) :=
  ["socks5h://".toList, "socks5://".toList, "socks4a://".toList, "socks4://".toList]

/-- What follows `scheme` at the start of a text, in any letter case. -/
def dropScheme? (scheme text : List Char) : Option (List Char) :=
  if (text.take scheme.length).map Char.toLower = scheme then some (text.drop scheme.length)
  else none

/-- The text without the first known scheme that it starts with. -/
def stripScheme (text : List Char) : List Char :=
  (knownSchemes.findSome? (dropScheme? · text)).getD text

/-- Characters that a location ignores at its end. -/
def isControlOrSpace (c : Char) : Bool := c.toNat ≤ 0x20

/-- Characters that a location ignores everywhere. -/
def isIgnored (c : Char) : Bool := c = '\t' || c = '\n' || c = '\r'

/-- Characters that end an authority. -/
def endsAuthority (c : Char) : Bool := c = '/' || c = '?' || c = '#'

/-- Writes host and port in normal form. -/
def write (host : Url.Host) (port : Nat) : List Char :=
  host.print ++ ':' :: Text.decimal port

/-- Reads the text after the scheme: an authority without user name and with
a port, and no path behind it. -/
def readBare? (bare : List Char) : Option (List Char) :=
  let text := (Text.dropEndWhile isControlOrSpace bare).filter (!isIgnored ·)
  if (text.dropWhile (!endsAuthority ·)).head? = some '/' then none
  else
    match Url.Authority.parse? Url.Host.parseOpaque? (text.takeWhile (!endsAuthority ·)) with
    | some ⟨[], _, host, some (port + 1)⟩ =>
      if host.print.isEmpty then none else some (write host (port + 1))
    | _ => none

/-- The normal form of a line of characters. -/
def normalizeChars? (raw : List Char) : Option (List Char) :=
  let line := Text.trim raw
  if line.isEmpty || line.head? = some '#' then none
  else readBare? (Text.dropEndWhile (· == '/') (stripScheme line))

/-- The normal form of a candidate, if it is one. -/
def normalize? (raw : String) : Option String :=
  (normalizeChars? raw.toList).map String.ofList

/-- The endpoints in a text with one candidate a line; all other lines are
skipped. -/
def parseList (content : String) : List String :=
  (Text.lines content.toList).filterMap fun line => (normalizeChars? line).map String.ofList

end SocksPool.Endpoint
