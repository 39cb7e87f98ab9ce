import SocksPool.Address
import SocksPool.Text.Percent

/-!
# Hosts of a location

The schemes of the web give their host a meaning: it is a domain name in
lower case, or an address, which has many spellings. Every other scheme
has an *opaque* host: its letters are kept as they are, a bracketed text is
an IPv6 address, and what cannot stand in a location is percent-encoded.

## Main definitions

* `Host.parseOpaque?` — a host of a scheme without special rules.
* `Host.parseSpecial?` — a host of a scheme of the web.
-/

namespace SocksPool.Url

/-- What a location names as its host. -/
inductive Host where
  | name (text : List Char)
  | v4 (address : Ipv4)
  | v6 (address : Ipv6)
deriving DecidableEq, Repr

namespace Host

/-- The text of a host inside a location. -/
def print : Host → List Char
  | .name text => text
  | .v4 address => address.print
  | .v6 address => '[' :: address.compressed ++ [']']

/-- Characters that no host may contain. -/
def isForbidden (c : Char) : Bool :=
  c ∈ ['\x00', '\t', '\n', '\r', ' ', '#', '/', ':', '<', '>', '?', '@', '[', '\\', ']', '^', '|']

/-- Reads the text between the brackets of an IPv6 host; `text` starts
after the opening bracket. -/
def parseBracketed? (text : List Char) : Option Host :=
  match text.reverse with
  | ']' :: inner => (Ipv6.parse? inner.reverse).map .v6
  | _ => none

/-- Reads a host of a scheme without special rules. -/
def parseOpaque? : List Char → Option Host
  | '[' :: rest => parseBracketed? rest
  | text =>
    if text.any isForbidden then none
    else some (.name (Text.Percent.encode (fun _ => false) text))

/-! ## Hosts of the schemes of the web -/

/-- Characters that stand for another one in a domain name. -/
def foldChar (c : Char) : List Char :=
  let n := c.toNat
  if 'A' ≤ c ∧ c ≤ 'Z' then [Char.ofNat (n + 32)]
  else if n = 0x3002 ∨ n = 0xFF0E ∨ n = 0xFF61 then ['.']
  else if 0xFF21 ≤ n ∧ n ≤ 0xFF3A then [Char.ofNat (n - 0xFEE0 + 32)]
  else if 0xFF01 ≤ n ∧ n ≤ 0xFF5E then [Char.ofNat (n - 0xFEE0)]
  else if n = 0xAD ∨ n = 0x200B ∨ n = 0x2060 ∨ n = 0xFEFF ∨ (0xFE00 ≤ n ∧ n ≤ 0xFE0F) then []
  else [c]

/-- One part of an IPv4 address: decimal, octal after a zero, hexadecimal
after `0x`. -/
def number? : List Char → Option Nat
  | [] => none
  | '0' :: 'x' :: digits => if digits.isEmpty then some 0 else Text.number? 16 digits
  | '0' :: d :: digits => Text.number? 8 (d :: digits)
  | digits => Text.number? 10 digits

/-- The parts of a domain name; an empty last part is left out. -/
def labels (text : List Char) : List (List Char) :=
  let parts := Text.pieces '.' text
  match parts.reverse with
  | [] :: rest => if rest.isEmpty then parts else rest.reverse
  | _ => parts

/-- Whether the last part of a domain name is a number, so that the whole
has to be an address. -/
def endsInNumber (text : List Char) : Bool :=
  match (labels text).getLast? with
  | some last =>
    (!last.isEmpty && last.all Char.isDigit) || (number? last).isSome
  | none => false

/-- Puts the numbers of an address together: all but the last are octets,
the last fills what is left. -/
def combine? : List Nat → Nat → Option Nat
  | [], _ => none
  | [last], room => if last < room then some last else none
  | octet :: more, room => do
    if octet ≤ 255 ∧ 256 ≤ room then
      return octet * (room / 256) + (← combine? more (room / 256))
    else none

/-- Reads an IPv4 address in any of its spellings. -/
def address? (text : List Char) : Option Ipv4 := do
  let parts := labels text
  let numbers ← parts.mapM number?
  if parts.length ≤ 4 then return Ipv4.ofNat (← combine? numbers 4294967296)
  else none

/-- Reads a host of a scheme of the web. -/
def parseSpecial? : List Char → Option Host
  | '[' :: rest => parseBracketed? rest
  | text => do
    let name := (← Text.Percent.decode? text).flatMap foldChar
    let isRefused := fun c : Char => isForbidden c || Text.Percent.isControl c || c == '%'
    if name.isEmpty || name.any isRefused then none
    else if endsInNumber name then return .v4 (← address? name)
    else return .name name

end Host

end SocksPool.Url
