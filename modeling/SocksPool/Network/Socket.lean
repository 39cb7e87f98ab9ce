import SocksPool.Error
import SocksPool.Url.Host

/-!
# Sockets

A server listens at a *socket*, an address and a port. Texts name a socket
in two ways: literally, with the address in brackets if it has colons, or
by a host name that is looked up first. The only name that leads anywhere
is the one of the loopback host; the old spellings of an IPv4 address, with
fewer parts or in another base, count as names and lead to their address.

## Main definitions

* `Socket.literal?` — reads an address and a port.
* `Socket.find` — reads a host and a port, and looks the host up.
-/

namespace SocksPool

/-- A place to connect to. -/
structure Socket where
  host : Address
  port : Nat
deriving DecidableEq, Repr

namespace Socket

/-- The loopback address. -/
def loopback : Address := .v4 ⟨127, 0, 0, 1⟩

/-- The address that a name leads to. -/
def lookUp? (name : List Char) : Option Address :=
  let name := name.map Char.toLower
  if name = "localhost".toList then some loopback
  else
    match Ipv6.parse? name with
    | some ip => some (.v6 ip)
    | none => if name.getLast? = some '.' then none else (Url.Host.address? name).map .v4

/-- Reads an address as it stands before a port. -/
def literalHost? : List Char → Option Address
  | '[' :: rest =>
    match rest.reverse with
    | ']' :: inner => (Ipv6.parse? inner.reverse).map .v6
    | _ => none
  | text => (Ipv4.parse? text).map .v4

/-- Reads an address and a port. -/
def literal? (text : List Char) : Option Socket := do
  let (host, port) ← Text.cutLast ':' text
  return ⟨← literalHost? host, ← Text.decimal? 65535 port⟩

/-- Reads a port that may have a plus sign. -/
def port? : List Char → Option Nat
  | '+' :: digits => Text.decimal? 65535 digits
  | digits => Text.decimal? 65535 digits

/-- Reads a host and a port, and looks the host up. -/
def findChars (text : List Char) : Except IoFault Socket :=
  match literal? text with
  | some socket => .ok socket
  | none =>
    match Text.cutLast ':' text with
    | none => .error .socketAddress
    | some (host, portText) =>
      match port? portText with
      | none => .error .socketPort
      | some port =>
        if host.contains '\x00' then .error .fileNameHasNul
        else
          match lookUp? host with
          | none => .error .nameUnknown
          | some address => .ok ⟨address, port⟩

/-- Reads a host and a port, and looks the host up. -/
def find (text : String) : Except IoFault Socket := findChars text.toList

/-- The IPv4 address behind an address, if there is one. -/
def ipv4? : Address → Option Ipv4
  | .v4 ip => some ip
  | .v6 ip => ip.mapped?

/-- The text of a socket with an IPv4 address. -/
def text? (s : Socket) : Option String :=
  (ipv4? s.host).map fun ip => String.ofList (ip.print ++ ':' :: Text.decimal s.port)

end Socket

end SocksPool
