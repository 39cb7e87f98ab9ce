import SocksPool.Network.Socket
import SocksPool.Protocol
import SocksPool.Table

/-!
# Scripted servers

The network is a table of servers on IPv4 sockets, and every other socket
refuses connections. A server behaves as its script says: a proxy speaks
some protocols, and may be slow, silent, or answer something else; a page
answers every request alike; an echo server sends back what it receives.

A server may also be *full*: it accepts no connection and refuses none.
-/

namespace SocksPool

/-- The behaviour of a proxy. -/
structure ProxyScript where
  /-- The requests that it understands. -/
  speaks : List Protocol := []
  /-- How long it takes to read the first byte. -/
  delay : Nat := 0
  /-- Whether it never answers. -/
  hangs : Bool := false
  /-- Whether it answers a text that is no reply. -/
  garbage : Bool := false
  /-- Whether it accepts clients without credentials. -/
  anonymous : Bool := true
  /-- The code that it replies instead of connecting. -/
  reply5 : Option Nat := none
  reply4 : Option Nat := none
  /-- Whether connecting to it never comes to an end. -/
  full : Bool := false
deriving DecidableEq, Repr

/-- The behaviour of a web server. -/
structure Page where
  body : String
  status : Nat := 200
  /-- How long it takes to read a request. -/
  delay : Nat := 0
  hangs : Bool := false
  /-- Whether the connection ends before the body does. -/
  truncated : Bool := false
  /-- Where else the page can be found. -/
  location : Option String := none
deriving DecidableEq, Repr

/-- A server. -/
inductive Server where
  | proxy (script : ProxyScript)
  | page (page : Page)
  | echo
deriving DecidableEq, Repr

/-- A request as a web server saw it. -/
structure Sighting where
  line : String
  agent : Option String
deriving DecidableEq, Repr

/-- The servers under the texts of their sockets, and what the web servers
among them saw. -/
structure Network where
  servers : Table Server := {}
  sightings : List Sighting := []

namespace Network

/-- The server at a socket. -/
def server? (n : Network) (s : Socket) : Option Server := do
  n.servers.get? (← s.text?)

/-- Starts a server, or changes its behaviour. -/
def serve (n : Network) (place : String) (server : Server) : Network :=
  { n with servers := n.servers.put place server }

/-- Stops a server. -/
def kill (n : Network) (place : String) : Network :=
  { n with servers := n.servers.erase place }

end Network

end SocksPool
