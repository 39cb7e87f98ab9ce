import SocksPool.Network.Tunnel
import SocksPool.Url.ProxyUrl

/-!
# Web requests

A web client asks for a location, directly or through one proxy. Through a
proxy the location's host is looked up by the client or, on some routes, by
the proxy. A page that has moved is followed, but not for ever. Each request
makes a connection of its own.

A location that cannot be read, or that is none of the web, is refused
before anything is sent.

## Main definitions

* `Web.location` — reads what is to be asked for.
* `Web.fetch` — asks for it.
-/

namespace SocksPool

/-- A way from the client to the servers. -/
inductive Route where
  | direct
  /-- Through a proxy, which looks names up if `remote` is set. -/
  | through (protocol : Protocol) (remote : Bool) (endpoint : String)
deriving DecidableEq, Repr

/-- A web client. -/
structure WebClient where
  route : Route
  /-- The name that it gives itself. -/
  agent : Option String := none
deriving DecidableEq, Repr

/-- An answer to a request; `url` is the location that gave it. -/
structure Response where
  status : Nat
  body : String
  truncated : Bool
  url : String
deriving DecidableEq, Repr

namespace Web

/-- The location as messages show it, without user and password. -/
def shown (url : Url) : String :=
  Url.toText { url with authority := url.authority.map ({ · with user := [], password := [] }) }

/-- Reads a location that is to be asked for. It names a host, though its
scheme may yet be none of the web. -/
def location (text : String) : Except HttpFault Url :=
  match Url.parse text with
  | .error _ => .error .unreadable
  | .ok url => if url.hasHost then .ok url else .error (.unsupported (shown url))

/-- Whether a location can be asked over the web. -/
def isWeb (url : Url) : Bool := url.scheme = "http".toList || url.scheme = "https".toList

/-- Whether a text may be the value of a header. -/
def isHeaderValue (text : String) : Bool :=
  text.toList.all fun c => c = '\t' || (' ' ≤ c && c ≠ '\x7f')

/-- What a location names as the target of a connection. -/
def target? (url : Url) : Option Target := do
  let authority ← url.authority
  let port := (authority.port.or (Url.defaultPort? url.scheme)).getD 80
  match authority.host with
  | .name text => return .name text port
  | .v4 ip => return .address (.v4 ip) port
  | .v6 ip => return .address (.v6 ip) port

/-- The target with its name looked up. -/
def lookUp? (target : Target) : Option Target :=
  target.socket?.map fun s => .address s.host s.port

/-- Connects to a target along a route. Every failure is alike. -/
def connect (n : Network) (target : Target) : Route → Talk Unit (Option Server)
  | .direct =>
    match target.socket? with
    | some socket => some <$> Tunnel.connect n socket
    | none => throw ()
  | .through protocol remote endpoint =>
    match Socket.find endpoint, if remote then some target else lookUp? target with
    | .ok proxy, some target => (Tunnel.dig n proxy protocol target).adapt fun _ => ()
    | _, _ => throw ()

/-- A request as a web server sees it. -/
def sighting (client : WebClient) (url : Url) : Sighting :=
  ⟨"GET " ++ String.ofList url.target ++ " HTTP/1.1",
    client.agent.map fun agent => Text.trimString agent⟩

/-- Asks for one location, without following it elsewhere. Every failure is
the given fault. -/
def ask (n : Network) (client : WebClient) (fault : HttpFault) (url : Url) :
    Talk HttpFault Page := do
  match target? url with
  | none => throw fault
  | some target =>
    match ← (connect n target client.route).adapt fun _ => fault with
    | some (.page page) =>
      if url.scheme = "http".toList then
        modify fun c => { c with sightings := c.sightings ++ [sighting client url] }
        Talk.pass page.delay
        if page.hangs then Talk.stall else return page
      else throw fault
    | _ => throw fault

/-- How often a client follows a page elsewhere. -/
def patience : Nat := 10

/-- Whether a status sends the client elsewhere. -/
def movesOn (status : Nat) : Bool := status ∈ [301, 302, 303, 307, 308]

/-- Whether a status has no body. -/
def isBodiless (status : Nat) : Bool := status = 204 || status = 304

/-- A location as a request carries it: its fragment stays with the client. -/
def bare (url : Url) : Url := { url with fragment := none }

/-- Where a page sends the client. -/
def next? (url : Url) (page : Page) : Option Url :=
  match page.location with
  | some location =>
    if movesOn page.status then (url.join location).toOption.map bare else none
  | none => none

/-- The answer that a page gives. A mark of byte order at the start of a
body is not part of it. -/
def response (url : Url) (page : Page) : Response :=
  let body := if isBodiless page.status then "" else page.body
  { status := page.status, url := shown (bare url)
    body := match body.toList with
      | '\uFEFF' :: rest => String.ofList rest
      | _ => body
    truncated := page.truncated && !isBodiless page.status }

/-- Asks for a location and follows it up to `hops` times. A request that
fails on the way is the given fault. -/
def follow (n : Network) (client : WebClient) (fault : HttpFault) :
    Nat → Url → Talk HttpFault Response
  | hops, url => do
    if !isWeb url then throw (.unsupported (shown url))
    let page ← ask n client fault url
    match next? url page with
    | none => return response url page
    | some elsewhere =>
      match hops with
      | 0 => throw (.redirect (shown (bare url)))
      | hops + 1 => follow n client fault hops elsewhere

/-- Asks for a location. A request that fails names the location that was
asked first, wherever it was sent from there. -/
def fetch (n : Network) (client : WebClient) (url : Url) : Talk HttpFault Response := do
  modify fun c => { c with asking := shown url }
  follow n client (.request (shown url)) patience url

/-- Refuses an answer whose status means a failure. -/
def success (r : Response) : Except HttpFault Response :=
  if 400 ≤ r.status ∧ r.status ≤ 499 then .error (.clientStatus r.status r.url)
  else if 500 ≤ r.status ∧ r.status ≤ 599 then .error (.serverStatus r.status r.url)
  else .ok r

/-- The body of an answer. -/
def body (r : Response) : Except HttpFault String :=
  if r.truncated then .error (.body r.url) else .ok r.body

/-- Asks for the text of a page. -/
def read (n : Network) (client : WebClient) (text : String) : Talk HttpFault String := do
  let url ← ExceptT.mk (pure (location text))
  let r ← fetch n client url
  ExceptT.mk (pure (success r >>= body))

end Web

end SocksPool
