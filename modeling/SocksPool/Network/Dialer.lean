import SocksPool.Network.Tunnel

/-!
# Dialling through a proxy

A dialler knows one proxy, its protocol and its endpoint, and opens tunnels
through it. The protocol decides who looks the target up: for the fourth
dialect the dialler does, and only an IPv4 address will do; otherwise the
target is read as it stands and the proxy does the rest.

Faults of the target are found before the proxy is looked up, and the proxy
is looked up before it is connected to.

## Main definitions

* `Dialer.dial` — opens a tunnel.
-/

namespace SocksPool

/-- One proxy to dial through. -/
structure Dialer where
  protocol : Protocol
  endpoint : String
deriving DecidableEq, Repr

namespace Dialer

/-- A failure of the tunnel. -/
def fault (d : Dialer) (f : DialFault) : PoolError := .dial d.endpoint f

/-- Opens a tunnel to a target that was read. -/
def dialTarget (d : Dialer) (n : Network) (target : Target) : Talk PoolError (Option Server) :=
  match Socket.find d.endpoint with
  | .error f => throw (d.fault (.endpoint f))
  | .ok proxy => (Tunnel.dig n proxy d.protocol target).adapt d.fault

/-- The target of the fourth dialect: an IPv4 address, looked up here. -/
def lookUp (text : String) : Except PoolError Target :=
  match Socket.find text with
  | .error f => .error (.io f)
  | .ok ⟨.v4 ip, port⟩ => .ok (.address (.v4 ip) port)
  | .ok ⟨.v6 _, _⟩ => .error (.invalidEndpoint text)

/-- The target of a tunnel, by the rules of the dialler's protocol. -/
def target (d : Dialer) (text : String) : Except PoolError Target :=
  match d.protocol with
  | .unknown => .error (.unknownProtocol d.endpoint)
  | .socks4 => lookUp text
  | .socks4a | .socks5 => (Target.read text).mapError d.fault

/-- Opens a tunnel. -/
def dial (d : Dialer) (n : Network) (text : String) : Talk PoolError (Option Server) :=
  match d.target text with
  | .error e => throw e
  | .ok target => d.dialTarget n target

/-- What comes back through a tunnel when `text` is sent. -/
def reply? (text : String) : Option Server → Option String
  | some .echo => some text
  | _ => none

end Dialer

end SocksPool
