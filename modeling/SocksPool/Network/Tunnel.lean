import SocksPool.Network.Talk

/-!
# Tunnels

A client asks a proxy for a *tunnel* to a target, an address or a host name
with a port. On the wire the two older dialects look alike: a request of
the fourth dialect names an address, and its extension differs only where
the target is a name. A proxy answers as its script says, and otherwise
looks the target up and connects to it.

What a tunnel leads to is the server at its far end, or nothing if the
proxy granted it without connecting.

## Main definitions

* `Tunnel.dig` — asks the proxy at a socket for a tunnel.
-/

namespace SocksPool

/-- What a tunnel is to lead to. -/
inductive Target where
  | address (host : Address) (port : Nat)
  | name (host : List Char) (port : Nat)
deriving DecidableEq, Repr

namespace Target

/-- Reads the target of a tunnel whose proxy looks names up. -/
def readChars (text : List Char) : Except DialFault Target :=
  match Socket.literal? text with
  | some socket => .ok (.address socket.host socket.port)
  | none =>
    match Text.cutLast ':' text with
    | none => .error .targetMalformed
    | some (host, portText) =>
      match Socket.port? portText with
      | none => .error .targetMalformed
      | some port =>
        if 255 < (String.ofList host).utf8ByteSize then .error .targetOverlong
        else .ok (.name host port)

/-- Reads the target of a tunnel whose proxy looks names up. -/
def read (text : String) : Except DialFault Target := readChars text.toList

/-- The socket of a target, once its name is looked up. -/
def socket? : Target → Option Socket
  | .address host port => some ⟨host, port⟩
  | .name host port => (Socket.lookUp? host).map (⟨·, port⟩)

/-- How a request for a target reads on the wire. -/
def wire (target : Target) (protocol : Protocol) : Protocol :=
  match protocol, target with
  | .socks4a, .address _ _ => .socks4
  | protocol, _ => protocol

end Target

namespace Tunnel

/-- Connects to a socket; a failure is a refusal. -/
def connect (n : Network) (s : Socket) : Talk Unit Server :=
  match n.server? s with
  | some (.proxy script) => if script.full then Talk.stall else return .proxy script
  | some server => return server
  | none => throw ()

/-- The code of a granted request. -/
def granted : Protocol → Nat
  | .socks5 => 0
  | _ => 90

/-- The failure that a reply code other than `granted` means. -/
def refusal : Protocol → Nat → DialFault
  | .socks5, code => .refused5 code
  | _, code => .refused4 code

/-- The code for a target that cannot be reached. -/
def unreachable : Protocol → Nat
  | .socks5 => 5
  | _ => 91

/-- The code that a script replies to a request on the wire. -/
def scripted? (script : ProxyScript) : Protocol → Option Nat
  | .socks5 => script.reply5
  | _ => script.reply4

/-- Asks a proxy that was connected to. -/
def ask (n : Network) (script : ProxyScript) (wire : Protocol) (target : Target) :
    Talk DialFault (Option Server) := do
  Talk.pass script.delay
  if script.hangs then Talk.stall
  else if script.garbage then throw .notSocks
  else if !script.speaks.contains wire then throw .closed
  else if wire = .socks5 ∧ !script.anonymous then throw .noAuthentication
  else
    match scripted? script wire with
    | some code => if code = granted wire then return none else throw (refusal wire code)
    | none =>
      match target.socket? with
      | none => throw (refusal wire (unreachable wire))
      | some socket =>
        some <$> (connect n socket).adapt fun _ => refusal wire (unreachable wire)

/-- Asks the proxy at a socket for a tunnel. -/
def dig (n : Network) (proxy : Socket) (protocol : Protocol) (target : Target) :
    Talk DialFault (Option Server) := do
  match ← (connect n proxy).adapt fun _ => .unreachable with
  | .proxy script =>
    match protocol, target with
    | .socks4, .address (.v6 _) _ => throw .targetUnsupported
    | .socks4a, .address (.v6 _) _ => throw .targetUnsupported
    | _, _ => ask n script (target.wire protocol) target
  | .page _ => throw .closed
  | .echo => throw (if protocol = .socks5 then .refused5 255 else .notSocks)

end Tunnel

end SocksPool
