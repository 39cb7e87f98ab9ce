import SocksPool.Echo
import SocksPool.Network.Web
import SocksPool.Pool.Task

/-!
# Probing a proxy

A probe asks for an echo page through a proxy in one protocol, and succeeds
with the exit address that the page shows. The settings of the round decide
which page is asked and which name the client gives itself; here it is the
first of each list.

## Main definitions

* `Probe.check` — one attempt of a validation round.
-/

namespace SocksPool.Probe

/-- The scheme under which a client takes the proxy of a probe. The fifth
dialect stands without the mark that leaves look-ups to the proxy. -/
def scheme? : Protocol → Option String
  | .socks5 => some "socks5"
  | protocol => protocol.scheme?

/-- The route of a probe. Only the extended fourth dialect leaves the
look-up of the page's host to the proxy. -/
def route (protocol : Protocol) (endpoint : String) : Route :=
  .through protocol (protocol == .socks4a) endpoint

/-- Asks for an echo page through a proxy. -/
def check (p : Probe) (n : Network) (protocol : Protocol) (endpoint : String) :
    Talk PoolError Address := do
  match scheme? protocol, p.echoEndpoints.head? with
  | none, _ => throw (.unknownProtocol endpoint)
  | some _, none => throw (.invalidConfig "no echo endpoints")
  | some scheme, some page =>
    let agent := p.userAgents.head?
    if !Url.isProxyUrl (scheme ++ "://" ++ endpoint) || !agent.all Web.isHeaderValue then
      throw (.http .unreadable)
    let body ← (Web.read n ⟨route protocol endpoint, agent⟩ page).adapt PoolError.http
    ExceptT.mk (pure (Echo.read body))

end SocksPool.Probe
