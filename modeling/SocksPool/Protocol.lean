/-!
# Proxy protocols

The three dialects that a proxy may speak, and `unknown` for a proxy that
has not been validated. Validation tries the dialects in a fixed order.
-/

namespace SocksPool

/-- The dialect that a proxy speaks. -/
inductive Protocol where
  | unknown
  | socks4
  | socks4a
  | socks5
deriving DecidableEq, Repr

namespace Protocol

/-- The order in which a validation round tries the dialects. -/
def negotiationOrder : List Protocol := [.socks5, .socks4, .socks4a]

/-- The name of a protocol in messages. -/
def name : Protocol → String
  | .unknown => "unknown"
  | .socks4 => "socks4"
  | .socks4a => "socks4a"
  | .socks5 => "socks5"

/-- The scheme of a proxy location. The scheme of `socks5` asks the proxy to
resolve names, as the clients of a front end expect. -/
def scheme? : Protocol → Option String
  | .unknown => none
  | .socks4 => some "socks4"
  | .socks4a => some "socks4a"
  | .socks5 => some "socks5h"

end Protocol

end SocksPool
