import SocksPool.Url.Parser

/-!
# Locations of proxies

A web client takes the location of its proxy as a text. A location that
names a host is accepted whatever its scheme. A text without scheme, and one
whose scheme names no host, is read once more as the rest of an `http`
location.
-/

namespace SocksPool.Url

/-- Whether a web client accepts a text as the location of its proxy. -/
def isProxyUrl (text : String) : Bool :=
  match parse text with
  | .ok url => url.hasHost || (isWeb ("http://" ++ text))
  | .error .relative => isWeb ("http://" ++ text)
  | .error .malformed => false
where
  /-- Whether a text is a location with a host. -/
  isWeb (text : String) : Bool :=
    match parse text with
    | .ok url => url.hasHost
    | .error _ => false

end SocksPool.Url
