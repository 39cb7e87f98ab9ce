import SocksPool.Text.Quoted

/-!
# Errors

Every failure of the library is a value that says what went wrong; its
wording stands in one place, `message`. Failures of the three outside
worlds, the file system, the web client and the dialled proxy, have types of
their own and enter a `PoolError` unchanged.
-/

namespace SocksPool

/-- Failures of files, sockets and name look-ups. -/
inductive IoFault where
  | fileMissing
  | fileIsDirectory
  | fileNotUtf8
  | fileNameHasNul
  | socketAddress
  | socketPort
  | nameUnknown
deriving DecidableEq, Repr

/-- Failures of a web request; `url` is the location that failed. -/
inductive HttpFault where
  | request (url : String)
  | clientStatus (code : Nat) (url : String)
  | serverStatus (code : Nat) (url : String)
  | body (url : String)
  | redirect (url : String)
  | unreadable
  | unsupported (url : String)
deriving DecidableEq, Repr

/-- Failures of a tunnel through one proxy. -/
inductive DialFault where
  | closed
  | unreachable
  | notSocks
  | noAuthentication
  | refused5 (code : Nat)
  | refused4 (code : Nat)
  | targetMalformed
  | targetOverlong
  | targetUnsupported
  | endpoint (fault : IoFault)
deriving DecidableEq, Repr

/-- Failures of the pool's operations. -/
inductive PoolError where
  | alreadyRunning
  | alreadyPaused
  | notPaused
  | notRunning
  | running (setting : String)
  | invalidConfig (reason : String)
  | notFound (endpoint : String)
  | invalidEndpoint (text : String)
  | cancelled
  | unsupportedNetwork (network : String)
  | closed
  | dial (endpoint : String) (fault : DialFault)
  | dialTimeout (endpoint : String)
  | invalidEcho (body : String)
  | unknownProtocol (endpoint : String)
  | io (fault : IoFault)
  | http (fault : HttpFault)
deriving DecidableEq, Repr

/-- The wording of a failed file, socket or look-up. -/
def IoFault.message : IoFault → String
  | .fileMissing => "No such file or directory (os error 2)"
  | .fileIsDirectory => "Is a directory (os error 21)"
  | .fileNotUtf8 => "stream did not contain valid UTF-8"
  | .fileNameHasNul => "file name contained an unexpected NUL byte"
  | .socketAddress => "invalid socket address"
  | .socketPort => "invalid port value"
  | .nameUnknown => "failed to lookup address information: Name or service not known"

/-- The wording of a failed request. -/
def HttpFault.message : HttpFault → String
  | .request url => "error sending request for url (" ++ url ++ ")"
  | .clientStatus code url =>
    "HTTP status client error (" ++ toString code ++ " X) for url (" ++ url ++ ")"
  | .serverStatus code url =>
    "HTTP status server error (" ++ toString code ++ " X) for url (" ++ url ++ ")"
  | .body url => "error decoding response body for url (" ++ url ++ ")"
  | .redirect url => "error following redirect for url (" ++ url ++ ")"
  | .unreadable => "builder error"
  | .unsupported url => "builder error for url (" ++ url ++ ")"

/-- The meaning of a reply code of the fifth dialect. -/
def DialFault.reply5 : Nat → String
  | 1 => "General SOCKS server failure"
  | 2 => "Connection not allowed by ruleset"
  | 3 => "Network unreachable"
  | 4 => "Host unreachable"
  | 5 => "Connection refused"
  | 6 => "TTL expired"
  | 7 => "Command not supported"
  | 8 => "Address type not supported"
  | _ => "Unknown auth method"

/-- The meaning of a reply code of the fourth dialect. -/
def DialFault.reply4 : Nat → String
  | 91 => "General SOCKS server failure"
  | 92 => "Request rejected because SOCKS server cannot connect to identd on the client"
  | 93 => "Request rejected because the client program and identd report different user-ids"
  | _ => "Unknown error"

/-- The wording of a failed tunnel. -/
def DialFault.message : DialFault → String
  | .closed => "unexpected end of file"
  | .unreachable => "Proxy server unreachable"
  | .notSocks => "Invalid response version"
  | .noAuthentication => "No acceptable auth methods"
  | .refused5 code => reply5 code
  | .refused4 code => reply4 code
  | .targetMalformed => "Target address is invalid: invalid address format"
  | .targetOverlong => "Target address is invalid: overlong domain"
  | .targetUnsupported => "Address type not supported"
  | .endpoint fault => fault.message

/-- The wording of a failed operation. -/
def PoolError.message : PoolError → String
  | .alreadyRunning => "proxy pool is already running"
  | .alreadyPaused => "proxy pool is already paused"
  | .notPaused => "proxy pool is not paused"
  | .notRunning => "proxy pool is not running"
  | .running setting => "cannot change " ++ setting ++ " while the pool is running"
  | .invalidConfig reason => "invalid configuration: " ++ reason
  | .notFound endpoint => "endpoint not found: " ++ endpoint
  | .invalidEndpoint text => "invalid endpoint: " ++ text
  | .cancelled => "operation cancelled"
  | .unsupportedNetwork network => "unsupported network: " ++ network
  | .closed => "pool channel closed"
  | .dial endpoint fault => "dial via " ++ endpoint ++ " failed: " ++ fault.message
  | .dialTimeout endpoint => "dial via " ++ endpoint ++ " timed out"
  | .invalidEcho body => "echo response is not an IP address: " ++ Text.Quoted.quote body
  | .unknownProtocol endpoint => "protocol of " ++ endpoint ++ " is not known yet"
  | .io fault => fault.message
  | .http fault => fault.message

/-- The wording of a request that waited for a proxy in vain. -/
def noProxyMessage : String := "No proxy available in pool"

/-- The wording of a request that cannot be sent through one proxy after
the other. -/
def notCloneableMessage : String :=
  "Request object is not cloneable. Are you passing a streaming body?"

end SocksPool
