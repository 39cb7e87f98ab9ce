import SocksPool.Address
import SocksPool.Error
import SocksPool.Protocol
import SocksPool.Scaler
import SocksPool.Time

/-!
# Events

What the pool tells its log. An event is a value; `Event.line` writes it as
a level and a text.
-/

namespace SocksPool

/-- Something worth a log line. -/
inductive Event where
  | started
  | paused
  | resumed
  | listLoaded (added : Nat)
  | sourceFetched (count : Nat) (source : String)
  | throttled (endpoint : String) (wait : Nat)
  | backedOff (endpoint : String) (wait : Nat)
  | validated (endpoint : String) (protocol : Protocol) (exit : Address)
  | attemptFailed (endpoint : String) (protocol : Protocol) (error : PoolError)
  | roundFailed (endpoint : String) (timesBad wait : Nat)
  | evicted (endpoint : String)
  | skippedBackedOff (endpoint : String)
  | skippedStale (endpoint : String)
  | skippedDead (endpoint : String)
  | candidateDropped
  | spawnerStopped (error : PoolError)
  | scalerMoved (source target : ScalerMode) (backlog : Nat)
  | workersResized (source target : Nat)
  | dialFailed (address endpoint : String) (error : PoolError)
  | middlewareAttached (total known : Nat)
  | noProxy (wait backlog : Nat)
  | proxyChosen (url : String) (attempt : Nat)
  | requestFailed (url : String) (attempt : Nat) (fault : HttpFault)
  | clientRefused (url : String) (fault : HttpFault)
deriving DecidableEq, Repr

/-- How much an event matters. -/
inductive Level where
  | debug
  | info
  | warn
  | error
deriving DecidableEq, Repr

/-- The name of a level at the start of a log line. -/
def Level.name : Level → String
  | .debug => "DEBUG"
  | .info => "INFO"
  | .warn => "WARN"
  | .error => "ERROR"

namespace Event

/-- The level of an event. -/
def level : Event → Level
  | .started | .paused | .resumed | .listLoaded _ | .sourceFetched _ _ | .validated _ _ _
  | .workersResized _ _ | .middlewareAttached _ _ | .proxyChosen _ _ => .info
  | .roundFailed _ _ _ | .evicted _ | .noProxy _ _ | .requestFailed _ _ _
  | .clientRefused _ _ => .warn
  | .spawnerStopped _ => .error
  | .throttled _ _ | .backedOff _ _ | .attemptFailed _ _ _ | .skippedBackedOff _
  | .skippedStale _ | .skippedDead _ | .candidateDropped | .scalerMoved _ _ _
  | .dialFailed _ _ _ => .debug

/-- The text of an event. -/
def text : Event → String
  | .started => "Proxy pool started"
  | .paused => "Proxy pool paused"
  | .resumed => "Proxy pool resumed"
  | .listLoaded added => "Loaded " ++ toString added ++ " new endpoints"
  | .sourceFetched count source =>
    "Fetched " ++ toString count ++ " endpoints from " ++ source
  | .throttled endpoint wait => endpoint ++ " throttled, retrying in " ++ Span.text wait
  | .backedOff endpoint wait => endpoint ++ " backed off, retrying in " ++ Span.text wait
  | .validated endpoint protocol exit =>
    "Validated " ++ endpoint ++ " as " ++ protocol.name ++ " (exit " ++ exit.toText ++ ")"
  | .attemptFailed endpoint protocol error =>
    endpoint ++ " failed " ++ protocol.name ++ ": " ++ error.message
  | .roundFailed endpoint timesBad wait =>
    endpoint ++ " failed validation (" ++ toString timesBad ++ " bad), retrying in " ++
      Span.text wait
  | .evicted endpoint => "Evicted proxy " ++ endpoint
  | .skippedBackedOff endpoint => endpoint ++ " is backed off, skipping"
  | .skippedStale endpoint => endpoint ++ " is stale, skipping"
  | .skippedDead endpoint => endpoint ++ " no longer accepts connections"
  | .candidateDropped => "output queue full, dropping interrupted candidate"
  | .spawnerStopped error => "Job spawner stopping: " ++ error.message
  | .scalerMoved source target backlog =>
    "autoscaler " ++ source.name ++ " -> " ++ target.name ++ " (backlog " ++
      toString backlog ++ ")"
  | .workersResized source target =>
    "worker pool resized " ++ toString source ++ " -> " ++ toString target
  | .dialFailed address endpoint error =>
    "dial " ++ address ++ " via " ++ endpoint ++ " failed: " ++ error.message
  | .middlewareAttached total known =>
    "Proxy pool middleware attached (" ++ toString total ++ " validated, " ++
      toString known ++ " endpoints known)"
  | .noProxy wait backlog =>
    "No proxy available after " ++ Span.text wait ++ ". Backlog: " ++ toString backlog
  | .proxyChosen url attempt =>
    "Using proxy: " ++ url ++ " (attempt " ++ toString attempt ++ ")"
  | .requestFailed url attempt fault =>
    "Request failed with proxy " ++ url ++ " (attempt " ++ toString attempt ++ "): " ++
      fault.message
  | .clientRefused url fault =>
    "Failed to build client with proxy " ++ url ++ ": " ++ fault.message

/-- The log line of an event. -/
def line (e : Event) : String := e.level.name ++ " " ++ e.text

end Event

namespace Scaler.Tick

/-- What a tick tells the log. -/
def events (t : Tick) (backlog : Nat) : List Event :=
  (t.moved.toList.map fun modes => Event.scalerMoved modes.1 modes.2 backlog) ++
    t.resized.toList.map fun sizes => Event.workersResized sizes.1 sizes.2

end Scaler.Tick

end SocksPool
