import SocksPool.Error
import SocksPool.Time

/-!
# Configuration

A pool is set up from a `Config`. `Settings` holds what a caller chose to
say; `Settings.resolve` fills in the defaults, among them a worker count
that never exceeds the worker ceiling. `Config.validate` is the gate that
every pool passes before it exists, and the setters of a pool keep what it
checks.
-/

namespace SocksPool

/-- How often one endpoint may be picked up: one use per `interval`, with up
to `burst` uses saved up. -/
structure Quota where
  interval : Nat
  burst : Nat
deriving DecidableEq, Repr

namespace Quota

/-- `n` uses in every `period`, all of which may come at once. -/
def per (period n : Nat) : Quota := ⟨period / n, n⟩

/-- One use in every `period`. -/
def every (period : Nat) : Quota := ⟨period, 1⟩

/-- The same rate with another burst. -/
def withBurst (q : Quota) (burst : Nat) : Quota := { q with burst }

end Quota

/-- Everything that can be set on a pool. Times are nanoseconds. -/
structure Config where
  /-- Age at which a validated copy is stale. -/
  staleAfter : Nat
  /-- Time allowed for one validation attempt, one re-dial, one request. -/
  validationTimeout : Nat
  /-- Jobs that run at the same time. -/
  workers : Nat
  /-- Ceiling of `workers`. -/
  maxWorkers : Nat
  /-- Whether a dispensed or rejected candidate is validated again. -/
  recycle : Bool
  /-- Bad marks at which an endpoint is evicted. -/
  removeAfter : Nat
  echoEndpoints : List String
  userAgents : List String
  /-- Length of the pending queue and of each output queue. -/
  bufferSize : Nat
  usageQuota : Quota
  /-- Backoff after a first strike. -/
  badBackoff : Nat
  /-- Longest backoff. -/
  maxBadBackoff : Nat
  scaleThreshold : Nat
  autoscale : Bool
  scaleInterval : Nat
  /-- Failed proxies that one request may burn beyond the first. -/
  dispatchRetries : Nat
  /-- Time a request waits for a proxy. -/
  dispenseTimeout : Nat
deriving DecidableEq, Repr

/-- The part of a configuration that a caller has chosen. -/
structure Settings where
  staleAfter : Option Nat := none
  validationTimeout : Option Nat := none
  workers : Option Nat := none
  maxWorkers : Option Nat := none
  recycle : Option Bool := none
  removeAfter : Option Nat := none
  echoEndpoints : Option (List String) := none
  userAgents : Option (List String) := none
  bufferSize : Option Nat := none
  usageQuota : Option Quota := none
  /-- First and longest backoff, which are chosen together. -/
  badBackoff : Option (Nat × Nat) := none
  scaleThreshold : Option Nat := none
  autoscale : Option Bool := none
  scaleInterval : Option Nat := none
  dispatchRetries : Option Nat := none
  dispenseTimeout : Option Nat := none

namespace Config

/-- Pages that answer with the caller's address. -/
def defaultEchoEndpoints : List String := [
  "https://wtfismyip.com/text",
  "https://myexternalip.com/raw",
  "https://ipinfo.io/ip",
  "https://api.ipify.org/",
  "https://icanhazip.com/",
  "https://ifconfig.me/ip",
  "https://www.trackip.net/ip",
  "https://checkip.amazonaws.com/"]

/-- Client names that a validation request may carry. -/
def defaultUserAgents : List String := [
  "Mozilla/5.0 (Windows NT 10.0; Win64; x64) AppleWebKit/537.36 (KHTML, like Gecko) " ++
    "Chrome/124.0.0.0 Safari/537.36",
  "Mozilla/5.0 (Macintosh; Intel Mac OS X 14_4) AppleWebKit/605.1.15 (KHTML, like Gecko) " ++
    "Version/17.4 Safari/605.1.15",
  "Mozilla/5.0 (X11; Linux x86_64; rv:125.0) Gecko/20100101 Firefox/125.0",
  "Mozilla/5.0 (Windows NT 10.0; Win64; x64; rv:125.0) Gecko/20100101 Firefox/125.0",
  "curl/8.7.1"]

/-- Worker count of a pool whose ceiling alone was chosen. -/
def defaultWorkers (maxWorkers : Nat) : Nat := min maxWorkers 25

end Config

/-- The configuration with every choice made and defaults for the rest. -/
def Settings.resolve (s : Settings) : Config :=
  let maxWorkers := s.maxWorkers.getD 100
  let backoff := s.badBackoff.getD (60 * Span.second, 1800 * Span.second)
  { staleAfter := s.staleAfter.getD (3600 * Span.second)
    validationTimeout := s.validationTimeout.getD (9 * Span.second)
    workers := s.workers.getD (Config.defaultWorkers maxWorkers)
    maxWorkers
    recycle := s.recycle.getD true
    removeAfter := s.removeAfter.getD 5
    echoEndpoints := s.echoEndpoints.getD Config.defaultEchoEndpoints
    userAgents := s.userAgents.getD Config.defaultUserAgents
    bufferSize := s.bufferSize.getD 4096
    usageQuota := s.usageQuota.getD ((Quota.every (30 * Span.second)).withBurst 2)
    badBackoff := backoff.1
    maxBadBackoff := backoff.2
    scaleThreshold := s.scaleThreshold.getD 20
    autoscale := s.autoscale.getD false
    scaleInterval := s.scaleInterval.getD Span.second
    dispatchRetries := s.dispatchRetries.getD 3
    dispenseTimeout := s.dispenseTimeout.getD (30 * Span.second) }

namespace Config

/-- The configuration of a caller who chose nothing. -/
def default : Config := Settings.resolve {}

/-! ## Validation -/

/-- The reason why a worker count is refused. -/
def workersReason (maxWorkers : Nat) : String :=
  "workers must be within 1..=" ++ toString maxWorkers

/-- The reason why a ceiling of zero workers is refused. -/
def maxWorkersReason : String := "max_workers must be at least 1"

/-- The reason why a removal threshold of zero is refused. -/
def removeAfterReason : String := "remove_after must be at least 1"

/-- The reason why queues without room are refused. -/
def bufferSizeReason : String := "buffer_size must be at least 1"

/-- The reason why an empty list of echo pages is refused. -/
def echoReason : String := "at least one echo endpoint is required"

/-- The reason why a validation time of zero is refused. -/
def timeoutReason : String := "validation_timeout must be non-zero"

/-- Accepts a configuration, or says what is wrong with it first. -/
def validate (c : Config) : Except PoolError Unit :=
  if c.maxWorkers = 0 then .error (.invalidConfig maxWorkersReason)
  else if c.workers = 0 ∨ c.maxWorkers < c.workers then
    .error (.invalidConfig (workersReason c.maxWorkers))
  else if c.removeAfter = 0 then .error (.invalidConfig removeAfterReason)
  else if c.bufferSize = 0 then .error (.invalidConfig bufferSizeReason)
  else if c.echoEndpoints = [] then .error (.invalidConfig echoReason)
  else if c.validationTimeout = 0 then .error (.invalidConfig timeoutReason)
  else .ok ()

end Config

end SocksPool
