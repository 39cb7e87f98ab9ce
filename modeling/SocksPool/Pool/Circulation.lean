import SocksPool.Endpoint
import SocksPool.Pool.State

/-!
# Circulation of endpoints

An endpoint enters the pool by being loaded and leaves it by being evicted.
In between it circulates: from the intake queue to the pending queue,
through a validation round to an output queue, and back to the pending queue
by a requeue task.

## Main definitions

* `Pool.load`, `Pool.loadAll`, `Pool.loadList` — endpoints enter.
* `Pool.requeue` — an endpoint comes back later.
* `Pool.evict`, `Pool.reportFailure` — endpoints leave.
-/

namespace SocksPool.Pool

/-- Loads one candidate. Answers whether its endpoint was new. -/
def load (p : Pool) (raw : String) : Pool × Except PoolError Bool :=
  match Endpoint.normalize? raw with
  | none => (p, .error (.invalidEndpoint (Text.trimString raw)))
  | some endpoint =>
    let (registry, _, created) := p.registry.add endpoint
    let intake := if created then p.intake ++ [endpoint] else p.intake
    ({ p with registry, intake }, .ok created)

/-- Loads candidates one after the other. Answers how many were new. -/
def loadAll (p : Pool) : List String → Pool × Nat
  | [] => (p, 0)
  | raw :: more =>
    let (p, outcome) := p.load raw
    let (p, added) := p.loadAll more
    (p, match outcome with
      | .ok true => added + 1
      | _ => added)

/-- Loads the candidates of a text, one a line. Answers how many were new. -/
def loadList (p : Pool) (content : String) : Pool × Nat :=
  let (p, added) := p.loadAll (Endpoint.parseList content)
  (p.tell (.listLoaded added), added)

/-- Loads the candidates of a text that was fetched from `source`. -/
def loadFetched (p : Pool) (source content : String) : Pool × Nat :=
  let endpoints := Endpoint.parseList content
  (p.tell (.sourceFetched endpoints.length source)).loadAll endpoints

/-- Puts an endpoint back on the pending queue after a delay. -/
def requeue (p : Pool) (endpoint : String) (delay : Nat) : Pool :=
  p.spawn (.requeue endpoint (if delay = 0 then none else some (Instant.deadline p.now delay)))

/-- Removes an endpoint for good, if it is registered. -/
def evict (p : Pool) (endpoint : String) : Pool :=
  match p.registry.delete endpoint with
  | .error _ => p
  | .ok registry =>
    tell
      { p with
        registry
        backoff := p.backoff.forget endpoint
        usage := p.usage.prune p.now
        stats := p.stats.recordEvicted }
      (.evicted endpoint)

/-- Adds a strike. Answers the window, or nothing if its end does not exist. -/
def strike (p : Pool) (endpoint : String) : Pool × Option Nat :=
  let (backoff, window) := p.backoff.strike p.now endpoint
  ({ p with backoff }, window)

/-- Adds a bad mark to a life. Answers its bad marks. -/
def markBad (p : Pool) (life : Nat) : Pool × Nat :=
  let registry := p.registry.update life Entry.markBad
  ({ p with registry }, ((registry.entry? life).map (·.timesBad)).getD 0)

/-- Notes that something stopped halfway. -/
def crash (p : Pool) : Pool := { p with crashes := p.crashes + 1 }

/-- Reports a proxy that misbehaved after it was dispensed: one bad mark,
one strike, and eviction at the threshold. Answers whether it came to an
end; it stops halfway if the strike's deadline does not exist. -/
def reportFailure (p : Pool) (endpoint : String) : Pool × Bool :=
  match p.registry.find? endpoint with
  | none => (p, true)
  | some life =>
    let (p, timesBad) := p.markBad life
    match p.strike endpoint with
    | (p, none) => (p.crash, false)
    | (p, some _) =>
      if p.config.removeAfter ≤ timesBad then (p.evict endpoint, true) else (p, true)

end SocksPool.Pool
