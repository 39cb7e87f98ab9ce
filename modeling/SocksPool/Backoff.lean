import SocksPool.Table
import SocksPool.Time

/-!
# Backoff limiter

An endpoint that failed is left alone for a while. Each *strike* doubles the
window, from a base up to a ceiling that is never below the base. The
deadline is the time of the last strike plus its window; until then the
endpoint is *backed off*.

A window may be too long for the clock. The strike is then counted, its
deadline is not moved, and the caller learns that the clock overflowed.

## Main definitions

* `Backoff.strike` — records a failure.
* `Backoff.retryAfter?` — the rest of the window, if any.
-/

namespace SocksPool

/-- The strikes against one endpoint and the end of its window. -/
structure Strike where
  count : Nat
  deadline : Nat
deriving DecidableEq, Repr

/-- Strikes per endpoint. -/
structure Backoff where
  base : Nat
  ceiling : Nat
  strikes : Table Strike := {}

namespace Backoff

/-- A limiter whose windows start at `base` and are cut at `longest`, or at `base` if that
is longer. -/
def new (base longest : Nat) : Backoff := { base, ceiling := max longest base }

/-- The largest count of strikes. -/
def maxCount : Nat := 4294967295

/-- The window of the `count`-th strike: twice the one before, for sixteen
doublings. -/
def window (b : Backoff) (count : Nat) : Nat :=
  min (Span.scale b.base (Nat.pow 2 (min (count - 1) 16))) b.ceiling

/-- Records a failure at the time `now`. The second part is the window, or
`none` if the clock cannot represent its end. -/
def strike (b : Backoff) (now : Nat) (endpoint : String) : Backoff × Option Nat :=
  let last := (b.strikes.get? endpoint).getD ⟨0, now⟩
  let count := min (last.count + 1) maxCount
  let window := b.window count
  match Instant.add? now window with
  | some deadline => ({ b with strikes := b.strikes.put endpoint ⟨count, deadline⟩ }, some window)
  | none => ({ b with strikes := b.strikes.put endpoint ⟨count, last.deadline⟩ }, none)

/-- What is left of the window at the time `now`, if it has not ended. -/
def retryAfter? (b : Backoff) (now : Nat) (endpoint : String) : Option Nat :=
  match b.strikes.get? endpoint with
  | some s => if now < s.deadline then some (s.deadline - now) else none
  | none => none

/-- Whether the endpoint is backed off. -/
def peek (b : Backoff) (now : Nat) (endpoint : String) : Bool :=
  (b.retryAfter? now endpoint).isSome

/-- Number of strikes against the endpoint. -/
def count (b : Backoff) (endpoint : String) : Nat :=
  ((b.strikes.get? endpoint).map (·.count)).getD 0

/-- Clears the endpoint. -/
def forget (b : Backoff) (endpoint : String) : Backoff :=
  { b with strikes := b.strikes.erase endpoint }

/-- All strikes, in byte order of their endpoints. -/
def snapshot (b : Backoff) : List (String × Strike) := b.strikes.sorted

end Backoff

end SocksPool
