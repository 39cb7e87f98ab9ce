import SocksPool.Config
import SocksPool.Table

/-!
# Usage limiter

The limiter caps how often a single endpoint is picked up. It keeps one
instant per endpoint, the *arrival time* that a perfectly paced user would
have reached. A use is admitted while the arrival time is at most a burst
ahead of the clock, and moves it one interval on; a refused use stores
nothing and is told how long to wait.

Arrival times that lie a whole interval in the past say nothing any more;
`prune` drops them.

## Main definitions

* `Usage.check` — asks for one use of an endpoint.
* `Usage.prune` — forgets endpoints whose quota is full again.
-/

namespace SocksPool

/-- Arrival times per endpoint, under one quota for all. -/
structure Usage where
  quota : Quota
  arrivals : Table Nat := {}

namespace Usage

/-- The time between two uses at the quota's pace, at least a nanosecond. -/
def pace (u : Usage) : Nat := max u.quota.interval 1

/-- How far the arrival time may run ahead of the clock. -/
def tolerance (u : Usage) : Nat := u.pace * (u.quota.burst - 1)

/-- Asks for one use of an endpoint at the time `now`. The second part is
`none` if the use is admitted, and otherwise the time to wait. -/
def check (u : Usage) (now : Nat) (endpoint : String) : Usage × Option Nat :=
  let arrival := (u.arrivals.get? endpoint).getD now
  if now < arrival - u.tolerance then (u, some (arrival - u.tolerance - now))
  else ({ u with arrivals := u.arrivals.put endpoint (max arrival now + u.pace) }, none)

/-- Drops every endpoint whose arrival time lies an interval back. -/
def prune (u : Usage) (now : Nat) : Usage :=
  { u with arrivals := ⟨u.arrivals.entries.filter fun entry => now - u.pace < entry.2⟩ }

/-- Number of endpoints with an arrival time. -/
def size (u : Usage) : Nat := u.arrivals.size

end Usage

end SocksPool
