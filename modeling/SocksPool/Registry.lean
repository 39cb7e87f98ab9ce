import SocksPool.Address
import SocksPool.Error
import SocksPool.Protocol
import SocksPool.Table

/-!
# Registry

The registry says which endpoints are known. Each registration opens a new
*life* of its endpoint: an entry with counters of its own, which outlives
its deletion while anyone still holds it. So a handle is the number of a
life, not a name, and a name leads to at most one life at a time.

Within a life the protocol is written once. The *soft lock* of a life is
held by at most one guard; `tryLock?` hands out a guard only if the life is
unlocked, and `release` unlocks the guard's own life.

## Main definitions

* `Registry.add`, `Registry.delete`, `Registry.clear` — names and lives.
* `Entry.recordValidation`, `Entry.snapshot` — copies of an entry.
-/

namespace SocksPool

/-- A copy of what was known about a proxy at one moment. -/
structure Proxy where
  endpoint : String
  protocol : Protocol
  exit : Option Address
  lastValidated : Option Nat
  timesValidated : Nat
  timesBad : Nat
deriving DecidableEq, Repr

namespace Proxy

/-- The location of the proxy; without a known protocol it has no scheme. -/
def url (p : Proxy) : String :=
  match p.protocol.scheme? with
  | some scheme => scheme ++ "://" ++ p.endpoint
  | none => p.endpoint

/-- Whether the last validation lies more than `maxAge` back, or never was. -/
def isStale (p : Proxy) (now maxAge : Nat) : Bool :=
  match p.lastValidated with
  | some validated => maxAge < now - validated
  | none => true

end Proxy

/-- What is known about a proxy during one life of its endpoint. -/
structure Entry where
  endpoint : String
  protocol : Protocol := .unknown
  exit : Option Address := none
  lastValidated : Option Nat := none
  timesValidated : Nat := 0
  timesBad : Nat := 0
  locked : Bool := false
deriving DecidableEq, Repr

namespace Entry

/-- A copy of the entry. -/
def snapshot (e : Entry) : Proxy :=
  { endpoint := e.endpoint, protocol := e.protocol, exit := e.exit,
    lastValidated := e.lastValidated, timesValidated := e.timesValidated,
    timesBad := e.timesBad }

/-- Whether `setProtocol` would write. -/
def acceptsProtocol (e : Entry) (p : Protocol) : Bool :=
  p != .unknown && e.protocol == .unknown

/-- Writes the protocol, unless one is known already. -/
def setProtocol (e : Entry) (p : Protocol) : Entry :=
  if e.acceptsProtocol p then { e with protocol := p } else e

/-- Notes a successful validation at the time `now`. A protocol found
earlier in this life is kept. -/
def recordValidation (e : Entry) (now : Nat) (p : Protocol) (exit : Address) : Entry :=
  { e.setProtocol p with
    exit := some exit, lastValidated := some now, timesValidated := e.timesValidated + 1 }

/-- Adds a bad mark. -/
def markBad (e : Entry) : Entry := { e with timesBad := e.timesBad + 1 }

end Entry

/-- The names in use, and all lives that ever were; a name leads to the
position of its life. -/
structure Registry where
  names : Table Nat := {}
  lives : List Entry := []

namespace Registry

/-- The life that a name leads to. -/
def find? (r : Registry) (endpoint : String) : Option Nat := r.names.get? endpoint

/-- Whether a name is registered. -/
def contains (r : Registry) (endpoint : String) : Bool := (r.find? endpoint).isSome

/-- The entry of a life. -/
def entry? (r : Registry) (life : Nat) : Option Entry := r.lives[life]?

/-- The entry that a name leads to. -/
def get? (r : Registry) (endpoint : String) : Option Entry := do
  r.entry? (← r.find? endpoint)

/-- Registers a name, and says which life it leads to and whether that life
is new. -/
def add (r : Registry) (endpoint : String) : Registry × Nat × Bool :=
  match r.find? endpoint with
  | some life => (r, life, false)
  | none =>
    (⟨r.names.put endpoint r.lives.length, r.lives ++ [{ endpoint }]⟩, r.lives.length, true)

/-- Forgets a name. Its life goes on for those who hold it. -/
def delete (r : Registry) (endpoint : String) : Except PoolError Registry :=
  if r.contains endpoint then .ok { r with names := r.names.erase endpoint }
  else .error (.notFound endpoint)

/-- Forgets all names. -/
def clear (r : Registry) : Registry := { r with names := {} }

/-- Number of registered names. -/
def size (r : Registry) : Nat := r.names.size

/-- Changes the entry of a life. -/
def update (r : Registry) (life : Nat) (change : Entry → Entry) : Registry :=
  { r with lives := r.lives.modify life change }

/-- Takes the soft lock of a life, if nobody holds it. -/
def tryLock? (r : Registry) (life : Nat) : Option Registry :=
  match r.entry? life with
  | some e => if e.locked then none else some (r.update life ({ · with locked := true }))
  | none => none

/-- Gives the soft lock of a life back. -/
def release (r : Registry) (life : Nat) : Registry :=
  r.update life ({ · with locked := false })

end Registry

end SocksPool
