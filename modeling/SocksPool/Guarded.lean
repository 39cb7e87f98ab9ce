import SocksPool.Registry

/-!
# Guards of soft locks

Whoever takes the soft lock of a life holds a *guard*, and dropping the
guard gives the lock back. A guard knows its life and not its endpoint, so
dropping it never unlocks a life that the same name leads to later.

Guards are kept under names. Keeping a guard under a name that is in use
drops the older guard, after the new lock is taken.

## Main definitions

* `Guarded.lock?` — takes a lock and keeps the guard.
* `Guarded.unlock?` — drops a guard.
-/

namespace SocksPool

/-- A registry and the guards that are held; a name leads to the life that
its guard locks. -/
structure Guarded where
  registry : Registry := {}
  guards : Table Nat := {}

namespace Guarded

/-- Drops the guard that is kept under a name, if there is one. -/
def unlock? (g : Guarded) (name : String) : Option Guarded :=
  (g.guards.get? name).map fun life => ⟨g.registry.release life, g.guards.erase name⟩

/-- Takes the soft lock of a life, if nobody holds it, and keeps the guard
under a name. -/
def lock? (g : Guarded) (name : String) (life : Nat) : Option Guarded :=
  (g.registry.tryLock? life).map fun registry =>
    let freed := (unlock? { g with registry } name).getD { g with registry }
    { freed with guards := freed.guards.put name life }

end Guarded

end SocksPool
