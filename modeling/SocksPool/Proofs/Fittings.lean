import SocksPool.Proofs.Run
import SocksPool.Proofs.Scaling

/-!
# Fittings of a pool

Clock, settings, scaler, capacity and the limits of the backoff are the *fittings*
of a pool. They are read by nearly every step and changed by few: the clock by its
advances, the rest by setters, by the owner of the workers, and by ticks of the
scaler. The operations that all other steps are made of are gone through once here,
and none of them touches a fitting.

The count of what has stopped halfway is kept beside the fittings, for it too is
raised in very few places.

## Main definitions

* `Pool.fittings` — clock, settings, scaler, capacity, limits, and the count.

## Main results

* `fittings_tickAgainst` — a tick changes scaler and capacity, like a tick of a gang.
* `fittings_judge`, `fittings_openRound`, … — no other operation changes any.
* `fittings_of_pick?`, … — nor does a move that comes to its end.
-/

namespace SocksPool

/-- What tasks leave alone, and how many of them have stopped halfway. -/
structure Fittings where
  now : Nat
  config : Config
  scaler : Scaler
  capacity : Nat
  closed : Bool
  /-- First and longest window of the backoff. -/
  window : Nat × Nat
  crashes : Nat

namespace Fittings

/-- One more task or call has stopped halfway. -/
def crash (f : Fittings) : Fittings := { f with crashes := f.crashes + 1 }

/-- The scaler and the capacity are those of the gang. -/
def resize (f : Fittings) (g : Gang) : Fittings :=
  { f with scaler := g.scaler, capacity := g.slots.capacity }

end Fittings

namespace Pool

/-- The fittings of a pool. -/
def fittings (p : Pool) : Fittings where
  now := p.now
  config := p.config
  scaler := p.scaler
  capacity := p.slots.capacity
  closed := p.slots.closed
  window := (p.backoff.base, p.backoff.ceiling)
  crashes := p.crashes

variable {p q : Pool} {id : Nat}

/-! ## Operations -/

section Operations

variable (p : Pool)

@[simp] theorem fittings_tell (e : Event) : (p.tell e).fittings = p.fittings := rfl

@[simp] theorem fittings_spawn (task : Task) : (p.spawn task).fittings = p.fittings := rfl

@[simp] theorem fittings_remove (id : Nat) : (p.remove id).fittings = p.fittings := rfl

@[simp] theorem fittings_put (id : Nat) (task : Task) : (p.put id task).fittings = p.fittings := rfl

@[simp] theorem fittings_finish (id : Nat) (answer : Answer) :
    (p.finish id answer).fittings = p.fittings := rfl

@[simp] theorem fittings_wakeSpawners : p.wakeSpawners.fittings = p.fittings := rfl

@[simp] theorem fittings_releaseSlot : p.releaseSlot.fittings = p.fittings := rfl

@[simp] theorem fittings_unlock (life : Nat) : (p.unlock life).fittings = p.fittings := rfl

@[simp] theorem fittings_deliver (copy : Proxy) : (p.deliver copy).fittings = p.fittings := rfl

@[simp] theorem fittings_requeue (endpoint : String) (delay : Nat) :
    (p.requeue endpoint delay).fittings = p.fittings := rfl

@[simp] theorem fittings_markBad (life : Nat) : (p.markBad life).1.fittings = p.fittings := rfl

@[simp] theorem fittings_crash : p.crash.fittings = p.fittings.crash := rfl

@[simp] theorem fittings_launch : p.launch.fittings = p.fittings := rfl

@[simp] theorem fittings_closeRound (id : Nat) (inSlot : Bool) :
    (p.closeRound id inSlot).fittings = p.fittings := by
  cases inSlot <;> rfl

@[simp] theorem fittings_recycle (wanted : Bool) (endpoint : String) :
    (p.recycle wanted endpoint).fittings = p.fittings := by
  cases wanted <;> rfl

@[simp] theorem fittings_evict (endpoint : String) :
    (p.evict endpoint).fittings = p.fittings := by
  unfold evict
  split <;> rfl

@[simp] theorem fittings_strike (endpoint : String) :
    (p.strike endpoint).1.fittings = p.fittings := by
  unfold strike Backoff.strike
  dsimp only
  split <;> rfl

@[simp] theorem fittings_load (raw : String) : (p.load raw).1.fittings = p.fittings := by
  unfold load
  split <;> rfl

@[simp] theorem fittings_restore (candidate : Proxy) :
    (p.restore candidate).fittings = p.fittings := by
  unfold restore
  split
  · rfl
  · split <;> rfl

@[simp] theorem fittings_giveUp (id : Nat) (c : Caller) :
    (p.giveUp id c).fittings = p.fittings := by
  unfold giveUp
  split <;> rfl

@[simp] theorem fittings_reject (id : Nat) (c : Caller) :
    (p.reject id c).fittings = p.fittings := by
  unfold reject
  split <;> rfl

@[simp] theorem fittings_hand (id : Nat) (c : Caller) (proxy : Proxy) :
    (p.hand id c proxy).fittings = p.fittings := by
  unfold hand
  split
  · rfl
  · rfl
  · rfl
  · dsimp only
    split <;> rfl

@[simp] theorem fittings_judge (endpoint : String) :
    (p.judge endpoint).1.fittings = p.fittings := by
  unfold judge
  split
  · rfl
  · split
    · split
      · exact p.fittings_evict endpoint
      · split
        · exact fittings_recycle _ _ _
        · split
          · exact fittings_recycle _ _ _
          · rfl
    · rfl

@[simp] theorem fittings_openRound (endpoint : String) (inSlot : Bool) :
    (p.openRound endpoint inSlot).1.fittings = p.fittings := by
  unfold openRound
  split
  · rfl
  · dsimp only
    split <;> rfl

@[simp] theorem fittings_passRound (id : Nat) (r : Round) (protocol : Protocol)
    (exit : Address) : (p.passRound id r protocol exit).fittings = p.fittings := by
  unfold passRound
  dsimp only
  split
  · exact fittings_closeRound _ id r.inSlot
  · rfl

theorem fittings_start : (p.afterCall p.start).fittings = p.fittings := by
  unfold start
  cases p.status <;> rfl

theorem fittings_pause : (p.afterCall p.pause).fittings = p.fittings := by
  unfold pause
  cases p.status <;> rfl

theorem fittings_resume : (p.afterCall p.resume).fittings = p.fittings := by
  unfold resume
  cases p.status <;> rfl

theorem fittings_tune (change : Int) :
    (p.tune change).fittings = p.fittings.resize ⟨p.scaler, p.slots.tune change⟩ := by
  unfold tune
  split <;> rfl

/-- A tick changes the scaler and the capacity only, like a tick of the gang. -/
theorem fittings_tickAgainst (backlog : Nat) :
    (p.tickAgainst backlog).1.fittings = p.fittings.resize (p.gang.tick backlog).1 := by
  unfold tickAgainst Gang.tick Slots.adapt
  dsimp only
  split
  · next hchange =>
      unfold gang
      dsimp only
      rw [if_pos hchange]
      rfl
  · next hchange =>
      unfold gang
      dsimp only
      rw [if_neg hchange]
      exact fittings_tune _ _

end Operations

@[simp] theorem fittings_loadAll (p : Pool) (raws : List String) :
    (p.loadAll raws).1.fittings = p.fittings := by
  induction raws generalizing p with
  | nil => rfl
  | cons raw more ih => exact (ih (p.load raw).1).trans (p.fittings_load raw)

/-! ## Moves that come to their end -/

theorem fittings_of_halt? (h : p.halt? id = some q) : q.fittings = p.fittings := by
  unfold halt? at h
  split at h
  · split at h
    · split at h <;> (rw [← Option.some.inj h]; rfl)
    · cases h
  · split at h
    · rw [← Option.some.inj h]
      rfl
    · cases h
  · split at h
    · rw [← Option.some.inj h]
      rfl
    · cases h
  · split at h
    · rw [← Option.some.inj h]
      rfl
    · cases h
  · cases h

theorem fittings_of_lockIntake? (h : p.lockIntake? id = some q) : q.fittings = p.fittings := by
  unfold lockIntake? at h
  split at h
  · split at h
    · cases h
    · rw [← Option.some.inj h]
      rfl
  · cases h

theorem fittings_of_receive? (h : p.receive? id = some q) : q.fittings = p.fittings := by
  unfold receive? at h
  split at h
  · rw [← Option.some.inj h]
    rfl
  · cases h

theorem fittings_of_forward? (h : p.forward? id = some q) : q.fittings = p.fittings := by
  unfold forward? at h
  split at h
  · split at h
    · rw [← Option.some.inj h]
      rfl
    · cases h
  · cases h

theorem fittings_of_look? (h : p.look? id = some q) : q.fittings = p.fittings := by
  unfold look? at h
  split at h
  · split at h
    · rw [← Option.some.inj h]
      rfl
    · split at h <;> (rw [← Option.some.inj h]; rfl)
  · cases h

theorem fittings_of_wake? (h : p.wake? id = some q) : q.fittings = p.fittings := by
  unfold wake? at h
  split at h
  · split at h
    · rw [← Option.some.inj h]
      rfl
    · cases h
  · cases h

theorem fittings_of_comeBack? (h : p.comeBack? id = some q) : q.fittings = p.fittings := by
  unfold comeBack? at h
  split at h
  · split at h
    · rw [← Option.some.inj h]
      rfl
    · cases h
  · cases h

theorem fittings_of_pick? (h : p.pick? id = some q) : q.fittings = p.fittings := by
  unfold pick? at h
  split at h
  · next endpoint rest _ hpending =>
      have hopened : (openRound { p with pending := rest } endpoint true).1.fittings = p.fittings :=
        fittings_openRound _ endpoint true
      split at h
      all_goals
        next hround =>
          rw [hround] at hopened
          rw [← Option.some.inj h]
          simpa using hopened
  · cases h

theorem fittings_of_deliver? (h : p.deliver? id = some q) : q.fittings = p.fittings := by
  unfold deliver? at h
  split at h
  · split at h
    · split at h
      · rw [← Option.some.inj h]
        simp
      · cases h
    · cases h
  · cases h

theorem fittings_of_dispense? {protocol : Protocol} (h : p.dispense? id protocol = some q) :
    q.fittings = p.fittings := by
  unfold dispense? at h
  split at h
  · next candidate rest _ _ =>
      have hjudged : (judge { p with outputs := p.outputs.set protocol rest }
          candidate.endpoint).1.fittings = p.fittings := fittings_judge _ candidate.endpoint
      split at h
      · split at h
        all_goals
          next hverdict =>
            rw [hverdict] at hjudged
            rw [← Option.some.inj h]
            simpa using hjudged
      · cases h
  · cases h

theorem fittings_of_redialled? {good : Bool} (h : p.redialled? id good = some q) :
    q.fittings = p.fittings := by
  unfold redialled? at h
  split at h
  · split at h
    · dsimp only at h
      split at h
      · split at h <;> (rw [← Option.some.inj h]; simp)
      · rw [← Option.some.inj h]
        simp
    · cases h
  · cases h

theorem fittings_of_cancel? (h : p.cancel? id = some q) : q.fittings = p.fittings := by
  unfold cancel? at h
  split at h
  · split at h
    · cases h
    · split at h
      · split at h <;> (rw [← Option.some.inj h]; simp)
      · cases h
  · cases h

theorem fittings_of_abandon? (h : p.abandon? id = some q) : q.fittings = p.fittings := by
  unfold abandon? at h
  split at h
  · split at h <;> (rw [← Option.some.inj h]; rfl)
  · cases h

end Pool

end SocksPool
