import SocksPool.Proofs.Aside

/-!
# Quiet changes

Some of what is aside from the circulation is on the *books* of a pool. The
clock and the usage limiter say when a round may begin, the counters say what
came of it, and a caller keeps the proxy that it was given. A change is *quiet*
if it is aside and leaves the books alone: loops take turns, callers begin to
wait, slots are freed, events are logged.

The books are one value, so that a quiet change is a change aside and one
equation, and every operation that is aside has its equation by computation.

## Main results

* `Quiet.trans` — quiet changes can follow each other.
* `Quiet.finish`, `Quiet.closeRound`, `Quiet.hand`, `Quiet.giveUp` — how a step
  ends whose endpoint was let go.
-/

namespace SocksPool

/-- The proxy that an answer brings. -/
def Answer.proxy? : Answer → Option Proxy
  | .proxy given => some given
  | _ => none

/-- The proxies that calls were answered with, by the number of the call. -/
def Pool.handouts (p : Pool) : List (Nat × Proxy) :=
  p.answers.filterMap fun entry => entry.2.proxy?.map (entry.1, ·)

/-- What a pool keeps account of: the time, the uses of endpoints, what came of
rounds and calls, and the proxies given out. -/
structure Books where
  now : Nat
  usage : Usage
  stats : Stats
  handouts : List (Nat × Proxy)

/-- The books of a pool. -/
def Pool.books (p : Pool) : Books := ⟨p.now, p.usage, p.stats, p.handouts⟩

/-- The pools differ at most in what concerns neither the circulation nor the
books. -/
structure Quiet (p q : Pool) : Prop extends Aside p q where
  books : q.books = p.books

/-- A caller is given a proxy. It is counted, unless it was only asked about,
and a call that wants nothing more has it for an answer. -/
def Pool.serve (p : Pool) (id : Nat) (c : Caller) (proxy : Proxy) : Pool :=
  match c.purpose with
  | .recheck => p
  | .take _ =>
    { p with stats := p.stats.recordDispensed, answers := p.answers ++ [(id, .proxy proxy)] }
  | .dial _ | .send .. => { p with stats := p.stats.recordDispensed }

namespace Quiet

variable {p q r : Pool} {id : Nat} {task : Task}

theorem now (h : Quiet p q) : q.now = p.now := congrArg Books.now h.books

theorem usage (h : Quiet p q) : q.usage = p.usage := congrArg Books.usage h.books

theorem stats (h : Quiet p q) : q.stats = p.stats := congrArg Books.stats h.books

theorem handouts (h : Quiet p q) : q.handouts = p.handouts := congrArg Books.handouts h.books

/-- Slots, scaler, status, log and crashes may change freely. -/
theorem housekeeping
    (h : { q with
      scaler := p.scaler, slots := p.slots, status := p.status, epoch := p.epoch, log := p.log,
      crashes := p.crashes } = p)
    (hcrashes : p.crashes ≤ q.crashes) : Quiet p q where
  toAside := by
    refine .bookkeeping ?_ hcrashes
    rw [← h]
  books := (congrArg Pool.books h :)

theorem refl (p : Pool) : Quiet p p := ⟨.refl p, rfl⟩

theorem trans (hpq : Quiet p q) (hqr : Quiet q r) : Quiet p r :=
  ⟨hpq.toAside.trans hqr.toAside, hqr.books.trans hpq.books⟩

/-! ## Tasks, slots and loops -/

theorem tell (p : Pool) (e : Event) : Quiet p (p.tell e) := ⟨.tell p e, rfl⟩

theorem spawn (p : Pool) (htoken : task.token? = none) : Quiet p (p.spawn task) :=
  ⟨.spawn p htoken, rfl⟩

theorem remove (h : p.Idle id) : Quiet p (p.remove id) := ⟨.remove h, rfl⟩

theorem put (hbelow : id < p.nextTask) (htoken : task.token? = none) :
    Quiet (p.remove id) (p.put id task) :=
  ⟨.put hbelow htoken, rfl⟩

theorem put_idle (h : p.Idle id) (htoken : task.token? = none) : Quiet p (p.put id task) :=
  (remove h).trans (put h.below htoken)

theorem releaseSlot (p : Pool) : Quiet p p.releaseSlot := ⟨.releaseSlot p, rfl⟩

theorem tune (p : Pool) (change : Int) : Quiet p (p.tune change) where
  toAside := .tune p change
  books := by
    unfold Pool.tune
    split <;> rfl

theorem closeWorkers (p : Pool) : Quiet p p.closeWorkers := ⟨.closeWorkers p, rfl⟩

theorem launch (p : Pool) : Quiet p p.launch := ⟨.launch p, rfl⟩

theorem tickScaler (p : Pool) : Quiet p p.tickScaler.1 where
  toAside := .tickScaler p
  books := by
    unfold Pool.tickScaler
    dsimp only
    split
    · rfl
    · exact (tune _ _).books

/-! ## Loads and evictions -/

/-- What is quiet before an eviction is quiet after it. -/
theorem evict (h : Quiet p q) (endpoint : String) :
    Quiet (p.evict endpoint) (q.evict endpoint) where
  toAside := h.toAside.evict endpoint
  books := by
    unfold Pool.evict
    rw [h.registry]
    cases p.registry.delete endpoint with
    | error e => exact h.books
    | ok deleted =>
        show Books.mk q.now (q.usage.prune q.now) q.stats.recordEvicted q.handouts =
          Books.mk p.now (p.usage.prune p.now) p.stats.recordEvicted p.handouts
        rw [h.now, h.usage, h.stats, h.handouts]

theorem books_load (p : Pool) (raw : String) : (p.load raw).1.books = p.books := by
  unfold Pool.load
  split <;> rfl

theorem books_loadAll (p : Pool) (raws : List String) : (p.loadAll raws).1.books = p.books := by
  induction raws generalizing p with
  | nil => rfl
  | cons raw more ih => exact (ih (p.load raw).1).trans (books_load p raw)

/-- What is quiet before loads is quiet after them. -/
theorem loadAll (h : Quiet p q) (raws : List String) :
    Quiet (p.loadAll raws).1 (q.loadAll raws).1 where
  toAside := h.toAside.loadAll raws
  books := by rw [books_loadAll, books_loadAll, h.books]

/-! ## After the endpoint was let go -/

/-- A call ends with an answer that is no proxy. -/
theorem finish (p : Pool) (id : Nat) {answer : Answer} (hanswer : answer.proxy? = none) :
    Quiet (p.remove id) (p.finish id answer) where
  toAside := .finish p id answer
  books := by
    have hsame : (p.finish id answer).handouts = (p.remove id).handouts := by
      simp [Pool.handouts, Pool.finish, Pool.remove, hanswer]
    unfold Pool.books
    rw [hsame]
    rfl

theorem closeRound (p : Pool) (id : Nat) (inSlot : Bool) :
    Quiet (p.remove id) (p.closeRound id inSlot) where
  toAside := .closeRound p id inSlot
  books := by cases inSlot <;> rfl

/-- A caller is told that its candidate has failed. -/
theorem reject (hbelow : id < p.nextTask) (c : Caller) :
    Quiet (p.remove id) (p.reject id c) := by
  unfold Pool.reject
  split
  · exact finish p id rfl
  · exact put hbelow rfl

/-- A caller is cancelled. -/
theorem giveUp (p : Pool) (id : Nat) (c : Caller) : Quiet (p.remove id) (p.giveUp id c) := by
  unfold Pool.giveUp
  split
  · refine trans ?_ (finish _ id rfl)
    exact housekeeping rfl (Nat.le_refl _)
  · exact finish p id rfl

/-- A caller goes on with the proxy that it was given. -/
theorem hand (hbelow : id < p.nextTask) (c : Caller) (proxy : Proxy) :
    Quiet ((p.remove id).serve id c proxy) (p.hand id c proxy) := by
  have hcounted : id < { p with stats := p.stats.recordDispensed }.nextTask := hbelow
  obtain ⟨purpose, patience, stage⟩ := c
  cases purpose with
  | recheck => exact finish p id rfl
  | take wanted => exact refl _
  | dial address => exact put hcounted rfl
  | send failures retries wait timeout cloneable =>
      cases cloneable with
      | true =>
          refine trans ?_ (put ?_ rfl)
          · exact housekeeping rfl (Nat.le_refl _)
          · exact hcounted
      | false => exact finish { p with stats := p.stats.recordDispensed } id rfl

end Quiet

end SocksPool
