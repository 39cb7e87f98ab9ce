import SocksPool.Pool.Move
import SocksPool.Proofs.Tokens

/-!
# Changes aside from the circulation

Most of what a pool does concerns no endpoint: loops take turns, callers begin
to wait, slots are freed, the clock and the counters move, events are logged.
`Aside p q` says that nothing else happened between `p` and `q`: the registry,
the strikes and the queues are the same, and so are the tasks that hold an
endpoint. What holds of the circulation in `p` then holds in `q`.

A step that does concern an endpoint is a small change of the pool, followed
by changes aside. So this module has one lemma for each operation that such
steps end with.

## Main results

* `Aside.trans` — changes aside can follow each other.
* `Aside.remove`, `Aside.put`, `Aside.spawn` — idle tasks end, move on and
  begin aside.
* `Aside.finish`, `Aside.closeRound` — once a task has let its endpoint go, the
  rest of its step is aside.
-/

open SocksPool.Task (Numbered)

namespace SocksPool

/-- The pools differ at most in what does not concern the circulation. -/
structure Aside (p q : Pool) : Prop where
  config : q.config = p.config
  registry : q.registry = p.registry
  backoff : q.backoff = p.backoff
  intake : q.intake = p.intake
  pending : q.pending = p.pending
  outputs : q.outputs = p.outputs
  holders : Task.holders q.tasks = Task.holders p.tasks
  numbered : Numbered p.tasks p.nextTask → Numbered q.tasks q.nextTask
  next : p.nextTask ≤ q.nextTask
  crashes : p.crashes ≤ q.crashes

/-- The number was given out, and to no task that holds an endpoint. -/
structure Pool.Idle (p : Pool) (id : Nat) : Prop where
  below : id < p.nextTask
  free : ∀ entry ∈ Task.holders p.tasks, entry.1 ≠ id

theorem Pool.Idle.of_task? {p : Pool} {id : Nat} {task : Task}
    (hnum : Numbered p.tasks p.nextTask) (hfind : p.task? id = some task)
    (hidle : task.token? = none) : p.Idle id where
  below := hnum.lt_of_lookup hfind
  free entry hmem hnumber := by
    obtain ⟨hin, hholds⟩ := Task.mem_holders.1 hmem
    rw [hnum.eq_of_lookup hfind hin hnumber, hidle] at hholds
    cases hholds

theorem Pool.Idle.spawn {p : Pool} {id : Nat} (h : p.Idle id) (task : Task) :
    (p.spawn task).Idle id where
  below := Nat.lt_succ_of_lt h.below
  free entry hmem := by
    rcases List.mem_append.1 (Task.mem_holders.1 hmem).1 with hold | hnew
    · exact h.free entry (Task.mem_holders.2 ⟨hold, (Task.mem_holders.1 hmem).2⟩)
    · rw [List.mem_singleton.1 hnew]
      exact Nat.ne_of_gt h.below

namespace Aside

variable {p q r : Pool} {id : Nat} {task : Task}

/-- Clock, counters, slots, status, answers and log may change freely. -/
theorem bookkeeping
    (h : { q with
      now := p.now, stats := p.stats, usage := p.usage, scaler := p.scaler, slots := p.slots,
      status := p.status, epoch := p.epoch, answers := p.answers, log := p.log,
      crashes := p.crashes } = p)
    (hcrashes : p.crashes ≤ q.crashes) : Aside p q where
  config := (congrArg Pool.config h :)
  registry := (congrArg Pool.registry h :)
  backoff := (congrArg Pool.backoff h :)
  intake := (congrArg Pool.intake h :)
  pending := (congrArg Pool.pending h :)
  outputs := (congrArg Pool.outputs h :)
  holders := (congrArg (fun pool : Pool => Task.holders pool.tasks) h :)
  numbered hnum := by
    rw [← h] at hnum
    exact hnum
  next := Nat.le_of_eq (congrArg Pool.nextTask h.symm :)
  crashes := hcrashes

theorem refl (p : Pool) : Aside p p := bookkeeping rfl (Nat.le_refl _)

theorem trans (hpq : Aside p q) (hqr : Aside q r) : Aside p r where
  config := hqr.config.trans hpq.config
  registry := hqr.registry.trans hpq.registry
  backoff := hqr.backoff.trans hpq.backoff
  intake := hqr.intake.trans hpq.intake
  pending := hqr.pending.trans hpq.pending
  outputs := hqr.outputs.trans hpq.outputs
  holders := hqr.holders.trans hpq.holders
  numbered h := hqr.numbered (hpq.numbered h)
  next := Nat.le_trans hpq.next hqr.next
  crashes := Nat.le_trans hpq.crashes hqr.crashes

/-- The tokens stay where they are. -/
theorem tokens (h : Aside p q) : q.tokens = p.tokens := by
  unfold Pool.tokens
  rw [h.intake, h.pending, h.outputs, ← Task.held_holders, h.holders, Task.held_holders]

theorem idle (h : Aside p q) (hidle : p.Idle id) : q.Idle id where
  below := Nat.lt_of_lt_of_le hidle.below h.next
  free := h.holders ▸ hidle.free

/-! ## Tasks -/

theorem tell (p : Pool) (e : Event) : Aside p (p.tell e) :=
  bookkeeping rfl (Nat.le_refl _)

theorem spawn (p : Pool) (htoken : task.token? = none) : Aside p (p.spawn task) where
  config := rfl
  registry := rfl
  backoff := rfl
  intake := rfl
  pending := rfl
  outputs := rfl
  holders := by simp [Pool.spawn, Task.holders, htoken]
  numbered h := h.spawn task
  next := Nat.le_succ _
  crashes := Nat.le_refl _

/-- An idle task ends. -/
theorem remove (h : p.Idle id) : Aside p (p.remove id) where
  config := rfl
  registry := rfl
  backoff := rfl
  intake := rfl
  pending := rfl
  outputs := rfl
  holders := by
    refine (Task.holders_without p.tasks id).trans ?_
    unfold Task.without
    rw [List.filter_eq_self]
    exact fun entry hmem => bne_iff_ne.2 (h.free entry hmem)
  numbered h := h.drop id
  next := Nat.le_refl _
  crashes := Nat.le_refl _

/-- A task that has let its endpoint go takes an idle form. -/
theorem put (hbelow : id < p.nextTask) (htoken : task.token? = none) :
    Aside (p.remove id) (p.put id task) where
  config := rfl
  registry := rfl
  backoff := rfl
  intake := rfl
  pending := rfl
  outputs := rfl
  holders := by simp [Pool.put, Task.holders, htoken]
  numbered h := h.replace hbelow task
  next := Nat.le_refl _
  crashes := Nat.le_refl _

/-! ## Slots -/

theorem wakeSpawners (p : Pool) : Aside p p.wakeSpawners := by
  refine ⟨rfl, rfl, rfl, rfl, rfl, rfl, ?_, fun h => h.congr ?_, Nat.le_refl _, Nat.le_refl _⟩
  · unfold Pool.wakeSpawners Task.holders
    induction p.tasks with
    | nil => rfl
    | cons entry rest ih =>
        obtain ⟨number, task⟩ := entry
        simp only [List.map_cons, List.filter_cons, ih]
        cases task <;> rfl
  · unfold Pool.wakeSpawners
    induction p.tasks with
    | nil => rfl
    | cons entry rest ih =>
        obtain ⟨number, task⟩ := entry
        simp only [List.map_cons, ih]
        cases task <;> rfl

theorem releaseSlot (p : Pool) : Aside p p.releaseSlot := by
  have hfreed : Aside p { p with slots := p.slots.release } :=
    bookkeeping rfl (Nat.le_refl _)
  exact hfreed.trans (wakeSpawners _)

theorem tune (p : Pool) (change : Int) : Aside p (p.tune change) := by
  have htuned : Aside p { p with slots := p.slots.tune change } :=
    bookkeeping rfl (Nat.le_refl _)
  unfold Pool.tune
  split
  · exact htuned.trans (wakeSpawners _)
  · exact htuned

theorem closeWorkers (p : Pool) : Aside p p.closeWorkers := by
  have hclosed : Aside p { p with slots := p.slots.close } :=
    bookkeeping rfl (Nat.le_refl _)
  exact hclosed.trans (wakeSpawners _)

/-! ## Loops -/

theorem launch (p : Pool) : Aside p p.launch := by
  have hrunning : Aside p { p with status := .running, epoch := p.epoch + 1 } :=
    bookkeeping rfl (Nat.le_refl _)
  exact ((hrunning.trans (spawn _ rfl)).trans (spawn _ rfl)).trans (spawn _ rfl)

theorem tickScaler (p : Pool) : Aside p p.tickScaler.1 := by
  unfold Pool.tickScaler
  dsimp only
  split
  · exact bookkeeping rfl (Nat.le_refl _)
  · refine trans ?_ (tune _ _)
    exact bookkeeping rfl (Nat.le_refl _)

/-! ## Evictions -/

/-- What is aside before an eviction is aside after it. -/
theorem evict (h : Aside p q) (endpoint : String) :
    Aside (p.evict endpoint) (q.evict endpoint) := by
  unfold Pool.evict
  rw [h.registry]
  cases p.registry.delete endpoint with
  | error e => exact h
  | ok deleted =>
      exact { h with
        registry := rfl
        backoff := congrArg (Backoff.forget · endpoint) h.backoff }

/-! ## Loads -/

/-- What is aside before a load is aside after it. -/
theorem load (h : Aside p q) (raw : String) : Aside (p.load raw).1 (q.load raw).1 := by
  unfold Pool.load
  cases Endpoint.normalize? raw with
  | none => exact h
  | some endpoint =>
      dsimp only
      rw [h.registry, h.intake]
      exact { h with registry := rfl, intake := rfl }

theorem loadAll (h : Aside p q) (raws : List String) :
    Aside (p.loadAll raws).1 (q.loadAll raws).1 := by
  induction raws generalizing p q with
  | nil => exact h
  | cons raw more ih => exact ih (h.load raw)

/-! ## After the endpoint was let go -/

theorem finish (p : Pool) (id : Nat) (answer : Answer) : Aside (p.remove id) (p.finish id answer) :=
  bookkeeping rfl (Nat.le_refl _)

theorem closeRound (p : Pool) (id : Nat) (inSlot : Bool) :
    Aside (p.remove id) (p.closeRound id inSlot) := by
  cases inSlot with
  | true => exact releaseSlot _
  | false => exact refl _

end Aside

end SocksPool
