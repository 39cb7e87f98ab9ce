import Mathlib.Algebra.GroupWithZero.Nat
import SocksPool.Pool.Lifecycle
import SocksPool.Pool.Move
import SocksPool.Proofs.Tokens

/-!
# The crew of a pool

The tasks of a pool, without their numbers and in no order, are its *crew*. What
a step does to the crew is one equation: some tasks go, others come, and the
rest stay. `Swap gone come p q` is this equation, and says too that queues,
slots, status, scaler and clock are as they were. Where one of them does change,
or sleeping spawn loops wake up, the equation starts from a pool in which that
has happened.

Such equations add up, and so does everything that is counted over the crew.

## Main results

* `Swap.remove`, `Swap.put`, `Swap.spawn`, `Swap.release` — the operations on
  tasks.
* `Swap.trans` — one swap after the other.
* `Swap.countP`, `Swap.weigh` — counts and weights of a crew.
-/

open SocksPool.Task (Numbered)

namespace SocksPool

/-- The task after sleeping spawn loops were woken. -/
def Task.wakened : Task → Task
  | .spawnLoop epoch _ => .spawnLoop epoch true
  | task => task

namespace Pool

/-- The tasks, without their numbers. -/
def crew (p : Pool) : List Task := p.tasks.map (·.2)

/-- What the tasks weigh together. -/
def weigh (p : Pool) (weight : Task → Nat) : Nat := (p.crew.map weight).sum

/-- Clock, status, slots, scaler and queues are the same, and so are the settings
that no call changes. -/
structure Alike (p q : Pool) : Prop where
  now : q.now = p.now
  status : q.status = p.status
  epoch : q.epoch = p.epoch
  slots : q.slots = p.slots
  scaler : q.scaler = p.scaler
  intake : q.intake = p.intake
  pending : q.pending = p.pending
  outputs : q.outputs = p.outputs
  bufferSize : q.config.bufferSize = p.config.bufferSize
  scaleInterval : q.config.scaleInterval = p.config.scaleInterval

/-- Neither do the tasks change. -/
structure Still (p q : Pool) : Prop extends Alike p q where
  tasks : q.tasks = p.tasks
  nextTask : q.nextTask = p.nextTask

/-- Some tasks have gone and others have come, and nothing else has changed. -/
structure Swap (gone come : List Task) (p q : Pool) : Prop extends Alike p q where
  perm : (q.crew ++ gone).Perm (p.crew ++ come)

variable {p q r : Pool} {id : Nat} {task old new : Task} {gone come : List Task}

namespace Alike

theorem trans (hpq : Alike p q) (hqr : Alike q r) : Alike p r where
  now := hqr.now.trans hpq.now
  status := hqr.status.trans hpq.status
  epoch := hqr.epoch.trans hpq.epoch
  slots := hqr.slots.trans hpq.slots
  scaler := hqr.scaler.trans hpq.scaler
  intake := hqr.intake.trans hpq.intake
  pending := hqr.pending.trans hpq.pending
  outputs := hqr.outputs.trans hpq.outputs
  bufferSize := hqr.bufferSize.trans hpq.bufferSize
  scaleInterval := hqr.scaleInterval.trans hpq.scaleInterval

/-- What slots are freed in common leaves pools alike. -/
theorem releaseSlot (h : Alike p q) : Alike p.releaseSlot q.releaseSlot where
  now := h.now
  status := h.status
  epoch := h.epoch
  slots := congrArg Slots.release h.slots
  scaler := h.scaler
  intake := h.intake
  pending := h.pending
  outputs := h.outputs
  bufferSize := h.bufferSize
  scaleInterval := h.scaleInterval

end Alike

/-! ## Changes of neither tasks nor queues -/

namespace Still

/-- Registry, limiters, counters, answers, log and crashes may change freely. -/
theorem books
    (h : { q with
      config := p.config, registry := p.registry, stats := p.stats, usage := p.usage,
      backoff := p.backoff, answers := p.answers, log := p.log, crashes := p.crashes } = p)
    (hbuffer : q.config.bufferSize = p.config.bufferSize)
    (hinterval : q.config.scaleInterval = p.config.scaleInterval) : Still p q where
  now := (congrArg Pool.now h :)
  status := (congrArg Pool.status h :)
  epoch := (congrArg Pool.epoch h :)
  slots := (congrArg Pool.slots h :)
  scaler := (congrArg Pool.scaler h :)
  intake := (congrArg Pool.intake h :)
  pending := (congrArg Pool.pending h :)
  outputs := (congrArg Pool.outputs h :)
  bufferSize := hbuffer
  scaleInterval := hinterval
  tasks := (congrArg Pool.tasks h :)
  nextTask := (congrArg Pool.nextTask h :)

theorem refl (p : Pool) : Still p p := books rfl rfl rfl

theorem tell (p : Pool) (e : Event) : Still p (p.tell e) := books rfl rfl rfl

theorem trans (hpq : Still p q) (hqr : Still q r) : Still p r where
  toAlike := hpq.toAlike.trans hqr.toAlike
  tasks := hqr.tasks.trans hpq.tasks
  nextTask := hqr.nextTask.trans hpq.nextTask

theorem evict (p : Pool) (endpoint : String) : Still p (p.evict endpoint) := by
  unfold Pool.evict
  split
  · exact refl p
  · exact books rfl rfl rfl

theorem reportFailure (p : Pool) (endpoint : String) :
    Still p (p.reportFailure endpoint).1 := by
  unfold Pool.reportFailure
  split
  · exact refl p
  · unfold markBad strike
    dsimp only
    split
    · next hstrike =>
        obtain ⟨rfl, -⟩ := Prod.mk.inj hstrike
        exact books rfl rfl rfl
    · next hstrike =>
        obtain ⟨rfl, -⟩ := Prod.mk.inj hstrike
        split
        · refine trans ?_ (evict _ endpoint)
          exact books rfl rfl rfl
        · exact books rfl rfl rfl

theorem numbered (h : Still p q) (hnum : Numbered p.tasks p.nextTask) :
    Numbered q.tasks q.nextTask := by
  rw [h.tasks, h.nextTask]
  exact hnum

theorem task? (h : Still p q) (hfind : p.task? id = some task) : q.task? id = some task := by
  unfold Pool.task?
  rw [h.tasks]
  exact hfind

end Still

/-! ## Tasks by number -/

theorem task?_spawn (hfind : p.task? id = some task) (new : Task) :
    (p.spawn new).task? id = some task := by
  have hfound : p.tasks.lookup id = some task := hfind
  show (p.tasks ++ [(p.nextTask, new)]).lookup id = some task
  rw [List.lookup_append, hfound]
  rfl

/-- A task that moves on is found under its number. -/
theorem task?_put (hnum : Numbered p.tasks p.nextTask) (hfind : p.task? id = some old)
    (new : Task) : (p.put id new).task? id = some new :=
  ((hnum.drop id).replace (hnum.lt_of_lookup hfind) new).lookup_of_mem
    (List.mem_append_right _ (List.mem_singleton.2 rfl))

theorem task?_remove (p : Pool) (id : Nat) : (p.remove id).task? id = none := by
  refine List.lookup_eq_none_iff.2 fun entry hentry => ?_
  have hother := (List.mem_filter.1 hentry).2
  rwa [bne_comm]

/-- A task that ends is not another one. -/
theorem task?_remove_of_ne (p : Pool) {other : Nat} (hne : other ≠ id) :
    (p.remove id).task? other = p.task? other := by
  show (p.tasks.filter fun entry => entry.1 != id).lookup other = p.tasks.lookup other
  induction p.tasks with
  | nil => rfl
  | cons entry rest ih =>
      by_cases hown : entry.1 = id
      · have hmiss : (other == entry.1) = false := beq_eq_false_iff_ne.2 (hown ▸ hne)
        rw [List.filter_cons_of_neg (by simp [hown]), List.lookup_cons, hmiss]
        exact ih
      · rw [List.filter_cons_of_pos (by simp [hown]), List.lookup_cons, List.lookup_cons, ih]

/-- Nor is one that moves on. -/
theorem task?_put_of_ne (p : Pool) {other : Nat} (hne : other ≠ id) (task : Task) :
    (p.put id task).task? other = p.task? other := by
  have hmiss : (other == id) = false := beq_eq_false_iff_ne.2 hne
  rw [← task?_remove_of_ne p hne]
  show ((p.remove id).tasks ++ [(id, task)]).lookup other = (p.remove id).tasks.lookup other
  rw [List.lookup_append, List.lookup_cons, hmiss]
  exact Option.or_none ..

/-- A task that begins takes a number of its own. -/
theorem task?_spawn_of_lt (hbelow : id < p.nextTask) (new : Task) :
    (p.spawn new).task? id = p.task? id := by
  have hmiss : (id == p.nextTask) = false := beq_eq_false_iff_ne.2 (Nat.ne_of_lt hbelow)
  show (p.tasks ++ [(p.nextTask, new)]).lookup id = p.tasks.lookup id
  rw [List.lookup_append, List.lookup_cons, hmiss]
  exact Option.or_none ..

theorem task?_spawn_self (hnum : Numbered p.tasks p.nextTask) (new : Task) :
    (p.spawn new).task? p.nextTask = some new :=
  (hnum.spawn new).lookup_of_mem (List.mem_append_right _ (List.mem_singleton.2 rfl))

/-- Whatever was there, a task that was put is found. -/
theorem task?_put_self (p : Pool) (id : Nat) (task : Task) :
    (p.put id task).task? id = some task := by
  have hgone : (p.remove id).tasks.lookup id = none := task?_remove p id
  show ((p.remove id).tasks ++ [(id, task)]).lookup id = some task
  rw [List.lookup_append, hgone]
  simp

theorem remove_put (p : Pool) (id : Nat) (task : Task) :
    (p.put id task).remove id = p.remove id := by
  simp [put, remove]

/-- Where a task is put, its older form does not matter. -/
theorem put_congr (h : p.remove id = q.remove id) (task : Task) : p.put id task = q.put id task :=
  congrArg (fun r : Pool => { r with tasks := r.tasks ++ [(id, task)] }) h

/-- No task has the next number yet. -/
theorem remove_nextTask (hnum : Numbered p.tasks p.nextTask) : p.remove p.nextTask = p := by
  have hnone : p.tasks.filter (fun entry => entry.1 != p.nextTask) = p.tasks :=
    List.filter_eq_self.2 fun entry hentry => bne_iff_ne.2 (Nat.ne_of_lt (hnum.below entry hentry))
  exact congrArg (fun tasks => { p with tasks }) hnone

theorem tasks_wakeSpawners (p : Pool) :
    p.wakeSpawners.tasks = p.tasks.map fun entry => (entry.1, entry.2.wakened) := by
  unfold wakeSpawners
  apply List.map_congr_left
  rintro ⟨number, task⟩ -
  cases task <;> rfl

theorem crew_wakeSpawners (p : Pool) : p.wakeSpawners.crew = p.crew.map Task.wakened := by
  unfold crew
  rw [tasks_wakeSpawners, List.map_map, List.map_map]
  rfl

theorem task?_wakeSpawners (p : Pool) (id : Nat) :
    p.wakeSpawners.task? id = (p.task? id).map Task.wakened := by
  unfold task?
  rw [tasks_wakeSpawners]
  induction p.tasks with
  | nil => rfl
  | cons entry rest ih =>
      rw [List.map_cons, List.lookup_cons, List.lookup_cons]
      cases id == entry.1 with
      | true => rfl
      | false => exact ih

/-! ## Swaps -/

theorem perm_append_append {α : Type} (l l₁ l₂ : List α) :
    (l ++ l₁ ++ l₂).Perm (l ++ l₂ ++ l₁) := by
  rw [List.append_assoc, List.append_assoc]
  exact List.perm_append_comm.append_left l

namespace Swap

theorem still (h : Still p q) : Swap [] [] p q where
  toAlike := h.toAlike
  perm := by
    unfold crew
    rw [h.tasks]

theorem refl (p : Pool) : Swap [] [] p p := still (.refl p)

/-- One swap after the other. -/
theorem trans {left arrived : List Task} (hpq : Swap gone come p q)
    (hqr : Swap left arrived q r) : Swap (gone ++ left) (come ++ arrived) p r where
  toAlike := hpq.toAlike.trans hqr.toAlike
  perm := by
    have hfirst := hpq.perm.append_right arrived
    have hsecond := hqr.perm.append_right gone
    have hmiddle := perm_append_append q.crew arrived gone
    rw [← List.append_assoc, ← List.append_assoc]
    exact (perm_append_append r.crew gone left).trans (hsecond.trans (hmiddle.trans hfirst))

/-- What changes neither tasks nor queues may come first. -/
theorem after (h : Swap gone come q r) (hstill : Still p q) : Swap gone come p r :=
  (still hstill).trans h

/-- And it may come last. -/
theorem andThen (h : Swap gone come p q) (hstill : Still q r) : Swap gone come p r := by
  have hboth := h.trans (still hstill)
  rwa [List.append_nil, List.append_nil] at hboth

theorem spawn (p : Pool) (new : Task) : Swap [] [new] p (p.spawn new) where
  toAlike := ⟨rfl, rfl, rfl, rfl, rfl, rfl, rfl, rfl, rfl, rfl⟩
  perm := by
    rw [List.append_nil]
    exact .of_eq (List.map_append ..)

theorem remove (hnum : Numbered p.tasks p.nextTask) (hfind : p.task? id = some old) :
    Swap [old] [] p (p.remove id) where
  toAlike := ⟨rfl, rfl, rfl, rfl, rfl, rfl, rfl, rfl, rfl, rfl⟩
  perm := by
    have hperm := (Task.perm_of_lookup hnum.distinct hfind).map (·.2)
    rw [List.append_nil]
    exact List.perm_append_comm.trans hperm.symm

theorem put (hnum : Numbered p.tasks p.nextTask) (hfind : p.task? id = some old) (new : Task) :
    Swap [old] [new] p (p.put id new) where
  toAlike := ⟨rfl, rfl, rfl, rfl, rfl, rfl, rfl, rfl, rfl, rfl⟩
  perm := by
    have hcrew : (p.put id new).crew = (p.remove id).crew ++ [new] := List.map_append ..
    have hgone := (remove hnum hfind).perm
    rw [List.append_nil] at hgone
    rw [hcrew]
    exact (perm_append_append _ [new] [old]).trans (hgone.append_right [new])

theorem finish (hnum : Numbered p.tasks p.nextTask) (hfind : p.task? id = some old)
    (answer : Answer) : Swap [old] [] p (p.finish id answer) :=
  (remove hnum hfind).andThen (.books rfl rfl rfl)

/-- A slot is freed after the swap. -/
theorem release (h : Swap gone come p q) (hgone : gone.map Task.wakened = gone)
    (hcome : come.map Task.wakened = come) : Swap gone come p.releaseSlot q.releaseSlot where
  toAlike := h.toAlike.releaseSlot
  perm := by
    have hp : p.releaseSlot.crew = p.crew.map Task.wakened := crew_wakeSpawners _
    have hq : q.releaseSlot.crew = q.crew.map Task.wakened := crew_wakeSpawners _
    have hmap := h.perm.map Task.wakened
    rw [List.map_append, List.map_append, hgone, hcome] at hmap
    rwa [hp, hq]

/-! ## Counts -/

theorem countP (h : Swap gone come p q) (sort : Task → Bool) :
    q.crew.countP sort + gone.countP sort = p.crew.countP sort + come.countP sort := by
  rw [← List.countP_append, ← List.countP_append]
  exact h.perm.countP_eq sort

theorem weigh (h : Swap gone come p q) (weight : Task → Nat) :
    q.weigh weight + (gone.map weight).sum = p.weigh weight + (come.map weight).sum := by
  unfold Pool.weigh
  rw [← List.sum_append_nat, ← List.sum_append_nat, ← List.map_append, ← List.map_append]
  exact (h.perm.map weight).sum_nat

/-- Who is there after a swap was there before, or has come. -/
theorem mem (h : Swap gone come p q) (hmem : task ∈ q.crew) : task ∈ p.crew ∨ task ∈ come :=
  List.mem_append.1 (h.perm.mem_iff.1 (List.mem_append_left gone hmem))

/-- Who has come is there, unless it was there before and another of its like has gone. -/
theorem mem_of_come (h : Swap gone come p q) (hcame : task ∈ come) :
    task ∈ q.crew ∨ task ∈ gone :=
  List.mem_append.1 (h.perm.mem_iff.2 (List.mem_append_right _ hcame))

end Swap

/-! ## After what changes no task -/

theorem Still.remove (h : Still p q) (hnum : Numbered p.tasks p.nextTask)
    (hfind : p.task? id = some old) : Swap [old] [] p (q.remove id) :=
  (Swap.remove (h.numbered hnum) (h.task? hfind)).after h

theorem Still.put (h : Still p q) (hnum : Numbered p.tasks p.nextTask)
    (hfind : p.task? id = some old) (new : Task) : Swap [old] [new] p (q.put id new) :=
  (Swap.put (h.numbered hnum) (h.task? hfind) new).after h

theorem Still.finish (h : Still p q) (hnum : Numbered p.tasks p.nextTask)
    (hfind : p.task? id = some old) (answer : Answer) :
    Swap [old] [] p (q.finish id answer) :=
  (Swap.finish (h.numbered hnum) (h.task? hfind) answer).after h

/-- A task that is found belongs to the crew. -/
theorem mem_crew_of_task? (hfind : p.task? id = some task) : task ∈ p.crew :=
  List.mem_map.2 ⟨(id, task), Task.mem_of_lookup hfind, rfl⟩

end Pool

end SocksPool
