import SocksPool.Proofs.Orderly
import SocksPool.Proofs.Shifts

/-!
# Slots and room

A slot is taken by a job, and by nothing else: it is taken as the job begins and
given back as the job ends, whatever the job does in between. So the slots that are
taken are as many as the jobs, and since every freed slot and every growth wakes the
spawn loops, a spawn loop sleeps only while there is no free slot.

Nothing is queued without room for it, so no queue is longer than the buffer.

## Main definitions

* `Staffed` — slots and queues are in order.

## Main results

* `Staffed.act` — every deed keeps slots and queues in order.
* `staffed_of_new` — a pool begins with them in order.
-/

open SocksPool.Task (Numbered)

namespace SocksPool

/-- The task takes a worker slot. -/
def Task.isJob : Task → Bool
  | .idleJob _ => true
  | .round r => r.inSlot
  | _ => false

/-- The slots that are taken are those of jobs, spawn loops sleep only for want of a
slot, and no queue is longer than the buffer. -/
structure Staffed (p : Pool) : Prop where
  running : p.slots.running = p.crew.countP Task.isJob
  capacity : 1 ≤ p.slots.capacity
  sleeps : ∀ epoch, .spawnLoop epoch false ∈ p.crew → p.slots.free = false
  pending : p.pending.length ≤ p.config.bufferSize
  outputs : ∀ protocol, (p.outputs.get protocol).length ≤ p.config.bufferSize

theorem Task.isJob_wakened (task : Task) : task.wakened.isJob = task.isJob := by
  cases task <;> rfl

namespace Pool

variable {p q mid : Pool} {d : Deed} {gone come : List Task}

/-! ## Slots -/

theorem running_tune (p : Pool) (change : Int) :
    (p.tune change).slots.running = p.slots.running :=
  (congrArg Slots.running (alike_tune p change).slots :)

/-- Shrinking frees no slot, and growth wakes the spawn loops. -/
theorem free_tune (p : Pool) (hcapacity : 1 ≤ p.slots.capacity) (change : Int) :
    1 ≤ (p.tune change).slots.capacity ∧
      ((p.tune change).crew = p.crew.map Task.wakened ∨
        (p.slots.free = false → (p.tune change).slots.free = false)) := by
  rw [(alike_tune p change).slots]
  refine ⟨Slots.capacity_pos_tune _ _, ?_⟩
  by_cases hgrows : 0 < change
  · left
    unfold Pool.tune
    rw [if_pos hgrows]
    exact crew_wakeSpawners _
  · right
    have hshrinks : (p.slots.tune change).capacity ≤ p.slots.capacity := by
      simp only [Slots.tune, Slots.stretch, Word.saturatingAdd]
      omega
    have hrunning : (p.slots.tune change).running = p.slots.running := rfl
    have hclosed : (p.slots.tune change).closed = p.slots.closed := rfl
    simp only [Slots.free, hrunning, hclosed, Bool.and_eq_false_iff, Bool.not_eq_false',
      decide_eq_false_iff_not, Nat.not_lt]
    exact Or.imp_right fun htaken => Nat.le_trans hshrinks htaken

/-- Jobs go with their slots and come with theirs. -/
theorem Shift.running_mid (h : Shift p q d gone come mid)
    (hrunning : p.slots.running = p.crew.countP Task.isJob) :
    mid.slots.running + gone.countP Task.isJob =
      p.slots.running + come.countP Task.isJob := by
  have hgone : gone.countP Task.isJob ≤ p.slots.running := by
    rw [hrunning]
    rcases h.gone_cases with rfl | ⟨id, task, hfind, rfl⟩
    · exact Nat.zero_le _
    · exact (List.singleton_sublist.2 (mem_crew_of_task? hfind)).countP_le
  have hleaves {p : Pool} {r : Round} (hleft : [Task.round r].countP Task.isJob ≤ p.slots.running) :
      (p.vacate r.inSlot).slots.running + [Task.round r].countP Task.isJob = p.slots.running := by
    cases hslot : r.inSlot with
    | true =>
        simp only [List.countP_singleton, Task.isJob, hslot, if_true] at hleft ⊢
        exact Nat.sub_add_cancel hleft
    | false =>
        simp only [List.countP_singleton, Task.isJob, hslot, Bool.false_eq_true, if_false,
          Nat.add_zero]
        rfl
  cases h with
  | resized scaler change _ => exact congrArg (· + 0) (running_tune { p with scaler } change)
  | tuned change => exact congrArg (· + 0) (running_tune p change)
  | ticked scaler _ _ _ _ hmid =>
      rcases hmid with rfl | ⟨change, rfl⟩
      · rfl
      · exact congrArg (· + 0) (running_tune { p with scaler } change)
  | @retired id epoch task htask hepoch hhalted hidle htoken =>
      have hjob : task.isJob = false := by
        cases task with
        | idleJob epoch => cases hidle
        | round r => cases htoken
        | _ => rfl
      simp [hjob]
  | dismissed _ _ | skipped _ _ _ | deferred _ _ _ => exact Nat.sub_add_cancel hgone
  | failed _ _ => exact hleaves hgone
  | failedKept _ _ _ => exact hleaves hgone
  | delivered _ _ _ => exact hleaves (p := p.deliver _) hgone
  | sentBack _ _ | redialled _ _ _ =>
      rw [List.countP_append, countP_recycled fun _ _ => rfl]
      first | rfl | rw [countP_goesOn fun _ => rfl]; rfl
  | used _ _ _ _ _ =>
      rw [countP_goesOn fun _ => rfl]
      rfl
  | _ => rfl

/-- A slot is freed only as the spawn loops wake up. -/
theorem Shift.free_mid (h : Shift p q d gone come mid) (hcapacity : 1 ≤ p.slots.capacity) :
    1 ≤ mid.slots.capacity ∧ (mid.crew = p.crew.map Task.wakened ∨
      (p.slots.free = false → mid.slots.free = false)) := by
  have hleaves (p : Pool) (hcapacity : 1 ≤ p.slots.capacity) (inSlot : Bool) :
      1 ≤ (p.vacate inSlot).slots.capacity ∧ ((p.vacate inSlot).crew = p.crew.map Task.wakened ∨
        (p.slots.free = false → (p.vacate inSlot).slots.free = false)) := by
    cases inSlot with
    | true => exact ⟨hcapacity, .inl (crew_wakeSpawners _)⟩
    | false => exact ⟨hcapacity, .inr id⟩
  cases h with
  | resized scaler change _ => exact free_tune { p with scaler } hcapacity change
  | tuned change => exact free_tune p hcapacity change
  | ticked scaler _ _ _ _ hmid =>
      rcases hmid with rfl | ⟨change, rfl⟩
      · exact ⟨hcapacity, .inr id⟩
      · exact free_tune { p with scaler } hcapacity change
  | closed | dismissed _ _ | skipped _ _ _ | deferred _ _ _ =>
      exact ⟨hcapacity, .inl (crew_wakeSpawners _)⟩
  | failed _ _ | failedKept _ _ _ => exact hleaves p hcapacity _
  | delivered _ _ _ => exact hleaves (p.deliver _) hcapacity _
  | hired _ hfree =>
      refine ⟨hcapacity, .inr fun hnone => ?_⟩
      rw [hfree] at hnone
      cases hnone
  | _ => exact ⟨hcapacity, .inr id⟩

/-- A spawn loop falls asleep for want of a slot. -/
theorem Shift.free_of_asleep (h : Shift p q d gone come mid) {epoch : Nat}
    (hasleep : .spawnLoop epoch false ∈ come) : mid.slots.free = false := by
  cases h.succeeds hasleep rfl with
  | fresh _ _ hmem => simp [freshLoops] at hmem
  | asleep _ hfree => exact hfree

/-! ## Queues -/

theorem length_deliver (hbound : ∀ protocol, (p.outputs.get protocol).length ≤ p.config.bufferSize)
    {copy : Proxy} (hroom : p.outputRoom copy.protocol = true) (protocol : Protocol) :
    ((p.deliver copy).outputs.get protocol).length ≤ p.config.bufferSize := by
  unfold outputRoom at hroom
  rw [Bool.and_eq_true, bne_iff_ne, decide_eq_true_eq] at hroom
  unfold deliver
  rw [Outputs.get_set _ hroom.1]
  split
  · rw [List.length_append]
    exact hroom.2
  · exact hbound protocol

theorem length_dequeue (hbound : ∀ protocol, (p.outputs.get protocol).length ≤ p.config.bufferSize)
    {source : Protocol} {copy : Proxy} {rest : List Proxy}
    (hqueue : p.outputs.get source = copy :: rest) (protocol : Protocol) :
    ((p.outputs.set source rest).get protocol).length ≤ p.config.bufferSize := by
  rw [Outputs.get_set _ (Outputs.known_of_get hqueue)]
  split
  · have hlength := hbound source
    rw [hqueue] at hlength
    exact Nat.le_of_succ_le hlength
  · exact hbound protocol

/-- Nothing is queued without room. -/
theorem Shift.length_mid (h : Shift p q d gone come mid)
    (hpending : p.pending.length ≤ p.config.bufferSize)
    (houtputs : ∀ protocol, (p.outputs.get protocol).length ≤ p.config.bufferSize) :
    mid.pending.length ≤ p.config.bufferSize ∧
      ∀ protocol, (mid.outputs.get protocol).length ≤ p.config.bufferSize := by
  have hjoins (hroom : p.pendingRoom = true) (endpoint : String) :
      (p.pending ++ [endpoint]).length ≤ p.config.bufferSize := by
    rw [List.length_append]
    exact of_decide_eq_true hroom
  have hleaves {endpoint : String} {rest : List String} (hqueue : p.pending = endpoint :: rest) :
      rest.length ≤ p.config.bufferSize := by
    rw [hqueue] at hpending
    exact Nat.le_of_succ_le hpending
  cases h with
  | resized scaler change _ =>
      rw [(alike_tune { p with scaler } change).pending,
        (alike_tune { p with scaler } change).outputs]
      exact ⟨hpending, houtputs⟩
  | tuned change =>
      rw [(alike_tune p change).pending, (alike_tune p change).outputs]
      exact ⟨hpending, houtputs⟩
  | ticked scaler _ _ _ _ hmid =>
      rcases hmid with rfl | ⟨change, rfl⟩
      · exact ⟨hpending, houtputs⟩
      · rw [(alike_tune { p with scaler } change).pending,
          (alike_tune { p with scaler } change).outputs]
        exact ⟨hpending, houtputs⟩
  | forwarded _ hroom | cameBack _ hroom => exact ⟨hjoins hroom _, houtputs⟩
  | skipped _ hqueue _ | deferred _ hqueue _ | opened _ _ hqueue _ _ _ =>
      exact ⟨hleaves hqueue, houtputs⟩
  | failed _ _ | failedKept _ _ _ =>
      rw [(alike_vacate p _).pending, (alike_vacate p _).outputs]
      exact ⟨hpending, houtputs⟩
  | delivered _ _ hroom =>
      rw [(alike_vacate (p.deliver _) _).pending, (alike_vacate (p.deliver _) _).outputs]
      exact ⟨hpending, length_deliver houtputs hroom⟩
  | restored _ _ hroom => exact ⟨hpending, length_deliver houtputs hroom⟩
  | passedOver _ hqueue | sentBack _ hqueue | checked _ _ _ hqueue =>
      exact ⟨hpending, length_dequeue houtputs hqueue⟩
  | _ => exact ⟨hpending, houtputs⟩

end Pool

namespace Staffed

variable {p q : Pool} {d : Deed}

/-- Every deed keeps slots and queues in order. -/
theorem act (h : Staffed p) (hnum : Numbered p.tasks p.nextTask) (hact : p.act? d = some q) :
    Staffed q := by
  obtain ⟨gone, come, mid, hshift, hswap⟩ := Pool.shifts_of_act? hnum hact
  obtain ⟨hcapacity, hfree⟩ := hshift.free_mid h.capacity
  obtain ⟨hpending, houtputs⟩ := hshift.length_mid h.pending h.outputs
  have hbuffer : q.config.bufferSize = p.config.bufferSize := by
    rw [hswap.bufferSize, hshift.config_mid]
  refine ⟨?_, ?_, ?_, ?_, ?_⟩
  · have hslots := hshift.running_mid h.running
    have hcount := hshift.countP hswap Task.isJob_wakened
    rw [hswap.slots]
    have hrunning := h.running
    omega
  · rw [hswap.slots]
    exact hcapacity
  · intro epoch hasleep
    rw [hswap.slots]
    rcases hswap.mem hasleep with hthere | hcame
    · rcases hfree with hwoken | hkept
      · rw [hwoken] at hthere
        obtain ⟨old, -, hold⟩ := List.mem_map.1 hthere
        cases old <;> cases hold
      · rcases hshift.crew_mid with hsame | hwoken
        · rw [hsame] at hthere
          exact hkept (h.sleeps epoch hthere)
        · rw [hwoken] at hthere
          obtain ⟨old, -, hold⟩ := List.mem_map.1 hthere
          cases old <;> cases hold
    · exact hshift.free_of_asleep hcame
  · rw [hswap.pending, hbuffer]
    exact hpending
  · rw [hswap.outputs, hbuffer]
    exact houtputs

/-- Every state of a run has its slots and queues in order. -/
theorem throughout {steps : List Step} (h : Staffed p) (horderly : Orderly p)
    (hrun : Run p steps q) : Staffed q ∧ ∀ s ∈ steps, Staffed s.before ∧ Staffed s.after := by
  have hall := (horderly.throughout hrun).2
  exact hrun.throughout h fun s hs hbefore => hbefore.act (hall s hs).1.numbered s.done

end Staffed

/-- A pool with slots of its own begins with slots and queues in order. -/
theorem staffed_of_new {config : Config} {p : Pool} (hmade : Pool.new config = .ok p) :
    Staffed p := by
  unfold Pool.new Pool.withSlots at hmade
  split at hmade
  · cases hmade
  · obtain rfl := Except.ok.inj hmade
    refine ⟨rfl, Nat.le_max_right _ _, fun epoch hmem => ?_, Nat.zero_le _, fun protocol => ?_⟩
    · cases hmem
    · cases protocol <;> exact Nat.zero_le _

end SocksPool
