import SocksPool.Proofs.Orderly

/-!
# Where tasks and copies come from

Most deeds only let endpoints go: a task ends, or a queue loses its head. So
little has to be said about the tasks that hold an endpoint after a deed. Each
of them held it before, or it is one of the few that `Arrives` lists. In the
same way a copy on an output queue was there before, or a task has just put it
there.

An invariant about what tasks hold and queues carry is then proved for these
few arrivals, and not deed by deed.

## Main results

* `Effect.holder_cases` — the tasks that hold an endpoint after a deed.
* `Effect.copy_cases` — the copies that are queued after a deed.
-/

open SocksPool.Task (holders without)

namespace SocksPool

/-- The copy that a task carries: a round delivers it, or a caller re-dials it. -/
def Task.copy? : Task → Option Proxy
  | .round ⟨_, _, _, _, .delivering copy⟩ => some copy
  | .caller ⟨_, _, .checking candidate _ _ _ _⟩ => some candidate
  | _ => none

namespace Pool

/-- A task that holds an endpoint after a deed, and did not hold it in this form
before. -/
inductive Arrives (p : Pool) : Deed → Pool → Nat × Task → Prop where
  | received {d : Deed} {q : Pool} {id epoch : Nat} {endpoint : String} :
      Arrives p d q (id, .intakeLoop epoch (.holding endpoint))
  | requeued {d : Deed} {q : Pool} {id : Nat} {endpoint : String} {due : Option Nat} :
      Arrives p d q (id, .requeue endpoint due)
  | opened {q : Pool} {id life : Nat} {endpoint : String}
      (hfind : p.registry.find? endpoint = some life) :
      Arrives p (.move id .pick) q (id, .round (p.firstRound endpoint life))
  | retried {q : Pool} {id since : Nat} {r : Round} {protocol next : Protocol}
      {more : List Protocol} {e : PoolError} (htask : p.task? id = some (.round r))
      (hstage : r.stage = .attempting protocol (next :: more) since) :
      Arrives p (.move id (.attempted (.error e))) q
        (id, .round { r with stage := .attempting next more p.now })
  | passed {q : Pool} {id since : Nat} {r : Round} {protocol : Protocol} {rest : List Protocol}
      {exit : Address} {entry : Entry} (htask : p.task? id = some (.round r))
      (hstage : r.stage = .attempting protocol rest since)
      (hentry : p.registry.entry? r.life = some entry)
      (hnoted : q.registry = p.registry.update r.life (·.recordValidation p.now protocol exit)) :
      Arrives p (.move id (.attempted (.ok exit))) q
        (id, .round { r with
          stage := .delivering (entry.recordValidation p.now protocol exit).snapshot })
  | checked {q : Pool} {id life : Nat} {c : Caller} {protocol : Protocol} {candidate : Proxy}
      {rest : List Proxy} {entry : Entry} (htask : p.task? id = some (.caller c))
      (haccepts : Purpose.accepts c.purpose protocol = true)
      (hqueue : p.outputs.get protocol = candidate :: rest)
      (hfind : p.registry.find? candidate.endpoint = some life)
      (hentry : p.registry.entry? life = some entry)
      (hfresh : entry.snapshot.isStale p.now p.config.staleAfter = false) :
      Arrives p (.move id (.dispense protocol)) q
        (id, .caller { c with stage := p.checkingStage candidate life })

variable {p q : Pool} {d : Deed} {id : Nat} {task : Task} {entry : Nat × Task}

/-! ## Holders -/

theorem mem_holders_remove (h : entry ∈ holders (p.remove id).tasks) :
    entry ∈ holders p.tasks :=
  (Task.mem_holders_without.1 h).1

theorem mem_holders_put (h : entry ∈ holders (p.put id task).tasks) :
    entry ∈ holders p.tasks ∨ entry = (id, task) := by
  rcases Task.mem_holders_append h with hold | hnew
  · exact .inl (mem_holders_remove hold)
  · exact .inr hnew

theorem mem_holders_recycle {wanted : Bool} {endpoint : String}
    (h : entry ∈ holders (p.recycle wanted endpoint).tasks) :
    entry ∈ holders p.tasks ∨ ∃ id due, entry = (id, .requeue endpoint due) := by
  cases wanted with
  | false => exact .inl h
  | true =>
      rcases Task.mem_holders_append h with hold | hnew
      · exact .inl hold
      · exact .inr ⟨_, _, hnew⟩

theorem tasks_serve (p : Pool) (id : Nat) (c : Caller) (proxy : Proxy) :
    (p.serve id c proxy).tasks = p.tasks := by
  unfold serve
  split <;> rfl

/-- A task that holds an endpoint held it before, or it is an arrival. -/
theorem Effect.holder_cases (h : p.Effect d q) (hmem : entry ∈ holders q.tasks) :
    entry ∈ holders p.tasks ∨ p.Arrives d q entry := by
  cases h with
  | idled | elapsed | adjusted | reported | skipped | passedOver | gaveUp | left =>
      exact .inl hmem
  | @loaded d raws hraws =>
      rw [tasks_loadAll] at hmem
      exact .inl hmem
  | reportedOut | struckOff =>
      rw [tasks_evict] at hmem
      exact .inl hmem
  | handedBack | forwarded | cameBack | delivered | restored | overflowed | dropped | vanished |
    failedHalfway =>
      exact .inl (mem_holders_remove hmem)
  | failedOut =>
      rw [tasks_evict] at hmem
      exact .inl (mem_holders_remove hmem)
  | received htask hintake =>
      rcases mem_holders_put hmem with hold | rfl
      · exact .inl hold
      · exact .inr .received
  | woke htask =>
      rcases mem_holders_put hmem with hold | rfl
      · exact .inl hold
      · exact .inr .requeued
  | deferred due hidle hpending =>
      rcases Task.mem_holders_append hmem with hold | rfl
      · exact .inl hold
      · exact .inr .requeued
  | opened htask hpending hfind hadmitted hclear =>
      rcases mem_holders_put hmem with hold | rfl
      · exact .inl hold
      · exact .inr (.opened hfind)
  | sentBack hidle hqueue hstats =>
      rcases mem_holders_recycle hmem with hold | ⟨number, due, rfl⟩
      · exact .inl hold
      · exact .inr .requeued
  | checked htask hwaiting haccepts hqueue hfind hlock hentry hfresh =>
      rcases mem_holders_put hmem with hold | rfl
      · exact .inl hold
      · exact .inr (.checked htask haccepts hqueue hfind hentry hfresh)
  | cleared htask hstage hentry =>
      rw [tasks_serve] at hmem
      rcases mem_holders_recycle hmem with hold | ⟨number, due, rfl⟩
      · exact .inl (mem_holders_remove hold)
      · exact .inr .requeued
  | voided htask hstage hentry =>
      rcases mem_holders_recycle hmem with hold | ⟨number, due, rfl⟩
      · exact .inl (mem_holders_remove hold)
      · exact .inr .requeued
  | refused htask hstage =>
      rcases mem_holders_recycle hmem with hold | ⟨number, due, rfl⟩
      · exact .inl (mem_holders_remove hold)
      · exact .inr .requeued
  | retried htask hstage =>
      rcases mem_holders_put hmem with hold | rfl
      · exact .inl hold
      · exact .inr (.retried htask hstage)
  | passed htask hstage hentry =>
      rcases mem_holders_put hmem with hold | rfl
      · exact .inl hold
      · exact .inr (.passed htask hstage hentry rfl)
  | failedKept htask hlast hwindow hmarks =>
      rcases Task.mem_holders_append hmem with hold | rfl
      · exact .inl (mem_holders_remove hold)
      · exact .inr .requeued

/-! ## Copies -/

theorem copy?_of_delivering {r : Round} {copy : Proxy} (h : r.stage = .delivering copy) :
    (Task.round r).copy? = some copy := by
  obtain ⟨endpoint, life, probe, inSlot, stage⟩ := r
  obtain rfl : stage = .delivering copy := h
  rfl

theorem copy?_of_checking {c : Caller} {candidate : Proxy} {life timeout since : Nat}
    {wanted : Bool} (h : c.stage = .checking candidate life timeout wanted since) :
    (Task.caller c).copy? = some candidate := by
  obtain ⟨purpose, patience, stage⟩ := c
  obtain rfl : stage = .checking candidate life timeout wanted since := h
  rfl

theorem outputs_evict (p : Pool) (endpoint : String) :
    (p.evict endpoint).outputs = p.outputs := by
  unfold evict
  split <;> rfl

theorem outputs_recycle (p : Pool) (wanted : Bool) (endpoint : String) :
    (p.recycle wanted endpoint).outputs = p.outputs := by
  cases wanted <;> rfl

theorem outputs_serve (p : Pool) (id : Nat) (c : Caller) (proxy : Proxy) :
    (p.serve id c proxy).outputs = p.outputs := by
  unfold serve
  split <;> rfl

theorem mem_deliver {copy given : Proxy} {protocol : Protocol} (hknown : given.protocol ≠ .unknown)
    (h : copy ∈ (p.deliver given).outputs.get protocol) :
    copy ∈ p.outputs.get protocol ∨ copy = given ∧ protocol = given.protocol := by
  have hset : (p.deliver given).outputs.get protocol =
      if protocol = given.protocol then p.outputs.get given.protocol ++ [given]
      else p.outputs.get protocol :=
    p.outputs.get_set hknown _ _
  rw [hset] at h
  by_cases hsame : protocol = given.protocol
  · rw [if_pos hsame] at h
    rcases List.mem_append.1 h with hold | hnew
    · rw [hsame]
      exact .inl hold
    · exact .inr ⟨List.mem_singleton.1 hnew, hsame⟩
  · rw [if_neg hsame] at h
    exact .inl h

theorem mem_dequeue {copy candidate : Proxy} {protocol other : Protocol} {rest : List Proxy}
    (hqueue : p.outputs.get protocol = candidate :: rest)
    (h : copy ∈ (p.outputs.set protocol rest).get other) : copy ∈ p.outputs.get other := by
  rw [p.outputs.get_set (Outputs.known_of_get hqueue)] at h
  by_cases hsame : other = protocol
  · rw [if_pos hsame] at h
    rw [hsame, hqueue]
    exact List.mem_cons_of_mem _ h
  · rw [if_neg hsame] at h
    exact h

/-- A copy that is queued was queued before, or a task carried it. -/
theorem Effect.copy_cases (h : p.Effect d q) {protocol : Protocol} {copy : Proxy}
    (hmem : copy ∈ q.outputs.get protocol) :
    copy ∈ p.outputs.get protocol ∨
      protocol = copy.protocol ∧ ∃ id task, p.task? id = some task ∧ task.copy? = some copy := by
  cases h with
  | @loaded d raws hraws =>
      obtain ⟨registry, intake, hloaded⟩ := p.loadAll_eq raws
      rw [hloaded] at hmem
      exact .inl hmem
  | reportedOut =>
      rw [outputs_evict] at hmem
      exact .inl hmem
  | delivered htask hstage hroom =>
      rcases mem_deliver (known_of_room hroom) hmem with hold | ⟨rfl, hprotocol⟩
      · exact .inl hold
      · exact .inr ⟨hprotocol, _, _, htask, copy?_of_delivering hstage⟩
  | passedOver hidle hqueue hgate => exact .inl (mem_dequeue hqueue hmem)
  | struckOff hidle hqueue hfind hmarks =>
      rw [outputs_evict] at hmem
      exact .inl (mem_dequeue hqueue hmem)
  | sentBack hidle hqueue hstats =>
      rw [outputs_recycle] at hmem
      exact .inl (mem_dequeue hqueue hmem)
  | checked htask hwaiting haccepts hqueue => exact .inl (mem_dequeue hqueue hmem)
  | cleared htask hstage hentry =>
      rw [outputs_serve, unlock_recycle, outputs_recycle] at hmem
      exact .inl hmem
  | voided htask hstage hentry =>
      rw [unlock_recycle, outputs_recycle] at hmem
      exact .inl hmem
  | refused htask hstage =>
      rw [unlock_recycle, outputs_recycle] at hmem
      exact .inl hmem
  | restored htask hstage hroom =>
      rcases mem_deliver (known_of_room hroom) hmem with hold | ⟨rfl, hprotocol⟩
      · exact .inl hold
      · exact .inr ⟨hprotocol, _, _, htask, copy?_of_checking hstage⟩
  | failedOut =>
      rw [outputs_evict] at hmem
      exact .inl hmem
  | _ => exact .inl hmem

end Pool

end SocksPool
