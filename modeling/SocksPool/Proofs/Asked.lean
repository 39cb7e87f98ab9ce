import SocksPool.Proofs.Crew

/-!
# What calls ask for

A call for a proxy is a task, and the protocol that it was begun for is kept in
the task. The list of tasks is all that has to be looked at to see that no
operation begins such a call or changes what one asks for: an operation ends
tasks, moves one of them on, or begins tasks of other kinds. And a call of any
kind is let alone by what is done for others: nothing but its own moves changes
where it stands, or answers it. `Keeps own p q` says this of `q` as it comes
about from `p` by what is done for the call `own`, or for none, and each
operation that the steps of a pool are made of has its lemma.

## Main results

* `Keeps.put`, `Keeps.putCaller`, `Keeps.spawn` — tasks move on and begin.
* `Keeps.judge`, `Keeps.hand`, `Keeps.openRound` — what callers and rounds do.
-/

namespace SocksPool

namespace Task

/-- What a call for a proxy wants: one protocol, or any. -/
def wants? : Task → Option (Option Protocol)
  | .caller c =>
    match c.purpose with
    | .take wanted => some wanted
    | _ => none
  | _ => none

theorem wakened_wakened (task : Task) : task.wakened.wakened = task.wakened := by
  cases task <;> rfl

theorem wakened_eq_caller_iff {task : Task} {c : Caller} :
    task.wakened = .caller c ↔ task = .caller c := by
  cases task <;> simp [wakened]

end Task

namespace Pool

/-- A call for a proxy is under way with this number. -/
def Asks (p : Pool) (id : Nat) (wanted : Option Protocol) : Prop :=
  ∃ task, (id, task) ∈ p.tasks ∧ task.wants? = some wanted

/-- The task with a number, as it stands whether or not it was woken. -/
def standing? (p : Pool) (id : Nat) : Option Task := (p.task? id).map Task.wakened

/-- What the call with a number was answered. -/
def answersTo (p : Pool) (id : Nat) : List Answer := (p.answers.filter (·.1 == id)).map (·.2)

/-- The second pool has no call for a proxy that the first has not, and counts
its tasks further. Each task but the own one stands where it stood, and gets no
answer. -/
structure Keeps (own : Option Nat) (p q : Pool) : Prop where
  asks : ∀ id wanted, q.Asks id wanted → p.Asks id wanted
  next : p.nextTask ≤ q.nextTask
  stands : ∀ id, id < p.nextTask → own ≠ some id → q.standing? id = p.standing? id
  answersTo : ∀ id, own ≠ some id → q.answersTo id = p.answersTo id

variable {own : Option Nat} {p q r : Pool} {id other : Nat} {task : Task}

theorem asks_of_task? (hfind : p.task? id = some task) {wanted : Option Protocol}
    (hwants : task.wants? = some wanted) : p.Asks id wanted :=
  ⟨task, Task.mem_of_lookup hfind, hwants⟩

/-- A caller that wants a proxy asks for it. -/
theorem asks_of_caller {c : Caller} (hfind : p.task? id = some (.caller c))
    {wanted : Option Protocol} (hpurpose : c.purpose = .take wanted) : p.Asks id wanted := by
  refine asks_of_task? hfind ?_
  unfold Task.wants?
  dsimp only
  rw [hpurpose]

/-! ## Where a task stands -/

theorem standing?_eq_caller_iff {c : Caller} :
    p.standing? id = some (.caller c) ↔ p.task? id = some (.caller c) := by
  unfold standing?
  cases p.task? id with
  | none => simp
  | some task => simp [Task.wakened_eq_caller_iff]

theorem standing?_eq_none_iff : p.standing? id = none ↔ p.task? id = none :=
  Option.map_eq_none_iff

theorem standing?_of_tasks (h : q.tasks = p.tasks) (id : Nat) :
    q.standing? id = p.standing? id := by
  unfold standing? task?
  rw [h]

theorem standing?_remove (p : Pool) (hne : other ≠ id) :
    (p.remove id).standing? other = p.standing? other := by
  unfold standing?
  rw [task?_remove_of_ne p hne]

theorem standing?_put (p : Pool) (hne : other ≠ id) (task : Task) :
    (p.put id task).standing? other = p.standing? other := by
  unfold standing?
  rw [task?_put_of_ne p hne]

theorem standing?_spawn (hbelow : id < p.nextTask) (task : Task) :
    (p.spawn task).standing? id = p.standing? id := by
  unfold standing?
  rw [task?_spawn_of_lt hbelow]

theorem standing?_wakeSpawners (p : Pool) (id : Nat) :
    p.wakeSpawners.standing? id = p.standing? id := by
  unfold standing?
  rw [task?_wakeSpawners]
  cases p.task? id with
  | none => rfl
  | some task => exact congrArg some task.wakened_wakened

theorem answersTo_finish (p : Pool) (hne : other ≠ id) (answer : Answer) :
    (p.finish id answer).answersTo other = p.answersTo other := by
  simp [answersTo, finish, List.filter_append, hne.symm]

theorem answersTo_finish_self (p : Pool) (id : Nat) (answer : Answer) :
    (p.finish id answer).answersTo id = p.answersTo id ++ [answer] := by
  simp [answersTo, finish, List.filter_append]

namespace Keeps

theorem refl (p : Pool) : Keeps own p p :=
  ⟨fun _ _ h => h, Nat.le_refl _, fun _ _ _ => rfl, fun _ _ => rfl⟩

/-- Only the tasks, their count and the answers matter. -/
theorem same (h : Keeps own p q) (htasks : r.tasks = q.tasks) (hnext : r.nextTask = q.nextTask)
    (hanswers : r.answers = q.answers) : Keeps own p r where
  asks id wanted := by
    unfold Asks
    rw [htasks]
    exact h.asks id wanted
  next := hnext ▸ h.next
  stands id hbelow hother := (standing?_of_tasks htasks id).trans (h.stands id hbelow hother)
  answersTo id hother := by
    unfold Pool.answersTo
    rw [hanswers]
    exact h.answersTo id hother

/-! ## Tasks -/

theorem remove (h : Keeps (some id) p q) : Keeps (some id) p (q.remove id) where
  asks other wanted := by
    rintro ⟨task, hmem, hwants⟩
    exact h.asks other wanted ⟨task, (List.mem_filter.1 hmem).1, hwants⟩
  next := h.next
  stands other hbelow hother :=
    (standing?_remove q fun heq => hother (congrArg some heq.symm)).trans
      (h.stands other hbelow hother)
  answersTo := h.answersTo

/-- A task that moves on is no new call. -/
theorem put (h : Keeps (some id) p q)
    (hknown : ∀ wanted, task.wants? = some wanted → p.Asks id wanted) :
    Keeps (some id) p (q.put id task) where
  asks other wanted := by
    rintro ⟨found, hmem, hwants⟩
    rcases List.mem_append.1 hmem with hold | hnew
    · exact h.remove.asks other wanted ⟨found, hold, hwants⟩
    · cases List.mem_singleton.1 hnew
      exact hknown wanted hwants
  next := h.next
  stands other hbelow hother :=
    (standing?_put q (fun heq => hother (congrArg some heq.symm)) task).trans
      (h.stands other hbelow hother)
  answersTo := h.answersTo

/-- A caller that moves on has the purpose that it had. -/
theorem putCaller (h : Keeps (some id) p q) {c new : Caller}
    (htask : p.task? id = some (.caller c)) (hpurpose : new.purpose = c.purpose) :
    Keeps (some id) p (q.put id (.caller new)) := by
  refine h.put fun wanted hwants => asks_of_task? htask ?_
  unfold Task.wants? at hwants ⊢
  dsimp only at hwants ⊢
  rw [← hpurpose]
  exact hwants

theorem spawn (h : Keeps own p q) (hnone : task.wants? = none) : Keeps own p (q.spawn task) where
  asks other wanted := by
    rintro ⟨found, hmem, hwants⟩
    rcases List.mem_append.1 hmem with hold | hnew
    · exact h.asks other wanted ⟨found, hold, hwants⟩
    · cases List.mem_singleton.1 hnew
      rw [hnone] at hwants
      cases hwants
  next := Nat.le_succ_of_le h.next
  stands id hbelow hother :=
    (standing?_spawn (Nat.lt_of_lt_of_le hbelow h.next) task).trans (h.stands id hbelow hother)
  answersTo := h.answersTo

theorem finish (h : Keeps (some id) p q) (answer : Answer) :
    Keeps (some id) p (q.finish id answer) where
  asks := h.remove.asks
  next := h.next
  stands := h.remove.stands
  answersTo other hother :=
    (answersTo_finish q (fun heq => hother (congrArg some heq.symm)) answer).trans
      (h.answersTo other hother)

theorem tell (h : Keeps own p q) (e : Event) : Keeps own p (q.tell e) := h.same rfl rfl rfl

/-! ## Slots and loops -/

theorem wakeSpawners (h : Keeps own p q) : Keeps own p q.wakeSpawners where
  asks id wanted := by
    rintro ⟨task, hmem, hwants⟩
    obtain ⟨⟨number, old⟩, hold, heq⟩ := List.mem_map.1 hmem
    refine h.asks id wanted ⟨task, ?_, hwants⟩
    -- A spawn loop is woken, and it is no call; all other tasks stay.
    cases old with
    | spawnLoop epoch awake =>
        cases heq
        cases hwants
    | _ =>
        cases heq
        exact hold
  next := h.next
  stands id hbelow hother := (standing?_wakeSpawners q id).trans (h.stands id hbelow hother)
  answersTo := h.answersTo

theorem releaseSlot (h : Keeps own p q) : Keeps own p q.releaseSlot :=
  (h.same (r := { q with slots := q.slots.release }) rfl rfl rfl).wakeSpawners

theorem tune (h : Keeps own p q) (change : Int) : Keeps own p (q.tune change) := by
  have htuned : Keeps own p { q with slots := q.slots.tune change } := h.same rfl rfl rfl
  unfold Pool.tune
  split
  · exact htuned.wakeSpawners
  · exact htuned

theorem launch (h : Keeps own p q) : Keeps own p q.launch := by
  have hrunning : Keeps own p { q with status := .running, epoch := q.epoch + 1 } :=
    h.same rfl rfl rfl
  exact ((hrunning.spawn rfl).spawn rfl).spawn rfl

theorem tickScaler (h : Keeps own p q) : Keeps own p q.tickScaler.1 := by
  unfold Pool.tickScaler
  dsimp only
  split
  · exact h.same rfl rfl rfl
  · refine tune ?_ _
    exact h.same rfl rfl rfl

theorem closeRound (h : Keeps (some id) p q) (inSlot : Bool) :
    Keeps (some id) p (q.closeRound id inSlot) := by
  cases inSlot with
  | true => exact h.remove.releaseSlot
  | false => exact h.remove

/-! ## Circulation -/

theorem evict (h : Keeps own p q) (endpoint : String) : Keeps own p (q.evict endpoint) := by
  unfold Pool.evict
  split <;> exact h.same rfl rfl rfl

theorem requeue (h : Keeps own p q) (endpoint : String) (delay : Nat) :
    Keeps own p (q.requeue endpoint delay) := h.spawn rfl

theorem recycle (h : Keeps own p q) (wanted : Bool) (endpoint : String) :
    Keeps own p (q.recycle wanted endpoint) := by
  cases wanted with
  | true => exact h.requeue endpoint 0
  | false => exact h

theorem load (h : Keeps own p q) (raw : String) : Keeps own p (q.load raw).1 := by
  unfold Pool.load
  split <;> exact h.same rfl rfl rfl

theorem loadAll (h : Keeps own p q) (raws : List String) : Keeps own p (q.loadAll raws).1 := by
  induction raws generalizing q with
  | nil => exact h
  | cons raw more ih => exact ih (h.load raw)

theorem reportFailure (h : Keeps own p q) (endpoint : String) :
    Keeps own p (q.reportFailure endpoint).1 := by
  unfold Pool.reportFailure Pool.markBad Pool.strike
  cases q.registry.find? endpoint with
  | none => exact h
  | some life =>
      dsimp only
      rcases q.backoff.strike q.now endpoint with ⟨backoff, _ | window⟩
      · exact h.same rfl rfl rfl
      · dsimp only
        split
        · refine evict ?_ endpoint
          exact h.same rfl rfl rfl
        · exact h.same rfl rfl rfl

theorem openRound (h : Keeps own p q) (endpoint : String) (inSlot : Bool) :
    Keeps own p (q.openRound endpoint inSlot).1 := by
  unfold Pool.openRound
  cases q.registry.find? endpoint with
  | none => exact h
  | some life =>
      dsimp only
      split
      · refine requeue ?_ endpoint _
        exact h.same rfl rfl rfl
      · refine requeue ?_ endpoint _
        exact h.same rfl rfl rfl
      · exact h.same rfl rfl rfl

theorem judge (h : Keeps own p q) (endpoint : String) : Keeps own p (q.judge endpoint).1 := by
  unfold Pool.judge
  cases q.registry.find? endpoint with
  | none => exact h
  | some life =>
      dsimp only
      split
      · split
        · exact h.evict endpoint
        · split
          · exact (h.tell _).recycle _ endpoint
          · split
            · refine recycle ?_ _ endpoint
              exact h.same rfl rfl rfl
            · exact h.same rfl rfl rfl
      · exact h

theorem restore (h : Keeps own p q) (candidate : Proxy) : Keeps own p (q.restore candidate) := by
  unfold Pool.restore
  split
  · exact h
  · split <;> exact h.same rfl rfl rfl

theorem failRound (h : Keeps (some id) p q) (begun : Round) :
    Keeps (some id) p (q.failRound id begun) := by
  unfold Pool.failRound Pool.markBad Pool.strike
  dsimp only
  rcases q.backoff.strike q.now begun.endpoint with ⟨backoff, _ | window⟩
  · dsimp only
    split
    · refine closeRound ?_ true
      exact h.same rfl rfl rfl
    · refine finish ?_ _
      exact h.same rfl rfl rfl
  · dsimp only
    refine closeRound ?_ begun.inSlot
    split
    · refine evict ?_ begun.endpoint
      exact h.same rfl rfl rfl
    · refine requeue ?_ begun.endpoint window
      exact h.same rfl rfl rfl

theorem passRound (h : Keeps (some id) p q) (begun : Round) (protocol : Protocol)
    (exit : Address) : Keeps (some id) p (q.passRound id begun protocol exit) := by
  unfold Pool.passRound
  dsimp only
  split
  · exact h.closeRound begun.inSlot
  · refine put ?_ nofun
    exact h.same rfl rfl rfl

/-! ## Callers -/

theorem hand (h : Keeps (some id) p q) {c : Caller} (htask : p.task? id = some (.caller c))
    (proxy : Proxy) : Keeps (some id) p (q.hand id c proxy) := by
  have hcounted : Keeps (some id) p { q with stats := q.stats.recordDispensed } :=
    h.same rfl rfl rfl
  unfold Pool.hand
  split
  · exact h.finish _
  · exact hcounted.finish _
  · exact hcounted.putCaller htask rfl
  · dsimp only
    split
    · exact (hcounted.tell _).putCaller htask rfl
    · exact hcounted.finish _

theorem reject (h : Keeps (some id) p q) {c : Caller} (htask : p.task? id = some (.caller c)) :
    Keeps (some id) p (q.reject id c) := by
  unfold Pool.reject
  split
  · exact h.finish _
  · exact h.putCaller htask rfl

theorem giveUp (h : Keeps (some id) p q) (c : Caller) : Keeps (some id) p (q.giveUp id c) := by
  unfold Pool.giveUp
  split
  · exact (h.tell _).finish _
  · exact h.finish _

/-- A request that failed has another try, or ends. Either way it is no call for
a proxy. -/
theorem tryNext (h : Keeps (some id) p q) (c : Caller) (failures retries wait timeout : Nat)
    (cloneable : Bool) (proxy : Proxy) (fault : HttpFault) :
    Keeps (some id) p
      (responded?.next id q c failures retries wait timeout cloneable proxy fault) := by
  have hreported := h.reportFailure proxy.endpoint
  unfold responded?.next
  split
  · next hended =>
      rw [hended] at hreported
      exact hreported.finish _
  · next hended =>
      rw [hended] at hreported
      split
      · exact hreported.finish _
      · exact hreported.put nofun

end Keeps

end Pool

end SocksPool
