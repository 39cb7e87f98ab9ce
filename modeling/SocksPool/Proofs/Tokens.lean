import SocksPool.Pool.State

/-!
# Tokens of endpoints

An endpoint in circulation is always somewhere: on the intake queue, on the
pending queue, on an output queue as a copy, or in the hands of a task. Each
such place is a *token* of the endpoint. The tasks that hold one are the
intake loop on its way between two queues, the rounds, the requeue tasks, and
the callers that re-dial a candidate. All other tasks are *idle*.

Where tokens stand in line does not matter here, only how many there are of
each endpoint. So what a step does to them is said by counting, and a step is
accounted for by adding up what it took and what it put.

The numbers of tasks are what makes "the task that holds the token" mean one
task: they are distinct, and a new task has a number of its own.

## Main results

* `Numbered.spawn`, `Numbered.replace`, `Numbered.drop` — tasks stay numbered
  as they begin, move on and end.
* `Numbered.count_held` — a task that ends takes its token with it.
* `Outputs.count_copies_set` — what changes when one output queue changes.
-/

namespace SocksPool

namespace Task

/-- The endpoint that a task holds. -/
def token? : Task → Option String
  | .intakeLoop _ (.holding endpoint) => some endpoint
  | .round r => some r.endpoint
  | .requeue endpoint _ => some endpoint
  | .caller ⟨_, _, .checking candidate _ _ _ _⟩ => some candidate.endpoint
  | _ => none

/-- The tasks that hold an endpoint. -/
def holders (tasks : List (Nat × Task)) : List (Nat × Task) :=
  tasks.filter fun entry => entry.2.token?.isSome

/-- The endpoints that tasks hold. -/
def held (tasks : List (Nat × Task)) : List String := tasks.filterMap (·.2.token?)

/-- The tasks without the one of a number. -/
def without (tasks : List (Nat × Task)) (id : Nat) : List (Nat × Task) :=
  tasks.filter fun entry => entry.1 != id

/-- Tasks have distinct numbers, all below the number of the next one. -/
structure Numbered (tasks : List (Nat × Task)) (next : Nat) : Prop where
  distinct : (tasks.map (·.1)).Nodup
  below : ∀ entry ∈ tasks, entry.1 < next

end Task

namespace Outputs

/-- The copies on all output queues. -/
def copies (o : Outputs) : List Proxy := o.socks4 ++ o.socks4a ++ o.socks5

/-- Each copy is on the queue of its own protocol. -/
def Sorted (o : Outputs) : Prop := ∀ protocol, ∀ copy ∈ o.get protocol, copy.protocol = protocol

end Outputs

/-- Every place where an endpoint circulates. -/
def Pool.tokens (p : Pool) : List String :=
  p.intake ++ p.pending ++ p.outputs.copies.map (·.endpoint) ++ Task.held p.tasks

/-! ## Tasks by number -/

namespace Task

variable {tasks : List (Nat × Task)} {id next : Nat} {task : Task}

theorem mem_holders {entry : Nat × Task} :
    entry ∈ holders tasks ↔ entry ∈ tasks ∧ entry.2.token?.isSome = true :=
  List.mem_filter

theorem mem_without {entry : Nat × Task} :
    entry ∈ without tasks id ↔ entry ∈ tasks ∧ entry.1 ≠ id := by
  simp [without]

theorem holders_append (old new : List (Nat × Task)) :
    holders (old ++ new) = holders old ++ holders new :=
  List.filter_append ..

theorem held_append (old new : List (Nat × Task)) : held (old ++ new) = held old ++ held new :=
  List.filterMap_append ..

/-- What only holders have is found among the holders. -/
theorem filterMap_holders {α : Type} {f : Task → Option α}
    (hidle : ∀ task, task.token? = none → f task = none) (tasks : List (Nat × Task)) :
    (holders tasks).filterMap (f ·.2) = tasks.filterMap (f ·.2) := by
  induction tasks with
  | nil => rfl
  | cons entry rest ih =>
      unfold holders at ih ⊢
      cases htoken : entry.2.token? with
      | none => simp [htoken, hidle entry.2 htoken, ih]
      | some endpoint => simp [htoken, List.filterMap_cons, ih]

/-- Idle tasks hold nothing. -/
theorem held_holders (tasks : List (Nat × Task)) : held (holders tasks) = held tasks :=
  filterMap_holders (fun _ hidle => hidle) tasks

theorem holders_without (tasks : List (Nat × Task)) (id : Nat) :
    holders (without tasks id) = without (holders tasks) id := by
  unfold holders without
  rw [List.filter_filter, List.filter_filter]
  congr 1
  funext entry
  exact Bool.and_comm ..

theorem mem_of_lookup (hfind : tasks.lookup id = some task) : (id, task) ∈ tasks := by
  induction tasks with
  | nil => simp at hfind
  | cons entry rest ih =>
      obtain ⟨number, other⟩ := entry
      by_cases h : id = number
      · subst h
        simp only [List.lookup_cons, beq_self_eq_true, Option.some.injEq] at hfind
        simp [hfind]
      · rw [List.lookup_cons, beq_eq_false_iff_ne.2 h] at hfind
        exact List.mem_cons_of_mem _ (ih hfind)

/-- A task can be found and put in front of the others. -/
theorem perm_of_lookup (hdistinct : (tasks.map (·.1)).Nodup)
    (hfind : tasks.lookup id = some task) : tasks.Perm ((id, task) :: without tasks id) := by
  induction tasks with
  | nil => simp at hfind
  | cons entry rest ih =>
      obtain ⟨number, other⟩ := entry
      rw [List.map_cons, List.nodup_cons] at hdistinct
      by_cases h : id = number
      · subst h
        simp only [List.lookup_cons, beq_self_eq_true, Option.some.injEq] at hfind
        -- No other task has the number, so filtering it out leaves the rest as it is.
        have hrest : without rest id = rest := by
          unfold without
          rw [List.filter_eq_self]
          intro entry hmem
          refine bne_iff_ne.2 fun heq => hdistinct.1 ?_
          exact List.mem_map.2 ⟨entry, hmem, heq⟩
        have hhead : without ((id, other) :: rest) id = without rest id := by simp [without]
        rw [hhead, hrest, hfind]
      · rw [List.lookup_cons, beq_eq_false_iff_ne.2 h] at hfind
        have hhead : without ((number, other) :: rest) id = (number, other) :: without rest id := by
          have hne : number ≠ id := fun heq => h heq.symm
          simp [without, hne]
        rw [hhead]
        exact ((ih hdistinct.2 hfind).cons _).trans (.swap ..)

namespace Numbered

/-- Only the numbers matter. -/
theorem congr {other : List (Nat × Task)} (h : Numbered tasks next)
    (hnumbers : other.map (·.1) = tasks.map (·.1)) : Numbered other next where
  distinct := hnumbers ▸ h.distinct
  below entry hmem := by
    have hnumber : entry.1 ∈ tasks.map (·.1) := hnumbers ▸ List.mem_map_of_mem hmem
    obtain ⟨old, hold, heq⟩ := List.mem_map.1 hnumber
    exact heq ▸ h.below old hold

/-- A task that begins takes the next number. -/
theorem spawn (h : Numbered tasks next) (task : Task) :
    Numbered (tasks ++ [(next, task)]) (next + 1) where
  distinct := by
    rw [List.map_append, List.nodup_append]
    refine ⟨h.distinct, by simp, ?_⟩
    intro a ha b hb hab
    obtain ⟨entry, hmem, rfl⟩ := List.mem_map.1 ha
    have hlt := h.below entry hmem
    simp only [List.map_cons, List.map_nil, List.mem_singleton] at hb
    omega
  below entry hmem := by
    rcases List.mem_append.1 hmem with hold | hnew
    · have hlt := h.below entry hold
      omega
    · rw [List.mem_singleton.1 hnew]
      exact Nat.lt_succ_self _

theorem drop (h : Numbered tasks next) (id : Nat) : Numbered (without tasks id) next where
  distinct := h.distinct.sublist (List.filter_sublist.map _)
  below entry hmem := h.below entry (mem_without.1 hmem).1

/-- A task that moves on keeps its number. -/
theorem replace (h : Numbered (without tasks id) next) (hbelow : id < next) (new : Task) :
    Numbered (without tasks id ++ [(id, new)]) next where
  distinct := by
    rw [List.map_append, List.nodup_append]
    refine ⟨h.distinct, by simp, ?_⟩
    intro a ha b hb hab
    obtain ⟨entry, hmem, rfl⟩ := List.mem_map.1 ha
    simp only [List.map_cons, List.map_nil, List.mem_singleton] at hb
    exact (mem_without.1 hmem).2 (hab.trans hb)
  below entry hmem := by
    rcases List.mem_append.1 hmem with hold | hnew
    · exact h.below entry hold
    · rw [List.mem_singleton.1 hnew]
      exact hbelow

theorem lt_of_lookup (h : Numbered tasks next) (hfind : tasks.lookup id = some task) :
    id < next :=
  h.below (id, task) (mem_of_lookup hfind)

/-- The number of a task that is found belongs to no other task. -/
theorem eq_of_lookup (h : Numbered tasks next) (hfind : tasks.lookup id = some task)
    {entry : Nat × Task} (hmem : entry ∈ tasks) (hnumber : entry.1 = id) :
    entry = (id, task) := by
  rcases List.mem_cons.1 ((perm_of_lookup h.distinct hfind).mem_iff.1 hmem) with heq | hother
  · exact heq
  · exact absurd hnumber (mem_without.1 hother).2

/-- A task that ends takes with it what it has. -/
theorem count_filterMap {α : Type} [DecidableEq α] (h : Numbered tasks next)
    (hfind : tasks.lookup id = some task) (f : Task → Option α) (a : α) :
    (tasks.filterMap (f ·.2)).count a =
      (f task).toList.count a + ((without tasks id).filterMap (f ·.2)).count a := by
  have hperm := (perm_of_lookup h.distinct hfind).filterMap (f ·.2)
  rw [hperm.count_eq a]
  cases hhas : f task <;> simp [hhas, List.count_cons, Nat.add_comm]

/-- A task that ends takes its token with it. -/
theorem count_held (h : Numbered tasks next) (hfind : tasks.lookup id = some task)
    (endpoint : String) :
    (held tasks).count endpoint =
      task.token?.toList.count endpoint + (held (without tasks id)).count endpoint :=
  h.count_filterMap hfind token? endpoint

/-- A task is found under its number. -/
theorem lookup_of_mem (h : Numbered tasks next) (hmem : (id, task) ∈ tasks) :
    tasks.lookup id = some task := by
  cases hfind : tasks.lookup id with
  | none =>
      have hother := List.lookup_eq_none_iff.1 hfind (id, task) hmem
      simp at hother
  | some found =>
      have hsame := h.eq_of_lookup hfind hmem rfl
      rw [(Prod.mk.inj hsame).2]

end Numbered

end Task

/-! ## Output queues -/

namespace Outputs

/-- An output queue that changes takes its copies out of the count and puts
its new ones in. -/
theorem count_copies_set (o : Outputs) {protocol : Protocol} (hknown : protocol ≠ .unknown)
    (queue : List Proxy) (endpoint : String) :
    ((o.set protocol queue).copies.map (·.endpoint)).count endpoint +
        ((o.get protocol).map (·.endpoint)).count endpoint =
      (o.copies.map (·.endpoint)).count endpoint + (queue.map (·.endpoint)).count endpoint := by
  cases protocol with
  | unknown => exact absurd rfl hknown
  | socks4 | socks4a | socks5 =>
      simp only [copies, set, get, List.map_append, List.count_append]
      omega

theorem get_set (o : Outputs) {protocol : Protocol} (hknown : protocol ≠ .unknown)
    (queue : List Proxy) (other : Protocol) :
    (o.set protocol queue).get other = if other = protocol then queue else o.get other := by
  cases protocol with
  | unknown => exact absurd rfl hknown
  | socks4 | socks4a | socks5 => cases other <;> rfl

theorem set_set (o : Outputs) (protocol : Protocol) (old new : List Proxy) :
    (o.set protocol old).set protocol new = o.set protocol new := by
  cases protocol <;> rfl

theorem set_get (o : Outputs) (protocol : Protocol) : o.set protocol (o.get protocol) = o := by
  cases protocol <;> rfl

/-- Queues with copies of their own protocols only stay so. -/
theorem Sorted.set {o : Outputs} (h : o.Sorted) {protocol : Protocol}
    (hknown : protocol ≠ .unknown) {queue : List Proxy}
    (hqueue : ∀ copy ∈ queue, copy.protocol = protocol) : (o.set protocol queue).Sorted := by
  intro other copy hmem
  rw [get_set o hknown] at hmem
  by_cases hother : other = protocol
  · rw [if_pos hother] at hmem
    rw [hother]
    exact hqueue copy hmem
  · rw [if_neg hother] at hmem
    exact h other copy hmem

/-- Only a known protocol has a queue. -/
theorem known_of_get {o : Outputs} {protocol : Protocol} {copy : Proxy} {rest : List Proxy}
    (hqueue : o.get protocol = copy :: rest) : protocol ≠ .unknown := by
  rintro rfl
  cases hqueue

end Outputs

end SocksPool
