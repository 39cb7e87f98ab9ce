import SocksPool.Proofs.Whereabouts

/-!
# Counting rounds and copies

A validation round and the copy that comes of it are at one *place* after
another. The round attempts protocols until it has failed, or until it has a
copy to deliver. The copy waits on an output queue, is under a check, and is
dispensed. Three of these places are in the hands of a task, one is on a queue,
and at two ends a counter says how many have arrived there.

So a pool has a *population* at every place, and each operation changes it in
the plainest way: a task that ends takes its share away, and one that begins
adds its own.

## Main definitions

* `Pool.population` — how many rounds or copies are at a place.

## Main results

* `population_remove`, `population_put`, `population_deliver`,
  `population_dequeue` — what the operations do to populations.
* `Aside.candidate?` — changes aside leave checks alone.
-/

open SocksPool.Task (Numbered holders without)

namespace SocksPool

/-- Where a validation round, or the copy that comes of it, is counted. -/
inductive Place where
  /-- The round tries protocols. -/
  | attempting
  /-- No protocol has worked. -/
  | failed
  /-- The round has a copy and waits to queue it. -/
  | delivering
  | queued
  /-- A caller re-dials the copy. -/
  | checking
  | dispensed
deriving DecidableEq

/-- The place of what a task has in its hands. -/
def Task.place? : Task → Option Place
  | .round ⟨_, _, _, _, .attempting _ _ _⟩ => some .attempting
  | .round ⟨_, _, _, _, .delivering _⟩ => some .delivering
  | .caller ⟨_, _, .checking _ _ _ _ _⟩ => some .checking
  | _ => none

namespace Pool

/-- The places of what tasks have in their hands. -/
def places (p : Pool) : List Place := p.tasks.filterMap (·.2.place?)

/-- How many are at a place without a task. -/
def stock (p : Pool) : Place → Nat
  | .failed => p.stats.bad
  | .queued => p.outputs.copies.length
  | .dispensed => p.stats.dispensed
  | .attempting | .delivering | .checking => 0

/-- How many rounds or copies are at a place. -/
def population (p : Pool) (place : Place) : Nat := p.places.count place + p.stock place

end Pool

/-! ## Tasks -/

namespace Task

variable {r : Round} {c : Caller} {candidate : Proxy} {life timeout since : Nat} {wanted : Bool}

theorem place?_of_attempting {protocol : Protocol} {rest : List Protocol}
    (h : r.stage = .attempting protocol rest since) : (Task.round r).place? = some .attempting := by
  obtain ⟨endpoint, life, probe, inSlot, stage⟩ := r
  obtain rfl : stage = .attempting protocol rest since := h
  rfl

theorem place?_of_delivering {copy : Proxy} (h : r.stage = .delivering copy) :
    (Task.round r).place? = some .delivering := by
  obtain ⟨endpoint, life, probe, inSlot, stage⟩ := r
  obtain rfl : stage = .delivering copy := h
  rfl

theorem place?_of_waiting (h : c.stage = .waiting) : (Task.caller c).place? = none := by
  obtain ⟨purpose, patience, stage⟩ := c
  obtain rfl : stage = .waiting := h
  rfl

theorem place?_of_checking (h : c.stage = .checking candidate life timeout wanted since) :
    (Task.caller c).place? = some .checking := by
  obtain ⟨purpose, patience, stage⟩ := c
  obtain rfl : stage = .checking candidate life timeout wanted since := h
  rfl

theorem candidate?_of_checking (h : c.stage = .checking candidate life timeout wanted since) :
    (Task.caller c).candidate? = some candidate := by
  obtain ⟨purpose, patience, stage⟩ := c
  obtain rfl : stage = .checking candidate life timeout wanted since := h
  rfl

/-- Whoever is at a place holds an endpoint. -/
theorem place?_of_idle (task : Task) (h : task.token? = none) : task.place? = none := by
  unfold place?
  split
  · cases h
  · cases h
  · cases h
  · rfl

theorem candidate?_of_idle (task : Task) (h : task.token? = none) : task.candidate? = none := by
  unfold candidate?
  split
  · cases h
  · rfl

/-- What a task has in its hands has not failed, is not queued and is not dispensed. -/
theorem place?_cases (task : Task) :
    task.place? = some .attempting ∨ task.place? = some .delivering ∨
      task.place? = some .checking ∨ task.place? = none := by
  unfold place?
  split <;> simp

end Task

/-! ## Output queues -/

theorem Outputs.length_copies_set (o : Outputs) {protocol : Protocol}
    (hknown : protocol ≠ .unknown) (queue : List Proxy) :
    (o.set protocol queue).copies.length + (o.get protocol).length =
      o.copies.length + queue.length := by
  cases protocol with
  | unknown => exact absurd rfl hknown
  | socks4 | socks4a | socks5 =>
      simp only [copies, set, get, List.length_append]
      omega

namespace Pool

variable {p q : Pool} {id : Nat} {task : Task} {endpoint : String}

/-! ## Populations -/

/-- No task is where only counters and queues are. -/
theorem count_places_eq_zero (p : Pool) {place : Place}
    (hplace : place = .failed ∨ place = .queued ∨ place = .dispensed) :
    p.places.count place = 0 := by
  apply List.count_eq_zero.2
  intro hmem
  obtain ⟨entry, -, hentry⟩ := List.mem_filterMap.1 hmem
  have hcases := entry.2.place?_cases
  rw [hentry] at hcases
  rcases hplace with rfl | rfl | rfl <;> simp at hcases

theorem population_failed (p : Pool) : p.population .failed = p.stats.bad := by
  unfold population
  rw [count_places_eq_zero p (.inl rfl), Nat.zero_add]
  rfl

theorem population_queued (p : Pool) : p.population .queued = p.outputs.copies.length := by
  unfold population
  rw [count_places_eq_zero p (.inr (.inl rfl)), Nat.zero_add]
  rfl

theorem population_dispensed (p : Pool) : p.population .dispensed = p.stats.dispensed := by
  unfold population
  rw [count_places_eq_zero p (.inr (.inr rfl)), Nat.zero_add]
  rfl

/-- A task that ends takes its share away. -/
theorem population_remove (hnum : Numbered p.tasks p.nextTask) (hfind : p.task? id = some task)
    (place : Place) :
    (p.remove id).population place + task.place?.toList.count place = p.population place := by
  have hplaces := hnum.count_filterMap hfind Task.place? place
  have hgone : (p.remove id).places = (without p.tasks id).filterMap (·.2.place?) := rfl
  have hstock : (p.remove id).stock place = p.stock place := by cases place <;> rfl
  unfold population
  rw [hgone, hstock]
  unfold places
  omega

/-- A task that ends takes away what it has in its hands. -/
theorem population_remove_of (hnum : Numbered p.tasks p.nextTask)
    (hfind : p.task? id = some task) {here : Place} (hplace : task.place? = some here)
    (place : Place) :
    (p.remove id).population place + [here].count place = p.population place := by
  have hgone := population_remove hnum hfind place
  rwa [hplace] at hgone

/-- A task that takes a form adds its share. -/
theorem population_put (p : Pool) (id : Nat) (task : Task) (place : Place) :
    (p.put id task).population place =
      (p.remove id).population place + task.place?.toList.count place := by
  have hplaces : (p.put id task).places = (p.remove id).places ++ task.place?.toList := by
    show ((p.remove id).tasks ++ [(id, task)]).filterMap (·.2.place?) = _
    rw [List.filterMap_append]
    cases hplace : task.place? <;> simp [places, hplace]
  have hstock : (p.put id task).stock place = (p.remove id).stock place := by cases place <;> rfl
  unfold population
  rw [hplaces, hstock, List.count_append]
  omega

theorem population_spawn (p : Pool) (hplace : task.place? = none) :
    (p.spawn task).population = p.population := by
  funext place
  have hplaces : (p.spawn task).places = p.places := by
    show (p.tasks ++ [(p.nextTask, task)]).filterMap (·.2.place?) = _
    rw [List.filterMap_append]
    simp [places, hplace]
  have hstock : (p.spawn task).stock place = p.stock place := by cases place <;> rfl
  unfold population
  rw [hplaces, hstock]

theorem population_deliver {copy : Proxy} (hknown : copy.protocol ≠ .unknown) (place : Place) :
    (p.deliver copy).population place = p.population place + [Place.queued].count place := by
  have hset := p.outputs.length_copies_set hknown (p.outputs.get copy.protocol ++ [copy])
  rw [List.length_append] at hset
  have hplaces : (p.deliver copy).places = p.places := rfl
  have hlength : (p.deliver copy).outputs.copies.length = p.outputs.copies.length + 1 := by
    show (p.outputs.set copy.protocol (p.outputs.get copy.protocol ++ [copy])).copies.length = _
    simp only [List.length_singleton] at hset
    omega
  unfold population
  rw [hplaces]
  cases place with
  | queued =>
      show p.places.count .queued + (p.deliver copy).outputs.copies.length = _
      rw [hlength]
      rfl
  | _ => rfl

theorem population_dequeue {protocol : Protocol} {candidate : Proxy} {rest : List Proxy}
    (hqueue : p.outputs.get protocol = candidate :: rest) (place : Place) :
    population { p with outputs := p.outputs.set protocol rest } place +
      [Place.queued].count place = p.population place := by
  have hset := p.outputs.length_copies_set (Outputs.known_of_get hqueue) rest
  rw [hqueue, List.length_cons] at hset
  cases place with
  | queued =>
      show p.places.count .queued + (p.outputs.set protocol rest).copies.length + 1 =
        p.places.count .queued + p.outputs.copies.length
      omega
  | _ => rfl

theorem population_recycle (p : Pool) (wanted : Bool) (endpoint : String) :
    (p.recycle wanted endpoint).population = p.population := by
  cases wanted with
  | true => exact population_spawn p rfl
  | false => rfl

theorem population_evict (p : Pool) (endpoint : String) :
    (p.evict endpoint).population = p.population := by
  funext place
  have hplaces : (p.evict endpoint).places = p.places := by
    unfold places
    rw [tasks_evict]
  have hstock : (p.evict endpoint).stock place = p.stock place := by
    unfold evict
    split <;> cases place <;> rfl
  unfold population
  rw [hplaces, hstock]

theorem population_miss (p : Pool) (r : Round) (place : Place) :
    (p.miss r).population place = p.population place + [Place.failed].count place := by
  cases place <;> rfl

/-- A validation is counted under its protocol, and under no place. -/
theorem population_recordValid (p : Pool) (registry : Registry) (protocol : Protocol) :
    population { p with registry, stats := p.stats.recordValid protocol } = p.population := by
  funext place
  cases protocol <;> cases place <;> rfl

/-- A proxy that is given out for good is dispensed. -/
theorem population_serve (p : Pool) (id : Nat) {c : Caller} (hpurpose : c.purpose ≠ .recheck)
    (proxy : Proxy) (place : Place) :
    (p.serve id c proxy).population place = p.population place + [Place.dispensed].count place := by
  unfold serve
  split
  · next hrecheck => exact absurd hrecheck hpurpose
  · cases place <;> rfl
  · cases place <;> rfl
  · cases place <;> rfl

end Pool

/-! ## Changes aside -/

namespace Pool

variable {p : Pool} {id : Nat} {candidate : Proxy}

theorem candidate?_of_task? {c : Caller} {candidate : Proxy} {life timeout since : Nat}
    {wanted : Bool} (htask : p.task? id = some (.caller c))
    (hstage : c.stage = .checking candidate life timeout wanted since) :
    p.candidate? id = some candidate := by
  unfold candidate?
  rw [htask]
  exact Task.candidate?_of_checking hstage

/-- Who re-dials a candidate holds its endpoint. -/
theorem candidate?_eq_some_iff (hnum : Numbered p.tasks p.nextTask) :
    p.candidate? id = some candidate ↔
      ∃ task, (id, task) ∈ holders p.tasks ∧ task.candidate? = some candidate := by
  unfold candidate?
  rw [Option.bind_eq_some_iff]
  constructor
  · rintro ⟨task, hfind, hcandidate⟩
    refine ⟨task, Task.mem_holders.2 ⟨Task.mem_of_lookup hfind, ?_⟩, hcandidate⟩
    cases htoken : task.token? with
    | some endpoint => rfl
    | none =>
        rw [task.candidate?_of_idle htoken] at hcandidate
        cases hcandidate
  · rintro ⟨task, hmem, hcandidate⟩
    exact ⟨task, hnum.lookup_of_mem (Task.mem_holders.1 hmem).1, hcandidate⟩

/-- An idle task re-dials nothing. -/
theorem Idle.candidate? (h : p.Idle id) : p.candidate? id = none := by
  unfold Pool.candidate?
  cases hfind : p.task? id with
  | none => rfl
  | some task =>
      show task.candidate? = none
      apply task.candidate?_of_idle
      cases htoken : task.token? with
      | none => rfl
      | some endpoint =>
          have hmem : (id, task) ∈ holders p.tasks :=
            Task.mem_holders.2 ⟨Task.mem_of_lookup hfind, Option.isSome_of_eq_some htoken⟩
          exact absurd rfl (h.free _ hmem)

end Pool

namespace Aside

variable {p q : Pool}

/-- Changes aside move nothing from place to place. -/
theorem places (h : Aside p q) : q.places = p.places := by
  unfold Pool.places
  rw [← Task.filterMap_holders Task.place?_of_idle, h.holders,
    Task.filterMap_holders Task.place?_of_idle]

theorem candidate? (h : Aside p q) (hnum : Numbered p.tasks p.nextTask) (id : Nat) :
    q.candidate? id = p.candidate? id := by
  apply Option.ext
  intro candidate
  rw [Pool.candidate?_eq_some_iff hnum, Pool.candidate?_eq_some_iff (h.numbered hnum), h.holders]

end Aside

theorem Quiet.population {p q : Pool} (h : Quiet p q) : q.population = p.population := by
  funext place
  have hstock : q.stock place = p.stock place := by
    unfold Pool.stock
    rw [h.stats, h.outputs]
  unfold Pool.population
  rw [h.toAside.places, hstock]

end SocksPool
