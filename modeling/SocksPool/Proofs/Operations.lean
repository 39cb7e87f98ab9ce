import SocksPool.Proofs.Aside
import SocksPool.Proofs.Lives

/-!
# Operations of the circulation

A deed that concerns an endpoint is made of few operations: a failure marks a
life and strikes its endpoint, an eviction deletes a name and forgets its
strikes, a requeue begins a task that sleeps, and a load registers a name and
puts it on the intake queue. This module says what each of them leaves alone,
and where names lead after it.

## Main results

* `load_of_none`, `load_of_registered`, `load_of_new` — what a load comes to.
* `load_cases` — a load changes nothing or registers a new name.
* `find?_evict` — an eviction deletes one name.
* `find?_loadAll` — registered names lead where they led after loads.
* `loadAll_append`, `loadAll_eq` — loads write the registry and the intake queue
  only.
-/

namespace SocksPool

/-- The bad marks of a life. -/
def Registry.badMarks (r : Registry) (life : Nat) : Nat :=
  ((r.entry? life).map (·.timesBad)).getD 0

/-- A mark for one life is none for another. -/
theorem Registry.badMarks_update_of_ne (r : Registry) {life other : Nat} (hne : other ≠ life)
    (change : Entry → Entry) : (r.update life change).badMarks other = r.badMarks other := by
  unfold badMarks
  rw [entry?_update, if_neg hne]

namespace Pool

/-- A failure: a bad mark for the life and a strike for the endpoint. -/
def punish (p : Pool) (life : Nat) (endpoint : String) : Pool :=
  ((p.markBad life).1.strike endpoint).1

/-- The marks of a life after a failure reach the threshold. -/
def Exhausts (p : Pool) (life : Nat) : Prop :=
  p.config.removeAfter ≤ (p.registry.update life Entry.markBad).badMarks life

/-- Puts an endpoint at the end of the intake queue. -/
def pushIntake (p : Pool) (endpoint : String) : Pool :=
  { p with intake := p.intake ++ [endpoint] }

/-- Puts an endpoint at the end of the pending queue. -/
def pushPending (p : Pool) (endpoint : String) : Pool :=
  { p with pending := p.pending ++ [endpoint] }

variable {p : Pool} {id life : Nat} {e : String}

/-! ## Evictions -/

theorem tasks_evict (p : Pool) (endpoint : String) : (p.evict endpoint).tasks = p.tasks := by
  unfold evict
  split <;> rfl

theorem nextTask_evict (p : Pool) (endpoint : String) :
    (p.evict endpoint).nextTask = p.nextTask := by
  unfold evict
  split <;> rfl

theorem config_evict (p : Pool) (endpoint : String) : (p.evict endpoint).config = p.config := by
  unfold evict
  split <;> rfl

theorem crashes_evict (p : Pool) (endpoint : String) :
    (p.evict endpoint).crashes = p.crashes := by
  unfold evict
  split <;> rfl

theorem tokens_evict (p : Pool) (endpoint : String) : (p.evict endpoint).tokens = p.tokens := by
  unfold evict
  split <;> rfl

theorem remove_evict (p : Pool) (id : Nat) (endpoint : String) :
    (p.evict endpoint).remove id = (p.remove id).evict endpoint := by
  have hsame : (p.remove id).registry = p.registry := rfl
  unfold evict
  rw [hsame]
  cases p.registry.delete endpoint <;> rfl

theorem Idle.evict (h : p.Idle id) (endpoint : String) : (p.evict endpoint).Idle id where
  below := nextTask_evict p endpoint ▸ h.below
  free := tasks_evict p endpoint ▸ h.free

/-- After an eviction the name leads nowhere, and every other name where it led. -/
theorem find?_evict (p : Pool) (endpoint e : String) :
    (p.evict endpoint).registry.find? e = if e = endpoint then none else p.registry.find? e := by
  unfold evict
  cases hdelete : p.registry.delete endpoint with
  | error err =>
      by_cases he : e = endpoint
      · rw [if_pos he, he]
        exact Registry.delete_eq_error hdelete
      · rw [if_neg he]
  | ok deleted => exact Registry.find?_delete hdelete e

theorem contains_evict_self (p : Pool) (endpoint : String) :
    (p.evict endpoint).registry.contains endpoint = false := by
  unfold Registry.contains
  rw [find?_evict, if_pos rfl]
  rfl

theorem contains_of_evict {endpoint : String}
    (h : (p.evict endpoint).registry.contains e = true) : p.registry.contains e = true := by
  unfold Registry.contains at h ⊢
  rw [find?_evict] at h
  split at h
  · cases h
  · exact h

theorem badMarks_evict (p : Pool) (endpoint : String) (life : Nat) :
    (p.evict endpoint).registry.badMarks life = p.registry.badMarks life := by
  unfold evict
  cases hdelete : p.registry.delete endpoint with
  | error err => rfl
  | ok deleted =>
      dsimp only [tell]
      unfold Registry.badMarks
      rw [Registry.entry?_delete hdelete]

/-! ## Requeues -/

/-- A task that begins does not stop another one from ending. -/
theorem remove_spawn (hbelow : id < p.nextTask) (task : Task) :
    (p.spawn task).remove id = (p.remove id).spawn task := by
  have hne : p.nextTask ≠ id := Nat.ne_of_gt hbelow
  simp [remove, spawn, List.filter_append, hne]

theorem config_recycle (p : Pool) (wanted : Bool) (endpoint : String) :
    (p.recycle wanted endpoint).config = p.config := by
  cases wanted <;> rfl

theorem crashes_recycle (p : Pool) (wanted : Bool) (endpoint : String) :
    (p.recycle wanted endpoint).crashes = p.crashes := by
  cases wanted <;> rfl

theorem registry_recycle (p : Pool) (wanted : Bool) (endpoint : String) :
    (p.recycle wanted endpoint).registry = p.registry := by
  cases wanted <;> rfl

theorem unlock_recycle (p : Pool) (wanted : Bool) (endpoint : String) (life : Nat) :
    (p.recycle wanted endpoint).unlock life = (p.unlock life).recycle wanted endpoint := by
  cases wanted <;> rfl

theorem remove_recycle (hbelow : id < p.nextTask) (wanted : Bool) (endpoint : String) :
    (p.recycle wanted endpoint).remove id = (p.remove id).recycle wanted endpoint := by
  cases wanted with
  | true => exact remove_spawn hbelow _
  | false => rfl

theorem lt_nextTask_recycle (hbelow : id < p.nextTask) (wanted : Bool) (endpoint : String) :
    id < (p.recycle wanted endpoint).nextTask := by
  cases wanted with
  | true => exact Nat.lt_succ_of_lt hbelow
  | false => exact hbelow

theorem Idle.recycle (h : p.Idle id) (wanted : Bool) (endpoint : String) :
    (p.recycle wanted endpoint).Idle id := by
  cases wanted with
  | true => exact h.spawn _
  | false => exact h

/-! ## Loads -/

section Load

variable {raw endpoint : String}

theorem load_of_none (h : Endpoint.normalize? raw = none) :
    p.load raw = (p, .error (.invalidEndpoint (Text.trimString raw))) := by
  rw [load, h]

theorem load_of_registered (h : Endpoint.normalize? raw = some endpoint)
    (hfind : p.registry.find? endpoint = some life) : p.load raw = (p, .ok false) := by
  rw [load, h]
  dsimp only
  rw [Registry.add_of_some hfind]
  rfl

theorem load_of_new (h : Endpoint.normalize? raw = some endpoint)
    (hfind : p.registry.find? endpoint = none) :
    p.load raw =
      ({ p.pushIntake endpoint with registry := (p.registry.add endpoint).1 }, .ok true) := by
  rw [load, h]
  dsimp only
  rw [Registry.add_of_none hfind]
  rfl

end Load

/-- A load changes nothing, or it registers a new name and puts it on the
intake queue. -/
theorem load_cases (p : Pool) (raw : String) :
    (p.load raw).1 = p ∨
    ∃ endpoint, p.registry.find? endpoint = none ∧
      (p.load raw).1 =
        { p.pushIntake endpoint with registry := (p.registry.add endpoint).1 } := by
  cases hname : Endpoint.normalize? raw with
  | none => exact .inl (by rw [load_of_none hname])
  | some endpoint =>
      cases hfind : p.registry.find? endpoint with
      | some life => exact .inl (by rw [load_of_registered hname hfind])
      | none => exact .inr ⟨endpoint, hfind, by rw [load_of_new hname hfind]⟩

theorem contains_add {endpoint : String} (hfind : p.registry.find? endpoint = none) (e : String) :
    (p.registry.add endpoint).1.contains e =
      if e = endpoint then true else p.registry.contains e := by
  unfold Registry.contains
  rw [Registry.find?_add hfind]
  split <;> rfl

/-- A registered name leads to the same life after a load. -/
theorem find?_load (h : p.registry.find? e = some life) (raw : String) :
    (p.load raw).1.registry.find? e = some life := by
  rcases p.load_cases raw with hsame | ⟨endpoint, hfind, hnew⟩
  · rwa [hsame]
  · rw [hnew]
    dsimp only
    rw [Registry.find?_add hfind, if_neg]
    · exact h
    · rintro rfl
      rw [hfind] at h
      cases h

theorem find?_loadAll (h : p.registry.find? e = some life) (raws : List String) :
    (p.loadAll raws).1.registry.find? e = some life := by
  induction raws generalizing p with
  | nil => exact h
  | cons raw more ih => exact ih (find?_load h raw)

theorem contains_load (h : p.registry.contains e = true) (raw : String) :
    (p.load raw).1.registry.contains e = true := by
  obtain ⟨life, hfind⟩ := Option.isSome_iff_exists.1 h
  exact Option.isSome_of_eq_some (find?_load hfind raw)

theorem contains_loadAll (h : p.registry.contains e = true) (raws : List String) :
    (p.loadAll raws).1.registry.contains e = true := by
  obtain ⟨life, hfind⟩ := Option.isSome_iff_exists.1 h
  exact Option.isSome_of_eq_some (find?_loadAll hfind raws)

/-- Loads write the registry, and put what is new at the end of the intake queue. -/
theorem loadAll_append (p : Pool) (raws : List String) :
    ∃ registry more, (p.loadAll raws).1 = { p with registry, intake := p.intake ++ more } := by
  induction raws generalizing p with
  | nil => exact ⟨p.registry, [], by rw [List.append_nil]; rfl⟩
  | cons raw more ih =>
      obtain ⟨registry, new, hmore⟩ := ih (p.load raw).1
      rcases p.load_cases raw with hsame | ⟨endpoint, -, hnew⟩
      · refine ⟨registry, new, hmore.trans ?_⟩
        rw [hsame]
      · refine ⟨registry, endpoint :: new, hmore.trans ?_⟩
        rw [hnew, List.append_cons]
        rfl

/-- A load writes the registry and the intake queue. -/
theorem loadAll_eq (p : Pool) (raws : List String) :
    ∃ registry intake, (p.loadAll raws).1 = { p with registry, intake } := by
  obtain ⟨registry, more, hloaded⟩ := p.loadAll_append raws
  exact ⟨registry, p.intake ++ more, hloaded⟩

theorem config_loadAll (p : Pool) (raws : List String) : (p.loadAll raws).1.config = p.config := by
  obtain ⟨registry, intake, hloaded⟩ := p.loadAll_eq raws
  rw [hloaded]

theorem crashes_loadAll (p : Pool) (raws : List String) :
    (p.loadAll raws).1.crashes = p.crashes := by
  obtain ⟨registry, intake, hloaded⟩ := p.loadAll_eq raws
  rw [hloaded]

theorem tasks_loadAll (p : Pool) (raws : List String) : (p.loadAll raws).1.tasks = p.tasks := by
  obtain ⟨registry, intake, hloaded⟩ := p.loadAll_eq raws
  rw [hloaded]

end Pool

end SocksPool
