import SocksPool.Registry

/-!
# Lives of endpoints

A name leads to a life, and the life says of which endpoint it is. This
module states what every operation of the registry keeps: a name leads to a
life of its own endpoint, and to the latest of them. Lives are never taken
back, so whoever remembers a life goes on knowing its endpoint, also after
the name was deleted or leads to another life.

## Main results

* `Sound.add`, `Sound.delete`, `Sound.update` — the operations keep a
  registry sound.
* `find?_add`, `find?_delete` — where names lead after a change.
* `isLife_add`, `isLife_update` — a life stays a life of its endpoint.
-/

namespace SocksPool.Registry

/-- The number is that of a life of the endpoint. -/
def IsLife (r : Registry) (life : Nat) (endpoint : String) : Prop :=
  ∃ entry, r.entry? life = some entry ∧ entry.endpoint = endpoint

/-- The soft lock of a life is held. -/
def IsLocked (r : Registry) (life : Nat) : Prop :=
  ∃ entry, r.entry? life = some entry ∧ entry.locked = true

/-- Every name leads to the latest life of its endpoint. -/
structure Sound (r : Registry) : Prop where
  named : ∀ {endpoint life}, r.find? endpoint = some life → r.IsLife life endpoint
  latest : ∀ {endpoint life other}, r.find? endpoint = some life →
    r.IsLife other endpoint → other ≤ life

theorem sound_empty : Sound {} where
  named h := by simp [find?, Table.get?] at h
  latest h := by simp [find?, Table.get?] at h

theorem not_contains_iff (r : Registry) (endpoint : String) :
    ¬ r.contains endpoint = true ↔ r.find? endpoint = none := by
  simp [contains]

/-- A registered entry is that of the life which its name leads to. -/
theorem get?_eq_some {r : Registry} {endpoint : String} {entry : Entry} :
    r.get? endpoint = some entry ↔
      ∃ life, r.find? endpoint = some life ∧ r.entry? life = some entry :=
  Option.bind_eq_some_iff

/-- A life belongs to one endpoint. -/
theorem IsLife.unique {r : Registry} {life : Nat} {e f : String} (he : r.IsLife life e)
    (hf : r.IsLife life f) : e = f := by
  obtain ⟨entry, hentry, rfl⟩ := he
  obtain ⟨other, hother, rfl⟩ := hf
  rw [hentry] at hother
  rw [Option.some.inj hother]

theorem IsLife.lt_length {r : Registry} {life : Nat} {e : String} (h : r.IsLife life e) :
    life < r.lives.length := by
  obtain ⟨entry, hentry, -⟩ := h
  exact (List.getElem?_eq_some_iff.1 hentry).1

/-! ## Changing an entry -/

@[simp] theorem endpoint_recordValidation (e : Entry) (now : Nat) (protocol : Protocol)
    (exit : Address) : (e.recordValidation now protocol exit).endpoint = e.endpoint := by
  unfold Entry.recordValidation Entry.setProtocol
  dsimp only
  split <;> rfl

@[simp] theorem locked_recordValidation (e : Entry) (now : Nat) (protocol : Protocol)
    (exit : Address) : (e.recordValidation now protocol exit).locked = e.locked := by
  unfold Entry.recordValidation Entry.setProtocol
  dsimp only
  split <;> rfl

section Update

variable (r : Registry) (life : Nat) (change : Entry → Entry)

theorem entry?_update (other : Nat) :
    entry? (r.update life change) other =
      if other = life then (r.entry? other).map change else r.entry? other := by
  unfold update entry?
  rw [List.getElem?_modify]
  by_cases h : other = life
  · subst h
    cases r.lives[other]? <;> simp
  · have hne : life ≠ other := fun heq => h heq.symm
    cases r.lives[other]? <;> simp [h, hne]

/-- A change that keeps the endpoint changes no life's endpoint. -/
theorem isLife_update {change : Entry → Entry} (hkeep : ∀ e, (change e).endpoint = e.endpoint)
    {other : Nat} {e : String} :
    (r.update life change).IsLife other e ↔ r.IsLife other e := by
  unfold IsLife
  rw [entry?_update]
  by_cases h : other = life
  · cases hentry : r.entry? other with
    | none => simp [h]
    | some entry => simp [h, hkeep]
  · simp [h]

/-- A change that leaves locks alone locks nothing. -/
theorem isLocked_update {change : Entry → Entry} (hkeep : ∀ e, (change e).locked = e.locked)
    {other : Nat} : (r.update life change).IsLocked other ↔ r.IsLocked other := by
  unfold IsLocked
  rw [entry?_update]
  by_cases h : other = life
  · cases hentry : r.entry? other with
    | none => simp [h]
    | some entry => simp [h, hkeep]
  · simp [h]

theorem Sound.update {r : Registry} (h : Sound r) (life : Nat) {change : Entry → Entry}
    (hkeep : ∀ e, (change e).endpoint = e.endpoint) : Sound (r.update life change) where
  named hfind := (isLife_update r life hkeep).2 (h.named hfind)
  latest hfind hlife := h.latest hfind ((isLife_update r life hkeep).1 hlife)

end Update

/-! ## Locks -/

/-- After a release the life is unlocked, and nothing else is locked anew. -/
theorem isLocked_release {r : Registry} {life other : Nat} :
    (r.release life).IsLocked other ↔ other ≠ life ∧ r.IsLocked other := by
  unfold IsLocked release
  rw [entry?_update]
  by_cases h : other = life
  · cases hentry : r.entry? other with
    | none => simp [h]
    | some entry => simp [h]
  · simp [h]

/-- Taking a lock locks nothing else. -/
theorem isLocked_lock {r : Registry} {life other : Nat}
    (h : (r.update life ({ · with locked := true })).IsLocked other) :
    other = life ∨ r.IsLocked other := by
  obtain ⟨entry, hentry, hlocked⟩ := h
  rw [entry?_update] at hentry
  by_cases heq : other = life
  · exact .inl heq
  · rw [if_neg heq] at hentry
    exact .inr ⟨entry, hentry, hlocked⟩

theorem isLife_release {r : Registry} {life other : Nat} {e : String} :
    (r.release life).IsLife other e ↔ r.IsLife other e := by
  apply isLife_update
  exact fun _ => rfl

/-- A lock that was taken was free, and it is the only change. -/
theorem tryLock?_eq_some {r locked : Registry} {life : Nat} (h : r.tryLock? life = some locked) :
    ¬ r.IsLocked life ∧ locked = r.update life ({ · with locked := true }) := by
  unfold tryLock? at h
  cases hentry : r.entry? life with
  | none => simp [hentry] at h
  | some entry =>
      cases hlock : entry.locked with
      | true => simp [hentry, hlock] at h
      | false =>
          refine ⟨?_, by simpa [hentry, hlock] using h.symm⟩
          rintro ⟨other, hother, hlocked⟩
          rw [hentry] at hother
          rw [← Option.some.inj hother, hlock] at hlocked
          cases hlocked

/-- A lock that could not be taken is held, or there is no such life. -/
theorem tryLock?_eq_none {r : Registry} {life : Nat} (h : r.tryLock? life = none) :
    r.IsLocked life ∨ r.entry? life = none := by
  unfold tryLock? at h
  cases hentry : r.entry? life with
  | none => exact .inr rfl
  | some entry =>
      cases hlock : entry.locked with
      | true => exact .inl ⟨entry, hentry, hlock⟩
      | false => simp [hentry, hlock] at h

/-! ## Registering and deleting -/

section Add

variable {r : Registry} {endpoint : String}

theorem add_of_some {life : Nat} (h : r.find? endpoint = some life) :
    r.add endpoint = (r, life, false) := by
  simp [add, h]

theorem add_of_none (h : r.find? endpoint = none) :
    r.add endpoint =
      (⟨r.names.put endpoint r.lives.length, r.lives ++ [{ endpoint := endpoint }]⟩, r.lives.length,
        true) := by
  simp [add, h]

/-- A new name leads to a new life, and every other name where it led. -/
theorem find?_add (h : r.find? endpoint = none) (e : String) :
    (r.add endpoint).1.find? e = if e = endpoint then some r.lives.length else r.find? e := by
  rw [add_of_none h]
  exact Table.get?_put _ _ _ _

theorem entry?_add (h : r.find? endpoint = none) (life : Nat) :
    entry? (r.add endpoint).1 life =
      if life = r.lives.length then some { endpoint := endpoint } else r.entry? life := by
  rw [add_of_none h]
  unfold entry?
  rcases Nat.lt_trichotomy life r.lives.length with hlt | heq | hgt
  · simp [List.getElem?_append_left hlt, Nat.ne_of_lt hlt]
  · simp [heq]
  · rw [if_neg (by omega), List.getElem?_eq_none (by simp; omega),
      List.getElem?_eq_none (by omega)]

theorem isLife_add (h : r.find? endpoint = none) {life : Nat} {e : String} :
    (r.add endpoint).1.IsLife life e ↔
      life = r.lives.length ∧ e = endpoint ∨ r.IsLife life e := by
  constructor
  · rintro ⟨entry, hentry, rfl⟩
    rw [entry?_add h] at hentry
    by_cases hlife : life = r.lives.length
    · rw [if_pos hlife] at hentry
      exact .inl ⟨hlife, by rw [← Option.some.inj hentry]⟩
    · rw [if_neg hlife] at hentry
      exact .inr ⟨entry, hentry, rfl⟩
  · rintro (⟨hlife, rfl⟩ | hold)
    · exact ⟨{ endpoint := e }, by rw [entry?_add h, if_pos hlife], rfl⟩
    · have hlt := hold.lt_length
      obtain ⟨entry, hentry, hname⟩ := hold
      exact ⟨entry, by rw [entry?_add h, if_neg (Nat.ne_of_lt hlt), hentry], hname⟩

theorem isLocked_add (h : r.find? endpoint = none) {life : Nat}
    (hlocked : (r.add endpoint).1.IsLocked life) : r.IsLocked life := by
  obtain ⟨entry, hentry, hlock⟩ := hlocked
  rw [entry?_add h] at hentry
  by_cases hlife : life = r.lives.length
  · rw [if_pos hlife] at hentry
    rw [← Option.some.inj hentry] at hlock
    cases hlock
  · rw [if_neg hlife] at hentry
    exact ⟨entry, hentry, hlock⟩

theorem Sound.add (h : Sound r) (hnone : r.find? endpoint = none) :
    Sound (r.add endpoint).1 where
  named {e life} hfind := by
    rw [find?_add hnone] at hfind
    rw [isLife_add hnone]
    by_cases he : e = endpoint
    · rw [if_pos he] at hfind
      exact .inl ⟨(Option.some.inj hfind).symm, he⟩
    · rw [if_neg he] at hfind
      exact .inr (h.named hfind)
  latest {e life other} hfind hother := by
    rw [find?_add hnone] at hfind
    rw [isLife_add hnone] at hother
    by_cases he : e = endpoint
    · rw [if_pos he] at hfind
      obtain rfl := Option.some.inj hfind
      rcases hother with ⟨rfl, -⟩ | hother
      · exact Nat.le_refl _
      · exact Nat.le_of_lt hother.lt_length
    · rw [if_neg he] at hfind
      rcases hother with ⟨-, heq⟩ | hother
      · exact absurd heq he
      · exact h.latest hfind hother

end Add

section Delete

variable {r deleted : Registry} {endpoint : String}

theorem delete_eq_ok (h : r.delete endpoint = .ok deleted) :
    r.contains endpoint = true ∧ deleted = { r with names := r.names.erase endpoint } := by
  unfold delete at h
  split at h
  · next hin => exact ⟨hin, (Except.ok.inj h).symm⟩
  · cases h

theorem delete_eq_error {e : PoolError} (h : r.delete endpoint = .error e) :
    r.find? endpoint = none := by
  unfold delete at h
  split at h
  · cases h
  · next hout => exact (not_contains_iff r endpoint).1 hout

/-- A deleted name leads nowhere, and every other name where it led. -/
theorem find?_delete (h : r.delete endpoint = .ok deleted) (e : String) :
    deleted.find? e = if e = endpoint then none else r.find? e := by
  rw [(delete_eq_ok h).2]
  exact Table.get?_erase _ _ _

theorem entry?_delete (h : r.delete endpoint = .ok deleted) (life : Nat) :
    deleted.entry? life = r.entry? life := by
  rw [(delete_eq_ok h).2]
  rfl

theorem Sound.delete (h : Sound r) (hdelete : r.delete endpoint = .ok deleted) :
    Sound deleted := by
  have hentries : ∀ life e, deleted.IsLife life e ↔ r.IsLife life e := fun life e => by
    unfold IsLife
    rw [entry?_delete hdelete]
  have hnames : ∀ e life, deleted.find? e = some life → r.find? e = some life := by
    intro e life hfind
    rw [find?_delete hdelete] at hfind
    by_cases he : e = endpoint
    · rw [if_pos he] at hfind
      cases hfind
    · rwa [if_neg he] at hfind
  exact
    { named := fun hfind => (hentries _ _).2 (h.named (hnames _ _ hfind))
      latest := fun hfind hother => h.latest (hnames _ _ hfind) ((hentries _ _).1 hother) }

end Delete

end SocksPool.Registry
