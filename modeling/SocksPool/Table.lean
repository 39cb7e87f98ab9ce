/-!
# Tables keyed by endpoint

The registry and both limiters keep one value per endpoint. A `Table` is an
association list in order of insertion, with at most one entry per key;
looking up, storing and erasing are its only operations.

## Main results

* `get?_put`, `get?_erase` — what is found after a change.
* `nodup_put`, `nodup_erase` — no operation repeats a key.
-/

namespace SocksPool

/-- Values stored under the names of endpoints. -/
structure Table (α : Type) where
  entries : List (String × α) := []

namespace Table

variable {α : Type}

/-- The value stored under a key. -/
def get? (t : Table α) (key : String) : Option α :=
  (t.entries.find? (·.1 == key)).map (·.2)

/-- Whether a value is stored under a key. -/
def contains (t : Table α) (key : String) : Bool := (t.get? key).isSome

/-- Stores a value in the place of an older one, or at the end. -/
def put (t : Table α) (key : String) (value : α) : Table α :=
  if t.entries.any (·.1 == key) then
    ⟨t.entries.map fun entry => if entry.1 == key then (key, value) else entry⟩
  else ⟨t.entries ++ [(key, value)]⟩

/-- Removes what is stored under a key. -/
def erase (t : Table α) (key : String) : Table α :=
  ⟨t.entries.filter fun entry => !(entry.1 == key)⟩

/-- Number of stored values. -/
def size (t : Table α) : Nat := t.entries.length

/-- The keys, in order of insertion. -/
def keys (t : Table α) : List String := t.entries.map (·.1)

/-- The stored pairs in byte order of their keys. -/
def sorted (t : Table α) : List (String × α) :=
  t.entries.mergeSort fun a b => decide (a.1 ≤ b.1)

/-! ## Laws -/

private theorem find?_map_ne {entries : List (String × α)} {key other : String} {value : α}
    (h : other ≠ key) :
    ((entries.map fun entry => if entry.1 == key then (key, value) else entry).find?
      (·.1 == other)).map (·.2) = (entries.find? (·.1 == other)).map (·.2) := by
  induction entries with
  | nil => rfl
  | cons entry rest ih =>
      by_cases hk : entry.1 = key
      · have : ¬ entry.1 = other := fun e => h (e.symm.trans hk)
        have hko : ¬ key = other := fun e => h e.symm
        simpa [List.find?_cons, hk, hko, this] using ih
      · by_cases ho : entry.1 = other
        · simp [ho, h]
        · simpa [List.find?_cons, hk, ho] using ih

private theorem find?_map_self {entries : List (String × α)} {key : String} {value : α}
    (h : entries.any (·.1 == key) = true) :
    ((entries.map fun entry => if entry.1 == key then (key, value) else entry).find?
      (·.1 == key)).map (·.2) = some value := by
  induction entries with
  | nil => simp at h
  | cons entry rest ih =>
      by_cases hk : entry.1 = key
      · simp [hk]
      · have : rest.any (·.1 == key) = true := by simpa [hk] using h
        simpa [List.find?_cons, hk] using ih this

/-- A stored value is found, and every other key keeps its value. -/
theorem get?_put (t : Table α) (key other : String) (value : α) :
    (t.put key value).get? other = if other = key then some value else t.get? other := by
  unfold put get?
  by_cases hany : t.entries.any (·.1 == key) = true
  · simp only [hany, if_true]
    by_cases ho : other = key
    · subst ho
      simpa using find?_map_self hany
    · simpa [ho] using find?_map_ne ho
  · simp only [hany, Bool.false_eq_true, if_false]
    have hnone : t.entries.find? (·.1 == key) = none := by
      rw [List.find?_eq_none]
      intro entry hmem hkey
      exact hany (List.any_eq_true.2 ⟨entry, hmem, hkey⟩)
    by_cases ho : other = key
    · subst ho
      simp [List.find?_append, hnone]
    · have : ¬ key = other := fun e => ho e.symm
      simp [List.find?_append, this, ho]

/-- An erased key is gone, and every other key keeps its value. -/
theorem get?_erase (t : Table α) (key other : String) :
    (t.erase key).get? other = if other = key then none else t.get? other := by
  unfold erase get?
  induction t.entries with
  | nil => simp
  | cons entry rest ih =>
      by_cases hk : entry.1 = key
      · by_cases ho : other = key
        · simp [hk, ho]
        · have : ¬ key = other := fun e => ho e.symm
          simp [hk, ho, this] at ih ⊢
          exact ih
      · by_cases he : entry.1 = other
        · have : ¬ other = key := fun e => hk (he.trans e)
          simp [he, this]
        · simpa [hk, he] using ih

theorem nodup_erase {t : Table α} (h : t.keys.Nodup) (key : String) : (t.erase key).keys.Nodup :=
  h.sublist (List.filter_sublist.map _)

theorem nodup_put {t : Table α} (h : t.keys.Nodup) (key : String) (value : α) :
    (t.put key value).keys.Nodup := by
  unfold put keys
  by_cases hany : t.entries.any (·.1 == key) = true
  · simp only [hany, if_true, List.map_map]
    have : (fun entry : String × α => entry.1) ∘
        (fun entry => if entry.1 == key then (key, value) else entry) =
        fun entry => entry.1 := by
      funext entry
      by_cases hk : entry.1 = key <;> simp [hk]
    rw [this]
    exact h
  · simp only [hany, Bool.false_eq_true, if_false, List.map_append, List.map_cons, List.map_nil]
    rw [List.nodup_append]
    refine ⟨h, by simp, ?_⟩
    intro a ha b hb
    simp only [List.mem_singleton] at hb
    subst hb
    intro hab
    subst hab
    apply hany
    obtain ⟨entry, hmem, rfl⟩ := List.mem_map.1 ha
    exact List.any_eq_true.2 ⟨entry, hmem, by simp⟩

end Table

end SocksPool
