import SocksPool.Pool.Lifecycle

/-!
# Resizing over the whole range of counts

A worker count is set by its difference to the present one. The difference of two
words is a signed word, and a signed word does not hold all of them. A growth that
does not fit wraps to a loss, and leaves one worker; a loss that does not fit wraps to
a growth, and leaves as many workers as a word can count. So a resized pool has the
workers that were asked for exactly if the difference fits.

The configuration is written by value, and has the right count in any case.

## Main results

* `Slots.tune_difference` — a difference that fits leads to its goal.
* `Slots.capacity_tune_difference_iff` — and no other one does.
* `resized_iff` — when the setters of a pool reach the count that they were given.
-/

namespace SocksPool

namespace Slots

variable {s : Slots} {goal : Nat}

/-- Tuning by a difference that fits leads to the goal. -/
theorem tune_difference (hpos : 1 ≤ goal) (hgoal : goal < Word.limit)
    (hspans : Word.Spans goal s.capacity) :
    s.tune (Word.difference goal s.capacity) = { s with capacity := goal } := by
  have hreached : (s.stretch (Word.difference goal s.capacity)).capacity = goal :=
    Word.saturatingAdd_difference_of_spans hgoal hspans
  unfold tune
  rw [hreached, Nat.max_eq_left hpos]

/-- Slots that are tuned by the difference to a goal reach it exactly if the
difference fits. -/
theorem capacity_tune_difference_iff (hpos : 1 ≤ goal) (hgoal : goal < Word.limit)
    (hcapacity : s.capacity < Word.limit) :
    (s.tune (Word.difference goal s.capacity)).capacity = goal ↔
      Word.Spans goal s.capacity := by
  by_cases hspans : Word.Spans goal s.capacity
  · rw [tune_difference hpos hgoal hspans]
    exact iff_of_true rfl hspans
  · refine iff_of_false ?_ hspans
    show max (Word.saturatingAdd s.capacity (Word.difference goal s.capacity)) 1 ≠ goal
    rcases Word.far_of_not_spans hspans with habove | hbelow
    · rw [Word.saturatingAdd_difference_of_far_above hgoal habove]
      unfold Word.half at habove
      omega
    · rw [Word.saturatingAdd_difference_of_far_below hcapacity hbelow]
      unfold Word.limit at *
      omega

end Slots

namespace Pool

variable {p q : Pool}

theorem slots_tune (p : Pool) (change : Int) : (p.tune change).slots = p.slots.tune change := by
  unfold tune
  split <;> rfl

/-- What a call that sets the worker count does. -/
theorem setWorkers_eq_ok {count : Nat} (h : p.setWorkers count = .ok q) :
    1 ≤ count ∧ q.config = { p.config with workers := count } ∧
      q.slots = p.slots.tune (Word.difference count p.slots.capacity) := by
  unfold setWorkers at h
  split at h
  · cases h
  · split at h
    · cases h
    · next hrange =>
        obtain rfl := Except.ok.inj h
        refine ⟨Nat.one_le_iff_ne_zero.2 (not_or.1 hrange).1, ?_, slots_tune _ _⟩
        unfold tune
        split <;> rfl

/-- What a call that sets the worker ceiling does. -/
theorem setMaxWorkers_eq_ok {ceiling : Nat} (h : p.setMaxWorkers ceiling = .ok q) :
    1 ≤ ceiling ∧
      q.config = { p.config with
        maxWorkers := ceiling, workers := min p.config.workers ceiling } ∧
      q.slots = if ceiling < p.slots.capacity then
          p.slots.tune (Word.difference ceiling p.slots.capacity)
        else p.slots := by
  unfold setMaxWorkers at h
  split at h
  · cases h
  · split at h
    · cases h
    · next hzero =>
        obtain rfl := Except.ok.inj h
        refine ⟨Nat.one_le_iff_ne_zero.2 hzero, ?_, ?_⟩
        · split
          · unfold tune
            split <;> rfl
          · rfl
        · show (if ceiling < p.slots.capacity then _ else _ : Pool).slots = _
          split
          · exact slots_tune _ _
          · rfl

end Pool

/-- A call that sets the worker count of a pool, and succeeds, has written the count to
the configuration; the capacity is that count exactly if its difference to the old
capacity fits a signed word. A call that sets the ceiling, and succeeds, has written
the ceiling and has cut the configured count down to it; the capacity is cut down to it
exactly if that is no change or the difference fits. -/
theorem resized_iff {p q : Pool} (hcapacity : p.slots.capacity < Word.limit) :
    (∀ count < Word.limit, p.setWorkers count = .ok q →
      q.config.workers = count ∧
        (q.slots.capacity = count ↔ Word.Spans count p.slots.capacity)) ∧
    (∀ ceiling < Word.limit, p.setMaxWorkers ceiling = .ok q →
      q.config.maxWorkers = ceiling ∧ q.config.workers = min p.config.workers ceiling ∧
        (q.slots.capacity = min p.slots.capacity ceiling ↔
          p.slots.capacity ≤ ceiling ∨ Word.Spans ceiling p.slots.capacity)) := by
  constructor
  · intro count hcount hset
    obtain ⟨hpos, hconfig, hslots⟩ := Pool.setWorkers_eq_ok hset
    refine ⟨congrArg Config.workers hconfig, ?_⟩
    rw [hslots]
    exact Slots.capacity_tune_difference_iff hpos hcount hcapacity
  · intro ceiling hceiling hset
    obtain ⟨hpos, hconfig, hslots⟩ := Pool.setMaxWorkers_eq_ok hset
    refine ⟨congrArg Config.maxWorkers hconfig, congrArg Config.workers hconfig, ?_⟩
    rw [hslots]
    split
    · next hcut =>
        rw [Nat.min_eq_right (Nat.le_of_lt hcut), or_iff_right (Nat.not_le.2 hcut)]
        exact Slots.capacity_tune_difference_iff hpos hceiling hcapacity
    · next hroom =>
        have hle : p.slots.capacity ≤ ceiling := Nat.not_lt.1 hroom
        simp [hle]

/-- A stopped pool of twenty-five workers with room for more is given `2 ^ 63 + 200` of
them, and is left with one. Another one that has as many as a word can count is given a
ceiling of one, and keeps them all. -/
theorem resized_beyond_reach :
    (∃ p q, Pool.new { Config.default with maxWorkers := Word.half + 1000 } = .ok p ∧
      p.setWorkers (Word.half + 200) = .ok q ∧ p.slots.capacity = 25 ∧
      q.config.workers = Word.half + 200 ∧ q.slots.capacity = 1) ∧
    ∃ p q, Pool.new
        { Config.default with maxWorkers := Word.limit - 1, workers := Word.limit - 1 } = .ok p ∧
      p.setMaxWorkers 1 = .ok q ∧ p.slots.capacity = Word.limit - 1 ∧
      q.config.workers = 1 ∧ q.slots.capacity = Word.limit - 1 :=
  ⟨⟨_, _, rfl, rfl, by decide, by decide, by decide⟩,
    _, _, rfl, rfl, by decide, by decide, by decide⟩

/-- A stopped pool of twenty-five workers is given seven, and a ceiling of three. -/
theorem resized_within_reach :
    ∃ p q r, Pool.new Config.default = .ok p ∧ p.setWorkers 7 = .ok q ∧
      q.setMaxWorkers 3 = .ok r ∧ q.slots.capacity = 7 ∧ r.slots.capacity = 3 ∧
      r.config.workers = 3 := by
  obtain ⟨p, hnew, q, hset, r, hcut, hp, hq⟩ : ∃ p, Pool.new Config.default = .ok p ∧
      ∃ q, p.setWorkers 7 = .ok q ∧ ∃ r, q.setMaxWorkers 3 = .ok r ∧
        p.slots.capacity = 25 ∧ q.config.workers = 7 := by
    exact ⟨_, rfl, _, rfl, _, rfl, by decide, by decide⟩
  have hsmall : p.slots.capacity < Word.limit := by rw [hp]; decide
  have hseven : q.slots.capacity = 7 :=
    ((resized_iff hsmall).1 7 (by decide) hset).2.2 (by rw [hp]; decide)
  have hthree : r.slots.capacity = min q.slots.capacity 3 :=
    ((resized_iff (by rw [hseven]; decide)).2 3 (by decide) hcut).2.2.2
      (.inr (by rw [hseven]; decide))
  have hworkers : r.config.workers = min q.config.workers 3 :=
    ((resized_iff (by rw [hseven]; decide)).2 3 (by decide) hcut).2.1
  exact ⟨p, q, r, hnew, hset, hcut, hseven, by rw [hthree, hseven]; rfl,
    by rw [hworkers, hq]; rfl⟩

end SocksPool
