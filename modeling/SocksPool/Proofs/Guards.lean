import Mathlib.Logic.ExistsUnique
import SocksPool.Proofs.Handles

/-!
# Guards

The soft lock of a life is a bare flag, and whose lock it is stands elsewhere, in the guards that
are held. The two are changed together only: a lock is taken if the flag is down, and then there
is one guard more; a guard that is dropped, or written over by another, takes its own flag down.
Nothing else touches a flag or a guard. So the flag of a life is up exactly while one guard
refers to the life, in every order of locking and dropping, and whatever becomes of the names.

## Main definitions

* `Guarded.Matched` — flags and guards agree.
* `Guarded.Disciplined` — who holds a lock, who gets one, and what a dropped guard unlocks.

## Main results

* `Desk.matched_apply` — every use keeps flags and guards in agreement.
* `locks_disciplined` — the discipline holds throughout.
-/

namespace SocksPool

namespace Registry

variable {r : Registry} {life other : Nat}

theorem isLocked_congr {s : Registry} (h : s.entry? other = r.entry? other) :
    s.IsLocked other ↔ r.IsLocked other := by
  unfold IsLocked
  rw [h]

/-- A lock can be taken exactly if the life is there and its flag is down. -/
theorem tryLock?_isSome_iff :
    (r.tryLock? life).isSome = true ↔ (∃ e, r.IsLife life e) ∧ ¬ r.IsLocked life := by
  cases htaken : r.tryLock? life with
  | none =>
      refine ⟨fun h => absurd h Bool.false_ne_true, ?_⟩
      rintro ⟨⟨e, entry, hentry, -⟩, hfree⟩
      rcases tryLock?_eq_none htaken with hlocked | hnone
      · exact absurd hlocked hfree
      · rw [hentry] at hnone
        cases hnone
  | some locked =>
      refine ⟨fun _ => ⟨?_, (tryLock?_eq_some htaken).1⟩, fun _ => rfl⟩
      cases hentry : r.entry? life with
      | none => simp [tryLock?, hentry] at htaken
      | some entry => exact ⟨entry.endpoint, entry, hentry, rfl⟩

theorem isLocked_add_iff {endpoint : String} (h : r.find? endpoint = none) :
    (r.add endpoint).1.IsLocked life ↔ r.IsLocked life := by
  refine ⟨isLocked_add h, ?_⟩
  rintro ⟨entry, hentry, hlocked⟩
  have hlt : life < r.lives.length := (List.getElem?_eq_some_iff.1 hentry).1
  exact ⟨entry, by rw [entry?_add h, if_neg (Nat.ne_of_lt hlt), hentry], hlocked⟩

/-- A lock that was taken puts one flag up. -/
theorem isLocked_tryLock? {locked : Registry} (h : r.tryLock? life = some locked) :
    locked.IsLocked other ↔ other = life ∨ r.IsLocked other := by
  obtain ⟨⟨e, entry, hentry, -⟩, -⟩ := tryLock?_isSome_iff.1 (Option.isSome_of_eq_some h)
  rw [(tryLock?_eq_some h).2]
  refine ⟨isLocked_lock, ?_⟩
  by_cases heq : other = life
  · subst heq
    intro _
    refine ⟨{ entry with locked := true }, ?_, rfl⟩
    rw [entry?_update, if_pos rfl, hentry]
    rfl
  · rintro (hsame | hold)
    · exact absurd hsame heq
    · exact (isLocked_congr (entry?_update_of_ne heq)).2 hold

end Registry

namespace Guarded

variable {g : Guarded} {guard name : String} {life other : Nat}

/-! ## Taking locks and dropping guards -/

/-- A guard that is dropped takes the flag of its own life down and changes nothing else. -/
theorem unlock?_eq_some {freed : Guarded} (h : g.unlock? guard = some freed)
    (hheld : g.guards.get? guard = some life) :
    (∀ other, freed.registry.IsLocked other ↔ other ≠ life ∧ g.registry.IsLocked other) ∧
    (∀ other, other ≠ life → freed.registry.entry? other = g.registry.entry? other) ∧
    freed.registry.names = g.registry.names ∧ freed.guards = g.guards.erase guard := by
  rw [unlock?, hheld] at h
  obtain rfl := Option.some.inj h
  exact ⟨fun other => Registry.isLocked_release, fun other => Registry.entry?_update_of_ne, rfl,
    rfl⟩

/-- A lock that is taken puts the flag of its life up. If the name of the guard is in use, the
guard that was kept under it is dropped. -/
theorem lock?_eq_some {locked : Guarded} (h : g.lock? guard life = some locked) :
    ¬ g.registry.IsLocked life ∧
    (∀ other, locked.registry.IsLocked other ↔
      (other = life ∨ g.registry.IsLocked other) ∧ g.guards.get? guard ≠ some other) ∧
    ∀ name, locked.guards.get? name = if name = guard then some life else g.guards.get? name := by
  obtain ⟨registry, htaken, rfl⟩ := Option.map_eq_some_iff.1 h
  refine ⟨(Registry.tryLock?_eq_some htaken).1, fun other => ?_, fun name => ?_⟩
  · rw [← Registry.isLocked_tryLock? htaken]
    cases hheld : g.guards.get? guard with
    | none => simp [unlock?, hheld]
    | some older =>
        have hfreed : unlock? { g with registry } guard =
            some ⟨registry.release older, g.guards.erase guard⟩ := by simp [unlock?, hheld]
        rw [hfreed]
        refine ((unlock?_eq_some hfreed hheld).1 other).trans ?_
        rw [and_comm, ne_comm, ne_eq, ne_eq, Option.some_inj]
  · cases hheld : g.guards.get? guard with
    | none => simp [unlock?, hheld, Table.get?_put]
    | some older =>
        simp only [unlock?, hheld, Option.map_some, Option.getD_some, Table.get?_put,
          Table.get?_erase]
        split <;> rfl

/-- No two guards are kept under one name. -/
theorem nodup_lock? {locked : Guarded} (h : g.guards.keys.Nodup)
    (hlock : g.lock? guard life = some locked) : locked.guards.keys.Nodup := by
  obtain ⟨registry, -, rfl⟩ := Option.map_eq_some_iff.1 hlock
  cases hfreed : Guarded.unlock? { g with registry } guard with
  | none => exact Table.nodup_put h guard life
  | some freed =>
      obtain ⟨older, -, rfl⟩ := Option.map_eq_some_iff.1 hfreed
      exact Table.nodup_put (Table.nodup_erase h guard) guard life

/-! ## Flags and guards -/

/-- Flags and guards agree: a flag is up exactly if a guard refers to the life, and no two guards
refer to one life or have one name. -/
structure Matched (g : Guarded) : Prop where
  distinct : g.guards.keys.Nodup
  locked_iff : ∀ {life}, g.registry.IsLocked life ↔ ∃ guard, g.guards.get? guard = some life
  single : ∀ {first second life}, g.guards.get? first = some life →
    g.guards.get? second = some life → first = second

theorem Matched.of_eq {h : Guarded} (hg : g.Matched)
    (hlocks : ∀ life, h.registry.IsLocked life ↔ g.registry.IsLocked life)
    (hguards : h.guards = g.guards) : h.Matched where
  distinct := hguards ▸ hg.distinct
  locked_iff {life} := by rw [hlocks, hguards, hg.locked_iff]
  single := hguards ▸ hg.single

theorem Matched.of_unlock? {freed : Guarded} (h : g.Matched)
    (hfreed : g.unlock? guard = some freed) :
    freed.Matched := by
  obtain ⟨life, hheld, -⟩ := Option.map_eq_some_iff.1 hfreed
  obtain ⟨hlocks, -, -, hguards⟩ := unlock?_eq_some hfreed hheld
  have hget (name : String) :
      freed.guards.get? name = if name = guard then none else g.guards.get? name := by
    rw [hguards, Table.get?_erase]
  constructor
  · rw [hguards]
    exact Table.nodup_erase h.distinct guard
  · intro other
    rw [hlocks, h.locked_iff]
    constructor
    · rintro ⟨hne, name, hname⟩
      refine ⟨name, ?_⟩
      rw [hget, if_neg, hname]
      rintro rfl
      exact hne (Option.some.inj (hname.symm.trans hheld))
    · rintro ⟨name, hname⟩
      rw [hget] at hname
      split at hname
      · cases hname
      · next hne =>
        refine ⟨?_, name, hname⟩
        rintro rfl
        exact hne (h.single hname hheld)
  · intro first second other hfirst hsecond
    rw [hget] at hfirst hsecond
    split at hfirst
    · cases hfirst
    · split at hsecond
      · cases hsecond
      · exact h.single hfirst hsecond

theorem Matched.of_lock? {locked : Guarded} (h : g.Matched)
    (hlock : g.lock? guard life = some locked) :
    locked.Matched := by
  obtain ⟨hfree, hlocks, hget⟩ := lock?_eq_some hlock
  have hnone (name : String) : g.guards.get? name ≠ some life := fun hname =>
    hfree (h.locked_iff.2 ⟨name, hname⟩)
  constructor
  · exact nodup_lock? h.distinct hlock
  · intro other
    rw [hlocks]
    constructor
    · rintro ⟨rfl | hold, hover⟩
      · exact ⟨guard, by rw [hget, if_pos rfl]⟩
      · obtain ⟨name, hname⟩ := h.locked_iff.1 hold
        refine ⟨name, ?_⟩
        rw [hget, if_neg, hname]
        rintro rfl
        exact hover hname
    · rintro ⟨name, hname⟩
      rw [hget] at hname
      split at hname
      · obtain rfl := Option.some.inj hname
        exact ⟨.inl rfl, hnone guard⟩
      · next hne =>
          exact ⟨.inr (h.locked_iff.2 ⟨name, hname⟩), fun hover => hne (h.single hname hover)⟩
  · intro first second other hfirst hsecond
    rw [hget] at hfirst hsecond
    split at hfirst
    · next hnew =>
      obtain rfl := Option.some.inj hfirst
      split at hsecond
      · next hsame => rw [hnew, hsame]
      · exact absurd hsecond (hnone second)
    · split at hsecond
      · obtain rfl := Option.some.inj hsecond
        exact absurd hfirst (hnone first)
      · exact h.single hfirst hsecond

/-! ## The discipline of locks -/

/-- Who holds a lock, who gets one, and what a guard unlocks when it is dropped. -/
structure Disciplined (g : Guarded) : Prop where
  /-- The guards that are held have names of their own. -/
  distinct : g.guards.keys.Nodup
  /-- A life is locked exactly while one guard refers to it. -/
  locked_iff : ∀ life, g.registry.IsLocked life ↔ ∃! guard, g.guards.get? guard = some life
  /-- No two guards refer to one life. -/
  single : ∀ life first second, g.guards.get? first = some life →
    g.guards.get? second = some life → first = second
  /-- A lock is given exactly if the life is unlocked. -/
  given_iff : ∀ guard life endpoint, g.registry.IsLife life endpoint →
    ((g.lock? guard life).isSome = true ↔ ¬ g.registry.IsLocked life)
  /-- A guard that is dropped unlocks its own life; every other entry stays as it is. -/
  dropped : ∀ guard life, g.guards.get? guard = some life → ∃ freed, g.unlock? guard = some freed ∧
    ¬ freed.registry.IsLocked life ∧
    (∀ other, other ≠ life → freed.registry.entry? other = g.registry.entry? other) ∧
    freed.registry.names = g.registry.names
  /-- So an entry that the name leads to since then stays as it is, locked or unlocked. -/
  renewed : ∀ guard life endpoint freed, g.guards.get? guard = some life →
    g.registry.find? endpoint ≠ some life → g.unlock? guard = some freed →
    freed.registry.get? endpoint = g.registry.get? endpoint
  /-- A guard that is written over by a new one unlocks its own life, too. -/
  replaced : ∀ guard older life locked, g.guards.get? guard = some older →
    g.lock? guard life = some locked →
    older ≠ life ∧ ∀ other, locked.registry.IsLocked other ↔
      other = life ∨ other ≠ older ∧ g.registry.IsLocked other

theorem Matched.disciplined (h : g.Matched) : g.Disciplined where
  distinct := h.distinct
  locked_iff life := by
    rw [h.locked_iff]
    constructor
    · rintro ⟨guard, hguard⟩
      exact ⟨guard, hguard, fun name hname => h.single hname hguard⟩
    · rintro ⟨guard, hguard, -⟩
      exact ⟨guard, hguard⟩
  single life first second := h.single
  given_iff guard life endpoint hlife := by
    rw [lock?, Option.isSome_map, Registry.tryLock?_isSome_iff]
    exact and_iff_right ⟨endpoint, hlife⟩
  dropped guard life hheld := by
    have hfreed : g.unlock? guard = some ⟨g.registry.release life, g.guards.erase guard⟩ := by
      rw [unlock?, hheld]
      rfl
    obtain ⟨hlocks, hothers, hnames, -⟩ := unlock?_eq_some hfreed hheld
    exact ⟨_, hfreed, fun hlocked => ((hlocks life).1 hlocked).1 rfl, hothers, hnames⟩
  renewed guard life endpoint freed hheld hfind hfreed := by
    obtain ⟨-, hothers, hnames, -⟩ := unlock?_eq_some hfreed hheld
    unfold Registry.get?
    rw [show freed.registry.find? endpoint = g.registry.find? endpoint from by
      unfold Registry.find?; rw [hnames]]
    cases hother : g.registry.find? endpoint with
    | none => rfl
    | some other => exact hothers other fun hequal => hfind (hequal ▸ hother)
  replaced guard older life locked hheld hlock := by
    obtain ⟨hfree, hlocks, -⟩ := lock?_eq_some hlock
    have hne : older ≠ life := by
      rintro rfl
      exact hfree (h.locked_iff.2 ⟨guard, hheld⟩)
    refine ⟨hne, fun other => ?_⟩
    rw [hlocks, hheld]
    constructor
    · rintro ⟨hsame | hold, hover⟩
      · exact .inl hsame
      · exact .inr ⟨fun hequal => hover (hequal ▸ rfl), hold⟩
    · rintro (rfl | ⟨hother, hold⟩)
      · exact ⟨.inl rfl, fun hequal => hne (Option.some.inj hequal)⟩
      · exact ⟨.inr hold, fun hequal => hother (Option.some.inj hequal).symm⟩

end Guarded

/-! ## Locks throughout -/

namespace Desk

variable {d : Desk}

/-- Only uses of locks touch flags and guards. -/
theorem isLocked_apply (d : Desk) (u : Use) :
    (∃ guard life, u = .lock guard life) ∨ (∃ guard, u = .unlock guard) ∨
    (∀ life, (d.apply u).registry.IsLocked life ↔ d.registry.IsLocked life) ∧
      (d.apply u).guards = d.guards := by
  cases u with
  | lock guard life => exact .inl ⟨guard, life, rfl⟩
  | unlock guard => exact .inr (.inl ⟨guard, rfl⟩)
  | add endpoint =>
      refine .inr (.inr ⟨fun life => ?_, rfl⟩)
      show (d.registry.add endpoint).1.IsLocked life ↔ _
      cases hfind : d.registry.find? endpoint with
      | none => exact Registry.isLocked_add_iff hfind
      | some other => rw [Registry.add_of_some hfind]
  | delete endpoint =>
      refine .inr (.inr ⟨fun life => ?_, rfl⟩)
      show ((d.registry.delete endpoint).toOption.getD d.registry).IsLocked life ↔ _
      cases hdelete : d.registry.delete endpoint with
      | ok deleted => exact Registry.isLocked_congr (Registry.entry?_delete hdelete life)
      | error err => rfl
  | setProtocol target protocol =>
      refine .inr (.inr ⟨fun life => Registry.isLocked_update _ _ fun entry => ?_, rfl⟩)
      unfold Entry.setProtocol
      split <;> rfl
  | markBad target =>
      refine .inr (.inr ⟨fun life => Registry.isLocked_update _ _ ?_, rfl⟩)
      exact fun entry => (rfl : entry.markBad.locked = entry.locked)
  | record target now protocol exit =>
      refine .inr (.inr ⟨fun life => Registry.isLocked_update _ _ fun entry => ?_, rfl⟩)
      exact Registry.locked_recordValidation entry now protocol exit
  | _ => exact .inr (.inr ⟨fun life => Iff.rfl, rfl⟩)

theorem matched_apply (h : d.Matched) (u : Use) : (d.apply u).Matched := by
  rcases d.isLocked_apply u with ⟨guard, life, rfl⟩ | ⟨guard, rfl⟩ | ⟨hlocks, hguards⟩
  · show ((d.lock? guard life).getD d.toGuarded).Matched
    cases hlock : d.lock? guard life with
    | none => exact h
    | some locked => exact h.of_lock? hlock
  · show ((d.unlock? guard).getD d.toGuarded).Matched
    cases hfreed : d.unlock? guard with
    | none => exact h
    | some freed => exact h.of_unlock? hfreed
  · exact h.of_eq hlocks hguards

end Desk

/-- After any uses a life is locked exactly while one guard refers to it, a lock is given exactly
if the life is unlocked, and a guard that is dropped or written over unlocks its own life and no
other, also if its name leads to another life by then. -/
theorem locks_disciplined (uses : List Use) : (Desk.after uses).Disciplined := by
  have hstart : ({} : Guarded).Matched := by
    constructor
    · exact List.nodup_nil
    · intro life
      refine ⟨?_, ?_⟩
      · rintro ⟨entry, hentry, -⟩
        cases hentry
      · rintro ⟨guard, hguard⟩
        cases hguard
    · intro first second life hfirst
      cases hfirst
  have hkept : (Desk.after uses).Matched :=
    Desk.foldl_of_apply (P := fun d => d.Matched) (fun d u h => Desk.matched_apply h u) hstart uses
  exact hkept.disciplined

end SocksPool
