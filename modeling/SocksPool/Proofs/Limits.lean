import SocksPool.Backoff
import SocksPool.Usage

/-!
# What the limiters keep

Both limiters keep one row per endpoint, and the clock only moves on. So what
they know of an endpoint can be said by one number each.

The *level* of an endpoint is its arrival time, or the present if that is later.
An admitted use raises the level by one interval, and is admitted only while
the level stays within a burst of the present. Nothing lowers it. In particular
pruning does not: a row that is dropped lies in the past, where the level is the
present with it and without it. So the uses within a span of time are counted
by how far the level rises.

The *deadline* of a struck endpoint never moves back as long as its row stays.
This is because a later strike has at least as long a window and begins later.

## Main results

* `Usage.level_prune` — pruning is invisible.
* `Usage.level_check`, `Usage.level_check_le` — what an admitted use does.
* `Backoff.deadline_le_strike` — deadlines do not move back.
-/

namespace SocksPool

namespace Table

variable {α : Type}

/-- No row is found under a key that there is not. -/
theorem find?_eq_none {rows : List (String × α)} {key : String} (h : key ∉ rows.map (·.1)) :
    rows.find? (·.1 == key) = none := by
  rw [List.find?_eq_none]
  intro row hmem hrow
  exact h (List.mem_map.2 ⟨row, hmem, beq_iff_eq.1 hrow⟩)

/-- Among distinct keys, a row is found after dropping some if it was found and
is kept. -/
theorem get?_filter {t : Table α} (hnodup : t.keys.Nodup) (keep : String × α → Bool)
    (key : String) :
    Table.get? ⟨t.entries.filter keep⟩ key =
      (t.get? key).filter fun value => keep (key, value) := by
  obtain ⟨entries⟩ := t
  unfold get? keys at *
  induction entries with
  | nil => rfl
  | cons entry rest ih =>
      obtain ⟨name, value⟩ := entry
      rw [List.map_cons, List.nodup_cons] at hnodup
      have hrest := ih hnodup.2
      by_cases hname : name = key
      · -- The row stands here, and no later row has its key.
        subst hname
        rw [find?_eq_none hnodup.1] at hrest
        cases hkeep : keep (name, value) with
        | true => simp [hkeep, Option.filter]
        | false => simpa [hkeep, Option.filter] using hrest
      · cases hkeep : keep (name, value) <;> simpa [hkeep, hname] using hrest

/-- Among distinct keys, the stored rows are those that are found. -/
theorem mem_entries_iff {t : Table α} (hnodup : t.keys.Nodup) {key : String} {value : α} :
    (key, value) ∈ t.entries ↔ t.get? key = some value := by
  obtain ⟨entries⟩ := t
  unfold get? keys at *
  induction entries with
  | nil => simp
  | cons entry rest ih =>
      obtain ⟨name, first⟩ := entry
      rw [List.map_cons, List.nodup_cons] at hnodup
      rw [List.mem_cons, ih hnodup.2, List.find?_cons]
      by_cases hname : name = key
      · subst hname
        simp [find?_eq_none hnodup.1, eq_comm]
      · have hskipped : (name == key) = false := beq_eq_false_iff_ne.2 hname
        simp [hskipped, Ne.symm hname]

end Table

namespace Usage

variable {u : Usage} {now : Nat} {endpoint e : String}

/-- How far the uses of an endpoint reach: to its arrival time, and at least to
the present. -/
def level (u : Usage) (now : Nat) (endpoint : String) : Nat :=
  max ((u.arrivals.get? endpoint).getD now) now

theorem le_level (u : Usage) (now : Nat) (endpoint : String) : now ≤ u.level now endpoint :=
  Nat.le_max_right ..

/-- As time passes, the present overtakes the level, and nothing else does. -/
theorem level_later (u : Usage) {now later : Nat} (h : now ≤ later) (endpoint : String) :
    u.level later endpoint = max (u.level now endpoint) later := by
  unfold level
  cases u.arrivals.get? endpoint with
  | none =>
      simp only [Option.getD_none]
      omega
  | some arrival =>
      simp only [Option.getD_some]
      omega

/-- The level does not fall as time passes. -/
theorem level_mono (u : Usage) {now later : Nat} (h : now ≤ later) (endpoint : String) :
    u.level now endpoint ≤ u.level later endpoint := by
  rw [u.level_later h]
  exact Nat.le_max_left ..

/-! ## Pruning -/

theorem nodup_prune (hnodup : u.arrivals.keys.Nodup) (now : Nat) :
    (u.prune now).arrivals.keys.Nodup :=
  hnodup.sublist (List.filter_sublist.map _)

/-- Pruning is invisible, now and later. -/
theorem level_prune (hnodup : u.arrivals.keys.Nodup) {now later : Nat} (h : now ≤ later)
    (endpoint : String) : (u.prune now).level later endpoint = u.level later endpoint := by
  have hrow : (u.prune now).arrivals.get? endpoint =
      (u.arrivals.get? endpoint).filter fun arrival => decide (now - u.pace < arrival) :=
    Table.get?_filter hnodup _ endpoint
  unfold level
  rw [hrow]
  cases hfind : u.arrivals.get? endpoint with
  | none => rfl
  | some arrival =>
      by_cases hkeep : now - u.pace < arrival
      · simp [Option.filter, hkeep]
      · -- The arrival time that is dropped lies in the past.
        have hpast : arrival ≤ now := by omega
        simp [Option.filter, hkeep]
        omega

/-! ## Uses -/

theorem quota_check (u : Usage) (now : Nat) (endpoint : String) :
    (u.check now endpoint).1.quota = u.quota := by
  unfold check
  dsimp only
  split <;> rfl

theorem nodup_check (hnodup : u.arrivals.keys.Nodup) (now : Nat) (endpoint : String) :
    (u.check now endpoint).1.arrivals.keys.Nodup := by
  unfold check
  dsimp only
  split
  · exact hnodup
  · exact Table.nodup_put hnodup _ _

/-- A use that is not admitted changes nothing, and one that is moves the
arrival time of its endpoint. -/
theorem check_cases (u : Usage) (now : Nat) (endpoint : String) :
    ((u.check now endpoint).2.isSome = true ∧ (u.check now endpoint).1 = u) ∨
      ((u.check now endpoint).2 = none ∧ u.level now endpoint ≤ now + u.tolerance ∧
        (u.check now endpoint).1.arrivals =
          u.arrivals.put endpoint (u.level now endpoint + u.pace)) := by
  unfold check level
  dsimp only
  split
  · exact .inl ⟨rfl, rfl⟩
  · next hadmitted =>
      refine .inr ⟨rfl, ?_, rfl⟩
      omega

/-- A use is admitted while the level is within the tolerance. -/
theorem check_eq_none :
    (u.check now endpoint).2 = none ↔ u.level now endpoint ≤ now + u.tolerance := by
  unfold check level
  dsimp only
  split
  · next hrefused =>
      refine ⟨nofun, fun hwithin => ?_⟩
      omega
  · next hadmitted =>
      refine ⟨fun _ => ?_, fun _ => rfl⟩
      omega

/-- A use that is not admitted has to wait until the level is within the tolerance. -/
theorem check_eq_some {wait : Nat} :
    (u.check now endpoint).2 = some wait ↔
      0 < wait ∧ u.level now endpoint = now + u.tolerance + wait := by
  unfold check level
  dsimp only
  split
  · next hrefused =>
      rw [Option.some_inj]
      omega
  · next hadmitted =>
      refine ⟨nofun, fun hwaits => ?_⟩
      omega

/-- A use that is not admitted changes nothing. -/
theorem check_of_refused {wait : Nat} (hrefused : (u.check now endpoint).2 = some wait) :
    (u.check now endpoint).1 = u := by
  rcases u.check_cases now endpoint with ⟨-, hsame⟩ | ⟨hadmitted, -, -⟩
  · exact hsame
  · exact absurd (hrefused.symm.trans hadmitted) nofun

/-- An admitted use raises the level by one interval. -/
theorem level_check (hadmitted : (u.check now endpoint).2 = none) :
    (u.check now endpoint).1.level now endpoint = u.level now endpoint + u.pace := by
  rcases u.check_cases now endpoint with ⟨hrefused, -⟩ | ⟨-, -, harrivals⟩
  · rw [hadmitted] at hrefused
    cases hrefused
  · have hnow := u.le_level now endpoint
    have hrow : (u.check now endpoint).1.arrivals.get? endpoint =
        some (u.level now endpoint + u.pace) := by
      rw [harrivals, Table.get?_put, if_pos rfl]
    show max (((u.check now endpoint).1.arrivals.get? endpoint).getD now) now = _
    rw [hrow, Option.getD_some]
    omega

/-- A use of one endpoint is none of another. -/
theorem level_check_of_ne (u : Usage) (now : Nat) (hne : e ≠ endpoint) (later : Nat) :
    (u.check now endpoint).1.level later e = u.level later e := by
  rcases u.check_cases now endpoint with ⟨-, hsame⟩ | ⟨-, -, harrivals⟩
  · rw [hsame]
  · have hkept : (u.check now endpoint).1.arrivals.get? e = u.arrivals.get? e := by
      rw [harrivals, Table.get?_put, if_neg hne]
    unfold level
    rw [hkept]

/-- After an admitted use the level lies within a burst of the present. -/
theorem level_check_le (hburst : 1 ≤ u.quota.burst)
    (hadmitted : (u.check now endpoint).2 = none) :
    (u.check now endpoint).1.level now endpoint ≤ now + u.pace * u.quota.burst := by
  rw [level_check hadmitted]
  have hwithin := check_eq_none.1 hadmitted
  have hsplit : u.pace * u.quota.burst = u.pace * (u.quota.burst - 1) + u.pace := by
    rw [← Nat.mul_succ]
    congr 1
    omega
  unfold tolerance at hwithin
  omega

/-- No level lies further ahead than the tolerance and one interval. So a use is admitted
within an interval. -/
def Tight (u : Usage) (now : Nat) : Prop :=
  ∀ endpoint, u.level now endpoint ≤ now + u.tolerance + u.pace

namespace Tight

theorem later (h : u.Tight now) {later : Nat} (hle : now ≤ later) : u.Tight later := by
  intro e
  have hbefore := h e
  rw [u.level_later hle]
  omega

theorem prune (h : u.Tight now) (hnodup : u.arrivals.keys.Nodup) : (u.prune now).Tight now := by
  intro e
  rw [level_prune hnodup (Nat.le_refl _)]
  exact h e

theorem check (h : u.Tight now) (endpoint : String) : (u.check now endpoint).1.Tight now := by
  intro e
  have hbefore := h e
  have htolerance : (u.check now endpoint).1.tolerance = u.tolerance := by
    unfold tolerance pace
    rw [u.quota_check]
  have hpace : (u.check now endpoint).1.pace = u.pace := by
    unfold pace
    rw [u.quota_check]
  rw [htolerance, hpace]
  by_cases he : e = endpoint
  · subst he
    rcases u.check_cases now e with ⟨-, hsame⟩ | ⟨hadmitted, hwithin, -⟩
    · rwa [hsame]
    · rw [level_check hadmitted]
      omega
  · rwa [u.level_check_of_ne now he]

/-- A use that is not admitted waits for an interval at most. -/
theorem wait_le (h : u.Tight now) {wait : Nat} (hrefused : (u.check now endpoint).2 = some wait) :
    wait ≤ u.pace := by
  have hlevel := h endpoint
  obtain ⟨-, hwait⟩ := check_eq_some.1 hrefused
  omega

end Tight

/-- No use lowers a level. -/
theorem level_le_check (u : Usage) (now : Nat) (endpoint e : String) :
    u.level now e ≤ (u.check now endpoint).1.level now e := by
  by_cases he : e = endpoint
  · rw [he]
    rcases u.check_cases now endpoint with ⟨-, hsame⟩ | ⟨hadmitted, -, -⟩
    · exact Nat.le_of_eq (by rw [hsame])
    · rw [level_check hadmitted]
      omega
  · exact Nat.le_of_eq (u.level_check_of_ne now he now).symm

end Usage

namespace Backoff

variable {b : Backoff} {now window : Nat} {endpoint e : String} {row : Strike}

/-- A window does not shrink as strikes are added. -/
theorem window_mono (b : Backoff) {count more : Nat} (h : count ≤ more) :
    b.window count ≤ b.window more := by
  have hpower : 2 ^ min (count - 1) 16 ≤ 2 ^ min (more - 1) 16 :=
    Nat.pow_le_pow_right (by omega) (by omega)
  have hscaled := Nat.mul_le_mul_left b.base hpower
  show min (min (b.base * 2 ^ min (count - 1) 16) Span.longest) b.ceiling ≤
    min (min (b.base * 2 ^ min (more - 1) 16) Span.longest) b.ceiling
  omega

/-- A strike writes one row. -/
theorem strike_row (b : Backoff) (now : Nat) (endpoint : String) :
    ∃ row, (b.strike now endpoint).1 = { b with strikes := b.strikes.put endpoint row } ∧
      row.count = min (b.count endpoint + 1) maxCount ∧
      (row.deadline = now + b.window row.count ∧
          (b.strike now endpoint).2 = some (b.window row.count) ∨
        row.deadline = ((b.strikes.get? endpoint).map (·.deadline)).getD now ∧
          (b.strike now endpoint).2 = none) := by
  have hcount : ((b.strikes.get? endpoint).getD ⟨0, now⟩).count = b.count endpoint := by
    unfold count
    cases b.strikes.get? endpoint <;> rfl
  have hlast : ((b.strikes.get? endpoint).getD ⟨0, now⟩).deadline =
      ((b.strikes.get? endpoint).map (·.deadline)).getD now := by
    cases b.strikes.get? endpoint <;> rfl
  unfold strike
  dsimp only
  rw [hcount, hlast]
  unfold Instant.add?
  by_cases hfits : (now + b.window (min (b.count endpoint + 1) maxCount)) / Span.second <
      Instant.secondLimit
  · rw [if_pos hfits]
    exact ⟨_, rfl, rfl, .inl ⟨rfl, rfl⟩⟩
  · rw [if_neg hfits]
    exact ⟨_, rfl, rfl, .inr ⟨rfl, rfl⟩⟩

/-- Counts do not pass their maximum, and no deadline lies further ahead than
the window of its strikes. -/
def Timely (b : Backoff) (now : Nat) : Prop :=
  ∀ endpoint row, b.strikes.get? endpoint = some row →
    row.count ≤ maxCount ∧ row.deadline ≤ now + b.window row.count

namespace Timely

theorem later (h : b.Timely now) {later : Nat} (hle : now ≤ later) : b.Timely later := by
  intro endpoint row hfind
  have hrow := h endpoint row hfind
  omega

theorem forget (h : b.Timely now) (endpoint : String) : (b.forget endpoint).Timely now := by
  intro other row hfind
  have hrow : (b.strikes.erase endpoint).get? other = some row := hfind
  rw [Table.get?_erase] at hrow
  split at hrow
  · cases hrow
  · exact h other row hrow

theorem strike (h : b.Timely now) (endpoint : String) : (b.strike now endpoint).1.Timely now := by
  obtain ⟨new, hstruck, hcount, hdeadline⟩ := b.strike_row now endpoint
  rw [hstruck]
  intro other row hfind
  have hrow : (b.strikes.put endpoint new).get? other = some row := hfind
  show row.count ≤ maxCount ∧ row.deadline ≤ now + b.window row.count
  rw [Table.get?_put] at hrow
  by_cases hother : other = endpoint
  · rw [if_pos hother] at hrow
    rw [← Option.some.inj hrow]
    refine ⟨by omega, ?_⟩
    rcases hdeadline with ⟨hends, -⟩ | ⟨hkept, -⟩
    · omega
    · -- The clock overflows, and the deadline stays that of fewer strikes.
      rw [hkept]
      cases hold : b.strikes.get? endpoint with
      | none =>
          simp only [Option.map_none, Option.getD_none]
          omega
      | some old =>
          obtain ⟨hfew, hbefore⟩ := h endpoint old hold
          have hgrown : b.window old.count ≤ b.window new.count := by
            apply b.window_mono
            rw [hcount]
            simp only [count, hold, Option.map_some, Option.getD_some]
            omega
          simp only [Option.map_some, Option.getD_some]
          omega
  · rw [if_neg hother] at hrow
    exact h other row hrow

end Timely

/-- A strike that comes to its end has a deadline that the clock can represent. -/
theorem strike_fits (hstruck : (b.strike now endpoint).2 = some window) :
    (now + window) / Span.second < Instant.secondLimit := by
  unfold strike at hstruck
  dsimp only at hstruck
  split at hstruck
  · next hadd =>
      obtain rfl := Option.some.inj hstruck
      unfold Instant.add? at hadd
      split at hadd
      · next hfits => exact hfits
      · cases hadd
  · cases hstruck

/-- Deadlines are over, or the clock can represent them. -/
def Dated (b : Backoff) (now : Nat) : Prop :=
  ∀ endpoint row, b.strikes.get? endpoint = some row →
    row.deadline ≤ now ∨ row.deadline / Span.second < Instant.secondLimit

namespace Dated

theorem later (h : b.Dated now) {later : Nat} (hle : now ≤ later) : b.Dated later := by
  intro endpoint row hfind
  exact (h endpoint row hfind).imp_left fun hover => Nat.le_trans hover hle

theorem forget (h : b.Dated now) (endpoint : String) : (b.forget endpoint).Dated now := by
  intro other row hfind
  have hrow : (b.strikes.erase endpoint).get? other = some row := hfind
  rw [Table.get?_erase] at hrow
  split at hrow
  · cases hrow
  · exact h other row hrow

theorem strike (h : b.Dated now) (endpoint : String) : (b.strike now endpoint).1.Dated now := by
  obtain ⟨new, hstruck, -, hdeadline⟩ := b.strike_row now endpoint
  rw [hstruck]
  intro other row hfind
  have hrow : (b.strikes.put endpoint new).get? other = some row := hfind
  rw [Table.get?_put] at hrow
  by_cases hother : other = endpoint
  · rw [if_pos hother] at hrow
    rw [← Option.some.inj hrow]
    rcases hdeadline with ⟨hends, hwindow⟩ | ⟨hkept, -⟩
    · rw [hends]
      exact .inr (strike_fits hwindow)
    · -- The clock overflows, and the deadline stays what it was, or is the present.
      rw [hkept]
      cases hold : b.strikes.get? endpoint with
      | none => exact .inl (Nat.le_refl _)
      | some old => exact h endpoint old hold
  · rw [if_neg hother] at hrow
    exact h other row hrow

/-- An endpoint that is backed off has a deadline that the clock can represent. -/
theorem fits (h : b.Dated now) {wait : Nat} (hrest : b.retryAfter? now endpoint = some wait) :
    Instant.add? now wait ≠ none := by
  unfold retryAfter? at hrest
  split at hrest
  · next row hfind =>
      split at hrest
      · next hahead =>
          have hsum : now + wait = row.deadline := by
            rw [← Option.some.inj hrest]
            omega
          have hlimit : row.deadline / Span.second < Instant.secondLimit :=
            (h endpoint row hfind).resolve_left (Nat.not_le.2 hahead)
          unfold Instant.add?
          rw [hsum, if_pos hlimit]
          exact Option.some_ne_none _
      · cases hrest
  · cases hrest

end Dated

/-- A deadline does not move back by a strike. -/
theorem deadline_le_strike (htimely : b.Timely now) (hfind : b.strikes.get? e = some row)
    (endpoint : String) :
    ∃ new, (b.strike now endpoint).1.strikes.get? e = some new ∧ row.deadline ≤ new.deadline := by
  obtain ⟨new, hstruck, hcount, hdeadline⟩ := b.strike_row now endpoint
  rw [hstruck]
  show ∃ found, (b.strikes.put endpoint new).get? e = some found ∧ row.deadline ≤ found.deadline
  rw [Table.get?_put]
  by_cases he : e = endpoint
  · rw [if_pos he]
    refine ⟨new, rfl, ?_⟩
    obtain ⟨hfew, hbefore⟩ := htimely e row hfind
    rw [he] at hfind
    rcases hdeadline with ⟨hends, -⟩ | ⟨hkept, -⟩
    · have hgrown : b.window row.count ≤ b.window new.count := by
        apply b.window_mono
        rw [hcount]
        simp only [count, hfind, Option.map_some, Option.getD_some]
        omega
      omega
    · rw [hkept, hfind]
      exact Nat.le_refl _
  · rw [if_neg he]
    exact ⟨row, hfind, Nat.le_refl _⟩

/-- A strike whose window can be represented ends it that much later. -/
theorem deadline_strike {window : Nat} (hstruck : (b.strike now endpoint).2 = some window) :
    ∃ row, (b.strike now endpoint).1.strikes.get? endpoint = some row ∧
      row.deadline = now + window := by
  obtain ⟨row, hrow, -, ⟨hends, hwindow⟩ | ⟨-, hnone⟩⟩ := b.strike_row now endpoint
  · rw [hwindow] at hstruck
    rw [hrow, ← Option.some.inj hstruck]
    refine ⟨row, ?_, hends⟩
    show (b.strikes.put endpoint row).get? endpoint = some row
    rw [Table.get?_put, if_pos rfl]
  · rw [hnone] at hstruck
    cases hstruck

/-- A row that stays when an endpoint is forgotten is unchanged. -/
theorem get?_forget {e : String} (hfind : b.strikes.get? e = some row)
    (hkept : (b.forget endpoint).strikes.contains e = true) :
    (b.forget endpoint).strikes.get? e = some row := by
  have hrow : (b.forget endpoint).strikes.get? e =
      if e = endpoint then none else b.strikes.get? e :=
    Table.get?_erase _ _ _
  unfold Table.contains at hkept
  rw [hrow] at hkept ⊢
  by_cases he : e = endpoint
  · rw [if_pos he] at hkept
    cases hkept
  · rw [if_neg he]
    exact hfind

/-- An endpoint that is not backed off is past its deadline. -/
theorem deadline_le_of_clear (hclear : b.retryAfter? now endpoint = none)
    (hfind : b.strikes.get? endpoint = some row) : row.deadline ≤ now := by
  unfold retryAfter? at hclear
  rw [hfind] at hclear
  dsimp only at hclear
  split at hclear
  · cases hclear
  · next hpast => exact Nat.le_of_not_lt hpast

end Backoff

end SocksPool
