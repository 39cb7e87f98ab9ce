import Mathlib.Algebra.GroupWithZero.Nat
import Mathlib.Data.List.Induction
import SocksPool.Proofs.ByteOrder
import SocksPool.Proofs.Limits

/-!
# Strikes on record

The backoff limiter keeps a count and a deadline for each endpoint that was struck and
not forgotten since. Beside it one can keep a record of the strikes themselves, each with
its time and the window that it was answered. While the clock can represent every
deadline, the limiter's row is read off the last strike on record and their number, so
everything it answers is.

The windows on record double, from the base on, and are cut at the ceiling. But a window
doubles no more than sixteen times. A ceiling that lies further above the base than that
is never reached: from then on the window stays what it is.

## Main definitions

* `Backoff.Order` — what can be asked of a limiter; `Backoff.Record.obeyAll` asks it.
* `Backoff.Record` — a limiter under its clock, with the strikes since an endpoint was
  last forgotten.
* `Backoff.owed` — what is left of the last window on record.

## Main results

* `window_doubles_iff` — when a strike is answered twice the window before it, up to the
  ceiling.
* `penalties_kept` — what is answered, and what is shown, is read off the record.
-/

namespace SocksPool

namespace Backoff

/-- What can be asked of a backoff limiter, and the time that passes in between. -/
inductive Order where
  | strike (endpoint : String)
  | forget (endpoint : String)
  | peek (endpoint : String)
  | retryAfter (endpoint : String)
  | count (endpoint : String)
  | snapshot
  | advance (span : Nat)
deriving DecidableEq

/-- The endpoint that an order is about. -/
def Order.endpoint? : Order → Option String
  | .strike endpoint | .forget endpoint | .peek endpoint | .retryAfter endpoint
  | .count endpoint => some endpoint
  | .snapshot | .advance _ => none

/-- The order only looks. -/
def Order.reads : Order → Bool
  | .peek _ | .retryAfter _ | .count _ | .snapshot => true
  | .strike _ | .forget _ | .advance _ => false

/-- The order can bear on what is answered for an endpoint. -/
def Order.concerns (endpoint : String) : Order → Bool
  | .strike other | .forget other => other == endpoint
  | .advance _ => true
  | .peek _ | .retryAfter _ | .count _ | .snapshot => false

/-- What an order is answered. -/
inductive Reply where
  /-- The window of a strike, or nothing if the clock cannot represent its end. -/
  | window (window : Option Nat)
  | backedOff (backedOff : Bool)
  | rest (rest : Option Nat)
  | count (count : Nat)
  | rows (rows : List (String × Strike))
  | done
deriving DecidableEq

/-- A strike on record: when it was, and the window that it was answered. -/
structure Penalty where
  time : Nat
  window : Nat
deriving DecidableEq

/-- When the window of a strike ends. -/
def Penalty.deadline (penalty : Penalty) : Nat := penalty.time + penalty.window

/-- What is left of the last window on record, if it has not ended. -/
def owed (now : Nat) (penalties : List Penalty) : Option Nat :=
  match penalties.getLast? with
  | none => none
  | some last => if 0 < last.deadline - now then some (last.deadline - now) else none

/-- The window of a strike that comes after so many others, if the base may double sixteen
times. -/
def doubled (base ceiling : Nat) (before : Nat) : Nat := min (base * 2 ^ min before 16) ceiling

/-- The strikes against an endpoint since it was last forgotten. -/
def struckSince (endpoint : String) (orders : List Order) : Nat :=
  (orders.reverse.takeWhile (· ≠ .forget endpoint)).count (.strike endpoint)

/-- A backoff limiter under its clock. For each endpoint there are the strikes since it was
last forgotten, the earliest first. -/
structure Record where
  now : Nat
  backoff : Backoff
  penalties : String → List Penalty

namespace Record

/-- A new limiter, at some time. -/
def new (base longest start : Nat) : Record := ⟨start, Backoff.new base longest, fun _ => []⟩

/-- What an order is answered now. -/
def reply (r : Record) : Order → Reply
  | .strike endpoint => .window (r.backoff.strike r.now endpoint).2
  | .peek endpoint => .backedOff (r.backoff.peek r.now endpoint)
  | .retryAfter endpoint => .rest (r.backoff.retryAfter? r.now endpoint)
  | .count endpoint => .count (r.backoff.count endpoint)
  | .snapshot => .rows r.backoff.snapshot
  | .forget _ | .advance _ => .done

/-- The limiter after an order. A strike goes on record with the window it was answered. -/
def obey (r : Record) : Order → Record
  | .strike endpoint =>
    { r with
      backoff := (r.backoff.strike r.now endpoint).1
      penalties := fun e =>
        if e = endpoint then
          r.penalties e ++ (r.backoff.strike r.now endpoint).2.toList.map (⟨r.now, ·⟩)
        else r.penalties e }
  | .forget endpoint =>
    { r with
      backoff := r.backoff.forget endpoint
      penalties := fun e => if e = endpoint then [] else r.penalties e }
  | .advance span => { r with now := r.now + span }
  | .peek _ | .retryAfter _ | .count _ | .snapshot => r

/-- The limiter after orders that are given one after the other. -/
def obeyAll (r : Record) : List Order → Record
  | [] => r
  | order :: more => (r.obey order).obeyAll more

/-- The clock can represent the deadline of every strike. -/
def Ends (r : Record) : List Order → Prop
  | [] => True
  | order :: more => r.reply order ≠ .window none ∧ (r.obey order).Ends more

instance decidableEnds (r : Record) (orders : List Order) : Decidable (r.Ends orders) :=
  match orders with
  | [] => isTrue trivial
  | order :: more =>
    have := (r.obey order).decidableEnds more
    inferInstanceAs (Decidable (_ ∧ _))

end Record

/-! ## Windows -/

variable {b : Backoff} {now window count : Nat} {endpoint e : String}

/-- A strike leaves the base and the ceiling as they are. -/
theorem bounds_strike (b : Backoff) (now : Nat) (endpoint : String) :
    (b.strike now endpoint).1.base = b.base ∧ (b.strike now endpoint).1.ceiling = b.ceiling := by
  obtain ⟨row, hrow, -⟩ := b.strike_row now endpoint
  rw [hrow]
  exact ⟨rfl, rfl⟩

/-- Nothing but the ceiling cuts a window whose end the clock can represent. -/
theorem window_eq_doubled (hfits : (now + b.window count) / Span.second < Instant.secondLimit) :
    b.window count = doubled b.base b.ceiling (count - 1) := by
  have hdef : b.window count =
      min (min (b.base * 2 ^ min (count - 1) 16) Span.longest) b.ceiling := rfl
  unfold Span.second Instant.secondLimit at hfits
  rw [hdef] at hfits ⊢
  unfold doubled
  simp only [Span.longest, Span.second] at hfits ⊢
  generalize b.base * 2 ^ min (count - 1) 16 = product at hfits ⊢
  omega

theorem doubled_mono (base ceiling : Nat) {before more : Nat} (h : before ≤ more) :
    doubled base ceiling before ≤ doubled base ceiling more := by
  have hpower : 2 ^ min before 16 ≤ 2 ^ min more 16 :=
    Nat.pow_le_pow_right (by omega) (by omega)
  have hscaled := Nat.mul_le_mul_left base hpower
  unfold doubled
  omega

theorem doubled_between {base ceiling : Nat} (hceiling : base ≤ ceiling) (before : Nat) :
    base ≤ doubled base ceiling before ∧ doubled base ceiling before ≤ ceiling := by
  have hscaled : base ≤ base * 2 ^ min before 16 :=
    Nat.le_mul_of_pos_right base (Nat.two_pow_pos _)
  unfold doubled
  omega

/-- Doubling up to a ceiling stops at sixteen only if the ceiling lies further above. -/
theorem doubled_eq_iff {base ceiling before : Nat} :
    doubled base ceiling before = min (base * 2 ^ before) ceiling ↔
      before ≤ 16 ∨ base = 0 ∨ ceiling ≤ base * 2 ^ 16 := by
  unfold doubled
  rcases Nat.le_total before 16 with hfew | hmany
  · rw [Nat.min_eq_left hfew]
    simp [hfew]
  · obtain ⟨more, rfl⟩ := Nat.exists_eq_add_of_le hmany
    rw [Nat.min_eq_right hmany, Nat.pow_add, ← Nat.mul_assoc]
    have hnone : base = 0 ↔ base * 2 ^ 16 = 0 := by omega
    rw [hnone]
    generalize base * 2 ^ 16 = last
    cases more with
    | zero => simp
    | succ more =>
        have hpower : 2 ≤ 2 ^ (more + 1) := by
          rw [Nat.pow_succ]
          have hpos := Nat.two_pow_pos more
          omega
        have htwice := Nat.mul_le_mul_left last hpower
        have hzero : last = 0 → last * 2 ^ (more + 1) = 0 := fun h => by rw [h, Nat.zero_mul]
        generalize last * 2 ^ (more + 1) = product at htwice hzero ⊢
        omega

/-! ## The strikes against one endpoint -/

/-- Windows stay within bounds and do not shrink, and no deadline is earlier than one before
it. -/
structure Mounting (base ceiling : Nat) (penalties : List Penalty) : Prop where
  within : ∀ penalty ∈ penalties, base ≤ penalty.window ∧ penalty.window ≤ ceiling
  windows : penalties.Pairwise (·.window ≤ ·.window)
  deadlines : penalties.Pairwise (·.deadline ≤ ·.deadline)

/-- A row of the limiter is that of the last strike on record. -/
structure Kept (base ceiling now : Nat) (row : Option Strike) (penalties : List Penalty) :
    Prop where
  row_eq : row = penalties.getLast?.map fun last =>
    ⟨min penalties.length maxCount, last.deadline⟩
  windows : penalties.map (·.window) = (List.range penalties.length).map (doubled base ceiling)
  times : penalties.Pairwise (·.time ≤ ·.time)
  past : ∀ penalty ∈ penalties, penalty.time ≤ now

theorem kept_nil (base ceiling now : Nat) : Kept base ceiling now none [] where
  row_eq := rfl
  windows := rfl
  times := List.Pairwise.nil
  past _ hmem := absurd hmem List.not_mem_nil

namespace Kept

variable {base ceiling : Nat} {found : Option Strike} {penalties : List Penalty}

theorem later (h : Kept base ceiling now found penalties) {later : Nat} (hle : now ≤ later) :
    Kept base ceiling later found penalties :=
  ⟨h.row_eq, h.windows, h.times, fun penalty hmem => Nat.le_trans (h.past penalty hmem) hle⟩

/-- One more strike goes on record. -/
theorem concat (h : Kept base ceiling now found penalties)
    (hwindow : window = doubled base ceiling penalties.length) :
    Kept base ceiling now (some ⟨min (penalties.length + 1) maxCount, now + window⟩)
      (penalties ++ [⟨now, window⟩]) where
  row_eq := by
    rw [List.getLast?_concat, List.length_append]
    rfl
  windows := by
    rw [List.map_append, List.length_append, List.length_singleton, List.range_succ,
      List.map_append, h.windows, hwindow]
    rfl
  times := by
    rw [List.pairwise_append]
    refine ⟨h.times, List.pairwise_singleton _ _, fun earlier hearlier last hlast => ?_⟩
    rw [List.mem_singleton.1 hlast]
    exact h.past earlier hearlier
  past penalty hmem := by
    rcases List.mem_append.1 hmem with hold | hnew
    · exact h.past penalty hold
    · obtain rfl := List.mem_singleton.1 hnew
      exact Nat.le_refl _

theorem count_eq (h : Kept base ceiling now found penalties) :
    (found.map (·.count)).getD 0 = min penalties.length maxCount := by
  rw [h.row_eq]
  rcases List.eq_nil_or_concat penalties with hnone | ⟨earlier, last, hlast⟩
  · rw [hnone]
    rfl
  · rw [hlast, List.concat_eq_append, List.getLast?_concat]
    rfl

theorem mounting (h : Kept base ceiling now found penalties) (hceiling : base ≤ ceiling) :
    Mounting base ceiling penalties := by
  have hwindows : penalties.Pairwise (·.window ≤ ·.window) := by
    rw [← List.pairwise_map (R := (· ≤ ·)), h.windows, List.pairwise_map]
    exact List.pairwise_lt_range.imp fun hlt => doubled_mono base ceiling (Nat.le_of_lt hlt)
  refine ⟨fun penalty hmem => ?_, hwindows, ?_⟩
  · have hwindow : penalty.window ∈
        (List.range penalties.length).map (doubled base ceiling) := by
      rw [← h.windows]
      exact List.mem_map_of_mem hmem
    obtain ⟨before, -, heq⟩ := List.mem_map.1 hwindow
    rw [← heq]
    exact doubled_between hceiling before
  · refine (h.times.and hwindows).imp fun ⟨htime, hwindow⟩ => ?_
    exact Nat.add_le_add htime hwindow

end Kept

/-! ## What stays true of a record -/

namespace Record

variable {r : Record} {base ceiling : Nat} {order : Order}

/-- The limiter knows what is on record. -/
structure Faithful (base ceiling : Nat) (r : Record) : Prop where
  base_eq : r.backoff.base = base
  ceiling_eq : r.backoff.ceiling = ceiling
  distinct : r.backoff.strikes.keys.Nodup
  kept : ∀ e, Kept base ceiling r.now (r.backoff.strikes.get? e) (r.penalties e)

theorem faithful_new (base longest start : Nat) :
    Faithful base (max longest base) (new base longest start) :=
  ⟨rfl, rfl, List.nodup_nil, fun _ => kept_nil base _ start⟩

namespace Faithful

/-- A strike is answered the next window, and its row is about it. -/
theorem strike_eq (h : Faithful base ceiling r)
    (hstruck : (r.backoff.strike r.now e).2 = some window) :
    window = doubled base ceiling (r.penalties e).length ∧
      (r.backoff.strike r.now e).1 = { r.backoff with
        strikes := r.backoff.strikes.put e
          ⟨min ((r.penalties e).length + 1) maxCount, r.now + window⟩ } := by
  obtain ⟨⟨count, deadline⟩, hrow, hcount, ⟨hdeadline, hwindow⟩ | ⟨-, hnone⟩⟩ :=
    r.backoff.strike_row r.now e
  · dsimp only at hcount hdeadline hwindow
    rw [hwindow] at hstruck
    obtain rfl := Option.some.inj hstruck
    have hnext : count = min ((r.penalties e).length + 1) maxCount := by
      have hbefore : r.backoff.count e = min (r.penalties e).length maxCount :=
        (h.kept e).count_eq
      omega
    refine ⟨?_, by rw [hrow, hdeadline, ← hnext]⟩
    -- The count stops far beyond the last doubling.
    have hexponent : min (count - 1) 16 = min (r.penalties e).length 16 := by
      unfold maxCount at hnext
      omega
    rw [window_eq_doubled (strike_fits hwindow), h.base_eq, h.ceiling_eq]
    unfold doubled
    rw [hexponent]
  · rw [hnone] at hstruck
    cases hstruck

theorem strike (h : Faithful base ceiling r)
    (hstruck : (r.backoff.strike r.now endpoint).2 = some window) :
    Faithful base ceiling (r.obey (.strike endpoint)) := by
  obtain ⟨hwindow, hafter⟩ := h.strike_eq hstruck
  have hbackoff : (r.obey (.strike endpoint)).backoff = { r.backoff with
      strikes := r.backoff.strikes.put endpoint
        ⟨min ((r.penalties endpoint).length + 1) maxCount, r.now + window⟩ } := hafter
  refine ⟨?_, ?_, ?_, fun e => ?_⟩
  all_goals rw [hbackoff]
  · exact h.base_eq
  · exact h.ceiling_eq
  · exact Table.nodup_put h.distinct _ _
  · rw [Table.get?_put]
    by_cases he : e = endpoint
    · have hnew : (r.obey (.strike endpoint)).penalties e =
          r.penalties endpoint ++ [⟨r.now, window⟩] := by
        dsimp only [Record.obey]
        rw [if_pos he, hstruck, he]
        rfl
      rw [hnew, if_pos he]
      exact (h.kept endpoint).concat hwindow
    · have hold : (r.obey (.strike endpoint)).penalties e = r.penalties e := if_neg he
      rw [hold, if_neg he]
      exact h.kept e

theorem forget (h : Faithful base ceiling r) (endpoint : String) :
    Faithful base ceiling (r.obey (.forget endpoint)) := by
  refine ⟨h.base_eq, h.ceiling_eq, Table.nodup_erase h.distinct _, fun e => ?_⟩
  show Kept base ceiling r.now ((r.backoff.strikes.erase endpoint).get? e)
    (if e = endpoint then [] else r.penalties e)
  rw [Table.get?_erase]
  by_cases he : e = endpoint
  · rw [if_pos he, if_pos he]
    exact kept_nil base ceiling r.now
  · rw [if_neg he, if_neg he]
    exact h.kept e

theorem obey (h : Faithful base ceiling r) (hends : r.reply order ≠ .window none) :
    Faithful base ceiling (r.obey order) := by
  cases order with
  | strike endpoint =>
      cases hstruck : (r.backoff.strike r.now endpoint).2 with
      | none => exact absurd (congrArg Reply.window hstruck) hends
      | some window => exact h.strike hstruck
  | forget endpoint => exact h.forget endpoint
  | advance span =>
      exact ⟨h.base_eq, h.ceiling_eq, h.distinct, fun e => (h.kept e).later (Nat.le_add_right ..)⟩
  | peek | retryAfter | count | snapshot => exact h

/-- The limiter knows what is on record after any orders whose strikes come to an end. -/
theorem obeyAll (h : Faithful base ceiling r) {orders : List Order} (hends : r.Ends orders) :
    Faithful base ceiling (r.obeyAll orders) := by
  induction orders generalizing r with
  | nil => exact h
  | cons order more ih => exact ih (h.obey hends.1) hends.2

end Faithful

/-! ## Answers -/

/-- What is answered about an endpoint is read off its strikes. -/
structure Truthful (r : Record) (e : String) : Prop where
  rest : r.reply (.retryAfter e) = .rest (owed r.now (r.penalties e))
  backedOff : r.reply (.peek e) = .backedOff (owed r.now (r.penalties e)).isSome
  count : r.reply (.count e) = .count (min (r.penalties e).length maxCount)

/-- Each endpoint with a strike on record is shown once, in byte order, with the number of
its strikes and the deadline of the last. -/
structure Shows (r : Record) (rows : List (String × Strike)) : Prop where
  order : (rows.map (·.1)).Pairwise fun a b => Text.bytes a < Text.bytes b
  row : ∀ e row, (e, row) ∈ rows ↔ ∃ last, (r.penalties e).getLast? = some last ∧
    row = ⟨min (r.penalties e).length maxCount, last.deadline⟩

namespace Faithful

theorem truthful (h : Faithful base ceiling r) (e : String) : r.Truthful e := by
  have hrest : r.backoff.retryAfter? r.now e = owed r.now (r.penalties e) := by
    unfold retryAfter? owed
    rw [(h.kept e).row_eq]
    cases (r.penalties e).getLast? with
    | none => rfl
    | some last =>
        have hpast : r.now < last.deadline ↔ 0 < last.deadline - r.now := by omega
        simp only [Option.map_some, hpast]
  have hbackedOff : r.backoff.peek r.now e = (owed r.now (r.penalties e)).isSome :=
    congrArg Option.isSome hrest
  exact ⟨congrArg Reply.rest hrest, congrArg Reply.backedOff hbackedOff,
    congrArg Reply.count (h.kept e).count_eq⟩

theorem shows (h : Faithful base ceiling r) : r.Shows r.backoff.snapshot := by
  refine ⟨Table.sorted_byteOrder h.distinct, fun e row => ?_⟩
  have hstored : (e, row) ∈ r.backoff.snapshot ↔ r.backoff.strikes.get? e = some row :=
    r.backoff.strikes.sorted_perm.mem_iff.trans (Table.mem_entries_iff h.distinct)
  rw [hstored, (h.kept e).row_eq, Option.map_eq_some_iff]
  exact exists_congr fun last => and_congr_right fun _ => eq_comm

end Faithful

/-! ## Orders one after the other -/

theorem obeyAll_concat (r : Record) (orders : List Order) (order : Order) :
    r.obeyAll (orders ++ [order]) = (r.obeyAll orders).obey order := by
  induction orders generalizing r with
  | nil => rfl
  | cons first more ih => exact ih (r.obey first)

theorem ends_concat {orders : List Order} :
    r.Ends (orders ++ [order]) ↔ r.Ends orders ∧ (r.obeyAll orders).reply order ≠ .window none := by
  induction orders generalizing r with
  | nil => exact ⟨fun h => ⟨trivial, h.1⟩, fun h => ⟨h.2, trivial⟩⟩
  | cons first more ih => exact (and_congr_right fun _ => ih).trans and_assoc.symm

/-- An order that only looks can be left out. -/
theorem obeyAll_filter_reads (r : Record) (orders : List Order) :
    r.obeyAll (orders.filter (!·.reads)) = r.obeyAll orders := by
  induction orders generalizing r with
  | nil => rfl
  | cons order more ih => cases order <;> exact ih _

/-- A strike that comes to its end goes on record, and forgetting clears the record. -/
theorem length_penalties_obey (hends : r.reply order ≠ .window none) (e : String) :
    ((r.obey order).penalties e).length =
      if order = .forget e then 0
      else (r.penalties e).length + if order = .strike e then 1 else 0 := by
  cases order with
  | strike endpoint =>
      cases hstruck : (r.backoff.strike r.now endpoint).2 with
      | none => exact absurd (congrArg Reply.window hstruck) hends
      | some window =>
          by_cases he : e = endpoint
          · subst he
            simp [obey, hstruck]
          · simp [obey, he, Ne.symm he]
  | forget endpoint =>
      by_cases he : e = endpoint
      · subst he
        simp [obey]
      · simp [obey, he, Ne.symm he]
  | peek | retryAfter | count | snapshot | advance => simp [obey]

theorem struckSince_concat (e : String) (orders : List Order) (order : Order) :
    struckSince e (orders ++ [order]) =
      if order = .forget e then 0
      else struckSince e orders + if order = .strike e then 1 else 0 := by
  unfold struckSince
  rw [List.reverse_concat, List.takeWhile_cons]
  by_cases hforget : order = .forget e
  · simp [hforget]
  · simp [hforget, List.count_cons]

/-- As many strikes are on record as there were since the endpoint was last forgotten. -/
theorem length_penalties {longest start : Nat} {orders : List Order}
    (hends : (new base longest start).Ends orders) (e : String) :
    (((new base longest start).obeyAll orders).penalties e).length = struckSince e orders := by
  induction orders using List.reverseRecOn with
  | nil => rfl
  | append_singleton orders order ih =>
      obtain ⟨hbefore, hlast⟩ := ends_concat.1 hends
      rw [obeyAll_concat, length_penalties_obey hlast, struckSince_concat, ih hbefore]

/-! ## Orders that do not concern an endpoint -/

/-- Two limiters know the same of an endpoint, at the same time. -/
structure Alike (e : String) (r other : Record) : Prop where
  now : r.now = other.now
  base : r.backoff.base = other.backoff.base
  ceiling : r.backoff.ceiling = other.backoff.ceiling
  row : r.backoff.strikes.get? e = other.backoff.strikes.get? e

variable {other : Record} {e : String}

namespace Alike

/-- A strike depends on the row of its endpoint only, and so does the row that it leaves. -/
theorem strike (h : Alike e r other) :
    (r.backoff.strike r.now e).2 = (other.backoff.strike other.now e).2 ∧
      Alike e (r.obey (.strike e)) (other.obey (.strike e)) := by
  have hwindow : r.backoff.window = other.backoff.window := by
    funext count
    unfold window
    rw [h.base, h.ceiling]
  have hstruck : (r.backoff.strike r.now e).2 = (other.backoff.strike other.now e).2 ∧
      (r.backoff.strike r.now e).1.strikes.get? e =
        (other.backoff.strike other.now e).1.strikes.get? e := by
    unfold Backoff.strike
    rw [h.row, h.now, hwindow]
    dsimp only
    split <;> simp only [Table.get?_put, if_pos, and_self]
  have hbounds := r.backoff.bounds_strike r.now e
  have hothers := other.backoff.bounds_strike other.now e
  exact ⟨hstruck.1, h.now, (hbounds.1.trans h.base).trans hothers.1.symm,
    (hbounds.2.trans h.ceiling).trans hothers.2.symm, hstruck.2⟩

theorem reply (h : Alike e r other) (habout : order.endpoint? = some e) :
    r.reply order = other.reply order := by
  have hrest : r.backoff.retryAfter? r.now e = other.backoff.retryAfter? other.now e := by
    unfold retryAfter?
    rw [h.row, h.now]
  cases order with
  | strike endpoint =>
      obtain rfl := Option.some.inj habout
      exact congrArg Reply.window h.strike.1
  | forget endpoint => rfl
  | peek endpoint =>
      obtain rfl := Option.some.inj habout
      have hbackedOff : r.backoff.peek r.now endpoint = other.backoff.peek other.now endpoint :=
        congrArg Option.isSome hrest
      exact congrArg Reply.backedOff hbackedOff
  | retryAfter endpoint =>
      obtain rfl := Option.some.inj habout
      exact congrArg Reply.rest hrest
  | count endpoint =>
      obtain rfl := Option.some.inj habout
      have hcount : r.backoff.count endpoint = other.backoff.count endpoint := by
        unfold Backoff.count
        rw [h.row]
      exact congrArg Reply.count hcount
  | snapshot | advance => cases habout

theorem obey (h : Alike e r other) (hconcerns : order.concerns e = true) :
    Alike e (r.obey order) (other.obey order) := by
  cases order with
  | strike endpoint =>
      obtain rfl : endpoint = e := beq_iff_eq.1 hconcerns
      exact h.strike.2
  | forget endpoint =>
      obtain rfl : endpoint = e := beq_iff_eq.1 hconcerns
      refine ⟨h.now, h.base, h.ceiling, ?_⟩
      show (r.backoff.strikes.erase endpoint).get? endpoint =
        (other.backoff.strikes.erase endpoint).get? endpoint
      rw [Table.get?_erase, Table.get?_erase, if_pos rfl, if_pos rfl]
  | advance span => exact ⟨congrArg (· + span) h.now, h.base, h.ceiling, h.row⟩
  | peek | retryAfter | count | snapshot => cases hconcerns

/-- What is ordered for another endpoint leaves all as it is. -/
theorem obey_left (h : Alike e r other) (hspared : order.concerns e = false) :
    Alike e (r.obey order) other := by
  cases order with
  | strike endpoint =>
      have hne : e ≠ endpoint := fun he => by simp [Order.concerns, he] at hspared
      have hbounds := r.backoff.bounds_strike r.now endpoint
      refine ⟨h.now, hbounds.1.trans h.base, hbounds.2.trans h.ceiling, ?_⟩
      obtain ⟨row, hstruck, -⟩ := r.backoff.strike_row r.now endpoint
      show (r.backoff.strike r.now endpoint).1.strikes.get? e = other.backoff.strikes.get? e
      rw [hstruck, Table.get?_put, if_neg hne]
      exact h.row
  | forget endpoint =>
      have hne : e ≠ endpoint := fun he => by simp [Order.concerns, he] at hspared
      refine ⟨h.now, h.base, h.ceiling, ?_⟩
      show (r.backoff.strikes.erase endpoint).get? e = other.backoff.strikes.get? e
      rw [Table.get?_erase, if_neg hne]
      exact h.row
  | advance span => cases hspared
  | peek | retryAfter | count | snapshot => exact h

/-- Orders that do not concern an endpoint can be left out. -/
theorem obeyAll (h : Alike e r other) (orders : List Order) :
    Alike e (r.obeyAll orders) (other.obeyAll (orders.filter (·.concerns e))) := by
  induction orders generalizing r other with
  | nil => exact h
  | cons order more ih =>
      cases hconcerns : order.concerns e with
      | true =>
          rw [List.filter_cons_of_pos hconcerns]
          exact ih (h.obey hconcerns)
      | false =>
          rw [List.filter_cons_of_neg (Bool.eq_false_iff.1 hconcerns)]
          exact ih (h.obey_left hconcerns)

end Alike

end Record

end Backoff

open Backoff (Record Order Penalty doubled struckSince maxCount)

/-- The window of a strike doubles with each strike since the endpoint was last forgotten,
and is cut at the ceiling, exactly if there were no more than sixteen, or sixteen doublings
reach the ceiling. Otherwise it stops growing below the ceiling. -/
theorem window_doubles_iff (base longest start : Nat) (orders : List Order) (e : String)
    (hends : (Record.new base longest start).Ends (orders ++ [.strike e])) :
    let ceiling := max longest base
    let before := struckSince e orders
    ∃ window,
      ((Record.new base longest start).obeyAll orders).reply (.strike e) = .window (some window) ∧
      window = min (base * 2 ^ min before 16) ceiling ∧
      (window = min (base * 2 ^ before) ceiling ↔
        before ≤ 16 ∨ base = 0 ∨ ceiling ≤ base * 2 ^ 16) ∧
      (16 ≤ before → (window = ceiling ↔ ceiling ≤ base * 2 ^ 16)) := by
  intro ceiling before
  obtain ⟨hbefore, hlast⟩ := Record.ends_concat.1 hends
  have hfaithful := (Record.faithful_new base longest start).obeyAll hbefore
  have hcount := Record.length_penalties hbefore e
  generalize (Record.new base longest start).obeyAll orders = r at hlast hfaithful hcount ⊢
  cases hstruck : (r.backoff.strike r.now e).2 with
  | none => exact absurd (congrArg Backoff.Reply.window hstruck) hlast
  | some window =>
      have hwindow : window = doubled base ceiling (struckSince e orders) := by
        rw [← hcount]
        exact (hfaithful.strike_eq hstruck).1
      refine ⟨window, congrArg Backoff.Reply.window hstruck, hwindow, ?_, fun hmany => ?_⟩
      · rw [hwindow]
        exact Backoff.doubled_eq_iff
      · rw [hwindow]
        unfold doubled
        rw [Nat.min_eq_right hmany]
        omega

/-- A minute doubles five times and is cut at half an hour. -/
theorem window_doubles_to_half_an_hour :
    let r := Record.new (60 * Span.second) (1800 * Span.second) 0
    let orders : List Order := List.replicate 5 (.strike "x:1")
    r.Ends (orders ++ [.strike "x:1"]) ∧
      (r.obeyAll orders).reply (.strike "x:1") = .window (some (1800 * Span.second)) := by
  intro r orders
  have hends : r.Ends (orders ++ [.strike "x:1"]) := by decide
  obtain ⟨window, hreply, hwindow, -⟩ := window_doubles_iff _ _ 0 orders "x:1" hends
  refine ⟨hends, hreply.trans ?_⟩
  rw [hwindow]
  decide

/-- A ceiling of a second is not reached from a nanosecond. -/
theorem doubling_stops_below_ceiling :
    ¬ ∀ (base longest start : Nat) (orders : List Order) (e : String),
      (Record.new base longest start).Ends (orders ++ [.strike e]) →
        ((Record.new base longest start).obeyAll orders).reply (.strike e) =
          .window (some (min (base * 2 ^ struckSince e orders) (max longest base))) := by
  intro hclaim
  have hwindow := hclaim 1 Span.second 0 (List.replicate 17 (.strike "x:1")) "x:1" (by decide)
  exact absurd hwindow (by decide)

/-- What a new limiter is asked, it answers from the strikes since the endpoint was last
forgotten, as long as the clock can represent their deadlines. Windows do not shrink,
deadlines do not move back, and all rows are shown in order. Orders that only look can be
left out, and so can those for other endpoints. -/
theorem penalties_kept (base longest start : Nat) (orders : List Order)
    (hends : (Record.new base longest start).Ends orders) :
    let r := (Record.new base longest start).obeyAll orders
    (∀ e, (r.penalties e).length = struckSince e orders ∧
        Backoff.Mounting base (max longest base) (r.penalties e) ∧ r.Truthful e) ∧
      (∃ rows, r.reply .snapshot = .rows rows ∧ r.Shows rows) ∧
      (Record.new base longest start).obeyAll (orders.filter (!·.reads)) = r ∧
      ∀ e order, order.endpoint? = some e →
        ((Record.new base longest start).obeyAll (orders.filter (·.concerns e))).reply order =
          r.reply order := by
  intro r
  have hfaithful := (Record.faithful_new base longest start).obeyAll hends
  refine ⟨fun e => ⟨?_, ?_, ?_⟩, ⟨_, rfl, hfaithful.shows⟩, ?_, fun e order habout => ?_⟩
  · exact Record.length_penalties hends e
  · exact (hfaithful.kept e).mounting (Nat.le_max_right _ _)
  · exact hfaithful.truthful e
  · exact Record.obeyAll_filter_reads _ orders
  · have hsame : Record.Alike e (Record.new base longest start) (Record.new base longest start) :=
      ⟨rfl, rfl, rfl, rfl⟩
    exact ((hsame.obeyAll orders).reply habout).symm

/-- Two strikes, ten seconds apart, leave fifteen seconds to wait after five more. -/
theorem penalties_kept_of_two :
    let orders : List Order := [.strike "x:1", .advance (10 * Span.second), .strike "y:1",
      .strike "x:1", .peek "x:1", .advance (5 * Span.second), .forget "y:1"]
    let r := (Record.new (10 * Span.second) (60 * Span.second) 0).obeyAll orders
    (Record.new (10 * Span.second) (60 * Span.second) 0).Ends orders ∧
      r.reply (.retryAfter "x:1") = .rest (some (15 * Span.second)) ∧
      r.reply (.count "x:1") = .count 2 ∧
      (r.penalties "y:1").length = 0 := by
  intro orders r
  have hends : (Record.new (10 * Span.second) (60 * Span.second) 0).Ends orders := by decide +kernel
  obtain ⟨hkept, -⟩ := penalties_kept _ _ 0 orders hends
  obtain ⟨-, -, htruthful⟩ := hkept "x:1"
  exact ⟨hends, htruthful.rest.trans (by decide +kernel),
    htruthful.count.trans (by decide +kernel), (hkept "y:1").1.trans (by decide +kernel)⟩

end SocksPool
