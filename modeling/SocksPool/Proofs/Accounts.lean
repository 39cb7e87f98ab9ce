import Mathlib.Data.List.Induction
import SocksPool.Proofs.Handles

/-!
# Accounts of lives

The entry of a life is the sum of what was done to it since it was opened, whichever handles it
was done through. An *account* says what that sum is from the list of uses alone: the protocol
is the first known one that was set or recorded, the exit and the time are those of the last
validation, and the two counters count. The entry agrees with the account at every moment, and
so does every copy that is taken of it, which stays as it is from then on.

## Main definitions

* `account` — what the uses since a life was opened come to.
* `Opened` — the addition that opened a life, and the uses since.
* `Chronicled` — what a handle shows, and what a use through it leaves alone.

## Main results

* `snapshot_of_opened` — the entry of a life agrees with its account.
* `lives_chronicled` — handles, entries and copies in every order of uses.
-/

namespace SocksPool

/-! ## Accounts -/

namespace Use

/-- The protocol that the use sets or records for a life. -/
def protocol? (u : Use) (life : Nat) : Option Protocol :=
  match u with
  | .setProtocol target protocol => if life = target then some protocol else none
  | .record target _ protocol _ => if life = target then some protocol else none
  | _ => none

/-- The validation that the use records for a life. -/
def validation? (u : Use) (life : Nat) : Option (Nat × Address) :=
  match u with
  | .record target now _ exit => if life = target then some (now, exit) else none
  | _ => none

/-- The life that the use writes to. -/
def target? : Use → Option Nat
  | .setProtocol target _ => some target
  | .markBad target => some target
  | .record target _ _ _ => some target
  | _ => none

end Use

/-- The first known protocol. -/
def settle (given : List Protocol) : Protocol := (given.find? (· != .unknown)).getD .unknown

/-- What the uses since a life was opened come to. -/
def account (endpoint : String) (life : Nat) (uses : List Use) : Proxy :=
  let validations := uses.filterMap (·.validation? life)
  { endpoint
    protocol := settle (uses.filterMap (·.protocol? life))
    exit := validations.getLast?.map (·.2)
    lastValidated := validations.getLast?.map (·.1)
    timesValidated := validations.length
    timesBad := uses.count (.markBad life) }

/-- A further protocol counts if none was known. -/
theorem settle_concat (given : List Protocol) (protocol : Protocol) :
    settle (given ++ [protocol]) =
      if protocol != .unknown && settle given == .unknown then protocol else settle given := by
  unfold settle
  rw [List.find?_append]
  cases hfirst : given.find? (· != .unknown) with
  | none => cases protocol <;> rfl
  | some first =>
      have hknown : (first != .unknown) = true := by simpa using List.find?_some hfirst
      have hnot : (first == .unknown) = false := by simpa using hknown
      simp [hnot]

/-- A known protocol stays. -/
theorem settle_append {given : List Protocol} (h : settle given ≠ .unknown)
    (more : List Protocol) : settle (given ++ more) = settle given := by
  unfold settle at h ⊢
  rw [List.find?_append]
  cases hfirst : given.find? (· != .unknown) with
  | none =>
      rw [hfirst] at h
      exact absurd rfl h
  | some first => rfl

theorem protocol_setProtocol (entry : Entry) (protocol : Protocol) :
    (entry.setProtocol protocol).protocol =
      if protocol != .unknown && entry.protocol == .unknown then protocol else entry.protocol := by
  unfold Entry.setProtocol Entry.acceptsProtocol
  split <;> rfl

theorem snapshot_setProtocol (entry : Entry) (protocol : Protocol) :
    (entry.setProtocol protocol).snapshot =
      { entry.snapshot with protocol := (entry.setProtocol protocol).protocol } := by
  unfold Entry.setProtocol
  split <;> rfl

variable {e f : String} {life other : Nat} {uses since : List Use} {u : Use}

/-- What a use writes into an entry, it adds to the account. -/
theorem snapshot_change {entry : Entry} (h : entry.snapshot = account e life since) (u : Use) :
    (u.change life entry).snapshot = account e life (since ++ [u]) := by
  have hprotocol : entry.protocol = settle (since.filterMap (·.protocol? life)) :=
    congrArg Proxy.protocol h
  have hset (protocol : Protocol) : (entry.setProtocol protocol).protocol =
      settle (since.filterMap (·.protocol? life) ++ [protocol]) := by
    rw [protocol_setProtocol, settle_concat, hprotocol]
  unfold account
  simp only [List.filterMap_append, List.count_append]
  cases u with
  | setProtocol target protocol =>
      by_cases hlife : life = target
      · subst hlife
        show (if life = life then entry.setProtocol protocol else entry).snapshot = _
        rw [if_pos rfl, snapshot_setProtocol, hset, h]
        simp [account, Use.protocol?, Use.validation?]
      · simpa [Use.change, Use.protocol?, Use.validation?, hlife, account] using h
  | markBad target =>
      by_cases hlife : life = target
      · subst hlife
        show (if life = life then entry.markBad else entry).snapshot = _
        have hbad : entry.timesBad = since.count (.markBad life) := congrArg Proxy.timesBad h
        rw [if_pos rfl, show entry.markBad.snapshot =
          { entry.snapshot with timesBad := entry.timesBad + 1 } from rfl, h, hbad]
        simp [account, Use.protocol?, Use.validation?]
      · simpa [Use.change, Use.protocol?, Use.validation?, hlife, Ne.symm hlife, account] using h
  | record target now protocol exit =>
      by_cases hlife : life = target
      · subst hlife
        show (if life = life then entry.recordValidation now protocol exit else entry).snapshot = _
        have hcount : entry.timesValidated = (since.filterMap (·.validation? life)).length :=
          congrArg Proxy.timesValidated h
        rw [if_pos rfl, show (entry.recordValidation now protocol exit).snapshot =
          { (entry.setProtocol protocol).snapshot with
            exit := some exit, lastValidated := some now,
            timesValidated := entry.timesValidated + 1 } from rfl,
          snapshot_setProtocol, hset, h, hcount]
        simp [account, Use.protocol?, Use.validation?]
      · simpa [Use.change, Use.protocol?, Use.validation?, hlife, account] using h
  | _ => simpa [Use.change, Use.protocol?, Use.validation?, account] using h

/-! ## Lives since they were opened -/

/-- The life was opened by the addition of a name that led nowhere, and the uses followed. -/
def Opened (uses : List Use) (endpoint : String) (life : Nat) (since : List Use) : Prop :=
  ∃ before, uses = before ++ .add endpoint :: since ∧
    (Desk.after before).registry.find? endpoint = none ∧
    life = (Desk.after before).registry.lives.length

theorem Opened.append (h : Opened uses e life since) (more : List Use) :
    Opened (uses ++ more) e life (since ++ more) := by
  obtain ⟨before, rfl, hnone, hlife⟩ := h
  exact ⟨before, by simp, hnone, hlife⟩

/-- Every life was opened. -/
theorem exists_opened (h : (Desk.after uses).registry.IsLife life e) :
    ∃ since, Opened uses e life since := by
  induction uses using List.reverseRecOn with
  | nil =>
      obtain ⟨entry, hentry, -⟩ := h
      cases hentry
  | append_singleton uses u ih =>
      rw [Desk.after_concat, Desk.isLife_apply_iff] at h
      rcases h with hold | ⟨rfl, hnone, hlife⟩
      · obtain ⟨since, hopened⟩ := ih hold
        exact ⟨since ++ [u], hopened.append [u]⟩
      · exact ⟨[], uses, rfl, hnone, hlife⟩

/-- The entry of a life agrees with its account. -/
theorem snapshot_of_opened (h : Opened uses e life since) :
    ∃ entry, Registry.entry? (Desk.after uses).registry life = some entry ∧
      entry.snapshot = account e life since := by
  obtain ⟨before, rfl, hnone, hlife⟩ := h
  induction since using List.reverseRecOn with
  | nil =>
      refine ⟨{ endpoint := e }, ?_, rfl⟩
      rw [Desk.after_concat]
      show Registry.entry? ((Desk.after before).registry.add e).1 life = _
      rw [Registry.entry?_add hnone, if_pos hlife]
  | append_singleton since u ih =>
      obtain ⟨entry, hentry, hcopy⟩ := ih
      rw [← List.cons_append, ← List.append_assoc, Desk.after_concat]
      obtain ⟨changed, hchanged, hsame⟩ := Desk.entry?_apply _ u hentry
      exact ⟨changed, hchanged, hsame.trans (snapshot_change hcopy u)⟩

/-! ## Copies -/

/-- What was copied stays as it is. -/
theorem copies_prefix_foldl (d : Desk) (uses : List Use) :
    d.copies <+: (uses.foldl Desk.apply d).copies := by
  refine Desk.foldl_of_apply (P := fun other => d.copies <+: other.copies) (fun other u h => ?_)
    (List.prefix_refl _) uses
  cases u with
  | record target now protocol exit => exact h.trans (List.prefix_append _ _)
  | snapshot guard => exact h.trans (List.prefix_append _ _)
  | _ => exact h

/-! ## Handles, entries and copies -/

/-- What a handle to a life of an endpoint shows after some uses, of which the last ones followed
its opening, and what a use through it leaves alone. -/
structure Chronicled (uses since : List Use) (endpoint : String) (life : Nat) : Prop where
  /-- The uses are those since the life was opened. -/
  opened : Opened uses endpoint life since
  /-- The entry agrees with the account, whichever handles the uses went through. -/
  shown : ∃ entry, Registry.entry? (Desk.after uses).registry life = some entry ∧
    entry.snapshot = account endpoint life since
  /-- A protocol that is known never changes again. -/
  settled : ∀ more, (account endpoint life since).protocol ≠ .unknown →
    (account endpoint life (since ++ more)).protocol = (account endpoint life since).protocol
  /-- The copy that a validation makes agrees with the account at that moment. -/
  recorded : ∀ now protocol exit,
    (Desk.after (uses ++ [.record life now protocol exit])).copies =
      (Desk.after uses).copies ++
        [account endpoint life (since ++ [.record life now protocol exit])]
  /-- So does the copy that is taken under a guard. -/
  copied : ∀ guard, (Desk.after uses).guards.get? guard = some life →
    (Desk.after (uses ++ [.snapshot guard])).copies =
      (Desk.after uses).copies ++ [account endpoint life since]
  /-- No copy ever changes. -/
  kept : ∀ more, (Desk.after uses).copies <+: (Desk.after (uses ++ more)).copies
  /-- A use of the life changes no other life and no name. -/
  apart : ∀ u : Use, u.target? = some life →
    (∀ other, other ≠ life →
      Registry.entry? (Desk.after (uses ++ [u])).registry other =
        Registry.entry? (Desk.after uses).registry other) ∧
    (Desk.after (uses ++ [u])).registry.names = (Desk.after uses).registry.names

theorem Opened.chronicled (h : Opened uses e life since) : Chronicled uses since e life where
  opened := h
  shown := snapshot_of_opened h
  settled more hknown := by
    unfold account at hknown ⊢
    dsimp only at hknown ⊢
    rw [List.filterMap_append]
    exact settle_append hknown _
  recorded now protocol exit := by
    obtain ⟨entry, hentry, hcopy⟩ := snapshot_of_opened (h.append [.record life now protocol exit])
    rw [Desk.after_concat] at hentry ⊢
    show (Desk.after uses).copies ++ (Registry.entry? ((Desk.after uses).apply
      (.record life now protocol exit)).registry life).toList.map Entry.snapshot = _
    rw [hentry, ← hcopy]
    rfl
  copied guard hguard := by
    obtain ⟨entry, hentry, hcopy⟩ := snapshot_of_opened h
    rw [Desk.after_concat]
    show (Desk.after uses).copies ++ (((Desk.after uses).guards.get? guard).bind
      (Registry.entry? (Desk.after uses).registry)).toList.map Entry.snapshot = _
    rw [hguard, Option.bind_some, hentry, ← hcopy]
    rfl
  kept more := by
    rw [Desk.after_append]
    exact copies_prefix_foldl _ more
  apart u hu := by
    rw [Desk.after_concat]
    cases u with
    | setProtocol target protocol =>
        obtain rfl := Option.some.inj hu
        exact ⟨fun other => Registry.entry?_update_of_ne, rfl⟩
    | markBad target =>
        obtain rfl := Option.some.inj hu
        exact ⟨fun other => Registry.entry?_update_of_ne, rfl⟩
    | record target now protocol exit =>
        obtain rfl := Option.some.inj hu
        exact ⟨fun other => Registry.entry?_update_of_ne, rfl⟩
    | _ => cases hu

/-- The life of a handle. Another handle is the same exactly if it was obtained for the same
endpoint before the name was taken away. Whatever is done later, the handle shows what was done
to its life since it was opened, through any handles; a use through it changes no other life, no
name and no copy taken before; and a copy agrees with the entry at the moment when it is made. -/
theorem lives_chronicled {before : List Use} (h : Obtains before u e life) :
    (∀ between v f other, Obtains (before ++ u :: between) v f other →
      (life = other ↔ e = f ∧ ∀ w ∈ between, ¬ w.TakesAway e)) ∧
    ∀ later, ∃ since, Chronicled (before ++ u :: later) since e life := by
  refine ⟨fun between v f other hlater => same_handle_iff h hlater, fun later => ?_⟩
  obtain ⟨since, hopened⟩ := exists_opened h.isLife
  refine ⟨since ++ later, ?_⟩
  rw [List.append_cons]
  exact (hopened.append later).chronicled

/-- A name that is deleted and added again leads to another life, and the old handle goes on
showing its own. -/
theorem lives_chronicled_again :
    Obtains [] (.add "a:1") "a:1" 0 ∧
    Obtains [.add "a:1", .markBad 0, .delete "a:1"] (.add "a:1") "a:1" 1 ∧ 0 ≠ 1 ∧
    ∃ since, Chronicled
      [.add "a:1", .markBad 0, .delete "a:1", .add "a:1", .setProtocol 0 .socks4, .markBad 1]
      since "a:1" 0 := by
  have hfirst : Obtains [] (.add "a:1") "a:1" 0 := by decide
  have hagain : Obtains [.add "a:1", .markBad 0, .delete "a:1"] (.add "a:1") "a:1" 1 := by decide
  obtain ⟨hsame, hshown⟩ := lives_chronicled hfirst
  refine ⟨hfirst, hagain, fun hequal => ?_, hshown _⟩
  have hkept := ((hsame [.markBad 0, .delete "a:1"] _ _ _ hagain).1 hequal).2
  exact hkept (.delete "a:1") (by decide) (by decide)

end SocksPool
