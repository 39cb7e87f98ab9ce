import SocksPool.Proofs.Orderly

/-!
# Strikes of endpoints that are registered

The backoff limiter keeps its strikes by name. An eviction forgets those of its
endpoint, so an endpoint that is loaded anew begins without a strike. A round
outlives the eviction of its endpoint, though, and if its last attempt fails
then, it strikes a name that is registered no more. Nothing forgets that strike
before the endpoint is loaded again, and then it is held against the new life.

This is the only way for a strike to be left behind. As long as no round fails
whose endpoint was evicted meanwhile, all strikes are those of registered
endpoints.

## Main results

* `Listed.turn` — a turn keeps strikes to registered endpoints, unless a round
  fails whose endpoint is not registered.
* `strikes_listed_iff` — the runs in which no strike is left behind.
-/

namespace SocksPool

namespace Table

variable {α : Type}

/-- The rows that are printed are those that are found. -/
theorem exists_mem_sorted_iff (t : Table α) (key : String) :
    (∃ row ∈ t.sorted, row.1 = key) ↔ t.contains key = true := by
  unfold sorted contains get?
  rw [Option.isSome_map, List.find?_isSome]
  simp only [List.mem_mergeSort, beq_iff_eq]

theorem contains_put (t : Table α) (key other : String) (value : α) :
    (t.put key value).contains other = (other == key || t.contains other) := by
  unfold contains
  rw [get?_put]
  by_cases h : other = key <;> simp [h]

theorem contains_erase (t : Table α) (key other : String) :
    (t.erase key).contains other = (other != key && t.contains other) := by
  unfold contains
  rw [get?_erase]
  by_cases h : other = key <;> simp [h]

end Table

namespace Backoff

/-- A strike is counted, also if the clock cannot represent its end. -/
theorem contains_strike (b : Backoff) (now : Nat) (endpoint e : String) :
    (b.strike now endpoint).1.strikes.contains e = (e == endpoint || b.strikes.contains e) := by
  unfold strike
  dsimp only
  split <;> exact Table.contains_put _ _ _ _

/-- An endpoint without a row has no strike and no backoff. -/
theorem clear_of_not_contains {b : Backoff} {endpoint : String}
    (h : b.strikes.contains endpoint = false) (now : Nat) :
    b.count endpoint = 0 ∧ b.retryAfter? now endpoint = none := by
  have hnone : b.strikes.get? endpoint = none := by simpa [Table.contains] using h
  unfold count retryAfter?
  rw [hnone]
  exact ⟨rfl, rfl⟩

end Backoff

namespace Pool

/-- Only registered endpoints have strikes. -/
def Listed (p : Pool) : Prop :=
  ∀ e, p.backoff.strikes.contains e = true → p.registry.contains e = true

variable {p q : Pool} {d : Deed} {endpoint : String}

/-- The rows that a user is shown tell whether a pool is listed. -/
theorem listed_iff_snapshot :
    p.Listed ↔ ∀ row ∈ p.backoff.snapshot, p.registry.contains row.1 = true := by
  constructor
  · intro h row hmem
    exact h row.1 ((Table.exists_mem_sorted_iff _ _).1 ⟨row, hmem, rfl⟩)
  · intro h e hstruck
    obtain ⟨row, hmem, rfl⟩ := (Table.exists_mem_sorted_iff _ _).2 hstruck
    exact h row hmem

theorem listed_aside (haside : Aside p q) : q.Listed ↔ p.Listed := by
  unfold Listed
  rw [haside.backoff, haside.registry]

namespace Listed

theorem punish (h : p.Listed) (life : Nat) (hin : p.registry.contains endpoint = true) :
    (p.punish life endpoint).Listed := by
  intro e hstruck
  have hrow : (p.backoff.strike p.now endpoint).1.strikes.contains e = true := hstruck
  rw [Backoff.contains_strike, Bool.or_eq_true, beq_iff_eq] at hrow
  rcases hrow with rfl | hold
  · exact hin
  · exact h e hold

theorem evict (h : p.Listed) (endpoint : String) : (p.evict endpoint).Listed := by
  unfold Pool.evict
  cases hdelete : p.registry.delete endpoint with
  | error err => exact h
  | ok deleted =>
      intro e hstruck
      have hrow : (p.backoff.strikes.erase endpoint).contains e = true := hstruck
      rw [Table.contains_erase, Bool.and_eq_true, bne_iff_ne] at hrow
      show deleted.contains e = true
      unfold Registry.contains
      rw [Registry.find?_delete hdelete, if_neg hrow.1]
      exact h e hrow.2

theorem recycle (h : p.Listed) (wanted : Bool) (endpoint : String) :
    (p.recycle wanted endpoint).Listed := by
  cases wanted with
  | true => exact h
  | false => exact h

theorem loadAll (h : p.Listed) (raws : List String) : (p.loadAll raws).1.Listed := by
  intro e hstruck
  obtain ⟨registry, intake, hloaded⟩ := p.loadAll_eq raws
  rw [hloaded] at hstruck
  exact contains_loadAll (h e hstruck) raws

/-- A turn strikes registered endpoints only, unless a round fails whose
endpoint is not registered. -/
theorem turn (h : p.Listed) (hturn : p.Turn d q)
    (hknown : ∀ r, p.Fails d r → p.registry.contains r.endpoint = true) : q.Listed := by
  cases hturn with
  | loaded raws => exact h.loadAll raws
  | reported hfind => exact h.punish _ (Option.isSome_of_eq_some hfind)
  | reportedOut hfind hmarks => exact (h.punish _ (Option.isSome_of_eq_some hfind)).evict _
  | @struckOff _ _ protocol candidate rest hqueue hfind hmarks =>
      have hdequeued : Listed { p with outputs := p.outputs.set protocol rest } := h
      exact hdequeued.evict candidate.endpoint
  | @sentBack _ protocol candidate rest hqueue =>
      have hdequeued : Listed { p with outputs := p.outputs.set protocol rest } := h
      exact hdequeued.recycle p.config.recycle candidate.endpoint
  | checked htask hwaits hqueue hfind hlock =>
      obtain ⟨-, rfl⟩ := Registry.tryLock?_eq_some hlock
      exact h
  | @cleared id life timeout since c candidate wanted htask hstage =>
      have hended : (p.remove id).Listed := h
      exact hended.recycle wanted candidate.endpoint
  | @refused id life timeout since c candidate wanted htask hstage =>
      have hmarked : ((p.remove id).markBad life).1.Listed := h
      exact hmarked.recycle wanted candidate.endpoint
  | @failedHalfway id since r protocol err htask hlast hwindow =>
      have hended : (p.remove id).Listed := h
      exact hended.punish r.life (hknown r ⟨id, protocol, since, err, rfl, htask, hlast⟩)
  | @failedOut id since r protocol err htask hlast hwindow hmarks =>
      have hended : (p.remove id).Listed := h
      have hin := hknown r ⟨id, protocol, since, err, rfl, htask, hlast⟩
      exact (hended.punish r.life hin).evict r.endpoint
  | @failedKept id since window r protocol err htask hlast hwindow hmarks =>
      have hended : (p.remove id).Listed := h
      exact hended.punish r.life (hknown r ⟨id, protocol, since, err, rfl, htask, hlast⟩)
  | _ => exact h

end Listed

/-- An endpoint that is not registered cannot be evicted. -/
theorem evict_of_not_contains (h : p.registry.contains endpoint = false) :
    p.evict endpoint = p := by
  unfold evict Registry.delete
  rw [if_neg (Bool.eq_false_iff.1 h)]

/-- A round that fails strikes its endpoint, registered or not. -/
theorem not_listed_of_fails {r : Round} (h : Orderly p) (hfails : p.Fails d r)
    (hact : p.act? d = some q) (hout : p.registry.contains r.endpoint = false) :
    ¬ q.Listed := by
  obtain ⟨id, -, hends⟩ := hfails.cases h.numbered hact
  have hstruck : ((p.remove id).miss r).backoff.strikes.contains r.endpoint = true := by
    have hrow := p.backoff.contains_strike p.now r.endpoint r.endpoint
    simp at hrow
    exact hrow
  have hgone : ((p.remove id).miss r).registry.contains r.endpoint = false := hout
  have hmissed : ¬ ((p.remove id).miss r).Listed := fun hlisted => by
    rw [hlisted r.endpoint hstruck] at hgone
    cases hgone
  -- None of the three ends takes the strike back, and the eviction finds no name.
  intro hlisted
  rcases hends with ⟨-, hquiet⟩ | ⟨-, -, hquiet⟩ | ⟨window, -, -, hquiet⟩
  · exact hmissed ((listed_aside hquiet.toAside).1 hlisted)
  · rw [evict_of_not_contains hgone] at hquiet
    exact hmissed ((listed_aside hquiet.toAside).1 hlisted)
  · exact hmissed ((listed_aside hquiet.toAside).1 hlisted)

end Pool

/-- A load that answers that its endpoint is new registers a name that was not
in use, and changes no strike. -/
theorem Pool.load_eq_new {p : Pool} {raw : String} (h : (p.load raw).2 = .ok true) :
    ∃ endpoint, Endpoint.normalize? raw = some endpoint ∧
      p.registry.contains endpoint = false ∧
      (p.load raw).1.registry.contains endpoint = true ∧ (p.load raw).1.backoff = p.backoff := by
  cases hname : Endpoint.normalize? raw with
  | none =>
      rw [load_of_none hname] at h
      cases h
  | some endpoint =>
      cases hfind : p.registry.find? endpoint with
      | some life =>
          rw [load_of_registered hname hfind] at h
          cases h
      | none =>
          have hout : p.registry.contains endpoint = false := by
            simp [Registry.contains, hfind]
          have hin : (p.registry.add endpoint).1.contains endpoint = true := by
            rw [contains_add hfind, if_pos rfl]
          rw [load_of_new hname hfind]
          exact ⟨endpoint, rfl, hout, hin, rfl⟩

namespace Step

/-- A load answers that its endpoint is new, and the endpoint begins without a
strike and without a backoff. -/
def StartsClear (s : Step) (raw : String) : Prop :=
  ∃ endpoint, Endpoint.normalize? raw = some endpoint ∧
    s.after.registry.contains endpoint = true ∧ s.after.backoff.count endpoint = 0 ∧
    s.after.backoff.retryAfter? s.after.now endpoint = none

theorem startsClear_of_listed {s : Step} {raw : String} (h : s.before.Listed)
    (hdeed : s.deed = .load raw) (hnew : (s.before.load raw).2 = .ok true) :
    s.StartsClear raw := by
  obtain ⟨endpoint, hname, hout, hin, hkept⟩ := Pool.load_eq_new hnew
  have hafter : (s.before.load raw).1 = s.after := by
    have hdone := s.done
    rw [hdeed] at hdone
    exact Option.some.inj hdone
  have hclear : s.before.backoff.strikes.contains endpoint = false := by
    cases hstruck : s.before.backoff.strikes.contains endpoint with
    | false => rfl
    | true =>
        rw [h endpoint hstruck] at hout
        cases hout
  rw [hafter] at hin hkept
  have hbegins := Backoff.clear_of_not_contains hclear s.after.now
  rw [← hkept] at hbegins
  exact ⟨endpoint, hname, hin, hbegins⟩

end Step

/-- In a run of a pool every strike that is shown is that of a registered
endpoint, and every endpoint that a load finds new begins without a strike and
without a backoff, exactly if no round of the run fails whose endpoint is not
registered. -/
theorem strikes_listed_iff {config : Config} {slots : Slots} {p q : Pool} {steps : List Step}
    (hmade : Pool.withSlots config slots = .ok p) (hrun : Run p steps q) :
    ((∀ s ∈ steps, ∀ row ∈ s.after.backoff.snapshot,
          s.after.registry.contains row.1 = true) ∧
        ∀ s ∈ steps, ∀ raw, s.deed = .load raw → (s.before.load raw).2 = .ok true →
          s.StartsClear raw) ↔
      ∀ s ∈ steps, ∀ r, s.before.Fails s.deed r →
        s.before.registry.contains r.endpoint = true := by
  have horderly := (orderly_of_withSlots hmade).throughout hrun
  constructor
  · rintro ⟨hlisted, -⟩ s hs r hfails
    cases hin : s.before.registry.contains r.endpoint with
    | true => rfl
    | false =>
        have hnot := Pool.not_listed_of_fails (horderly.2 s hs).1 hfails s.done hin
        exact absurd (Pool.listed_iff_snapshot.2 (hlisted s hs)) hnot
  · intro hknown
    have hstart : p.Listed := by
      unfold Pool.Listed
      rw [(blank_of_withSlots hmade).strikes]
      nofun
    have hall := hrun.throughout (P := Pool.Listed) hstart fun s hs hbefore => by
      obtain ⟨mid, hturn, haside⟩ := Pool.turns_of_act? (horderly.2 s hs).1.numbered s.done
      exact (Pool.listed_aside haside).2 (hbefore.turn hturn (hknown s hs))
    exact ⟨fun s hs => Pool.listed_iff_snapshot.1 (hall.2 s hs).2,
      fun s hs raw hdeed hnew => s.startsClear_of_listed (hall.2 s hs).1 hdeed hnew⟩

/-- A round begins, its endpoint is evicted, and then the round fails. The
strike is shown though the registry is empty, and it is held against the
endpoint when it is loaded again. -/
theorem struck_while_unregistered :
    ∃ p steps s, Pool.new { Config.default with removeAfter := 1 } = .ok p ∧
      Run p (steps ++ [s]) s.after ∧
      (steps ++ [s]).map Step.deed =
        [.load "a:1", .start, .move 0 .lockIntake, .move 0 .receive, .move 0 .forward,
          .move 1 .look, .move 3 .pick, .reportFailure "a:1",
          .move 3 (.attempted (.error (.dialTimeout "a:1"))),
          .move 3 (.attempted (.error (.dialTimeout "a:1"))),
          .move 3 (.attempted (.error (.dialTimeout "a:1"))), .load "a:1"] ∧
      s.before.registry.contains "a:1" = false ∧
      (∃ row ∈ s.before.backoff.snapshot, row.1 = "a:1") ∧
      (s.before.load "a:1").2 = .ok true ∧ s.after.backoff.count "a:1" = 1 ∧
      s.after.backoff.retryAfter? s.after.now "a:1" = some 60000000000 := by
  obtain ⟨p, hmade, hview⟩ : ∃ p, Pool.new { Config.default with removeAfter := 1 } = .ok p ∧
      ((p.perform?
        [.load "a:1", .start, .move 0 .lockIntake, .move 0 .receive, .move 0 .forward,
          .move 1 .look, .move 3 .pick, .reportFailure "a:1",
          .move 3 (.attempted (.error (.dialTimeout "a:1"))),
          .move 3 (.attempted (.error (.dialTimeout "a:1"))),
          .move 3 (.attempted (.error (.dialTimeout "a:1")))]).bind fun q =>
        (q.act? (.load "a:1")).map fun r =>
          (q.registry.contains "a:1", q.backoff.strikes.contains "a:1", (q.load "a:1").2,
            r.backoff.count "a:1", r.backoff.retryAfter? r.now "a:1")) =
        some (false, true, .ok true, 1, some 60000000000) :=
    ⟨_, rfl, rfl⟩
  obtain ⟨steps, s, hrun, hdeeds, hseen⟩ := Run.of_last_view
    (fun q r => (q.registry.contains "a:1", q.backoff.strikes.contains "a:1", (q.load "a:1").2,
      r.backoff.count "a:1", r.backoff.retryAfter? r.now "a:1")) hview
  simp only [Prod.mk.injEq] at hseen
  obtain ⟨hout, hstruck, hnew, hcount, hwindow⟩ := hseen
  have hshown := (Table.exists_mem_sorted_iff _ _).2 hstruck
  exact ⟨p, steps, s, hmade, hrun, hdeeds, hout, hshown, hnew, hcount, hwindow⟩

/-- A report strikes its endpoint and, where one mark is enough, evicts it. The
strike is gone when the endpoint is loaded again. -/
theorem cleared_by_eviction :
    ∃ p steps s, Pool.new { Config.default with removeAfter := 1 } = .ok p ∧
      Run p (steps ++ [s]) s.after ∧
      (steps ++ [s]).map Step.deed = [.load "a:1", .reportFailure "a:1", .load "a:1"] ∧
      s.StartsClear "a:1" ∧
      ∀ row ∈ s.after.backoff.snapshot, s.after.registry.contains row.1 = true := by
  obtain ⟨p, hmade, hview⟩ : ∃ p, Pool.new { Config.default with removeAfter := 1 } = .ok p ∧
      ((p.perform? [.load "a:1", .reportFailure "a:1"]).bind fun q =>
        (q.act? (.load "a:1")).map fun _ => (q.load "a:1").2) = some (.ok true) :=
    ⟨_, rfl, rfl⟩
  obtain ⟨steps, s, hrun, hdeeds, hnew⟩ :=
    Run.of_last_view (fun q _ => (q.load "a:1").2) hview
  have hlast : s.deed = .load "a:1" := by
    have hsplit : steps.map Step.deed ++ [s.deed] =
        [.load "a:1", .reportFailure "a:1"] ++ [.load "a:1"] := by
      rw [← hdeeds, List.map_append, List.map_singleton]
    exact List.singleton_inj.1 (List.append_inj_right' hsplit rfl)
  have hknown : ∀ t ∈ steps ++ [s], ∀ r, t.before.Fails t.deed r →
      t.before.registry.contains r.endpoint = true := by
    rintro t ht r ⟨id, protocol, since, err, hdeed, -, -⟩
    have hmem : t.deed ∈ (steps ++ [s]).map Step.deed := List.mem_map_of_mem ht
    rw [hdeeds, hdeed] at hmem
    simp at hmem
  have hlisted := (strikes_listed_iff hmade hrun).2 hknown
  have hin : s ∈ steps ++ [s] := List.mem_append_right _ (List.mem_singleton.2 rfl)
  exact ⟨p, steps, s, hmade, hrun, hdeeds, hlisted.2 s hin "a:1" hlast hnew, hlisted.1 s hin⟩

end SocksPool
