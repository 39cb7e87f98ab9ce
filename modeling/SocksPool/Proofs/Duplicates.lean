import SocksPool.Proofs.Conservation

/-!
# Tokens beside each other

The registry admits a name once, so an endpoint that is loaded again while it
is registered does not circulate twice. An eviction frees the name, but it
recalls no token: one that sleeps in a requeue task, waits on a queue or is
under validation goes on. A load that finds the name free then admits a second
token beside it, and two rounds of one endpoint can run side by side.

This is the only way in which it happens. As long as no endpoint is registered
anew while a token of it is left, there is at most one token of each endpoint,
and so at most one round.

## Main results

* `one_token_iff_not_revived` — tokens of an endpoint are alone exactly in the
  runs that revive none.
-/

namespace SocksPool

/-- How many rounds of an endpoint are under way. -/
def Pool.roundsOf (p : Pool) (endpoint : String) : Nat :=
  p.tasks.countP fun entry =>
    match entry.2 with
    | .round r => r.endpoint == endpoint
    | _ => false

/-- A round is a token. -/
theorem Pool.roundsOf_le (p : Pool) (endpoint : String) :
    p.roundsOf endpoint ≤ p.tokens.count endpoint := by
  have hheld : p.roundsOf endpoint ≤ (Task.held p.tasks).count endpoint := by
    unfold roundsOf Task.held
    induction p.tasks with
    | nil => exact Nat.le_refl 0
    | cons entry rest ih =>
        obtain ⟨number, task⟩ := entry
        rw [List.countP_cons, List.filterMap_cons]
        cases task with
        | round r =>
            dsimp only [Task.token?]
            rw [List.count_cons]
            exact Nat.add_le_add_right ih _
        | _ =>
            refine Nat.le_trans ih ?_
            dsimp only
            split
            · exact Nat.le_refl _
            · rw [List.count_cons]
              exact Nat.le_add_right _ _
  rw [count_tokens]
  exact Nat.le_trans hheld (Nat.le_add_left _ _)

namespace Step

/-- The step registers an endpoint anew while a token of it is left. -/
def Revives (s : Step) (endpoint : String) : Prop :=
  s.before.registry.contains endpoint = false ∧ s.after.registry.contains endpoint = true ∧
    endpoint ∈ s.before.tokens

variable {s : Step}

theorem count_le_one (h : Orderly s.before) (hone : ∀ e, s.before.tokens.count e ≤ 1)
    (hfresh : ∀ e, ¬ s.Revives e) (e : String) : s.after.tokens.count e ≤ 1 := by
  obtain ⟨lost, hflow⟩ := Pool.flow_of_act? h s.done
  have hcount := hflow.count e
  have hbefore := hone e
  unfold Pool.admitted at hcount
  split at hcount
  · next hanew =>
      -- The admitted token is alone, since none was left of the name before.
      have hnone : s.before.tokens.count e = 0 :=
        List.count_eq_zero.2 fun hmem => hfresh e ⟨hanew.1, hanew.2, hmem⟩
      omega
  · omega

theorem two_le_count (h : Orderly s.before) {e : String} (hrevives : s.Revives e) :
    2 ≤ s.after.tokens.count e := by
  obtain ⟨lost, hflow⟩ := Pool.flow_of_act? h s.done
  obtain ⟨hout, hin, hmem⟩ := hrevives
  have hcount := hflow.count e
  have hsome := List.count_pos_iff.2 hmem
  have hkept : lost.count e = 0 := List.count_eq_zero.2 fun hlost => by
    rw [hflow.known e hlost hin] at hout
    cases hout
  rw [Pool.admitted_eq_one hout hin] at hcount
  omega

end Step

/-- In a run of a pool there is at most one token, and at most one round, of
each endpoint at all times, exactly if no step of the run registers an
endpoint anew while a token of it is left. -/
theorem one_token_iff_not_revived {config : Config} {slots : Slots} {p q : Pool}
    {steps : List Step} (hmade : Pool.withSlots config slots = .ok p) (hrun : Run p steps q) :
    (∀ s ∈ steps, ∀ e, s.after.tokens.count e ≤ 1 ∧ s.after.roundsOf e ≤ 1) ↔
      ∀ s ∈ steps, ∀ e, ¬ s.Revives e := by
  have horderly := (orderly_of_withSlots hmade).throughout hrun
  constructor
  · intro hone s hs e hrevives
    have htwo := s.two_le_count (horderly.2 s hs).1 hrevives
    have hle := (hone s hs e).1
    omega
  · intro hfresh
    have hstart : ∀ e, p.tokens.count e ≤ 1 := fun e => by
      rw [(blank_of_withSlots hmade).tokens]
      exact Nat.zero_le 1
    have hall := hrun.throughout (P := fun pool => ∀ e, pool.tokens.count e ≤ 1) hstart
      fun s hs hone => s.count_le_one (horderly.2 s hs).1 hone (hfresh s hs)
    intro s hs e
    have hle := (hall.2 s hs).2 e
    exact ⟨hle, Nat.le_trans (s.after.roundsOf_le e) hle⟩

/-- Loaded, evicted and loaded again, an endpoint circulates twice, and two
rounds of it are under way. -/
theorem two_rounds_side_by_side :
    ∃ p steps q, Pool.new { Config.default with removeAfter := 1 } = .ok p ∧ Run p steps q ∧
      steps.map Step.deed =
        [.load "a:1", .reportFailure "a:1", .load "a:1", .start, .move 0 .lockIntake,
          .move 0 .receive, .move 0 .forward, .move 0 .receive, .move 0 .forward,
          .move 1 .look, .move 1 .look, .move 3 .pick, .move 4 .pick] ∧
      q.tokens.count "a:1" = 2 ∧ q.roundsOf "a:1" = 2 := by
  obtain ⟨p, hmade, hview⟩ : ∃ p, Pool.new { Config.default with removeAfter := 1 } = .ok p ∧
      (p.perform?
        [.load "a:1", .reportFailure "a:1", .load "a:1", .start, .move 0 .lockIntake,
          .move 0 .receive, .move 0 .forward, .move 0 .receive, .move 0 .forward,
          .move 1 .look, .move 1 .look, .move 3 .pick, .move 4 .pick]).map
        (fun q => (q.tokens.count "a:1", q.roundsOf "a:1")) = some (2, 2) :=
    ⟨_, rfl, rfl⟩
  obtain ⟨steps, q, hrun, hdeeds, hseen⟩ := Run.of_view _ hview
  exact ⟨p, steps, q, hmade, hrun, hdeeds, (Prod.mk.inj hseen).1, (Prod.mk.inj hseen).2⟩

/-- So a run of a load, an eviction and a reload revives an endpoint. -/
theorem revived_by_reload :
    ∃ p steps q, Pool.new { Config.default with removeAfter := 1 } = .ok p ∧ Run p steps q ∧
      steps.map Step.deed = [.load "a:1", .reportFailure "a:1", .load "a:1"] ∧
      ∃ s ∈ steps, ∃ e, s.Revives e := by
  obtain ⟨p, hmade, hview⟩ : ∃ p, Pool.new { Config.default with removeAfter := 1 } = .ok p ∧
      (p.perform? [.load "a:1", .reportFailure "a:1", .load "a:1"]).map
        (fun q => (p.tokens.count "a:1", q.tokens.count "a:1")) = some (0, 2) := ⟨_, rfl, rfl⟩
  obtain ⟨steps, q, hrun, hdeeds, hseen⟩ := Run.of_view _ hview
  have hone := one_token_iff_not_revived hmade hrun
  refine ⟨p, steps, q, hmade, hrun, hdeeds, ?_⟩
  rcases hrun.last_eq with heq | ⟨s, hs, heq⟩
  · rw [heq] at hseen
    simp at hseen
    omega
  · apply Classical.byContradiction
    intro hnone
    have hle := (hone.2 (fun t ht e hrevives => hnone ⟨t, ht, e, hrevives⟩) s hs "a:1").1
    rw [← heq, (Prod.mk.inj hseen).2] at hle
    omega

end SocksPool
