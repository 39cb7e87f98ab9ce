import SocksPool.Proofs.Conservation

/-!
# Stranded endpoints

A registered endpoint without a token is *stranded*: nothing validates it any
more, and since its name is in use it cannot be loaded again. With recycling
on, a pool strands an endpoint in two ways only. A cancelled caller puts the
candidate under check back, and drops it if the output queue is full; and a
caller that is dropped in the middle of a check takes its candidate with it.
A round that stops halfway would be a third way, which is excluded here.

Whether a check sends its candidate back is noted when it begins, so recycling
has to be on for the setting and for every check under way.

## Main results

* `Recycling.act` — recycling stays on unless it is turned off.
* `stranded_only_by_lost_check` — every other step leaves a token of each
  registered endpoint.
-/

open SocksPool.Task (holders)

namespace SocksPool

namespace Pool

variable {p q : Pool} {d : Deed}

/-! ## Crashes -/

/-- A task that has crashed stays crashed. -/
theorem Turn.crashes_le (hturn : p.Turn d q) : p.crashes ≤ q.crashes := by
  cases hturn with
  | loaded raws => exact Nat.le_of_eq (crashes_loadAll p raws).symm
  | @reportedOut _ life endpoint hfind hmarks =>
      exact Nat.le_of_eq (crashes_evict (p.punish life endpoint) endpoint).symm
  | @struckOff _ _ protocol candidate rest hqueue hfind hmarks =>
      have hkept := crashes_evict { p with outputs := p.outputs.set protocol rest }
        candidate.endpoint
      exact Nat.le_of_eq hkept.symm
  | @sentBack _ protocol candidate rest hqueue =>
      have hkept := crashes_recycle { p with outputs := p.outputs.set protocol rest }
        p.config.recycle candidate.endpoint
      exact Nat.le_of_eq hkept.symm
  | @cleared id life timeout since c candidate wanted htask hstage =>
      exact Nat.le_of_eq (crashes_recycle (p.remove id) wanted candidate.endpoint).symm
  | @refused id life timeout since c candidate wanted htask hstage =>
      have hkept := crashes_recycle ((p.remove id).markBad life).1 wanted candidate.endpoint
      exact Nat.le_of_eq hkept.symm
  | failedHalfway htask hlast hwindow => exact Nat.le_succ _
  | @failedOut id since r protocol err htask hlast hwindow hmarks =>
      have hkept := crashes_evict ((p.remove id).punish r.life r.endpoint) r.endpoint
      exact Nat.le_of_eq hkept.symm
  | _ => exact Nat.le_refl _

theorem crashes_le_of_act? (h : Orderly p) (hact : p.act? d = some q) : p.crashes ≤ q.crashes := by
  obtain ⟨mid, hturn, haside⟩ := turns_of_act? h.numbered hact
  exact Nat.le_trans hturn.crashes_le haside.crashes

/-! ## Recycling stays on -/

/-- Only its own setting turns recycling on or off. -/
theorem Turn.recycle_setting (hturn : p.Turn d q) :
    q.config.recycle = p.config.recycle ∨ d = .adjust (.recycling q.config.recycle) := by
  cases hturn with
  | @adjusted setting config hrecycle =>
      rcases hrecycle with hsame | hset
      · exact .inl hsame
      · exact .inr (congrArg Deed.adjust hset)
  | loaded raws => exact .inl (congrArg Config.recycle (config_loadAll p raws))
  | reportedOut hfind hmarks => exact .inl (congrArg Config.recycle (config_evict _ _))
  | struckOff hqueue hfind hmarks => exact .inl (congrArg Config.recycle (config_evict _ _))
  | sentBack hqueue => exact .inl (congrArg Config.recycle (config_recycle _ _ _))
  | cleared htask hstage =>
      rw [unlock_recycle]
      exact .inl (congrArg Config.recycle (config_recycle _ _ _))
  | refused htask hstage =>
      rw [unlock_recycle]
      exact .inl (congrArg Config.recycle (config_recycle _ _ _))
  | failedOut htask hlast hwindow hmarks =>
      exact .inl (congrArg Config.recycle (config_evict _ _))
  | _ => exact .inl rfl

/-- A task list holds the checks of another one, and else only checks that
noted a given setting. -/
def ChecksFrom (p q : Pool) (setting : Bool) : Prop :=
  ∀ entry ∈ holders q.tasks, entry ∈ holders p.tasks ∨ entry.2.wanted? = none ∨
    entry.2.wanted? = some setting

variable {r : Pool} {setting : Bool} {id : Nat} {task : Task}

theorem ChecksFrom.of_tasks (h : q.tasks = p.tasks) : ChecksFrom p q setting := by
  unfold ChecksFrom
  rw [h]
  exact fun entry hmem => .inl hmem

theorem ChecksFrom.remove (p : Pool) (id : Nat) : ChecksFrom p (p.remove id) setting :=
  fun _ hmem => .inl (Task.mem_holders_without.1 hmem).1

theorem ChecksFrom.put (p : Pool) (id : Nat)
    (hnew : task.wanted? = none ∨ task.wanted? = some setting) :
    ChecksFrom p (p.put id task) setting := by
  intro entry hmem
  rcases Task.mem_holders_append hmem with hold | rfl
  · exact .inl (Task.mem_holders_without.1 hold).1
  · exact .inr hnew

theorem ChecksFrom.spawn (p : Pool) (hnew : task.wanted? = none) :
    ChecksFrom p (p.spawn task) setting := by
  intro entry hmem
  rcases Task.mem_holders_append hmem with hold | rfl
  · exact .inl hold
  · exact .inr (.inl hnew)

theorem ChecksFrom.recycle (p : Pool) (wanted : Bool) (endpoint : String) :
    ChecksFrom p (p.recycle wanted endpoint) setting := by
  cases wanted with
  | true => exact .spawn p rfl
  | false => exact .of_tasks rfl

theorem ChecksFrom.trans (hpq : ChecksFrom p q setting) (hqr : ChecksFrom q r setting) :
    ChecksFrom p r setting := by
  intro entry hmem
  rcases hqr entry hmem with hold | hnew
  · exact hpq entry hold
  · exact .inr hnew

/-- A check that begins notes the setting of its time. -/
theorem Turn.checks (hturn : p.Turn d q) : ChecksFrom p q p.config.recycle := by
  cases hturn with
  | idled => exact .of_tasks rfl
  | adjusted hrecycle => exact .of_tasks rfl
  | loaded raws => exact .of_tasks (tasks_loadAll p raws)
  | reported hfind => exact .of_tasks rfl
  | reportedOut hfind hmarks => exact .of_tasks (tasks_evict _ _)
  | handedBack htask => exact .remove p _
  | received htask hintake => exact .put p _ (.inl rfl)
  | forwarded htask => exact .remove p _
  | woke htask => exact .put p _ (.inl rfl)
  | cameBack htask => exact .remove p _
  | skipped hpending hfind => exact .of_tasks rfl
  | deferred due hpending => exact .spawn p rfl
  | opened r htask hpending hfind hstage => exact .put p _ (.inl rfl)
  | delivered htask hstage hroom => exact .remove p _
  | passedOver hqueue hgate => exact .of_tasks rfl
  | struckOff hqueue hfind hmarks => exact .of_tasks (tasks_evict _ _)
  | sentBack hqueue =>
      apply ChecksFrom.trans _ (.recycle _ _ _)
      exact .of_tasks rfl
  | checked htask hwaits hqueue hfind hlock => exact .put p _ (.inr rfl)
  | cleared htask hstage => exact (ChecksFrom.remove p _).trans (.recycle _ _ _)
  | refused htask hstage => exact (ChecksFrom.remove p _).trans (.recycle _ _ _)
  | restored htask hstage hroom => exact .remove p _
  | overflowed htask hstage hroom => exact .remove p _
  | dropped htask hstage => exact .remove p _
  | retried protocol rest htask => exact .put p _ (.inl rfl)
  | passed htask hentry => exact .put p _ (.inl rfl)
  | vanished htask hentry => exact .remove p _
  | failedHalfway htask hlast hwindow => exact .remove p _
  | @failedOut id _ r _ _ htask hlast hwindow hmarks =>
      have hended : ChecksFrom p (p.remove id) p.config.recycle := .remove p id
      exact hended.trans (.of_tasks (tasks_evict ((p.remove id).punish r.life r.endpoint) _))
  | failedKept htask hlast hwindow hmarks =>
      exact (ChecksFrom.remove p _).trans (.spawn _ rfl)

/-- Recycling stays on unless it is turned off. -/
theorem Recycling.act (h : p.Recycling) (horderly : Orderly p) (hact : p.act? d = some q)
    (hleft : d ≠ .adjust (.recycling false)) : q.Recycling := by
  obtain ⟨mid, hturn, haside⟩ := turns_of_act? horderly.numbered hact
  have hsetting : mid.config.recycle = true := by
    rcases hturn.recycle_setting with hsame | hset
    · rw [hsame]
      exact h.setting
    · cases hmid : mid.config.recycle with
      | true => rfl
      | false => exact absurd (hmid ▸ hset) hleft
  refine ⟨haside.config ▸ hsetting, ?_⟩
  rw [haside.holders]
  intro entry hmem
  rcases hturn.checks entry hmem with hold | hnone | hsome
  · exact h.checks entry hold
  · rw [hnone]
    nofun
  · rw [hsome, h.setting]
    nofun

end Pool

namespace Step

/-- The step leaves an endpoint registered without a token, and not because it
was so before. -/
def Strands (s : Step) (endpoint : String) : Prop :=
  (s.before.registry.contains endpoint = true → endpoint ∈ s.before.tokens) ∧
    s.after.registry.contains endpoint = true ∧ endpoint ∉ s.after.tokens

/-- A caller is cancelled while it re-dials a candidate of the endpoint, and
the output queue of the candidate is full. -/
def OverflowsRestore (s : Step) (endpoint : String) : Prop :=
  ∃ id candidate, s.deed = .move id .cancel ∧ s.before.Checks id candidate ∧
    candidate.endpoint = endpoint ∧
    s.before.config.bufferSize ≤ (s.before.outputs.get candidate.protocol).length

/-- A caller is dropped while it re-dials a candidate of the endpoint. -/
def DropsCheck (s : Step) (endpoint : String) : Prop :=
  ∃ id candidate, s.deed = .move id .abandon ∧ s.before.Checks id candidate ∧
    candidate.endpoint = endpoint

/-- A round stops halfway. -/
def HaltsRound (s : Step) : Prop :=
  ∃ id move r, s.deed = .move id move ∧ s.before.task? id = some (.round r) ∧
    s.before.crashes < s.after.crashes

variable {s : Step} {e : String}

/-- While recycling is on, only a check that is lost strands an endpoint. -/
theorem lost_check_of_strands (h : Orderly s.before) (hrecycling : s.before.Recycling)
    (hwhole : ¬ s.HaltsRound) (hstrands : s.Strands e) : s.OverflowsRestore e ∨ s.DropsCheck e := by
  obtain ⟨htoken, hin, hout⟩ := hstrands
  obtain ⟨lost, hflow⟩ := Pool.flow_of_act? h s.done
  have hcount := hflow.count e
  rw [List.count_eq_zero.2 hout] at hcount
  -- Either the endpoint had a token before, or the step admitted one.
  have hlost : e ∈ lost := by
    apply List.count_pos_iff.1
    cases hbefore : s.before.registry.contains e with
    | true =>
        have hsome := List.count_pos_iff.2 (htoken hbefore)
        omega
    | false =>
        rw [Pool.admitted_eq_one hbefore hin] at hcount
        omega
  cases hflow.reason e hlost with
  | unregistered hname =>
      rw [hname] at hin
      cases hin
  | doubled hleft => exact absurd hleft hout
  | retired _ _ hnot => exact absurd hrecycling hnot
  | overflowed hdeed hchecks hname hroom => exact .inl ⟨_, _, hdeed, hchecks, hname, hroom⟩
  | dropped hdeed hchecks hname => exact .inr ⟨_, _, hdeed, hchecks, hname⟩
  | halfway hfails _ _ hcrash =>
      obtain ⟨id, protocol, since, fault, hdeed, htask, -⟩ := hfails
      exact absurd ⟨_, _, _, hdeed, htask, hcrash⟩ hwhole

end Step

/-- In a run of a pool with recycling on throughout, in which no round stops
halfway, a step strands an endpoint only if it cancels a check whose candidate
finds its output queue full, or drops a caller in the middle of a check. Every
registered endpoint that such a step has not stranded has a token. -/
theorem stranded_only_by_lost_check {config : Config} {slots : Slots} {p q : Pool}
    {steps : List Step} (hmade : Pool.withSlots config slots = .ok p)
    (hon : config.recycle = true) (hrun : Run p steps q)
    (hleft : ∀ s ∈ steps, s.deed ≠ .adjust (.recycling false))
    (hwhole : ∀ s ∈ steps, ¬ s.HaltsRound) :
    (∀ s ∈ steps, ∀ e, s.Strands e → s.OverflowsRestore e ∨ s.DropsCheck e) ∧
      ∀ e, q.registry.contains e = true → e ∈ q.tokens ∨ ∃ s ∈ steps, s.Strands e := by
  have horderly := (orderly_of_withSlots hmade).throughout hrun
  have hblank := blank_of_withSlots hmade
  have hstart : p.Recycling := by
    constructor
    · rw [config_of_withSlots hmade]
      exact hon
    · rw [hblank.tasks]
      intro entry hmem
      exact absurd hmem List.not_mem_nil
  have hrecycling := hrun.throughout hstart
    fun s hs hbefore => hbefore.act (horderly.2 s hs).1 s.done (hleft s hs)
  constructor
  · intro s hs e hstrands
    exact s.lost_check_of_strands (horderly.2 s hs).1 (hrecycling.2 s hs).1 (hwhole s hs) hstrands
  intro e hin
  apply Classical.or_iff_not_imp_right.2
  intro hnever
  have hempty : p.registry.contains e = true → e ∈ p.tokens := by
    rw [hblank.not_contains]
    nofun
  -- An endpoint that no step strands keeps a token from one state to the next.
  have hkept := hrun.throughout hempty
    (P := fun pool => pool.registry.contains e = true → e ∈ pool.tokens)
    fun s hs hbefore hafter => by
      apply Classical.byContradiction
      intro hout
      exact hnever ⟨s, hs, hbefore, hafter, hout⟩
  exact hkept.1 hin

/-- Nothing stops halfway in a run that ends without a crash. -/
theorem not_haltsRound_of_run {p q : Pool} {steps : List Step} (h : Orderly p)
    (hrun : Run p steps q) (hnone : q.crashes = 0) : ∀ s ∈ steps, ¬ s.HaltsRound := by
  induction hrun with
  | rest => simp
  | @step steps s hrun ih =>
      have horderly := (h.throughout hrun).1
      have hgrown := Pool.crashes_le_of_act? horderly s.done
      intro t ht
      rcases List.mem_append.1 ht with hold | hnew
      · exact ih (by omega) t hold
      · obtain rfl := List.mem_singleton.1 hnew
        rintro ⟨_, _, _, _, _, hcrash⟩
        omega

/-- One caller checks the candidate of an endpoint while a second one fills the
output queue. Its cancellation strands the endpoint. -/
theorem stranded_by_cancellation :
    ∃ p steps q, Pool.new { Config.default with bufferSize := 1 } = .ok p ∧ Run p steps q ∧
      steps.map Step.deed =
        [.load "a:1", .load "b:1", .start, .move 0 .lockIntake, .move 0 .receive,
          .move 0 .forward, .move 1 .look, .move 3 .pick,
          .move 3 (.attempted (.ok (.v4 ⟨198, 51, 100, 7⟩))), .move 3 .deliver,
          .get (some .socks5) (some 0), .move 4 (.dispense .socks5), .move 0 .receive,
          .move 0 .forward, .move 1 .look, .move 5 .pick,
          .move 5 (.attempted (.ok (.v4 ⟨198, 51, 100, 7⟩))), .move 5 .deliver,
          .move 4 .cancel] ∧
      ∃ s ∈ steps, s.Strands "a:1" ∧ (s.OverflowsRestore "a:1" ∨ s.DropsCheck "a:1") := by
  obtain ⟨p, hmade, hview⟩ :
      ∃ p, Pool.new { Config.default with bufferSize := 1 } = .ok p ∧
      (p.perform?
        [.load "a:1", .load "b:1", .start, .move 0 .lockIntake, .move 0 .receive,
          .move 0 .forward, .move 1 .look, .move 3 .pick,
          .move 3 (.attempted (.ok (.v4 ⟨198, 51, 100, 7⟩))), .move 3 .deliver,
          .get (some .socks5) (some 0), .move 4 (.dispense .socks5), .move 0 .receive,
          .move 0 .forward, .move 1 .look, .move 5 .pick,
          .move 5 (.attempted (.ok (.v4 ⟨198, 51, 100, 7⟩))), .move 5 .deliver,
          .move 4 .cancel]).map
        (fun q => (q.registry.contains "a:1", q.tokens, q.crashes)) =
          some (true, ["b:1"], 0) := ⟨_, rfl, rfl⟩
  obtain ⟨steps, q, hrun, hdeeds, hseen⟩ := Run.of_view _ hview
  simp only [Prod.mk.injEq] at hseen
  obtain ⟨hin, htokens, hwhole⟩ := hseen
  have hleft : ∀ s ∈ steps, s.deed ≠ .adjust (.recycling false) := by
    intro s hs hdeed
    have hmem : s.deed ∈ steps.map Step.deed := List.mem_map_of_mem hs
    rw [hdeeds, hdeed] at hmem
    simp at hmem
  have hlost := stranded_only_by_lost_check hmade rfl hrun hleft
    (not_haltsRound_of_run (orderly_of_withSlots hmade) hrun hwhole)
  refine ⟨p, steps, q, hmade, hrun, hdeeds, ?_⟩
  rcases hlost.2 "a:1" hin with htoken | ⟨s, hs, hstrands⟩
  · rw [htokens] at htoken
    simp at htoken
  · exact ⟨s, hs, hstrands, hlost.1 s hs "a:1" hstrands⟩

end SocksPool
