import SocksPool.Proofs.Pace

/-!
# The course of a round

Once a round is under way, nothing but its own attempts and the room on an output
queue decides how it goes on. An attempt that fails leads to the next protocol. One
that works is noted, and the copy is queued as soon as there is room. When the last
one fails the round is counted as bad, its life is marked and its endpoint struck,
and then the endpoint is evicted or comes back later.

The steps that move a round are its *story*, and every story is made of these few
steps. There is one way out of it: a strike whose window ends at a time that the
clock cannot represent stops the round after the mark and the strike.

## Main definitions

* `Step.Course` — one step of a round.
* `Story` — the steps of a round, from some stage on.

## Main results

* `Step.course` — every step of a round is one of its course.
* `story_of_run` — in a run in which no round begins, every round has its story.
-/

open SocksPool.Task (Numbered holders without)

namespace SocksPool

/-- The round of the task with a number. -/
def Pool.round? (p : Pool) (id : Nat) : Option Round :=
  match p.task? id with
  | some (.round r) => some r
  | _ => none

namespace Step

/-- The step is one of the round with a number. -/
def movesRound (s : Step) (id : Nat) : Bool :=
  match s.deed with
  | .move other _ => other == id && (s.before.round? id).isSome
  | _ => false

/-- What a step does to its round: the stage that it leads to, or nothing if the round
ends. All else that the step does is quiet. -/
inductive Course (s : Step) (id : Nat) : Round → Option Round → Prop where
  /-- An attempt fails, and the next protocol is tried. -/
  | tries {r : Round} {protocol next : Protocol} {more : List Protocol} {since : Nat}
      {e : PoolError} (htask : s.before.task? id = some (.round r))
      (hdeed : s.deed = .move id (.attempted (.error e)))
      (hstage : r.stage = .attempting protocol (next :: more) since)
      (hquiet : Quiet
        (s.before.put id (.round { r with stage := .attempting next more s.before.now }))
        s.after) :
      Course s id r (some { r with stage := .attempting next more s.before.now })
  /-- An attempt works: the life notes it, and it is counted under the protocol of the
  copy. -/
  | passes {r : Round} {protocol : Protocol} {rest : List Protocol} {since : Nat}
      {exit : Address} {entry : Entry} (htask : s.before.task? id = some (.round r))
      (hdeed : s.deed = .move id (.attempted (.ok exit)))
      (hstage : r.stage = .attempting protocol rest since)
      (hentry : s.before.registry.entry? r.life = some entry) (hname : entry.endpoint = r.endpoint)
      (hquiet : Quiet
        (Pool.put
          { s.before with
            registry := s.before.registry.update r.life
              (·.recordValidation s.before.now protocol exit)
            stats := s.before.stats.recordValid
              (entry.recordValidation s.before.now protocol exit).protocol }
          id (.round { r with
            stage := .delivering
              (entry.recordValidation s.before.now protocol exit).snapshot }))
        s.after) :
      Course s id r (some { r with
        stage := .delivering (entry.recordValidation s.before.now protocol exit).snapshot })
  /-- The copy is queued. -/
  | delivers {r : Round} {copy : Proxy} (htask : s.before.task? id = some (.round r))
      (hdeed : s.deed = .move id .deliver) (hstage : r.stage = .delivering copy)
      (hroom : s.before.outputRoom copy.protocol = true)
      (hquiet : Quiet ((s.before.remove id).deliver copy) s.after) : Course s id r none
  /-- The last attempt fails, and the marks of the life reach the threshold. -/
  | evicts {r : Round} {protocol : Protocol} {since : Nat} {e : PoolError}
      (htask : s.before.task? id = some (.round r))
      (hdeed : s.deed = .move id (.attempted (.error e)))
      (hlast : r.stage = .attempting protocol [] since) (hmarks : s.before.Exhausts r.life)
      (hwindow : (s.before.backoff.strike s.before.now r.endpoint).2.isSome = true)
      (hquiet : Quiet (((s.before.remove id).miss r).evict r.endpoint) s.after) :
      Course s id r none
  /-- The last attempt fails, and the endpoint comes back after its window. -/
  | returns {r : Round} {protocol : Protocol} {since window : Nat} {e : PoolError}
      (htask : s.before.task? id = some (.round r))
      (hdeed : s.deed = .move id (.attempted (.error e)))
      (hlast : r.stage = .attempting protocol [] since) (hmarks : ¬ s.before.Exhausts r.life)
      (hwindow : (s.before.backoff.strike s.before.now r.endpoint).2 = some window)
      (hquiet : Quiet (((s.before.remove id).miss r).requeue r.endpoint window) s.after) :
      Course s id r none

/-- The last attempt of the round fails, and the clock cannot represent the end of the
window. -/
def OverflowsStrike (s : Step) (id : Nat) : Prop :=
  ∃ r protocol since e, s.deed = .move id (.attempted (.error e)) ∧
    s.before.task? id = some (.round r) ∧ r.stage = .attempting protocol [] since ∧
    (s.before.backoff.strike s.before.now r.endpoint).2 = none

end Step

/-- The steps of a round that was `r`, and what it is after them, if it still goes on. -/
inductive Story (id : Nat) (r : Round) : List Step → Option Round → Prop where
  | begins : Story id r [] (some r)
  | goesOn {steps : List Step} {now : Round} {next : Option Round} (s : Step)
      (hstory : Story id r steps (some now)) (hcourse : s.Course id now next) :
      Story id r (steps ++ [s]) next

namespace Pool

variable {p q : Pool} {d : Deed} {id : Nat} {r : Round}

/-! ## Rounds by number -/

theorem round?_eq_some : p.round? id = some r ↔ p.task? id = some (.round r) := by
  unfold round?
  split
  · next found hfind => simp [hfind]
  · next hother =>
      refine ⟨nofun, fun hfind => ?_⟩
      exact absurd hfind (hother r)

theorem round?_of_holder (hnum : Numbered p.tasks p.nextTask)
    (hmem : (id, Task.round r) ∈ holders p.tasks) : p.round? id = some r :=
  round?_eq_some.2 (hnum.lookup_of_mem (Task.mem_holders.1 hmem).1)

theorem holder_of_round? (hround : p.round? id = some r) :
    (id, Task.round r) ∈ holders p.tasks :=
  Task.mem_holders.2 ⟨Task.mem_of_lookup (round?_eq_some.1 hround), rfl⟩

theorem mem_holders_of_recycle {entry : Nat × Task} (hmem : entry ∈ holders p.tasks)
    (wanted : Bool) (endpoint : String) : entry ∈ holders (p.recycle wanted endpoint).tasks := by
  cases wanted with
  | true => exact Task.mem_holders_of_append_left hmem _
  | false => exact hmem

/-- A task that holds an endpoint is left alone by the moves of others. -/
theorem Effect.keeps_holder (h : p.Effect d q) {entry : Nat × Task}
    (hmem : entry ∈ holders p.tasks) (hother : ∀ move, d ≠ .move entry.1 move) :
    entry ∈ holders q.tasks := by
  have hstays {number : Nat} {move : Move} (hdeed : d = .move number move) :
      entry ∈ holders (p.remove number).tasks := by
    refine Task.mem_holders_without.2 ⟨hmem, ?_⟩
    rintro rfl
    exact hother move hdeed
  cases h with
  | idled | elapsed | adjusted | reported | skipped | passedOver | gaveUp | left => exact hmem
  | loaded hraws =>
      rw [tasks_loadAll]
      exact hmem
  | reportedOut | struckOff =>
      rw [tasks_evict]
      exact hmem
  | handedBack | forwarded | cameBack | delivered | restored | overflowed | dropped | vanished
  | failedHalfway => exact hstays rfl
  | received | woke | opened | checked | retried | passed =>
      exact Task.mem_holders_of_append_left (hstays rfl) _
  | deferred => exact Task.mem_holders_of_append_left hmem _
  | @sentBack id protocol candidate rest stats hidle hqueue hstats =>
      exact mem_holders_of_recycle (p := { p with outputs := p.outputs.set protocol rest, stats })
        hmem _ _
  | cleared =>
      rw [tasks_serve]
      exact mem_holders_of_recycle (hstays rfl) _ _
  | voided => exact mem_holders_of_recycle (hstays rfl) _ _
  | @refused id life timeout since c candidate wanted htask hstage =>
      exact mem_holders_of_recycle (p := ((p.remove id).markBad life).1) (hstays rfl) _ _
  | failedOut =>
      rw [tasks_evict]
      exact hstays rfl
  | failedKept => exact Task.mem_holders_of_append_left (hstays rfl) _

/-- A round moves when an attempt comes to an end, and when its copy is queued. -/
theorem move_of_round (htask : p.task? id = some (.round r)) {move : Move}
    (h : p.move? id move = some q) : (∃ outcome, move = .attempted outcome) ∨ move = .deliver := by
  cases move with
  | attempted outcome => exact .inl ⟨outcome, rfl⟩
  | deliver => exact .inr rfl
  | _ =>
      simp [move?, halt?, lockIntake?, receive?, forward?, look?, tick?, pick?, wake?, comeBack?,
        dispense?, cancel?, abandon?, redialled?, dialled?, responded?, htask] at h

end Pool

namespace Step

variable {s : Step} {id : Nat} {r : Round}

/-- A round is left alone by steps that are none of its own. -/
theorem round?_of_not_movesRound (h : Orderly s.before) (hround : s.before.round? id = some r)
    (hother : s.movesRound id = false) : s.after.round? id = some r := by
  obtain ⟨mid, heffect, hquiet⟩ := Pool.effects_of_act? h.numbered s.done
  have hmem := heffect.keeps_holder (Pool.holder_of_round? hround) fun move hdeed => by
    unfold movesRound at hother
    rw [hdeed, hround] at hother
    simp at hother
  rw [← hquiet.holders] at hmem
  exact Pool.round?_of_holder (h.act s.done).numbered hmem

/-- A round that has ended does not begin again, unless a job begins one. -/
theorem round?_eq_none (h : Orderly s.before) (hnone : s.before.round? id = none)
    (hbegins : ∀ e, s.opens e = false) : s.after.round? id = none := by
  cases hround : s.after.round? id with
  | none => rfl
  | some r =>
      rcases round_cases h (Pool.round?_eq_some.1 hround) with ⟨earlier, hfind, -, -⟩ | hopens
      · rw [Pool.round?_eq_some.2 hfind] at hnone
        cases hnone
      · rw [hbegins] at hopens
        cases hopens

/-- After a step in which its task takes a form, the round is what the task is. -/
theorem round?_of_put {mid : Pool} (h : Orderly s.before)
    (hquiet : Quiet (mid.put id (.round r)) s.after) : s.after.round? id = some r := by
  refine Pool.round?_of_holder (h.act s.done).numbered ?_
  rw [hquiet.holders]
  exact Task.mem_holders.2 ⟨List.mem_append_right _ (List.mem_singleton.2 rfl), rfl⟩

/-- After a step in which its task ends, the round is gone. -/
theorem round?_of_remove {mid : Pool} (hquiet : Quiet mid s.after)
    (hgone : ∀ entry ∈ holders mid.tasks, entry.1 = id → ∀ r, entry.2 ≠ .round r) :
    s.after.round? id = none := by
  cases hround : s.after.round? id with
  | none => rfl
  | some r =>
      have hmem := Pool.holder_of_round? hround
      rw [hquiet.holders] at hmem
      exact absurd rfl (hgone _ hmem rfl r)

/-- Every step of a round is one of its course, unless its strike overflows. -/
theorem course (h : Orderly s.before) (hround : s.before.round? id = some r)
    (hmoves : s.movesRound id = true) (hfits : ¬ s.OverflowsStrike id) :
    ∃ left, s.Course id r left ∧ s.after.round? id = left := by
  have htask := Pool.round?_eq_some.1 hround
  have hremoved : ∀ entry ∈ holders (s.before.remove id).tasks, entry.1 = id →
      ∀ r, entry.2 ≠ .round r :=
    fun entry hmem hnumber => absurd hnumber (Task.mem_holders_without.1 hmem).2
  obtain ⟨mid, heffect, hquiet⟩ := Pool.effects_of_act? h.numbered s.done
  unfold movesRound at hmoves
  split at hmoves
  · next other move hdeed =>
      rw [Bool.and_eq_true, beq_iff_eq] at hmoves
      obtain ⟨rfl, -⟩ := hmoves
      have hmove : s.before.move? other move = some s.after := by
        have hdone := s.done
        rwa [hdeed] at hdone
      rw [hdeed] at heffect
      rcases Pool.move_of_round htask hmove with ⟨outcome, rfl⟩ | rfl
      · cases heffect with
        | idled hplain | reported hplain _ | reportedOut hplain _ _ => cases hplain
        | loaded hraws => cases hraws
        | retried hfind hstage =>
            obtain rfl := Task.round.inj (Option.some.inj (hfind.symm.trans htask))
            exact ⟨_, .tries htask hdeed hstage hquiet, round?_of_put h hquiet⟩
        | passed hfind hstage hentry =>
            obtain rfl := Task.round.inj (Option.some.inj (hfind.symm.trans htask))
            obtain ⟨found, hfound, hname⟩ := (h.backed_of_task? htask rfl).1
            obtain rfl := Option.some.inj (hfound.symm.trans hentry)
            exact ⟨_, .passes htask hdeed hstage hentry hname hquiet, round?_of_put h hquiet⟩
        | vanished hfind hstage hentry =>
            obtain rfl := Task.round.inj (Option.some.inj (hfind.symm.trans htask))
            obtain ⟨found, hfound, -⟩ := (h.backed_of_task? htask rfl).1
            rw [hentry] at hfound
            cases hfound
        | failedHalfway hfind hlast hwindow =>
            exact absurd ⟨_, _, _, _, hdeed, hfind, hlast, hwindow⟩ hfits
        | failedOut hfind hlast hwindow hmarks =>
            obtain rfl := Task.round.inj (Option.some.inj (hfind.symm.trans htask))
            refine ⟨_, .evicts htask hdeed hlast hmarks hwindow hquiet, round?_of_remove hquiet ?_⟩
            rw [Pool.tasks_evict]
            exact hremoved
        | failedKept hfind hlast hwindow hmarks =>
            obtain rfl := Task.round.inj (Option.some.inj (hfind.symm.trans htask))
            refine ⟨_, .returns htask hdeed hlast hmarks hwindow hquiet,
              round?_of_remove hquiet fun entry hmem hnumber r => ?_⟩
            rcases Task.mem_holders_append hmem with hold | rfl
            · exact hremoved entry hold hnumber r
            · nofun
      · cases heffect with
        | idled hplain | reported hplain _ | reportedOut hplain _ _ => cases hplain
        | loaded hraws => cases hraws
        | delivered hfind hstage hroom =>
            obtain rfl := Task.round.inj (Option.some.inj (hfind.symm.trans htask))
            exact ⟨_, .delivers htask hdeed hstage hroom hquiet, round?_of_remove hquiet hremoved⟩
  · cases hmoves

/-- The window of a step of the course can be represented. -/
theorem Course.fits {left : Option Round} (hcourse : s.Course id r left) :
    ¬ s.OverflowsStrike id := by
  rintro ⟨found, protocol, since, e, hdeed, htask, hlast, hwindow⟩
  cases hcourse with
  | tries hfind _ hstage _ =>
      obtain rfl := Task.round.inj (Option.some.inj (hfind.symm.trans htask))
      rw [hlast] at hstage
      cases hstage
  | passes _ hpass _ _ _ _ =>
      rw [hpass] at hdeed
      cases hdeed
  | delivers _ hdeliver _ _ _ =>
      rw [hdeliver] at hdeed
      cases hdeed
  | evicts hfind _ _ _ hfits _ =>
      obtain rfl := Task.round.inj (Option.some.inj (hfind.symm.trans htask))
      rw [hwindow] at hfits
      cases hfits
  | returns hfind _ _ _ hfits _ =>
      obtain rfl := Task.round.inj (Option.some.inj (hfind.symm.trans htask))
      rw [hwindow] at hfits
      cases hfits

end Step

/-- How many more steps the round takes at most. -/
def Round.remaining (r : Round) : Nat :=
  match r.stage with
  | .attempting _ rest _ => rest.length + 2
  | .delivering _ => 1

/-- Every step of a round brings it nearer to its end. -/
theorem Step.Course.remaining_lt {s : Step} {id : Nat} {r : Round} {left : Option Round}
    (hcourse : s.Course id r left) : (left.map Round.remaining).getD 0 < r.remaining := by
  unfold Round.remaining
  cases hcourse with
  | tries _ _ hstage _ | passes _ _ hstage _ _ _ | delivers _ _ hstage _ _
  | evicts _ _ hstage _ _ _ | returns _ _ hstage _ _ _ => simp [hstage]

/-- A story is short: each protocol is tried once, and then a copy is queued at most. -/
theorem Story.length_le {id : Nat} {r : Round} {steps : List Step} {left : Option Round}
    (h : Story id r steps left) :
    steps.length + (left.map Round.remaining).getD 0 ≤ r.remaining := by
  induction h with
  | begins => simp
  | goesOn s hstory hcourse ih =>
      have hless := hcourse.remaining_lt
      simp only [Option.map_some, Option.getD_some] at ih
      simp only [List.length_append, List.length_singleton]
      omega

/-- The steps of a story are those of the round that do not overflow. -/
theorem Story.fits {id : Nat} {r : Round} {steps : List Step} {left : Option Round}
    (h : Story id r steps left) : ∀ s ∈ steps, ¬ s.OverflowsStrike id := by
  induction h with
  | begins => exact fun s hs => absurd hs List.not_mem_nil
  | goesOn s hstory hcourse ih =>
      intro t ht
      rcases List.mem_append.1 ht with hold | hnew
      · exact ih t hold
      · rw [List.mem_singleton.1 hnew]
        exact hcourse.fits

/-- In a run in which no round begins, the steps of a round are its story, just if no
strike of it overflows. -/
theorem story_of_run {p q : Pool} {steps : List Step} {id : Nat} {r : Round} (h : Orderly p)
    (hround : p.round? id = some r) (hrun : Run p steps q)
    (hbegins : ∀ s ∈ steps, ∀ e, s.opens e = false) :
    Story id r (steps.filter (·.movesRound id)) (q.round? id) ↔
      ∀ s ∈ steps, ¬ s.OverflowsStrike id := by
  constructor
  · intro hstory s hs hover
    have hmoves : s.movesRound id = true := by
      obtain ⟨now, protocol, since, e, hdeed, htask, -, -⟩ := hover
      unfold Step.movesRound
      rw [hdeed]
      simp [Pool.round?_eq_some.2 htask]
    exact hstory.fits s (List.mem_filter.2 ⟨hs, hmoves⟩) hover
  · intro hfits
    induction hrun with
    | rest =>
        rw [hround]
        exact .begins
    | @step steps s hrun ih =>
        have hbefore := (h.throughout hrun).1
        have hstory := ih (fun t ht => hbegins t (List.mem_append_left _ ht)) fun t ht =>
          hfits t (List.mem_append_left _ ht)
        have hlast : s ∈ steps ++ [s] := List.mem_append_right _ (List.mem_singleton.2 rfl)
        rw [List.filter_append]
        cases hmoves : s.movesRound id with
        | false =>
            have hnone : [s].filter (·.movesRound id) = [] := by simp [hmoves]
            rw [hnone, List.append_nil]
            cases hnow : s.before.round? id with
            | none =>
                rw [Step.round?_eq_none hbefore hnow (hbegins s hlast)]
                rwa [hnow] at hstory
            | some now =>
                rw [Step.round?_of_not_movesRound hbefore hnow hmoves]
                rwa [hnow] at hstory
        | true =>
            have hone : [s].filter (·.movesRound id) = [s] := by simp [hmoves]
            rw [hone]
            cases hnow : s.before.round? id with
            | none =>
                unfold Step.movesRound at hmoves
                split at hmoves
                · simp [hnow] at hmoves
                · cases hmoves
            | some now =>
                obtain ⟨left, hcourse, hleft⟩ := Step.course hbefore hnow hmoves (hfits s hlast)
                rw [hleft]
                rw [hnow] at hstory
                exact .goesOn s hstory hcourse

end SocksPool
