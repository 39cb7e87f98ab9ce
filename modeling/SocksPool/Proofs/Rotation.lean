import Mathlib.Algebra.Ring.Int.Defs
import SocksPool.Proofs.Requests
import SocksPool.Proofs.Talks

/-!
# Dialling through one proxy after the other

A dial waits for a proxy and makes a handshake through it. If the handshake succeeds, there is
a tunnel and the dial is over. If it fails, or takes longer than a validation may, the proxy is
reported and the dial waits for the next one. No failure is one too many. So a dial ends with a
tunnel, or because its caller cancels it, which may happen in a handshake as well as in a wait.

What a dial does is kept in a diary as that of a request is. The lines of the two are alike
where both wait for a proxy. A dial also keeps when a handshake began and how long it may take,
since the settings of the pool may change from one handshake to the next.

## Main definitions

* `Dial` — what is agreed when a dial begins.
* `Step.Enters` — the line that a step adds to the diary of a dial.
* `Dial.Stage` — where a dial stands after the lines of its diary.
* `Session.Shakes` — what a session tells a dial of its handshake.

## Main results

* `Dial.Stage.step` — a step leads from one stage to the next.
* `Dial.raised_eq_tries` — a dial is counted once for each proxy that it tries.
* `dials_rotate` — every dial of a run keeps such a diary, and is never stuck.
* `dial_without_end` — a dial whose report stops halfway.
-/

namespace SocksPool

/-- What is agreed when a dial begins. It is cancelled after `patience`, if ever. -/
structure Dial where
  id : Nat
  address : String
  patience : Option Nat

namespace Dial

/-- A proxy that was handed to a dial. The handshake through it began at `since`, and may take
the time `timeout`. -/
structure Trial where
  proxy : Proxy
  timeout : Nat
  since : Nat

/-- A handshake that failed: how, and when its proxy was reported. -/
structure Failure where
  trial : Trial
  fault : PoolError
  time : Nat

/-- A line in the diary of a dial. -/
inductive Line where
  /-- A proxy was handed to it. -/
  | took (trial : Trial)
  /-- The handshake failed, and the proxy was reported. -/
  | failed (failure : Failure)
  /-- The handshake failed, and the report stopped halfway. -/
  | jammed (trial : Trial)
  /-- The handshake succeeded. -/
  | connected (trial : Trial)
  /-- The caller cancelled it. -/
  | cancelled (time : Nat)
  /-- The caller lost interest. -/
  | dropped

/-- The stage of a caller that waits for the handshake. -/
def Trial.stage (trial : Trial) : CallerStage := .using trial.proxy trial.timeout trial.since

end Dial

open Dial (Trial Failure Line)

/-- The step adds this line to the diary of the dial, or none. What it has in common with the
steps of a request is said by the line that it would add there. -/
inductive Step.Enters (s : Step) (id : Nat) : Option Line → Prop where
  /-- The step is no move of the dial, or one that leaves it without a proxy. -/
  | nothing (hnotes : s.Notes id none) : s.Enters id none
  /-- A proxy is handed to the dial. The handshake begins, and may take as long as the settings
  say now. -/
  | took {trial : Trial} (hnotes : s.Notes id (some (.took trial.proxy)))
      (hsince : trial.since = s.before.now)
      (htimeout : trial.timeout = s.before.config.validationTimeout) :
      s.Enters id (some (.took trial))
  /-- The handshake fails, and its proxy is reported. -/
  | failed {c : Caller} {trial : Trial} {fault : PoolError}
      (hdeed : s.deed = .move id (.dialled (.error fault)))
      (htask : s.before.task? id = some (.caller c)) (hstage : c.stage = trial.stage)
      (hfits : ¬ s.before.Jams trial.proxy.endpoint)
      (hblamed : s.before.Blamed trial.proxy.endpoint s.after) :
      s.Enters id (some (.failed ⟨trial, fault, s.before.now⟩))
  /-- The handshake fails. The strike for its proxy has no end that the clock can represent. -/
  | jammed {c : Caller} {trial : Trial} {fault : PoolError} {life : Nat}
      (hdeed : s.deed = .move id (.dialled (.error fault)))
      (htask : s.before.task? id = some (.caller c)) (hstage : c.stage = trial.stage)
      (hjams : s.before.Jams trial.proxy.endpoint)
      (hfind : s.before.registry.find? trial.proxy.endpoint = some life)
      (hpunished : s.after.records = (s.before.punish life trial.proxy.endpoint).records) :
      s.Enters id (some (.jammed trial))
  /-- The handshake succeeds, and nothing is written down. -/
  | connected {c : Caller} {trial : Trial} (hdeed : s.deed = .move id (.dialled (.ok ())))
      (htask : s.before.task? id = some (.caller c)) (hstage : c.stage = trial.stage)
      (hrecords : s.after.records = s.before.records) : s.Enters id (some (.connected trial))
  /-- The caller cancels the dial. A candidate that is just being re-dialled is unlocked. -/
  | cancelled (hnotes : s.Notes id (some (.gaveUp s.before.now))) :
      s.Enters id (some (.cancelled s.before.now))
  | dropped (hnotes : s.Notes id (some .dropped)) : s.Enters id (some .dropped)

namespace Dial

/-- The diary that the steps write for a dial. -/
inductive Diary (id : Nat) : List Step → List Line → Prop where
  | blank : Diary id [] []
  | step {steps : List Step} {lines : List Line} {line : Option Line} (s : Step)
      (h : Diary id steps lines) (hs : s.Enters id line) :
      Diary id (steps ++ [s]) (lines ++ line.toList)

/-- The lines of handshakes that failed, each through a proxy of its own. -/
def attempts (failures : List Failure) : List Line :=
  failures.flatMap fun failure => [.took failure.trial, .failed failure]

/-- How many proxies were tried. -/
def tries (lines : List Line) : Nat :=
  lines.countP fun line => match line with
    | .took _ => true
    | _ => false

/-- By how much the moves of the dial raised the count of proxies that were handed out. -/
def raised (id : Nat) (steps : List Step) : Int :=
  ((steps.filter (·.deed.mover? == some id)).map fun s =>
    (s.after.stats.dispensed : Int) - s.before.stats.dispensed).sum

/-- Where a dial stands after the lines of its diary. -/
inductive Stage (d : Dial) (q : Pool) : List Line → Prop where
  /-- It waits for a proxy, or has a candidate re-dialled. -/
  | seeking {failures : List Failure} {stage : CallerStage} (hseeks : stage.Seeks)
      (hat : q.At d.id (some ⟨.dial d.address, d.patience, stage⟩) []) :
      Stage d q (attempts failures)
  /-- It has a proxy, and waits for the handshake. -/
  | trying {failures : List Failure} {trial : Trial}
      (hat : q.At d.id (some ⟨.dial d.address, d.patience, trial.stage⟩) []) :
      Stage d q (attempts failures ++ [.took trial])
  /-- It is connected through the last proxy. -/
  | connected {failures : List Failure} {trial : Trial}
      (hat : q.At d.id none [.connected trial.proxy]) :
      Stage d q (attempts failures ++ [.took trial, .connected trial])
  /-- It was cancelled, while it waited for a proxy or for a handshake. -/
  | cancelled {failures : List Failure} {rest : List Line} {patience time : Nat}
      (hpatience : d.patience = some patience) (hlate : Instant.reached patience time = true)
      (hrest : rest = [] ∨ ∃ trial, rest = [.took trial])
      (hat : q.At d.id none [.failed .cancelled]) :
      Stage d q (attempts failures ++ (rest ++ [.cancelled time]))
  /-- The report of the last proxy stopped halfway, and the dial with it. -/
  | jammed {failures : List Failure} {trial : Trial} (hat : q.At d.id none [.overflowed]) :
      Stage d q (attempts failures ++ [.took trial, .jammed trial])
  /-- Nobody wanted its answer any more. -/
  | dropped {failures : List Failure} {rest : List Line}
      (hrest : rest = [] ∨ ∃ trial, rest = [.took trial]) (hat : q.At d.id none []) :
      Stage d q (attempts failures ++ (rest ++ [.dropped]))

variable {d : Dial} {p q : Pool} {s : Step} {failures : List Failure} {lines : List Line}

/-! ## Attempts -/

theorem attempts_append (failures : List Failure) (last : Failure) :
    attempts (failures ++ [last]) =
      attempts failures ++ [.took last.trial] ++ [.failed last] := by
  simp [attempts, List.flatMap_append]

/-- A handshake that fails is reported. The report stops halfway, and the dial with it, or the
dial waits for another proxy. -/
theorem dialled?_error (horderly : Orderly p) {patience : Option Nat} {answers : List Answer}
    {proxy : Proxy} {timeout since : Nat} {address : String} {fault : PoolError}
    (hat : p.At d.id (some ⟨.dial address, patience, .using proxy timeout since⟩) answers)
    (hdone : p.dialled? d.id (.error fault) = some q) :
    (p.Jams proxy.endpoint ∧
        (∃ life, p.registry.find? proxy.endpoint = some life ∧
          q.records = (p.punish life proxy.endpoint).records) ∧
        q.At d.id none (answers ++ [.overflowed])) ∨
      (¬ p.Jams proxy.endpoint ∧ p.Blamed proxy.endpoint q ∧
        q.At d.id (some ⟨.dial address, patience, .waiting⟩) answers) := by
  unfold Pool.dialled? at hdone
  rw [hat.task] at hdone
  dsimp only [Option.map] at hdone
  obtain ⟨hkeeps, -, hreport⟩ :=
    Pool.told_and_blamed horderly.sound (.dialFailed address proxy.endpoint fault) proxy.endpoint
  generalize (p.tell (.dialFailed address proxy.endpoint fault)).reportFailure proxy.endpoint =
    reported at hkeeps hreport hdone
  obtain ⟨mid, _ | _⟩ := reported
  · obtain ⟨hended, -⟩ | ⟨-, hjams, hpunished⟩ := hreport
    · cases hended
    · rw [← Option.some.inj hdone]
      exact .inl ⟨hjams, hpunished, hat.finish hkeeps _⟩
  · obtain ⟨-, hfits, hblamed⟩ | ⟨hstopped, -⟩ := hreport
    · rw [← Option.some.inj hdone]
      exact .inr ⟨hfits, hblamed.of_records rfl, hat.put hkeeps _⟩
    · cases hstopped

/-! ## Moves -/

/-- The step adds a line to the diary, and leads to the stage after it. -/
def Leads (d : Dial) (lines : List Line) (s : Step) : Prop :=
  ∃ line, s.Enters d.id line ∧ d.Stage s.after (lines ++ line.toList)

/-- What is not its own move leaves a dial where it stands. -/
theorem Stage.others (h : d.Stage p lines) {deed : Deed} (hact : p.act? deed = some q)
    (hother : deed.mover? ≠ some d.id) : d.Stage q lines := by
  cases h with
  | seeking hseeks hat => exact .seeking hseeks (hat.act hact hother)
  | trying hat => exact .trying (hat.act hact hother)
  | connected hat => exact .connected (hat.act hact hother)
  | cancelled hpatience hlate hrest hat =>
      exact .cancelled hpatience hlate hrest (hat.act hact hother)
  | jammed hat => exact .jammed (hat.act hact hother)
  | dropped hrest hat => exact .dropped hrest (hat.act hact hother)

/-- A dial that is cancelled is told so, with or without a proxy. -/
theorem leads_of_cancel {stage : CallerStage} {rest : List Line}
    (hrest : rest = [] ∨ ∃ trial, rest = [.took trial])
    (hdeed : s.deed = .move d.id .cancel) (hdone : s.before.cancel? d.id = some s.after)
    (hat : s.before.At d.id (some ⟨.dial d.address, d.patience, stage⟩) []) :
    d.Leads (attempts failures ++ rest) s := by
  obtain ⟨patience, mid, hpatience, hreached, hnotes, hkeeps, hafter⟩ :=
    Step.notes_of_cancel hdeed hat hdone
  refine ⟨some (.cancelled s.before.now), .cancelled hnotes, ?_⟩
  rw [List.append_assoc, hafter]
  exact .cancelled hpatience hreached hrest (hat.finish hkeeps _)

/-- And one that is dropped is gone. -/
theorem leads_of_abandon {stage : CallerStage} {rest : List Line}
    (hrest : rest = [] ∨ ∃ trial, rest = [.took trial])
    (hdeed : s.deed = .move d.id .abandon) (hdone : s.before.abandon? d.id = some s.after)
    (hat : s.before.At d.id (some ⟨.dial d.address, d.patience, stage⟩) []) :
    d.Leads (attempts failures ++ rest) s := by
  obtain ⟨hnotes, hafter⟩ := Step.notes_of_abandon hdeed hat hdone
  refine ⟨some .dropped, .dropped hnotes, ?_⟩
  rw [List.append_assoc]
  exact .dropped hrest hafter

/-- A dial that has no proxy yet goes on seeking, takes one, is cancelled or is dropped. -/
theorem leads_of_seeking (horderly : Orderly s.before) {move : Move} {stage : CallerStage}
    (hdeed : s.deed = .move d.id move) (hdone : s.before.move? d.id move = some s.after)
    (hseeks : stage.Seeks)
    (hat : s.before.At d.id (some ⟨.dial d.address, d.patience, stage⟩) []) :
    d.Leads (attempts failures) s := by
  have htask : s.before.task? d.id = some (.caller ⟨.dial d.address, d.patience, stage⟩) :=
    hat.task
  cases move with
  | dispense protocol =>
      obtain ⟨-, hnotes, next, hnext, hafter⟩ := Step.notes_of_dispense hdeed hat hdone
      refine ⟨none, .nothing hnotes, ?_⟩
      rw [Option.toList_none, List.append_nil]
      exact .seeking hnext hafter
  | redialled good =>
      cases good with
      | false =>
          obtain ⟨hnotes, hafter⟩ := Step.notes_of_rejection hdeed hat nofun hdone
          refine ⟨none, .nothing hnotes, ?_⟩
          rw [Option.toList_none, List.append_nil]
          exact .seeking (.inl rfl) hafter
      | true =>
          obtain ⟨proxy, mid, hnotes, hkeeps, hnow, hconfig, hhanded⟩ :=
            Step.notes_of_handing horderly hdeed hat nofun hdone
          have hcounted : Pool.Keeps none s.before
              { mid with stats := mid.stats.recordDispensed } := hkeeps.same rfl rfl rfl
          refine ⟨some (.took ⟨proxy, mid.config.validationTimeout, mid.now⟩),
            .took hnotes hnow (by rw [hconfig]), ?_⟩
          rw [hhanded]
          exact .trying (hat.put hcounted _)
  | cancel => simpa using leads_of_cancel (.inl rfl) hdeed hdone hat
  | abandon => simpa using leads_of_abandon (.inl rfl) hdeed hdone hat
  | responded outcome => simp [Pool.move?, Pool.responded?, htask] at hdone
  | dialled outcome =>
      rcases hseeks with rfl | ⟨candidate, life, timeout, recycle, since, rfl⟩ <;>
        simp [Pool.move?, Pool.dialled?, htask] at hdone
  | _ => cases Pool.byCaller_of_move? htask hdone

/-- A dial that has a proxy is connected, fails with it, is cancelled or is dropped. -/
theorem leads_of_trying (horderly : Orderly s.before) {move : Move} {trial : Trial}
    (hdeed : s.deed = .move d.id move) (hdone : s.before.move? d.id move = some s.after)
    (hat : s.before.At d.id (some ⟨.dial d.address, d.patience, trial.stage⟩) []) :
    d.Leads (attempts failures ++ [.took trial]) s := by
  have htask : s.before.task? d.id =
      some (.caller ⟨.dial d.address, d.patience, trial.stage⟩) := hat.task
  cases move with
  | dialled outcome =>
      cases outcome with
      | ok done =>
          have hafter : s.before.finish d.id (.connected trial.proxy) = s.after := by
            simpa [Pool.move?, Pool.dialled?, htask, Trial.stage] using hdone
          refine ⟨some (.connected trial), .connected hdeed htask rfl ?_, ?_⟩
          · rw [← hafter]
            rfl
          · rw [Option.toList_some, List.append_assoc, ← hafter]
            exact .connected (hat.finish (.refl _) _)
      | error fault =>
          rcases dialled?_error horderly hat hdone with
            ⟨hjams, ⟨life, hfind, hpunished⟩, hafter⟩ | ⟨hfits, hblamed, hafter⟩
          · refine ⟨some (.jammed trial), .jammed hdeed htask rfl hjams hfind hpunished, ?_⟩
            rw [Option.toList_some, List.append_assoc]
            exact .jammed hafter
          · refine ⟨_, .failed hdeed htask rfl hfits hblamed, ?_⟩
            rw [Option.toList_some, ← attempts_append failures ⟨trial, fault, s.before.now⟩]
            exact .seeking (.inl rfl) hafter
  | cancel => exact leads_of_cancel (.inr ⟨trial, rfl⟩) hdeed hdone hat
  | abandon => exact leads_of_abandon (.inr ⟨trial, rfl⟩) hdeed hdone hat
  | dispense protocol =>
      obtain ⟨hwaits, -⟩ := Step.notes_of_dispense hdeed hat hdone
      cases hwaits
  | redialled good => simp [Pool.move?, Pool.redialled?, htask, Trial.stage] at hdone
  | responded outcome => simp [Pool.move?, Pool.responded?, htask] at hdone
  | _ => cases Pool.byCaller_of_move? htask hdone

/-- Every step leads from a stage to the next one. -/
theorem Stage.step (horderly : Orderly s.before) (h : d.Stage s.before lines) :
    d.Leads lines s := by
  by_cases hown : s.deed.mover? = some d.id
  · obtain ⟨move, hdeed⟩ := Deed.eq_move_of_mover? hown
    have hdone : s.before.move? d.id move = some s.after := by
      have hact := s.done
      rw [hdeed] at hact
      exact hact
    have hover {answers : List Answer} (hat : s.before.At d.id none answers) : False := by
      rw [Pool.move?_eq_none hat.task] at hdone
      cases hdone
    cases h with
    | seeking hseeks hat => exact leads_of_seeking horderly hdeed hdone hseeks hat
    | trying hat => exact leads_of_trying horderly hdeed hdone hat
    | connected hat | cancelled hpatience hlate hrest hat | jammed hat | dropped hrest hat =>
        exact (hover hat).elim
  · refine ⟨none, .nothing (.others hown), ?_⟩
    rw [Option.toList_none, List.append_nil]
    exact h.others s.done hown

/-- What a dial that begins now agrees to. -/
def agreed (p : Pool) (address : String) (cancel : Option Nat) : Dial where
  id := p.nextTask
  address := address
  patience := cancel.map (Instant.deadline p.now)

/-- A dial begins with a wait for a proxy. -/
theorem stage_of_dial (horderly : Orderly p) (hfresh : p.Fresh) {network address : String}
    {cancel : Option Nat} (hdial : p.dial network address cancel = .ok q) :
    (agreed p address cancel).Stage q [] := by
  unfold Pool.dial at hdial
  split at hdial
  · rw [← Except.ok.inj hdial]
    have hnone : ([] : List Line) = attempts [] := rfl
    rw [hnone]
    exact .seeking (.inl rfl) (Pool.at_call horderly hfresh _ _)
  · cases hdial

/-- While it is under way, a dial wants a tunnel to its address. -/
theorem Stage.purpose_eq (h : d.Stage p lines) {c : Caller}
    (htask : p.task? d.id = some (.caller c)) : c.purpose = .dial d.address := by
  cases h with
  | seeking hseeks hat | trying hat =>
      rw [hat.task] at htask
      cases htask
      rfl
  | connected hat | cancelled hpatience hlate hrest hat | jammed hat | dropped hrest hat =>
      rw [hat.task] at htask
      cases htask

theorem stage_of_run (horderly : Orderly p) {steps : List Step} (hrun : Run p steps q)
    (hstart : d.Stage p []) : ∃ lines, Diary d.id steps lines ∧ d.Stage q lines := by
  induction hrun with
  | rest => exact ⟨[], .blank, hstart⟩
  | @step steps s hrun ih =>
      obtain ⟨lines, hdiary, hstage⟩ := ih
      obtain ⟨line, henters, hnext⟩ := hstage.step (horderly.throughout hrun).1
      exact ⟨lines ++ line.toList, .step s hdiary henters, hnext⟩

/-! ## Proxies that were tried -/

variable {id : Nat} {steps : List Step}

theorem raised_append (id : Nat) (steps : List Step) (s : Step) :
    raised id (steps ++ [s]) = raised id steps +
      if s.deed.mover? = some id then (s.after.stats.dispensed : Int) - s.before.stats.dispensed
      else 0 := by
  unfold raised
  rw [List.filter_append, List.map_append, List.sum_append]
  congr 1
  by_cases hown : s.deed.mover? = some id <;> simp [hown]

theorem tries_append (lines : List Line) (line : Option Line) :
    tries (lines ++ line.toList) = tries lines + tries line.toList :=
  List.countP_append

/-- A step that hands out nothing. -/
theorem raised_append_of_same {line : Option Line}
    (hsame : s.after.stats.dispensed = s.before.stats.dispensed)
    (hnone : tries line.toList = 0) :
    raised id (steps ++ [s]) = raised id steps + tries line.toList := by
  rw [raised_append, hsame, hnone]
  split <;> simp

/-- The count goes up by one with each proxy that the dial takes, and with no other move of
the dial. -/
theorem raised_append_of_enters {line : Option Line} (h : s.Enters id line) :
    raised id (steps ++ [s]) = raised id steps + tries line.toList := by
  cases h with
  | nothing hnotes =>
      cases hnotes with
      | others hother =>
          rw [raised_append, if_neg hother]
          rfl
      | seeks hdeed hbackoff hdispensed => exact raised_append_of_same hdispensed rfl
  | @took trial hnotes hsince htimeout =>
      obtain ⟨hown, hcounted⟩ := hnotes.counted
      have hdispensed : s.after.stats.dispensed = s.before.stats.dispensed + 1 := by
        rw [hcounted]
        rfl
      have hone : tries (some (Line.took trial)).toList = 1 := rfl
      rw [raised_append, if_pos hown, hone]
      omega
  | failed hdeed htask hstage hfits hblamed => exact raised_append_of_same hblamed.dispensed rfl
  | jammed hdeed htask hstage hjams hfind hpunished =>
      refine raised_append_of_same ?_ rfl
      rw [Pool.stats_of_records hpunished]
      rfl
  | connected hdeed htask hstage hrecords =>
      exact raised_append_of_same (by rw [Pool.stats_of_records hrecords]) rfl
  | cancelled hnotes =>
      cases hnotes with
      | gaveUp hdeed hbackoff hsame => exact raised_append_of_same (by rw [hsame]) rfl
  | dropped hnotes =>
      cases hnotes with
      | dropped hdeed hbackoff hsame => exact raised_append_of_same (by rw [hsame]) rfl

/-- The moves of a dial raise the count of proxies that were handed out by one for each
proxy that it tries. -/
theorem raised_eq_tries (h : Diary id steps lines) : raised id steps = tries lines := by
  induction h with
  | blank => rfl
  | @step steps lines line s h henters ih =>
      rw [raised_append_of_enters henters, ih, tries_append]
      push_cast
      rfl

end Dial

/-! ## Handshakes -/

namespace Session

/-- What comes of a handshake for a dial, with the session after it. -/
def handshake (s : Session) (task : Task) (address : String) (proxy : Proxy) :
    Session × Option (Except PoolError (Option Server)) × String :=
  s.listen task.networkDeadline?
    (Dialer.dial ⟨proxy.protocol, proxy.endpoint⟩ s.network address)

/-- What a session tells a dial of the handshake that it waits for. -/
structure Shakes (s : Session) (id : Nat) (task : Task) (address : String) (trial : Trial) :
    Prop where
  /-- The dial learns how the handshake has ended, and its caller what it is connected to. -/
  ended : ∀ outcome, (s.handshake task address trial.proxy).2.1 = some outcome →
    ∃ news, s.news? id task = some ((s.handshake task address trial.proxy).1, news) ∧
      news.move = some (.dialled (outcome.map fun _ => ())) ∧
      news.finding = outcome.toOption.map fun far => .connected (Dialer.reply? "ping" far)
  /-- A handshake that succeeds does so in the time that it may take. -/
  early : ∀ far, (s.handshake task address trial.proxy).2.1 = some (.ok far) →
    Instant.reached (Instant.deadline trial.since trial.timeout)
      (s.handshake task address trial.proxy).1.pool.now = false
  /-- One that does not come to an end is given up after that time, which is a failure. -/
  silent : (s.handshake task address trial.proxy).2.1 = none →
    s.isStalled (id, task) = false → ∃ after, s.inform? (id, task) = some after ∧
      (Instant.deadline trial.since trial.timeout,
        .dialled (.error (.dialTimeout trial.proxy.endpoint))) ∈ after.timers (id, task)

variable {s : Session} {id : Nat} {address : String} {patience : Option Nat} {trial : Trial}

/-- A task that hears nothing is noted, with what it does when it gives up. -/
theorem inform?_of_silent {entry : Nat × Task} {after : Session} {news : News}
    (hfirst : s.isStalled entry = false) (hnews : s.news? entry.1 entry.2 = some (after, news))
    (hsilent : news.move = none) :
    s.inform? entry = some
      { after with stalls := after.stalls ++ [⟨entry.1, entry.2, news.surrender⟩] } := by
  unfold inform?
  rw [hfirst, hnews]
  dsimp only
  rw [hsilent]
  rfl

/-- And it gives up when its time is over. -/
theorem mem_timers_of_stall {task : Task} {surrender : Move} {deadline : Nat}
    (hstall : ⟨id, task, surrender⟩ ∈ s.stalls)
    (hdeadline : task.networkDeadline? = some deadline) :
    (deadline, surrender) ∈ s.timers (id, task) := by
  unfold timers
  refine List.mem_append_right _ (List.mem_filterMap.2 ⟨_, List.mem_filter.2 ⟨hstall, ?_⟩, ?_⟩)
  · simp
  · dsimp only
    rw [hdeadline]
    rfl

/-- The session tells a dial what comes of its handshake, and nothing else. -/
theorem shakes_of_trial :
    s.Shakes id (.caller ⟨.dial address, patience, trial.stage⟩) address trial where
  ended outcome houtcome := by
    refine ⟨_, rfl, ?_, ?_⟩
    · show (s.handshake _ address trial.proxy).2.1.map _ = _
      rw [houtcome]
      rfl
    · show ((s.handshake _ address trial.proxy).2.1.bind Except.toOption).map _ = _
      rw [houtcome]
      rfl
  early far hfar := by
    have hrun : Talk.run
        (Dialer.dial ⟨trial.proxy.protocol, trial.proxy.endpoint⟩ s.network address)
        { now := s.pool.now, deadline := some (Instant.deadline trial.since trial.timeout) } =
          (some (.ok far), _) := Prod.ext hfar rfl
    exact Dialer.early_of_dial hrun _ rfl
  silent hsilent hfirst := by
    refine ⟨_, inform?_of_silent hfirst rfl ?_, mem_timers_of_stall ?_ rfl⟩
    · show (s.handshake _ address trial.proxy).2.1.map _ = _
      rw [hsilent]
      rfl
    · exact List.mem_append_right _ (List.mem_singleton.2 rfl)

end Session

/-! ## Runs -/

theorem Pool.isTcp_iff {network : String} :
    Pool.isTcp network = true ↔ network ∈ ["tcp", "tcp4", "tcp6"] := by
  simp [Pool.isTcp, or_assoc]

/-- A dial is refused unless its network is one of TCP, and then nothing happens. Otherwise it
keeps a diary from the step on with which it begins, and at any later time of a run it stands
where the diary says. It made one handshake after the other, each through a proxy that it took
for it, and reported each proxy that failed. It ended with the first handshake that succeeded,
or because it was cancelled; or else a report stopped halfway, or nobody waited for it any
more. It raised the count of proxies that were handed out by those that it took. As long as it
goes on, whatever it waits for lets it go on, and it learns of its handshake what came of it
within the time that it may take. -/
theorem dials_rotate (network address : String) (cancel : Option Nat) :
    (network ∉ ["tcp", "tcp4", "tcp6"] → ∀ p : Pool,
      p.dial network address cancel = .error (.unsupportedNetwork network) ∧
        p.act? (.dial network address cancel) = some p) ∧
    (network ∈ ["tcp", "tcp4", "tcp6"] →
      ∀ {config : Config} {slots : Slots} {p q : Pool} {s : Step} {earlier later : List Step},
        Pool.withSlots config slots = .ok p → Run p (earlier ++ s :: later) q →
        s.deed = .dial network address cancel →
        ∃ lines, Dial.Diary s.before.nextTask later lines ∧
          (Dial.agreed s.before address cancel).Stage q lines ∧
          Dial.raised s.before.nextTask later = Dial.tries lines ∧
          ∀ c, q.task? s.before.nextTask = some (.caller c) → q.GoesOn s.before.nextTask c ∧
            ∀ (session : Session) (trial : Trial), c.stage = trial.stage →
              session.Shakes s.before.nextTask (.caller c) address trial) := by
  constructor
  · intro hother p
    have hrefused : p.dial network address cancel = .error (.unsupportedNetwork network) := by
      unfold Pool.dial
      rw [if_neg (mt Pool.isTcp_iff.1 hother)]
    refine ⟨hrefused, ?_⟩
    show some (p.afterCall (p.dial network address cancel)) = some p
    rw [hrefused]
    rfl
  · intro htcp config slots p q s earlier later hmade hrun hdeed
    obtain ⟨hbefore, hfresh⟩ := Pool.orderly_and_fresh hmade (hrun.upto rfl)
    have hdial : s.before.dial network address cancel = .ok s.after := by
      have hact := s.done
      rw [hdeed] at hact
      have hafter : s.before.afterCall (s.before.dial network address cancel) = s.after :=
        Option.some.inj hact
      unfold Pool.dial at hafter ⊢
      rw [if_pos (Pool.isTcp_iff.2 htcp)] at hafter ⊢
      exact congrArg Except.ok hafter
    obtain ⟨lines, hdiary, hstage⟩ := Dial.stage_of_run (hbefore.act s.done) (hrun.since rfl).2
      (Dial.stage_of_dial hbefore hfresh hdial)
    refine ⟨lines, hdiary, hstage, Dial.raised_eq_tries hdiary, fun c htask =>
      ⟨Pool.goesOn_of_caller htask, ?_⟩⟩
    intro session trial htrying
    have hpurpose : c.purpose = .dial address := hstage.purpose_eq htask
    obtain ⟨purpose, patience, stage⟩ := c
    cases hpurpose
    cases htrying
    exact session.shakes_of_trial

/-- A dial fails with one proxy, and connects through the next one. Over another network it is
refused. -/
theorem dials_rotate_once :
    (∀ p : Pool, p.dial "udp" "x:1" none = .error (.unsupportedNetwork "udp")) ∧
    ∃ p earlier s later q lines, Pool.new Config.default = .ok p ∧
      Run p (earlier ++ s :: later) q ∧ s.deed = .dial "tcp" "x:1" none ∧
      later.map Step.deed =
        [.move 5 (.dispense .socks5), .move 5 (.redialled true),
          .move 5 (.dialled (.error (.dialTimeout "a:1"))), .move 5 (.dispense .socks5),
          .move 5 (.redialled true), .move 5 (.dialled (.ok ()))] ∧
      Dial.Diary 5 later lines ∧ (Dial.agreed s.before "x:1" none).Stage q lines ∧
      Dial.raised 5 later = Dial.tries lines ∧ q.stats.dispensed = 2 ∧
      q.answersTo 5 =
        [.connected ⟨"b:1", .socks5, some (.v4 ⟨198, 51, 100, 7⟩), some 0, 1, 0⟩] := by
  refine ⟨fun p => ((dials_rotate "udp" "x:1" none).1 (by decide) p).1, ?_⟩
  obtain ⟨p, hmade, hview⟩ : ∃ p, Pool.new Config.default = .ok p ∧
      (p.perform?
        [.load "a:1", .load "b:1", .start, .move 0 .lockIntake, .move 0 .receive,
          .move 0 .forward, .move 0 .receive, .move 0 .forward, .move 1 .look, .move 3 .pick,
          .move 3 (.attempted (.ok (.v4 ⟨198, 51, 100, 7⟩))), .move 3 .deliver, .move 1 .look,
          .move 4 .pick, .move 4 (.attempted (.ok (.v4 ⟨198, 51, 100, 7⟩))),
          .move 4 .deliver]).map (fun q => (q.nextTask, ((q.call (.dial "x:1") none).perform?
        [.move 5 (.dispense .socks5), .move 5 (.redialled true),
          .move 5 (.dialled (.error (.dialTimeout "a:1"))), .move 5 (.dispense .socks5),
          .move 5 (.redialled true), .move 5 (.dialled (.ok ()))]).map
            fun r => decide (r.stats.dispensed = 2 ∧ r.answersTo 5 = [.connected
              ⟨"b:1", .socks5, some (.v4 ⟨198, 51, 100, 7⟩), some 0, 1, 0⟩]))) =
        some (5, some true) :=
    ⟨_, rfl, by decide +kernel⟩
  obtain ⟨earlier, mid, hreach, -, hseen⟩ := Run.of_view _ hview
  obtain ⟨hnext, hdone⟩ := Prod.mk.inj hseen
  obtain ⟨q, hdone, hlast⟩ := Option.map_eq_some_iff.1 hdone
  obtain ⟨later, hrun, hdeeds⟩ := Run.of_perform?
    (Run.step ⟨mid, .dial "tcp" "x:1" none, mid.call (.dial "x:1") none, rfl⟩ hreach) hdone
  rw [← List.append_cons] at hrun
  obtain ⟨lines, hdiary, hstage, hraised, -⟩ :=
    (dials_rotate "tcp" "x:1" none).2 (by decide) hmade hrun rfl
  rw [hnext] at hdiary hraised
  obtain ⟨hdispensed, hanswer⟩ := of_decide_eq_true hlast
  exact ⟨p, earlier, _, later, q, lines, hmade, hrun, rfl, hdeeds, hdiary, hstage, hraised,
    hdispensed, hanswer⟩

/-- The first backoff window ends at a time that the clock cannot represent. The handshake
through the first proxy fails, and its first mark is to evict it. It is marked and struck and
stays, and the dial ends with no tunnel, although another proxy waits to be handed out. -/
theorem dial_without_end :
    ∃ p earlier s later q,
      Pool.new { Config.default with
        removeAfter := 1, badBackoff := 9223372036854775808 * Span.second,
        maxBadBackoff := 9223372036854775808 * Span.second } = .ok p ∧
      Run p (earlier ++ s :: later) q ∧ s.deed = .dial "tcp" "x:1" none ∧
      later.map Step.deed =
        [.move 5 (.dispense .socks5), .move 5 (.redialled true),
          .move 5 (.dialled (.error (.dialTimeout "a:1")))] ∧
      q.task? 5 = none ∧ q.answersTo 5 = [.overflowed] ∧ q.stats.dispensed = 1 ∧
      q.registry.contains "a:1" = true ∧ q.registry.badMarks 0 = 1 ∧
      q.backoff.count "a:1" = 1 ∧ q.stats.evicted = 0 ∧
      (q.outputs.get .socks5).map Proxy.endpoint = ["b:1"] := by
  obtain ⟨p, hmade, hview⟩ : ∃ p,
      Pool.new { Config.default with
        removeAfter := 1, badBackoff := 9223372036854775808 * Span.second,
        maxBadBackoff := 9223372036854775808 * Span.second } = .ok p ∧
      (p.perform?
        [.load "a:1", .load "b:1", .start, .move 0 .lockIntake, .move 0 .receive,
          .move 0 .forward, .move 0 .receive, .move 0 .forward, .move 1 .look, .move 3 .pick,
          .move 3 (.attempted (.ok (.v4 ⟨198, 51, 100, 7⟩))), .move 3 .deliver, .move 1 .look,
          .move 4 .pick, .move 4 (.attempted (.ok (.v4 ⟨198, 51, 100, 7⟩))),
          .move 4 .deliver]).map (fun q => ((q.call (.dial "x:1") none).perform?
        [.move 5 (.dispense .socks5), .move 5 (.redialled true),
          .move 5 (.dialled (.error (.dialTimeout "a:1")))]).map
            fun r => decide (r.task? 5 = none ∧ r.answersTo 5 = [.overflowed] ∧
              r.stats.dispensed = 1 ∧ r.registry.contains "a:1" = true ∧
              r.registry.badMarks 0 = 1 ∧ r.backoff.count "a:1" = 1 ∧ r.stats.evicted = 0 ∧
              (r.outputs.get .socks5).map Proxy.endpoint = ["b:1"])) =
        some (some true) := ⟨_, rfl, by decide +kernel⟩
  obtain ⟨earlier, mid, hreach, -, hseen⟩ := Run.of_view _ hview
  obtain ⟨q, hdone, hlast⟩ := Option.map_eq_some_iff.1 hseen
  obtain ⟨later, hrun, hdeeds⟩ := Run.of_perform?
    (Run.step ⟨mid, .dial "tcp" "x:1" none, mid.call (.dial "x:1") none, rfl⟩ hreach) hdone
  rw [← List.append_cons] at hrun
  exact ⟨p, earlier, _, later, q, hmade, hrun, rfl, hdeeds, of_decide_eq_true hlast⟩

end SocksPool
