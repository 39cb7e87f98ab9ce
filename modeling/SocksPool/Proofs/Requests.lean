import SocksPool.Proofs.Reports
import SocksPool.Session.State

/-!
# Requests and their retries

A request is sent through one proxy after the other. It waits for a proxy, tries it,
and ends with the first response, whatever the response says. A proxy that yields none
is reported, and the request waits for the next one; as many failures are forgiven as
was agreed when it began. So the last failure that may happen ends it, and so does a
wait that takes too long.

A request shares the pool with everything else, and between two of its moves anything
may happen. What it does itself is kept in a *diary*: a line for each proxy that it
takes, for each failure that it reports, and for its end. Each line stands for one
step, and says what that step writes into the records of the pool. Where the request
stands is read off its diary.

## Main definitions

* `Request` — what is agreed when a request begins.
* `Step.Notes` — the line that a step adds to the diary of a call.
* `Request.Stage` — where a request stands after the lines of its diary.

## Main results

* `Request.Stage.step` — a step leads from one stage to the next.
* `requests_retried` — every request of a run keeps such a diary, and is never stuck.
* `request_without_end` — a request whose report stops halfway.
-/

namespace SocksPool

/-- What is agreed when a request begins. Each wait for a proxy takes at most `wait`, and
so many failures as `retries` says are forgiven. -/
structure Request where
  id : Nat
  retries : Nat
  wait : Nat
  timeout : Nat
  begun : Nat

/-- What went wrong with the request, if anything did. -/
def Pool.Exchange.fault? : Pool.Exchange → Option HttpFault
  | .responded => none
  | .failed fault | .unusable fault => some fault

/-- What the web makes of a request. A response is one whatever its status. -/
def Pool.Exchange.of : Except HttpFault Response → Pool.Exchange
  | .ok _ => .responded
  | .error fault => .failed fault

namespace Request

/-- An attempt that failed: the proxy, the failure, and when it was reported. -/
structure Failure where
  proxy : Proxy
  fault : HttpFault
  time : Nat

/-- A line in the diary of a request. -/
inductive Line where
  /-- A proxy was handed to it. -/
  | took (proxy : Proxy)
  /-- The proxy failed and was reported. -/
  | failed (failure : Failure)
  /-- The proxy failed, and the report stopped halfway. -/
  | jammed (proxy : Proxy)
  /-- A response came through the proxy. -/
  | answered (proxy : Proxy)
  /-- The wait for a proxy took too long. -/
  | gaveUp (time : Nat)
  /-- The caller lost interest. -/
  | dropped

end Request

open Request (Line Failure)

/-- The step adds this line to the diary of the call, or none. -/
inductive Step.Notes (s : Step) (id : Nat) : Option Line → Prop where
  /-- The step is no move of the call. -/
  | others (hother : s.deed.mover? ≠ some id) : s.Notes id none
  /-- The call looks at a candidate, or rejects the one that it re-dialled. -/
  | seeks (hdeed : (∃ protocol, s.deed = .move id (.dispense protocol)) ∨
        s.deed = .move id (.redialled false))
      (hbackoff : s.after.backoff = s.before.backoff ∨
        ∃ endpoint, s.after.backoff = s.before.backoff.forget endpoint)
      (hdispensed : s.after.stats.dispensed = s.before.stats.dispensed) : s.Notes id none
  /-- The candidate is good. The call is given what is known of it now, which is counted;
  the candidate is unlocked, and that is all. -/
  | took {c : Caller} {candidate : Proxy} {life timeout since : Nat} {recycle : Bool}
      {entry : Entry} (hdeed : s.deed = .move id (.redialled true))
      (htask : s.before.task? id = some (.caller c))
      (hstage : c.stage = .checking candidate life timeout recycle since)
      (hentry : s.before.registry.entry? life = some entry)
      (hrecords : s.after.records = (s.before.registry.release life, s.before.backoff,
        s.before.usage, s.before.stats.recordDispensed)) :
      s.Notes id (some (.took entry.snapshot))
  /-- The attempt fails, and its proxy is reported. -/
  | failed {c : Caller} {proxy : Proxy} {timeout since : Nat} {outcome : Pool.Exchange}
      {fault : HttpFault} (hdeed : s.deed = .move id (.responded outcome))
      (htask : s.before.task? id = some (.caller c))
      (hstage : c.stage = .using proxy timeout since) (hfault : outcome.fault? = some fault)
      (hfits : ¬ s.before.Jams proxy.endpoint)
      (hblamed : s.before.Blamed proxy.endpoint s.after) :
      s.Notes id (some (.failed ⟨proxy, fault, s.before.now⟩))
  /-- The attempt fails. The strike for its proxy has no end that the clock can represent. -/
  | jammed {c : Caller} {proxy : Proxy} {timeout since life : Nat} {outcome : Pool.Exchange}
      {fault : HttpFault} (hdeed : s.deed = .move id (.responded outcome))
      (htask : s.before.task? id = some (.caller c))
      (hstage : c.stage = .using proxy timeout since) (hfault : outcome.fault? = some fault)
      (hjams : s.before.Jams proxy.endpoint)
      (hfind : s.before.registry.find? proxy.endpoint = some life)
      (hpunished : s.after.records = (s.before.punish life proxy.endpoint).records) :
      s.Notes id (some (.jammed proxy))
  /-- A response comes, and nothing is written down. -/
  | answered {c : Caller} {proxy : Proxy} {timeout since : Nat}
      (hdeed : s.deed = .move id (.responded .responded))
      (htask : s.before.task? id = some (.caller c))
      (hstage : c.stage = .using proxy timeout since)
      (hrecords : s.after.records = s.before.records) : s.Notes id (some (.answered proxy))
  /-- The wait takes too long. A candidate that is just being re-dialled is unlocked. -/
  | gaveUp (hdeed : s.deed = .move id .cancel) (hbackoff : s.after.backoff = s.before.backoff)
      (hstats : s.after.stats = s.before.stats) : s.Notes id (some (.gaveUp s.before.now))
  | dropped (hdeed : s.deed = .move id .abandon) (hbackoff : s.after.backoff = s.before.backoff)
      (hstats : s.after.stats = s.before.stats) : s.Notes id (some .dropped)

/-- The diary that the steps write for a call. -/
inductive Diary (id : Nat) : List Step → List Line → Prop where
  | blank : Diary id [] []
  | step {steps : List Step} {lines : List Line} {line : Option Line} (s : Step)
      (h : Diary id steps lines) (hs : s.Notes id line) :
      Diary id (steps ++ [s]) (lines ++ line.toList)

namespace Step

variable {s : Step} {id : Nat} {c : Caller} {answers : List Answer}

/-- A caller that looks at a candidate waits on, or has it re-dialled. -/
theorem notes_of_dispense {protocol : Protocol} (hdeed : s.deed = .move id (.dispense protocol))
    (hat : s.before.At id (some c) answers)
    (hdone : s.before.dispense? id protocol = some s.after) :
    c.stage = .waiting ∧ s.Notes id none ∧
      ∃ stage, stage.Seeks ∧ s.after.At id (some { c with stage }) answers := by
  obtain ⟨hwaits, stage, hseeks, hafter, hbackoff, hdispensed⟩ :=
    Pool.dispense?_reports_nothing hat hdone
  exact ⟨hwaits, .seeks (.inl ⟨protocol, hdeed⟩) hbackoff hdispensed, stage, hseeks, hafter⟩

/-- A caller whose candidate does not answer waits on. -/
theorem notes_of_rejection (hdeed : s.deed = .move id (.redialled false))
    (hat : s.before.At id (some c) answers) (hasks : c.purpose ≠ .recheck)
    (hdone : s.before.redialled? id false = some s.after) :
    s.Notes id none ∧ s.after.At id (some { c with stage := .waiting }) answers := by
  obtain ⟨hafter, hbackoff, hstats⟩ := Pool.redialled?_false hat hasks hdone
  exact ⟨.seeks (.inr hdeed) (.inl hbackoff) (by rw [hstats]), hafter⟩

/-- A caller whose candidate answers is handed a proxy. -/
theorem notes_of_handing (horderly : Orderly s.before)
    (hdeed : s.deed = .move id (.redialled true)) (hat : s.before.At id (some c) answers)
    (hasks : c.purpose ≠ .recheck) (hdone : s.before.redialled? id true = some s.after) :
    ∃ proxy mid, s.Notes id (some (.took proxy)) ∧ Pool.Keeps none s.before mid ∧
      mid.now = s.before.now ∧ mid.config = s.before.config ∧
      s.after = mid.hand id c proxy := by
  obtain ⟨candidate, life, timeout, recycle, since, entry, mid, hstage, hentry, hkeeps, hnow,
    hconfig, hrecords, hhanded⟩ := Pool.redialled?_true horderly hat hdone
  refine ⟨entry.snapshot, mid, .took hdeed hat.task hstage hentry ?_, hkeeps, hnow, hconfig,
    hhanded⟩
  rw [hhanded, Pool.records_hand mid id _ hasks]
  exact congrArg (fun records : Registry × Backoff × Usage × Stats =>
    (records.1, records.2.1, records.2.2.1, records.2.2.2.recordDispensed)) hrecords

/-- A caller that gives up is told so. -/
theorem notes_of_cancel (hdeed : s.deed = .move id .cancel)
    (hat : s.before.At id (some c) answers) (hdone : s.before.cancel? id = some s.after) :
    ∃ patience mid, c.patience = some patience ∧
      Instant.reached patience s.before.now = true ∧ s.Notes id (some (.gaveUp s.before.now)) ∧
      Pool.Keeps none s.before mid ∧ s.after = mid.giveUp id c := by
  obtain ⟨patience, mid, hpatience, hreached, hkeeps, hbackoff, hstats, hafter⟩ :=
    Pool.cancel?_reports_nothing hat hdone
  refine ⟨patience, mid, hpatience, hreached, .gaveUp hdeed ?_ ?_, hkeeps, hafter⟩
  · rw [hafter, ← hbackoff]
    unfold Pool.giveUp
    split <;> rfl
  · rw [hafter, ← hstats]
    unfold Pool.giveUp
    split <;> rfl

/-- A caller that is dropped is gone. -/
theorem notes_of_abandon (hdeed : s.deed = .move id .abandon)
    (hat : s.before.At id (some c) answers) (hdone : s.before.abandon? id = some s.after) :
    s.Notes id (some .dropped) ∧ s.after.At id none answers := by
  obtain ⟨hafter, hbackoff, hstats⟩ := Pool.abandon?_reports_nothing hat hdone
  exact ⟨.dropped hdeed hbackoff hstats, hafter⟩

/-- A call takes a proxy by a move of its own, which is counted. -/
theorem Notes.counted {proxy : Proxy} (h : s.Notes id (some (.took proxy))) :
    s.deed.mover? = some id ∧ s.after.stats = s.before.stats.recordDispensed := by
  generalize hline : some (Line.took proxy) = line at h
  cases h with
  | took hdeed htask hstage hentry hrecords =>
      refine ⟨?_, congrArg (·.2.2.2) hrecords⟩
      rw [hdeed]
      rfl
  | _ => cases hline

end Step

namespace Request

/-- What a request wants after so many failures. -/
def purpose (r : Request) (failures : Nat) : Purpose :=
  .send failures r.retries r.wait r.timeout true

/-- The lines of attempts that failed, each with a proxy of its own. -/
def attempts (failures : List Failure) : List Line :=
  failures.flatMap fun failure => [.took failure.proxy, .failed failure]

/-- The end of the wait for the next proxy. The first wait begins with the request, and
each other one with the last failure. -/
def patience (r : Request) (failures : List Failure) : Nat :=
  Instant.deadline ((failures.getLast?.map Failure.time).getD r.begun) r.wait

/-- Where a request stands after the lines of its diary. -/
inductive Stage (r : Request) (q : Pool) : List Line → Prop where
  /-- It waits for a proxy, or has a candidate re-dialled. -/
  | seeking {failures : List Failure} {stage : CallerStage}
      (hfew : failures.length ≤ r.retries) (hseeks : stage.Seeks)
      (hat : q.At r.id
        (some ⟨r.purpose failures.length, some (r.patience failures), stage⟩) []) :
      Stage r q (attempts failures)
  /-- It has a proxy, and waits for a response. -/
  | trying {failures : List Failure} {proxy : Proxy} {since : Nat}
      (hfew : failures.length ≤ r.retries)
      (hat : q.At r.id
        (some ⟨r.purpose failures.length, none, .using proxy r.timeout since⟩) []) :
      Stage r q (attempts failures ++ [.took proxy])
  /-- A response came through the last proxy. -/
  | answered {failures : List Failure} {proxy : Proxy} (hfew : failures.length ≤ r.retries)
      (hat : q.At r.id none [.responded proxy]) :
      Stage r q (attempts failures ++ [.took proxy, .answered proxy])
  /-- One attempt more has failed than is forgiven. -/
  | exhausted {failures : List Failure} {last : Failure} (hall : failures.length = r.retries)
      (hat : q.At r.id none [.requestFailed last.fault]) :
      Stage r q (attempts (failures ++ [last]))
  /-- No proxy came in time. -/
  | starved {failures : List Failure} {time : Nat} (hfew : failures.length ≤ r.retries)
      (hlate : Instant.reached (r.patience failures) time = true)
      (hat : q.At r.id none [.noProxy]) :
      Stage r q (attempts failures ++ [.gaveUp time])
  /-- The report of the last proxy stopped halfway, and the request with it. -/
  | jammed {failures : List Failure} {proxy : Proxy} (hfew : failures.length ≤ r.retries)
      (hat : q.At r.id none [.overflowed]) :
      Stage r q (attempts failures ++ [.took proxy, .jammed proxy])
  /-- Nobody wanted its answer any more. -/
  | dropped {failures : List Failure} {rest : List Line} (hfew : failures.length ≤ r.retries)
      (hrest : rest = [] ∨ ∃ proxy, rest = [.took proxy]) (hat : q.At r.id none []) :
      Stage r q (attempts failures ++ (rest ++ [.dropped]))

variable {r : Request} {p q : Pool} {s : Step} {failures : List Failure} {lines : List Line}

/-! ## Attempts -/

theorem attempts_append (failures : List Failure) (last : Failure) :
    attempts (failures ++ [last]) = attempts failures ++ [.took last.proxy] ++ [.failed last] := by
  simp [attempts, List.flatMap_append]

/-- After a failure, the wait for the next proxy begins. -/
theorem patience_append (r : Request) (failures : List Failure) (last : Failure) :
    r.patience (failures ++ [last]) = Instant.deadline last.time r.wait := by
  simp [patience]

/-- A failed attempt is reported. The report stops halfway, and the request with it; or the
request ends with the failure, or waits for another proxy. -/
theorem next_blames (horderly : Orderly p) {stood : Caller} {answers : List Answer}
    (hat : p.At r.id (some stood) answers) (e : Event) (c : Caller) (count : Nat) (proxy : Proxy)
    (fault : HttpFault)
    (hnext : Pool.responded?.next r.id (p.tell e) c count r.retries r.wait r.timeout true proxy
      fault = q) :
    (p.Jams proxy.endpoint ∧
        (∃ life, p.registry.find? proxy.endpoint = some life ∧
          q.records = (p.punish life proxy.endpoint).records) ∧
        q.At r.id none (answers ++ [.overflowed])) ∨
      (¬ p.Jams proxy.endpoint ∧ p.Blamed proxy.endpoint q ∧
        (r.retries < count + 1 ∧ q.At r.id none (answers ++ [.requestFailed fault]) ∨
          count + 1 ≤ r.retries ∧ q.At r.id
            (some ⟨r.purpose (count + 1), some (Instant.deadline p.now r.wait), .waiting⟩)
            answers)) := by
  obtain ⟨hkeeps, hnow, hreport⟩ := Pool.told_and_blamed horderly.sound e proxy.endpoint
  unfold Pool.responded?.next at hnext
  generalize (p.tell e).reportFailure proxy.endpoint = reported at hkeeps hnow hreport hnext
  obtain ⟨mid, _ | _⟩ := reported
  · obtain ⟨hended, -⟩ | ⟨-, hjams, hpunished⟩ := hreport
    · cases hended
    · rw [← hnext]
      exact .inl ⟨hjams, hpunished, hat.finish hkeeps _⟩
  · obtain ⟨-, hfits, hblamed⟩ | ⟨hstopped, -⟩ := hreport
    · dsimp only at hnext
      refine .inr ⟨hfits, ?_⟩
      split at hnext
      · next hlast =>
          rw [← hnext]
          exact ⟨hblamed.of_records rfl, .inl ⟨hlast, hat.finish hkeeps _⟩⟩
      · next hmore =>
          rw [← hnext]
          refine ⟨hblamed.of_records rfl, .inr ⟨Nat.le_of_not_lt hmore, ?_⟩⟩
          rw [show mid.now = p.now from hnow]
          exact hat.put hkeeps _
    · cases hstopped

/-! ## Moves -/

/-- The step adds a line to the diary, and leads to the stage after it. -/
def Leads (r : Request) (lines : List Line) (s : Step) : Prop :=
  ∃ line, s.Notes r.id line ∧ r.Stage s.after (lines ++ line.toList)

/-- What is not its own move leaves a request where it stands. -/
theorem Stage.others (h : r.Stage p lines) {d : Deed} (hact : p.act? d = some q)
    (hother : d.mover? ≠ some r.id) : r.Stage q lines := by
  cases h with
  | seeking hfew hseeks hat => exact .seeking hfew hseeks (hat.act hact hother)
  | trying hfew hat => exact .trying hfew (hat.act hact hother)
  | answered hfew hat => exact .answered hfew (hat.act hact hother)
  | exhausted hall hat => exact .exhausted hall (hat.act hact hother)
  | starved hfew hlate hat => exact .starved hfew hlate (hat.act hact hother)
  | jammed hfew hat => exact .jammed hfew (hat.act hact hother)
  | dropped hfew hrest hat => exact .dropped hfew hrest (hat.act hact hother)

/-- A request that has no proxy yet goes on seeking, takes one, gives up, or is dropped. -/
theorem leads_of_seeking (horderly : Orderly s.before) {move : Move} {stage : CallerStage}
    (hdeed : s.deed = .move r.id move) (hdone : s.before.move? r.id move = some s.after)
    (hfew : failures.length ≤ r.retries) (hseeks : stage.Seeks)
    (hat : s.before.At r.id
      (some ⟨r.purpose failures.length, some (r.patience failures), stage⟩) []) :
    r.Leads (attempts failures) s := by
  have htask : s.before.task? r.id =
      some (.caller ⟨r.purpose failures.length, some (r.patience failures), stage⟩) := hat.task
  cases move with
  | dispense protocol =>
      obtain ⟨-, hnotes, next, hnext, hafter⟩ := Step.notes_of_dispense hdeed hat hdone
      refine ⟨none, hnotes, ?_⟩
      rw [Option.toList_none, List.append_nil]
      exact .seeking hfew hnext hafter
  | redialled good =>
      cases good with
      | false =>
          obtain ⟨hnotes, hafter⟩ := Step.notes_of_rejection hdeed hat nofun hdone
          refine ⟨none, hnotes, ?_⟩
          rw [Option.toList_none, List.append_nil]
          exact .seeking hfew (.inl rfl) hafter
      | true =>
          obtain ⟨proxy, mid, hnotes, hkeeps, -, -, hhanded⟩ :=
            Step.notes_of_handing horderly hdeed hat nofun hdone
          have hcounted : Pool.Keeps none s.before
              { mid with stats := mid.stats.recordDispensed } := hkeeps.same rfl rfl rfl
          refine ⟨some (.took proxy), hnotes, ?_⟩
          rw [hhanded]
          exact .trying hfew (hat.put (hcounted.tell _) _)
  | cancel =>
      obtain ⟨patience, mid, hpatience, hreached, hnotes, hkeeps, hafter⟩ :=
        Step.notes_of_cancel hdeed hat hdone
      cases hpatience
      refine ⟨some (.gaveUp s.before.now), hnotes, .starved hfew hreached ?_⟩
      rw [hafter]
      exact hat.finish (hkeeps.tell _) .noProxy
  | abandon =>
      obtain ⟨hnotes, hafter⟩ := Step.notes_of_abandon hdeed hat hdone
      exact ⟨some .dropped, hnotes, .dropped hfew (.inl rfl) hafter⟩
  | dialled outcome => simp [Pool.move?, Pool.dialled?, htask, purpose] at hdone
  | responded outcome =>
      rcases hseeks with rfl | ⟨candidate, life, timeout, recycle, since, rfl⟩ <;>
        simp [Pool.move?, Pool.responded?, htask, purpose] at hdone
  | _ => cases Pool.byCaller_of_move? htask hdone

/-- A request that has a proxy gets a response, fails with it, or is dropped. -/
theorem leads_of_trying (horderly : Orderly s.before) {move : Move} {proxy : Proxy} {since : Nat}
    (hdeed : s.deed = .move r.id move) (hdone : s.before.move? r.id move = some s.after)
    (hfew : failures.length ≤ r.retries)
    (hat : s.before.At r.id
      (some ⟨r.purpose failures.length, none, .using proxy r.timeout since⟩) []) :
    r.Leads (attempts failures ++ [.took proxy]) s := by
  have htask : s.before.task? r.id =
      some (.caller ⟨r.purpose failures.length, none, .using proxy r.timeout since⟩) := hat.task
  cases move with
  | responded outcome =>
      -- Both kinds of failure are told to the log and then go the same way.
      have hfailed (e : Event) (fault : HttpFault) (hfault : outcome.fault? = some fault)
          (hnext : Pool.responded?.next r.id (s.before.tell e)
            ⟨r.purpose failures.length, none, .using proxy r.timeout since⟩ failures.length
            r.retries r.wait r.timeout true proxy fault = s.after) :
          r.Leads (attempts failures ++ [.took proxy]) s := by
        rcases next_blames horderly hat e _ _ proxy fault hnext with
          ⟨hjams, ⟨life, hfind, hpunished⟩, hafter⟩ |
          ⟨hfits, hblamed, ⟨hlast, hafter⟩ | ⟨hmore, hafter⟩⟩
        · refine ⟨_, .jammed hdeed htask rfl hfault hjams hfind hpunished, ?_⟩
          rw [Option.toList_some, List.append_assoc]
          exact .jammed hfew hafter
        · refine ⟨_, .failed hdeed htask rfl hfault hfits hblamed, ?_⟩
          rw [Option.toList_some, ← attempts_append failures ⟨proxy, fault, s.before.now⟩]
          exact .exhausted (Nat.le_antisymm hfew (Nat.le_of_lt_succ hlast)) hafter
        · refine ⟨_, .failed hdeed htask rfl hfault hfits hblamed, ?_⟩
          rw [Option.toList_some, ← attempts_append failures ⟨proxy, fault, s.before.now⟩]
          refine .seeking ?_ (.inl rfl) ?_
          · rw [List.length_append]
            exact hmore
          · rw [List.length_append, patience_append]
            exact hafter
      have hresponded : s.before.responded? r.id outcome = some s.after := hdone
      unfold Pool.responded? at hresponded
      rw [htask] at hresponded
      cases outcome with
      | responded =>
          refine ⟨some (.answered proxy), .answered hdeed htask rfl ?_, ?_⟩
          · rw [← Option.some.inj hresponded]
            rfl
          · rw [Option.toList_some, List.append_assoc, ← Option.some.inj hresponded]
            exact .answered hfew (hat.finish (.refl _) _)
      | failed fault => exact hfailed _ fault rfl (Option.some.inj hresponded)
      | unusable fault => exact hfailed _ fault rfl (Option.some.inj hresponded)
  | abandon =>
      obtain ⟨hnotes, hafter⟩ := Step.notes_of_abandon hdeed hat hdone
      refine ⟨some .dropped, hnotes, ?_⟩
      rw [List.append_assoc]
      exact .dropped hfew (.inr ⟨proxy, rfl⟩) hafter
  | dispense protocol =>
      obtain ⟨hwaits, -⟩ := Step.notes_of_dispense hdeed hat hdone
      cases hwaits
  | cancel => simp [Pool.move?, Pool.cancel?, htask] at hdone
  | redialled good => simp [Pool.move?, Pool.redialled?, htask] at hdone
  | dialled outcome => simp [Pool.move?, Pool.dialled?, htask, purpose] at hdone
  | _ => cases Pool.byCaller_of_move? htask hdone

/-- Every step leads from a stage to the next one. -/
theorem Stage.step (horderly : Orderly s.before) (h : r.Stage s.before lines) :
    r.Leads lines s := by
  by_cases hown : s.deed.mover? = some r.id
  · obtain ⟨move, hdeed⟩ := Deed.eq_move_of_mover? hown
    have hdone : s.before.move? r.id move = some s.after := by
      have hact := s.done
      rw [hdeed] at hact
      exact hact
    have hover {answers : List Answer} (hat : s.before.At r.id none answers) : False := by
      rw [Pool.move?_eq_none hat.task] at hdone
      cases hdone
    cases h with
    | seeking hfew hseeks hat => exact leads_of_seeking horderly hdeed hdone hfew hseeks hat
    | trying hfew hat => exact leads_of_trying horderly hdeed hdone hfew hat
    | answered hfew hat | exhausted hall hat | starved hfew hlate hat | jammed hfew hat
    | dropped hfew hrest hat => exact (hover hat).elim
  · refine ⟨none, .others hown, ?_⟩
    rw [Option.toList_none, List.append_nil]
    exact h.others s.done hown

/-- What a request that begins now agrees to. -/
def agreed (p : Pool) : Request where
  id := p.nextTask
  retries := p.config.dispatchRetries
  wait := p.config.dispenseTimeout
  timeout := p.config.validationTimeout
  begun := p.now

/-- A request begins with a wait for a proxy. -/
theorem stage_of_send (horderly : Orderly p) (hfresh : p.Fresh) :
    (agreed p).Stage (p.send true) [] := by
  have hat : (p.send true).At p.nextTask
      (some ⟨(agreed p).purpose 0, some ((agreed p).patience []), .waiting⟩) [] :=
    Pool.at_call horderly hfresh _ _
  have hfew : ([] : List Failure).length ≤ (agreed p).retries := Nat.zero_le _
  exact .seeking hfew (.inl rfl) hat

/-- While it is under way, a request wants a response. -/
theorem Stage.purpose_eq (h : r.Stage p lines) {c : Caller}
    (htask : p.task? r.id = some (.caller c)) : ∃ failures, c.purpose = r.purpose failures := by
  cases h with
  | seeking hfew hseeks hat =>
      rw [hat.task] at htask
      cases htask
      exact ⟨_, rfl⟩
  | trying hfew hat =>
      rw [hat.task] at htask
      cases htask
      exact ⟨_, rfl⟩
  | answered hfew hat | exhausted hall hat | starved hfew hlate hat | jammed hfew hat
  | dropped hfew hrest hat =>
      rw [hat.task] at htask
      cases htask

theorem stage_of_run (horderly : Orderly p) {steps : List Step} (hrun : Run p steps q)
    (hstart : r.Stage p []) : ∃ lines, Diary r.id steps lines ∧ r.Stage q lines := by
  induction hrun with
  | rest => exact ⟨[], .blank, hstart⟩
  | @step steps s hrun ih =>
      obtain ⟨lines, hdiary, hstage⟩ := ih
      obtain ⟨line, hnotes, hnext⟩ := hstage.step (horderly.throughout hrun).1
      exact ⟨lines ++ line.toList, .step s hdiary hnotes, hnext⟩

end Request

/-! ## Responses -/

namespace Session

/-- What comes of a request that is sent through a proxy now. -/
def exchange? (s : Session) (id : Nat) (task : Task) (proxy : Proxy) :
    Option (Except HttpFault Response) :=
  (s.listen task.networkDeadline?
    (sendThrough s.network proxy ((s.wishes.lookup id).getD ""))).2.1

/-- A request that is under way learns what the web makes of it. -/
theorem news?_of_exchange? {s : Session} {id : Nat} {c : Caller}
    {failures retries wait allowed : Nat} {cloneable : Bool} {proxy : Proxy}
    {timeout since : Nat} (hpurpose : c.purpose = .send failures retries wait allowed cloneable)
    (hstage : c.stage = .using proxy timeout since) (hurl : Url.isProxyUrl proxy.url = true)
    {result : Except HttpFault Response}
    (hresult : s.exchange? id (.caller c) proxy = some result) :
    ∃ after news, s.news? id (.caller c) = some (after, news) ∧
      news.move = some (.responded (.of result)) := by
  obtain ⟨purpose, patience, stage⟩ := c
  cases hpurpose
  cases hstage
  unfold exchange? at hresult
  unfold news?
  dsimp only
  rw [hurl, if_neg (by decide)]
  refine ⟨_, _, rfl, ?_⟩
  dsimp only
  rw [hresult]
  cases result <;> rfl

end Session

/-! ## Runs -/

/-- A request that can be sent again keeps a diary from the step on with which it begins,
and at any later time of a run it stands where the diary says. It made one attempt after
the other, each with a proxy that it took for it, and reported each proxy that failed. It
ended with the first response, with the failure that was one too many, or because a wait
took too long; or else a report stopped halfway, or nobody waited for it any more. Until
then, whatever it waits for lets it go on, and any response of the web is one. -/
theorem requests_retried {config : Config} {slots : Slots} {p q : Pool} {s : Step}
    {earlier later : List Step} (hmade : Pool.withSlots config slots = .ok p)
    (hrun : Run p (earlier ++ s :: later) q) (hsend : s.deed = .send true) :
    ∃ lines, Diary s.before.nextTask later lines ∧ (Request.agreed s.before).Stage q lines ∧
      ∀ c, q.task? s.before.nextTask = some (.caller c) → q.GoesOn s.before.nextTask c ∧
        ∀ (session : Session) proxy timeout since result,
          c.stage = .using proxy timeout since → Url.isProxyUrl proxy.url = true →
          session.exchange? s.before.nextTask (.caller c) proxy = some result →
          ∃ after news, session.news? s.before.nextTask (.caller c) = some (after, news) ∧
            news.move = some (.responded (.of result)) := by
  obtain ⟨hbefore, hfresh⟩ := Pool.orderly_and_fresh hmade (hrun.upto rfl)
  have hafter : s.after = s.before.send true := by
    have hact := s.done
    rw [hsend] at hact
    exact (Option.some.inj hact).symm
  have hstart : (Request.agreed s.before).Stage s.after [] := by
    rw [hafter]
    exact Request.stage_of_send hbefore hfresh
  obtain ⟨lines, hdiary, hstage⟩ :=
    Request.stage_of_run (hbefore.act s.done) (hrun.since rfl).2 hstart
  refine ⟨lines, hdiary, hstage, fun c htask => ⟨Pool.goesOn_of_caller htask, ?_⟩⟩
  intro session proxy timeout since result husing hurl hresult
  obtain ⟨failures, hpurpose⟩ := hstage.purpose_eq htask
  exact session.news?_of_exchange? hpurpose husing hurl hresult

/-- A request fails with one proxy, and gets a response through the next one. -/
theorem requests_retried_once :
    ∃ p earlier s later q lines, Pool.new Config.default = .ok p ∧
      Run p (earlier ++ s :: later) q ∧ s.deed = .send true ∧
      later.map Step.deed =
        [.move 5 (.dispense .socks5), .move 5 (.redialled true),
          .move 5 (.responded (.failed (.request "http://c/"))), .move 5 (.dispense .socks5),
          .move 5 (.redialled true), .move 5 (.responded .responded)] ∧
      Diary 5 later lines ∧ (Request.agreed s.before).Stage q lines ∧
      q.answersTo 5 =
        [.responded ⟨"b:1", .socks5, some (.v4 ⟨198, 51, 100, 7⟩), some 0, 1, 0⟩] := by
  obtain ⟨p, hmade, hview⟩ : ∃ p, Pool.new Config.default = .ok p ∧
      (p.perform?
        [.load "a:1", .load "b:1", .start, .move 0 .lockIntake, .move 0 .receive,
          .move 0 .forward, .move 0 .receive, .move 0 .forward, .move 1 .look, .move 3 .pick,
          .move 3 (.attempted (.ok (.v4 ⟨198, 51, 100, 7⟩))), .move 3 .deliver, .move 1 .look,
          .move 4 .pick, .move 4 (.attempted (.ok (.v4 ⟨198, 51, 100, 7⟩))),
          .move 4 .deliver]).map (fun q => (q.nextTask, ((q.send true).perform?
        [.move 5 (.dispense .socks5), .move 5 (.redialled true),
          .move 5 (.responded (.failed (.request "http://c/"))), .move 5 (.dispense .socks5),
          .move 5 (.redialled true), .move 5 (.responded .responded)]).map (·.answersTo 5))) =
        some (5, some [.responded
          ⟨"b:1", .socks5, some (.v4 ⟨198, 51, 100, 7⟩), some 0, 1, 0⟩]) :=
    ⟨_, rfl, by decide +kernel⟩
  obtain ⟨earlier, mid, hreach, -, hseen⟩ := Run.of_view _ hview
  obtain ⟨hnext, hdone⟩ := Prod.mk.inj hseen
  obtain ⟨q, hdone, hanswer⟩ := Option.map_eq_some_iff.1 hdone
  obtain ⟨later, hrun, hdeeds⟩ :=
    Run.of_perform? (Run.step ⟨mid, .send true, mid.send true, rfl⟩ hreach) hdone
  rw [← List.append_cons] at hrun
  obtain ⟨lines, hdiary, hstage, -⟩ := requests_retried hmade hrun rfl
  rw [hnext] at hdiary
  exact ⟨p, earlier, _, later, q, lines, hmade, hrun, rfl, hdeeds, hdiary, hstage, hanswer⟩

/-- The first backoff window ends at a time that the clock cannot represent. A request that
may fail once fails with its only proxy, whose first mark is to evict it. It is marked and
struck and stays, and the request ends with neither a response nor the failure. -/
theorem request_without_end :
    ∃ p earlier s later q,
      Pool.new { Config.default with
        removeAfter := 1, dispatchRetries := 0, badBackoff := 9223372036854775808 * Span.second,
        maxBadBackoff := 9223372036854775808 * Span.second } = .ok p ∧
      Run p (earlier ++ s :: later) q ∧ s.deed = .send true ∧
      later.map Step.deed =
        [.move 4 (.dispense .socks5), .move 4 (.redialled true),
          .move 4 (.responded (.failed (.request "http://c/")))] ∧
      q.task? 4 = none ∧ q.answersTo 4 = [.overflowed] ∧ q.stats.dispensed = 1 ∧
      q.registry.contains "a:1" = true ∧ q.registry.badMarks 0 = 1 ∧
      q.backoff.count "a:1" = 1 ∧ q.stats.evicted = 0 := by
  obtain ⟨p, hmade, hview⟩ : ∃ p,
      Pool.new { Config.default with
        removeAfter := 1, dispatchRetries := 0, badBackoff := 9223372036854775808 * Span.second,
        maxBadBackoff := 9223372036854775808 * Span.second } = .ok p ∧
      (p.perform?
        [.load "a:1", .start, .move 0 .lockIntake, .move 0 .receive, .move 0 .forward,
          .move 1 .look, .move 3 .pick, .move 3 (.attempted (.ok (.v4 ⟨198, 51, 100, 7⟩))),
          .move 3 .deliver]).map (fun q => ((q.send true).perform?
        [.move 4 (.dispense .socks5), .move 4 (.redialled true),
          .move 4 (.responded (.failed (.request "http://c/")))]).map
            fun r => decide (r.task? 4 = none ∧ r.answersTo 4 = [.overflowed] ∧
              r.stats.dispensed = 1 ∧ r.registry.contains "a:1" = true ∧
              r.registry.badMarks 0 = 1 ∧ r.backoff.count "a:1" = 1 ∧ r.stats.evicted = 0)) =
        some (some true) := ⟨_, rfl, by decide +kernel⟩
  obtain ⟨earlier, mid, hreach, -, hseen⟩ := Run.of_view _ hview
  obtain ⟨q, hdone, hlast⟩ := Option.map_eq_some_iff.1 hseen
  obtain ⟨later, hrun, hdeeds⟩ :=
    Run.of_perform? (Run.step ⟨mid, .send true, mid.send true, rfl⟩ hreach) hdone
  rw [← List.append_cons] at hrun
  exact ⟨p, earlier, _, later, q, hmade, hrun, rfl, hdeeds, of_decide_eq_true hlast⟩

end SocksPool
