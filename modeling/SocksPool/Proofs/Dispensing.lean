import SocksPool.Proofs.Gate

/-!
# A call that nobody disturbs

A call takes the candidates off its queue one by one, and hands out the first that passes
the gate. While nobody else does anything and the clock stands still, its moves are known
beforehand: it takes a candidate, and re-dials it if it breaks no rule. So they can be
written down, given what each re-dial would come to, and the call makes these moves and no
others.

That the call is under way while it judges does not matter. Its task is left out of account
by the gate, the lock that it holds during a re-dial is given back before it looks at the
next candidate, and only the part of the queue behind the candidate is left to it. So each
candidate takes the call from waiting, in one state, to waiting or its end, in the state
that the rules of the gate lead to. The induction is on the queue.

## Main definitions

* `Pool.script` — the moves of a call.
* `Pool.Served` — what a call comes to.
* `Pool.HandedOver`, `Pool.LeftWaiting` — what is seen of it.

## Main results

* `Served.of_script` — the moves are possible and serve the call.
* `script_of_perform?` — it makes no others.
* `first_good_wins` — the first good candidate is handed over.
-/

open SocksPool.Task (Numbered)

namespace SocksPool

/-- A call for a proxy of one protocol that is never cancelled. -/
def Task.taker (protocol : Protocol) (stage : CallerStage) : Task :=
  .caller ⟨.take (some protocol), none, stage⟩

namespace Pool

/-- The pool with other candidates on the output queue of a protocol. -/
def queued (p : Pool) (protocol : Protocol) (queue : List Proxy) : Pool :=
  { p with outputs := p.outputs.set protocol queue }

/-- The pool after a call has got its proxy, which may be validated again. -/
def handOver (p : Pool) (id : Nat) (endpoint : String) (proxy : Proxy) : Pool :=
  let recycled := p.recycle p.config.recycle endpoint
  finish { recycled with stats := recycled.stats.recordDispensed } id (.proxy proxy)

/-- The pool while a call waits for one of the given candidates. -/
def waiting (p : Pool) (id : Nat) (protocol : Protocol) (queue : List Proxy) : Pool :=
  (p.queued protocol queue).put id (.taker protocol .waiting)

/-- The pool while a call re-dials a candidate. -/
def checking (p : Pool) (id : Nat) (protocol : Protocol) (queue : List Proxy)
    (candidate : Proxy) (life : Nat) : Pool :=
  ((p.queued protocol queue).lock life).put id (.taker protocol (p.checkingStage candidate life))

/-- The moves by which a call deals with a candidate, whose re-dial would come to the given
end. -/
def turn (p : Pool) (protocol : Protocol) (endpoint : String) (reachable : Bool) : List Move :=
  .dispense protocol :: if (p.breaks? endpoint).isNone then [.redialled reachable] else []

/-- The moves of a whole call: it deals with one candidate after the other up to the first
one that it may be handed. -/
def script (p : Pool) (protocol : Protocol) : List (Proxy × Bool) → List Move
  | [] => []
  | (candidate, reachable) :: more =>
    p.turn protocol candidate.endpoint reachable ++
      match p.fails? candidate.endpoint reachable with
      | some rule => (p.discard candidate.endpoint rule).script protocol more
      | none => []

/-- What a call comes to: the first good candidate that can be reached is handed over, or
there is none and the call waits. -/
inductive Served (p : Pool) (id : Nat) (protocol : Protocol) :
    List (Proxy × Bool) → Pool → Prop where
  | handed {before behind : List (Proxy × Bool)} {rules : List Rule} {candidate : Proxy}
      {mid : Pool} {entry : Entry}
      (hrejected : p.Rejects before rules mid) (hgood : mid.Good candidate.endpoint entry) :
      Served p id protocol (before ++ (candidate, true) :: behind)
        ((mid.queued protocol (behind.map Prod.fst)).handOver id candidate.endpoint
          entry.snapshot)
  | unserved {trials : List (Proxy × Bool)} {rules : List Rule} {mid : Pool}
      (hrejected : p.Rejects trials rules mid) :
      Served p id protocol trials (mid.waiting id protocol [])

variable {p q : Pool} {id life : Nat} {protocol : Protocol} {candidate : Proxy}
  {queue : List Proxy} {rule : Rule} {entry : Entry}

/-! ## The task of the call -/

/-- What becomes of a candidate has nothing to do with the task of the call. -/
theorem discard_put (hbelow : id < p.nextTask) (endpoint : String) (rule : Rule)
    (task new : Task) :
    ((p.put id task).discard endpoint rule).put id new = (p.discard endpoint rule).put id new := by
  have hput : id < (p.put id task).nextTask := hbelow
  refine put_congr ?_ new
  rw [remove_discard hput, remove_put, remove_discard hbelow]

/-- Nor has it with the queue. -/
theorem discard_queued (p : Pool) (protocol : Protocol) (queue : List Proxy) (endpoint : String)
    (rule : Rule) :
    (p.queued protocol queue).discard endpoint rule =
      (p.discard endpoint rule).queued protocol queue := by
  have hregistry : (p.queued protocol queue).registry = p.registry := rfl
  have hpenalty : (p.queued protocol queue).penalise endpoint rule =
      (p.penalise endpoint rule).queued protocol queue := by
    cases rule with
    | registered | unlocked | notBackedOff | fresh => rfl
    | fewMarks =>
        unfold penalise evict
        rw [hregistry]
        cases p.registry.delete endpoint <;> rfl
    | reachable =>
        unfold penalise
        rw [hregistry]
        cases p.registry.find? endpoint <;> rfl
  unfold discard
  rw [hpenalty]
  show recycle _ (rule.recycles && p.config.recycle) endpoint = _
  cases rule.recycles && p.config.recycle <;> rfl

/-- A lock that the call gives back has not been there. -/
theorem unlock_put_lock (p : Pool) (id : Nat) (task : Task)
    (hentry : p.registry.entry? life = some entry) (hfree : entry.locked = false) :
    ((p.lock life).put id task).unlock life = p.put id task :=
  congrArg (fun registry => { p.put id task with registry })
    (Registry.release_lock hentry hfree)

/-- Nor has one that is given back after a bad mark. -/
theorem unlock_put_mark (id : Nat) (task : Task) {endpoint : String}
    (hfind : p.registry.find? endpoint = some life) (hentry : p.registry.entry? life = some entry)
    (hfree : entry.locked = false) :
    ((((p.lock life).put id task).tell (.skippedDead endpoint)).markBad life).1.unlock life =
      (p.put id task).penalise endpoint .reachable := by
  have hfound : (p.put id task).registry.find? endpoint = some life := hfind
  unfold penalise
  rw [hfound]
  exact congrArg (fun registry => { (p.put id task).tell (.skippedDead endpoint) with registry })
    (Registry.release_markBad_lock hentry hfree)

theorem remove_put_recycle (hbelow : id < p.nextTask) (task : Task) (wanted : Bool)
    (endpoint : String) :
    ((p.put id task).recycle wanted endpoint).remove id =
      (p.recycle wanted endpoint).remove id := by
  have hput : id < (p.put id task).nextTask := hbelow
  rw [remove_recycle hput, remove_put, remove_recycle hbelow]

/-! ## The steps of the call -/

/-- A call takes the oldest candidate off the queue and judges it. -/
theorem dispense_waiting (hknown : protocol ≠ .unknown) :
    (p.waiting id protocol (candidate :: queue)).dispense? id protocol =
      match (p.waiting id protocol queue).judge candidate.endpoint with
      | (q, none) => some (q.put id (.taker protocol .waiting))
      | (q, some life) =>
        some (q.put id (.taker protocol (q.checkingStage candidate life))) := by
  have htask : (p.waiting id protocol (candidate :: queue)).task? id =
      some (.taker protocol .waiting) := task?_put_self ..
  have hqueue : (p.waiting id protocol (candidate :: queue)).outputs.get protocol =
      candidate :: queue := by
    show (p.outputs.set protocol _).get protocol = _
    rw [Outputs.get_set _ hknown, if_pos rfl]
  have hset : (p.outputs.set protocol (candidate :: queue)).set protocol queue =
      p.outputs.set protocol queue := Outputs.set_set ..
  have htaken : { p.waiting id protocol (candidate :: queue) with
      outputs := (p.waiting id protocol (candidate :: queue)).outputs.set protocol queue } =
        p.waiting id protocol queue :=
    congrArg (fun outputs => { p.waiting id protocol queue with outputs }) hset
  have haccepts : Purpose.accepts (.take (some protocol)) protocol = true := by
    simp [Purpose.accepts]
  unfold dispense?
  rw [htask, hqueue]
  simp only [Task.taker, haccepts, and_self, if_true]
  exact htaken ▸ rfl

/-- A candidate that breaks a rule before the re-dial is discarded. -/
theorem dispense_of_breaks (hknown : protocol ≠ .unknown) (hbelow : id < p.nextTask)
    (hrule : p.breaks? candidate.endpoint = some rule) :
    (p.waiting id protocol (candidate :: queue)).dispense? id protocol =
      some ((p.discard candidate.endpoint rule).waiting id protocol queue) := by
  have hjudge := judge_of_breaks (p := p.waiting id protocol queue) hrule
  rw [dispense_waiting hknown, hjudge]
  show some (((p.queued protocol queue).put id _).discard candidate.endpoint rule |>.put id _) = _
  have hput : id < (p.queued protocol queue).nextTask := hbelow
  rw [discard_put hput, discard_queued]
  rfl

/-- A good candidate is locked and re-dialled. -/
theorem dispense_of_good (hknown : protocol ≠ .unknown)
    (hfind : p.registry.find? candidate.endpoint = some life)
    (hgood : p.Good candidate.endpoint entry) :
    (p.waiting id protocol (candidate :: queue)).dispense? id protocol =
      some (p.checking id protocol queue candidate life) := by
  have hsame : (p.waiting id protocol queue).Good candidate.endpoint entry :=
    ⟨hgood.registered, hgood.unlocked, hgood.fewMarks, hgood.notBackedOff, hgood.fresh⟩
  rw [dispense_waiting hknown, judge_of_good (p := p.waiting id protocol queue) hfind hsame]
  have hcall := (p.queued protocol queue).remove_put id (.taker protocol .waiting)
  have hlocked : ((p.waiting id protocol queue).lock life).remove id =
      ((p.queued protocol queue).lock life).remove id := congrArg (Pool.lock · life) hcall
  exact congrArg some (put_congr hlocked _)

/-- A good candidate that was reached is handed over, as the registry knows it. -/
theorem redialled_reached (hbelow : id < p.nextTask)
    (hfind : p.registry.find? candidate.endpoint = some life)
    (hgood : p.Good candidate.endpoint entry) :
    ((p.lock life).put id (.taker protocol (p.checkingStage candidate life))).redialled? id true =
      some (p.handOver id candidate.endpoint entry.snapshot) := by
  have htask := (p.lock life).task?_put_self id
    (.taker protocol (p.checkingStage candidate life))
  have hunlocked := p.unlock_put_lock id (.taker protocol (p.checkingStage candidate life))
    (hgood.entry? hfind) hgood.unlocked
  have hended := remove_put_recycle hbelow (.taker protocol (p.checkingStage candidate life))
    p.config.recycle candidate.endpoint
  have hentry : ((p.put id (.taker protocol (p.checkingStage candidate life))).recycle
      p.config.recycle candidate.endpoint).registry.entry? life = some entry := by
    rw [registry_recycle]
    exact hgood.entry? hfind
  generalize (p.lock life).put id (.taker protocol (p.checkingStage candidate life)) = held
    at htask hunlocked ⊢
  unfold redialled?
  rw [htask]
  simp only [Task.taker, checkingStage, if_true]
  rw [unlock_recycle, hunlocked, hentry]
  exact congrArg (fun freed : Pool => some { freed with
    stats := freed.stats.recordDispensed
    answers := freed.answers ++ [(id, Answer.proxy entry.snapshot)] }) hended

/-- One that was not reached is discarded. -/
theorem redialled_missed (hbelow : id < p.nextTask)
    (hfind : p.registry.find? candidate.endpoint = some life)
    (hgood : p.Good candidate.endpoint entry) :
    ((p.lock life).put id (.taker protocol (p.checkingStage candidate life))).redialled? id false =
      some ((p.discard candidate.endpoint .reachable).put id (.taker protocol .waiting)) := by
  have htask := (p.lock life).task?_put_self id
    (.taker protocol (p.checkingStage candidate life))
  have hmarked := unlock_put_mark id (.taker protocol (p.checkingStage candidate life)) hfind
    (hgood.entry? hfind) hgood.unlocked
  generalize (p.lock life).put id (.taker protocol (p.checkingStage candidate life)) = held
    at htask hmarked ⊢
  unfold redialled?
  rw [htask]
  simp only [Task.taker, checkingStage, Bool.false_eq_true, if_false]
  rw [unlock_recycle, hmarked]
  exact congrArg some (discard_put hbelow candidate.endpoint .reachable _ _)

/-- While a call waits, all that it can do is to take a candidate off its queue. -/
theorem move_of_waiting {move : Move} (hstays : move ≠ .abandon) (hknown : protocol ≠ .unknown)
    (h : (p.waiting id protocol queue).move? id move = some q) :
    move = .dispense protocol ∧ ∃ candidate rest, queue = candidate :: rest := by
  have htask : (p.waiting id protocol queue).task? id = some (.taker protocol .waiting) :=
    task?_put_self ..
  have hqueue : (p.waiting id protocol queue).outputs.get protocol = queue := by
    show (p.outputs.set protocol queue).get protocol = queue
    rw [Outputs.get_set _ hknown, if_pos rfl]
  cases move with
  | dispense other =>
      simp only [move?, dispense?, htask, Task.taker] at h
      split at h
      · next c candidate rest hcaller htaken =>
          cases hcaller
          split at h
          · next hwaits =>
              obtain rfl : other = protocol := by simpa [Purpose.accepts, hknown] using hwaits.2
              exact ⟨rfl, candidate, rest, hqueue.symm.trans htaken⟩
          · cases h
      · cases h
  | abandon => exact absurd rfl hstays
  | _ =>
      simp [move?, halt?, lockIntake?, receive?, forward?, look?, tick?, pick?, deliver?, wake?,
        comeBack?, cancel?, attempted?, redialled?, dialled?, responded?, htask, Task.taker] at h

/-- While it re-dials a candidate, it can only hear how that went. -/
theorem move_of_checking {move : Move} (hstays : move ≠ .abandon)
    (h : (p.checking id protocol queue candidate life).move? id move = some q) :
    ∃ good, move = .redialled good := by
  have htask : (p.checking id protocol queue candidate life).task? id =
      some (.taker protocol (p.checkingStage candidate life)) := task?_put_self ..
  cases move with
  | redialled good => exact ⟨good, rfl⟩
  | abandon => exact absurd rfl hstays
  | dispense other =>
      simp only [move?, dispense?, htask, Task.taker] at h
      split at h
      · next hcaller _ =>
          cases hcaller
          simp [checkingStage] at h
      · cases h
  | _ =>
      simp [move?, halt?, lockIntake?, receive?, forward?, look?, tick?, pick?, deliver?, wake?,
        comeBack?, cancel?, attempted?, dialled?, responded?, htask, Task.taker,
        checkingStage] at h

/-- A call that has got its proxy is over. -/
theorem task?_handOver (p : Pool) (id : Nat) (endpoint : String) (proxy : Proxy) :
    (p.handOver id endpoint proxy).task? id = none :=
  task?_remove _ id

/-- A task that is gone does nothing. -/
theorem move_of_gone (hgone : p.task? id = none) (move : Move) : p.move? id move = none := by
  cases move <;>
    simp [move?, halt?, lockIntake?, receive?, forward?, look?, tick?, pick?, deliver?, wake?,
      comeBack?, dispense?, cancel?, abandon?, attempted?, redialled?, dialled?, responded?, hgone]

/-! ## The whole call -/

/-- A call whose first candidate is rejected is served by the others. -/
theorem Served.cons {reachable : Bool} {more : List (Proxy × Bool)}
    (hrule : p.fails? candidate.endpoint reachable = some rule)
    (h : (p.discard candidate.endpoint rule).Served id protocol more q) :
    p.Served id protocol ((candidate, reachable) :: more) q := by
  cases h with
  | handed hrejected hgood => exact .handed (.cons hrule hrejected) hgood
  | unserved hrejected => exact .unserved (.cons hrule hrejected)

/-- A re-dial ends with the proxy handed over or the candidate discarded. -/
theorem redialled_checking (hbelow : id < p.nextTask)
    (hfind : p.registry.find? candidate.endpoint = some life)
    (hgood : p.Good candidate.endpoint entry) (reachable : Bool) :
    (p.checking id protocol queue candidate life).redialled? id reachable =
      some (if reachable then
          (p.queued protocol queue).handOver id candidate.endpoint entry.snapshot
        else (p.discard candidate.endpoint .reachable).waiting id protocol queue) := by
  have hqueued : (p.queued protocol queue).Good candidate.endpoint entry :=
    ⟨hgood.registered, hgood.unlocked, hgood.fewMarks, hgood.notBackedOff, hgood.fresh⟩
  cases reachable with
  | true => exact redialled_reached (p := p.queued protocol queue) hbelow hfind hqueued
  | false =>
      show _ = some (((p.discard candidate.endpoint .reachable).queued protocol queue).put id _)
      rw [← discard_queued]
      exact redialled_missed (p := p.queued protocol queue) hbelow hfind hqueued

/-- The moves for a candidate that breaks a rule discard it. -/
theorem perform?_turn_of_fails (hknown : protocol ≠ .unknown) (hbelow : id < p.nextTask)
    {reachable : Bool} (hrule : p.fails? candidate.endpoint reachable = some rule) :
    (p.waiting id protocol (candidate :: queue)).perform?
        ((p.turn protocol candidate.endpoint reachable).map (Deed.move id)) =
      some ((p.discard candidate.endpoint rule).waiting id protocol queue) := by
  unfold turn
  cases hbreaks : p.breaks? candidate.endpoint with
  | some first =>
      obtain rfl := Option.some.inj ((fails?_of_breaks hbreaks reachable).symm.trans hrule)
      exact Option.bind_eq_some_iff.2 ⟨_, dispense_of_breaks hknown hbelow hbreaks, rfl⟩
  | none =>
      obtain ⟨entry, hgood⟩ := breaks?_eq_none.1 hbreaks
      obtain ⟨life, hfind, -⟩ := Registry.get?_eq_some.1 hgood.registered
      obtain ⟨rfl, rfl⟩ : reachable = false ∧ rule = .reachable := by
        rw [hgood.fails?] at hrule
        cases reachable with
        | true => cases hrule
        | false => exact ⟨rfl, (Option.some.inj hrule).symm⟩
      exact Option.bind_eq_some_iff.2 ⟨_, dispense_of_good hknown hfind hgood,
        Option.bind_eq_some_iff.2 ⟨_, redialled_checking hbelow hfind hgood false, rfl⟩⟩

/-- The moves for a good candidate that is reached hand it over. -/
theorem perform?_turn_of_good (hknown : protocol ≠ .unknown) (hbelow : id < p.nextTask)
    (hgood : p.Good candidate.endpoint entry) :
    (p.waiting id protocol (candidate :: queue)).perform?
        ((p.turn protocol candidate.endpoint true).map (Deed.move id)) =
      some ((p.queued protocol queue).handOver id candidate.endpoint entry.snapshot) := by
  obtain ⟨life, hfind, -⟩ := Registry.get?_eq_some.1 hgood.registered
  unfold turn
  rw [breaks?_eq_none.2 ⟨entry, hgood⟩]
  exact Option.bind_eq_some_iff.2 ⟨_, dispense_of_good hknown hfind hgood,
    Option.bind_eq_some_iff.2 ⟨_, redialled_checking hbelow hfind hgood true, rfl⟩⟩

/-- Whatever the re-dials come to, the moves of the call are possible and serve it. -/
theorem Served.of_script (hknown : protocol ≠ .unknown) (hbelow : id < p.nextTask)
    (trials : List (Proxy × Bool)) :
    ∃ q, (p.waiting id protocol (trials.map Prod.fst)).perform?
        ((p.script protocol trials).map (Deed.move id)) = some q ∧
      p.Served id protocol trials q := by
  induction trials generalizing p with
  | nil => exact ⟨_, rfl, .unserved (.nil p)⟩
  | cons trial more ih =>
      obtain ⟨candidate, reachable⟩ := trial
      unfold script
      rw [List.map_append]
      cases hrule : p.fails? candidate.endpoint reachable with
      | some rule =>
          obtain ⟨q, hdone, hserved⟩ := ih (lt_nextTask_discard hbelow candidate.endpoint rule)
          refine ⟨q, ?_, hserved.cons hrule⟩
          exact (perform?_append ..).trans
            (Option.bind_eq_some_iff.2 ⟨_, perform?_turn_of_fails hknown hbelow hrule, hdone⟩)
      | none =>
          obtain ⟨rfl, entry, hgood⟩ := fails?_eq_none.1 hrule
          refine ⟨_, ?_, .handed (.nil p) hgood⟩
          exact (perform?_append ..).trans
            (Option.bind_eq_some_iff.2 ⟨_, perform?_turn_of_good hknown hbelow hgood, rfl⟩)

/-- The pool does nothing more for a call that was served. -/
theorem Served.settled {trials : List (Proxy × Bool)} (hknown : protocol ≠ .unknown)
    (h : p.Served id protocol trials q) {move : Move} (hstays : move ≠ .abandon) :
    q.move? id move = none := by
  cases h with
  | handed _ _ => exact move_of_gone (task?_handOver ..) move
  | unserved _ =>
      refine Option.eq_none_iff_forall_ne_some.2 fun r hmove => ?_
      obtain ⟨-, candidate, rest, hnone⟩ := move_of_waiting hstays hknown hmove
      cases hnone

/-- A call with a candidate on its queue deals with it, unless it has a move left to do so. -/
theorem turn_of_perform? (hknown : protocol ≠ .unknown) (hbelow : id < p.nextTask)
    {moves : List Move} (hstays : Move.abandon ∉ moves)
    (hdone : (p.waiting id protocol (candidate :: queue)).perform? (moves.map (Deed.move id)) =
      some q) :
    (moves.length ≤ 1 ∧ ∃ move, move ≠ .abandon ∧ q.move? id move ≠ none) ∨
      ∃ (reachable : Bool) (later : List Move),
        moves = p.turn protocol candidate.endpoint reachable ++ later := by
  unfold turn
  cases moves with
  | nil =>
      obtain rfl := Option.some.inj hdone
      refine .inl ⟨Nat.zero_le _, .dispense protocol, nofun, ?_⟩
      rw [move?]
      cases hrule : p.breaks? candidate.endpoint with
      | some rule =>
          rw [dispense_of_breaks hknown hbelow hrule]
          nofun
      | none =>
          obtain ⟨entry, hgood⟩ := breaks?_eq_none.1 hrule
          obtain ⟨life, hfind, -⟩ := Registry.get?_eq_some.1 hgood.registered
          rw [dispense_of_good hknown hfind hgood]
          nofun
  | cons first more =>
      obtain ⟨mid, hfirst, hmore⟩ := Option.bind_eq_some_iff.1 hdone
      obtain ⟨rfl, -⟩ := move_of_waiting (List.ne_of_not_mem_cons hstays).symm hknown hfirst
      cases hrule : p.breaks? candidate.endpoint with
      | some rule => exact .inr ⟨true, more, rfl⟩
      | none =>
          obtain ⟨entry, hgood⟩ := breaks?_eq_none.1 hrule
          obtain ⟨life, hfind, -⟩ := Registry.get?_eq_some.1 hgood.registered
          obtain rfl := Option.some.inj ((dispense_of_good hknown hfind hgood).symm.trans hfirst)
          cases more with
          | nil =>
              obtain rfl := Option.some.inj hmore
              refine .inl ⟨Nat.le_refl _, .redialled true, nofun, ?_⟩
              rw [move?, redialled_checking hbelow hfind hgood]
              nofun
          | cons second later =>
              obtain ⟨_, hsecond, -⟩ := Option.bind_eq_some_iff.1 hmore
              have hrest := List.not_mem_of_not_mem_cons hstays
              obtain ⟨reachable, rfl⟩ :=
                move_of_checking (List.ne_of_not_mem_cons hrest).symm hsecond
              exact .inr ⟨reachable, later, rfl⟩

theorem length_turn_le (p : Pool) (protocol : Protocol) (endpoint : String) (reachable : Bool) :
    (p.turn protocol endpoint reachable).length ≤ 2 := by
  unfold turn
  split <;> simp

/-- However the call goes, it makes at most two moves for each candidate, and when there is
none left these are its moves for some ends of the re-dials. -/
theorem script_of_perform? (hknown : protocol ≠ .unknown) (hbelow : id < p.nextTask)
    {moves : List Move} (hstays : Move.abandon ∉ moves)
    (hdone : (p.waiting id protocol queue).perform? (moves.map (Deed.move id)) = some q) :
    moves.length ≤ 2 * queue.length ∧
      ((∀ move, move ≠ .abandon → q.move? id move = none) →
        ∃ trials : List (Proxy × Bool), trials.map Prod.fst = queue ∧
          moves = p.script protocol trials) := by
  induction queue generalizing p moves with
  | nil =>
      cases moves with
      | nil => exact ⟨Nat.le_refl _, fun _ => ⟨[], rfl, rfl⟩⟩
      | cons first more =>
          obtain ⟨mid, hfirst, -⟩ := Option.bind_eq_some_iff.1 hdone
          obtain ⟨-, candidate, rest, hnone⟩ :=
            move_of_waiting (List.ne_of_not_mem_cons hstays).symm hknown hfirst
          cases hnone
  | cons candidate rest ih =>
      rcases turn_of_perform? hknown hbelow hstays hdone with ⟨hfew, move, hmove, hleft⟩ |
        ⟨reachable, later, rfl⟩
      · rw [List.length_cons]
        exact ⟨by omega, fun hsettled => absurd (hsettled move hmove) hleft⟩
      · have hturn := p.length_turn_le protocol candidate.endpoint reachable
        rw [List.map_append, perform?_append] at hdone
        obtain ⟨mid, hmid, hlater⟩ := Option.bind_eq_some_iff.1 hdone
        rw [List.length_append, List.length_cons]
        cases hrule : p.fails? candidate.endpoint reachable with
        | some rule =>
            obtain rfl := Option.some.inj
              ((perform?_turn_of_fails hknown hbelow hrule).symm.trans hmid)
            obtain ⟨hothers, hends⟩ := ih (lt_nextTask_discard hbelow candidate.endpoint rule)
              (fun hmem => hstays (List.mem_append_right _ hmem)) hlater
            refine ⟨by omega, fun hsettled => ?_⟩
            obtain ⟨trials, rfl, rfl⟩ := hends hsettled
            refine ⟨(candidate, reachable) :: trials, rfl, ?_⟩
            rw [script, hrule]
        | none =>
            obtain ⟨rfl, entry, hgood⟩ := fails?_eq_none.1 hrule
            obtain rfl := Option.some.inj
              ((perform?_turn_of_good hknown hbelow hgood).symm.trans hmid)
            cases later with
            | nil =>
                refine ⟨by simp; omega, fun _ =>
                  ⟨(candidate, true) :: rest.map (·, true), by simp [Function.comp_def], ?_⟩⟩
                rw [script, hrule]
            | cons third _ =>
                obtain ⟨_, hthird, -⟩ := Option.bind_eq_some_iff.1 hlater
                have hgone := move_of_gone ((p.queued protocol rest).task?_handOver id
                  candidate.endpoint entry.snapshot) third
                exact absurd (hgone.symm.trans hthird) nofun

/-! ## What is left of the call -/

/-- What is seen of a call that was handed a proxy after the given rules were broken. -/
structure HandedOver (p mid q : Pool) (id : Nat) (protocol : Protocol)
    (before : List (Proxy × Bool)) (rules : List Rule) (candidate : Proxy)
    (behind : List (Proxy × Bool)) (entry : Entry) : Prop where
  rejected : p.Rejects before rules mid
  good : mid.Good candidate.endpoint entry
  registry : q.registry = mid.registry
  backoff : q.backoff = mid.backoff
  usage : q.usage = mid.usage
  answers : q.answers = p.answers ++ [(id, .proxy entry.snapshot)]
  outputs : q.outputs = p.outputs.set protocol (behind.map Prod.fst)
  stats : q.stats = (p.stats.rejected rules).recordDispensed
  crew : q.crew = p.crew ++ requeues p.config.recycle before rules ++
    if p.config.recycle then [Task.requeue candidate.endpoint none] else []

/-- What is seen of a call that still waits after the given rules were broken. -/
structure LeftWaiting (p mid q : Pool) (id : Nat) (protocol : Protocol)
    (trials : List (Proxy × Bool)) (rules : List Rule) : Prop where
  rejected : p.Rejects trials rules mid
  registry : q.registry = mid.registry
  backoff : q.backoff = mid.backoff
  usage : q.usage = mid.usage
  waits : q.task? id = some (.taker protocol .waiting)
  answers : q.answers = p.answers
  outputs : q.outputs = p.outputs.set protocol []
  stats : q.stats = p.stats.rejected rules
  crew : q.crew = p.crew ++ requeues p.config.recycle trials rules ++ [.taker protocol .waiting]

/-- A proxy that is handed over leaves its traces in tasks, counters and answers. -/
theorem handOver_frame (p : Pool) (id : Nat) (endpoint : String) (proxy : Proxy) :
    { p.handOver id endpoint proxy with
      stats := p.stats, answers := p.answers, tasks := p.tasks, nextTask := p.nextTask } = p := by
  unfold handOver
  cases p.config.recycle <;> rfl

theorem registry_handOver (p : Pool) (id : Nat) (endpoint : String) (proxy : Proxy) :
    (p.handOver id endpoint proxy).registry = p.registry :=
  (congrArg Pool.registry (p.handOver_frame id endpoint proxy) :)

theorem answers_handOver (p : Pool) (id : Nat) (endpoint : String) (proxy : Proxy) :
    (p.handOver id endpoint proxy).answers = p.answers ++ [(id, .proxy proxy)] := by
  unfold handOver
  cases p.config.recycle <;> rfl

theorem stats_handOver (p : Pool) (id : Nat) (endpoint : String) (proxy : Proxy) :
    (p.handOver id endpoint proxy).stats = p.stats.recordDispensed := by
  unfold handOver
  cases p.config.recycle <;> rfl

theorem crew_handOver (hbelow : id < p.nextTask) (habsent : p.remove id = p) (endpoint : String)
    (proxy : Proxy) :
    (p.handOver id endpoint proxy).crew =
      p.crew ++ if p.config.recycle then [Task.requeue endpoint none] else [] := by
  show ((p.recycle p.config.recycle endpoint).remove id).crew = _
  rw [remove_recycle hbelow, habsent]
  cases p.config.recycle with
  | true => exact List.map_append ..
  | false => exact (List.append_nil _).symm

/-- No lock that the call took is held when it is over, and no other lock is gone. -/
theorem Served.isLocked_iff {trials : List (Proxy × Bool)} (h : p.Served id protocol trials q)
    (life : Nat) : q.registry.IsLocked life ↔ p.registry.IsLocked life := by
  cases h with
  | handed hrejected _ =>
      rw [registry_handOver]
      exact hrejected.isLocked_iff life
  | unserved hrejected => exact hrejected.isLocked_iff life

theorem Rejects.handedOver {before behind : List (Proxy × Bool)} {rules : List Rule} {mid : Pool}
    (h : p.Rejects before rules mid) (hgood : mid.Good candidate.endpoint entry)
    (hbelow : id < p.nextTask) (habsent : p.remove id = p) :
    p.HandedOver mid
      ((mid.queued protocol (behind.map Prod.fst)).handOver id candidate.endpoint entry.snapshot)
      id protocol before rules candidate behind entry := by
  obtain ⟨hlater, hnone⟩ := h.absent hbelow habsent
  have hqueued : (mid.queued protocol (behind.map Prod.fst)).remove id =
      mid.queued protocol (behind.map Prod.fst) :=
    congrArg (Pool.queued · protocol (behind.map Prod.fst)) hnone
  have hframe := handOver_frame (mid.queued protocol (behind.map Prod.fst)) id
    candidate.endpoint entry.snapshot
  refine ⟨h, hgood, (congrArg Pool.registry hframe :), (congrArg Pool.backoff hframe :),
    (congrArg Pool.usage hframe :), ?answers, ?outputs, ?stats, ?crew⟩
  case answers =>
    rw [answers_handOver, ← h.answers_eq]
    rfl
  case outputs =>
    rw [← h.outputs_eq]
    exact (congrArg Pool.outputs hframe :)
  case stats =>
    rw [stats_handOver, ← h.stats_eq]
    rfl
  case crew =>
    rw [crew_handOver (p := mid.queued protocol (behind.map Prod.fst)) hlater hqueued,
      ← h.crew_eq, ← h.config_eq]
    rfl

theorem Rejects.leftWaiting {trials : List (Proxy × Bool)} {rules : List Rule} {mid : Pool}
    (h : p.Rejects trials rules mid) (hbelow : id < p.nextTask) (habsent : p.remove id = p) :
    p.LeftWaiting mid (mid.waiting id protocol []) id protocol trials rules := by
  obtain ⟨-, hnone⟩ := h.absent hbelow habsent
  refine ⟨h, rfl, rfl, rfl, task?_put_self .., h.answers_eq, ?outputs, h.stats_eq, ?crew⟩
  case outputs =>
    rw [← h.outputs_eq]
    rfl
  case crew =>
    rw [← h.crew_eq]
    show ((mid.remove id).tasks ++ [(id, Task.taker protocol .waiting)]).map Prod.snd = _
    rw [hnone, List.map_append]
    rfl

/-- A call that begins waits for the candidates that are there. -/
theorem get_eq_waiting (hnum : Numbered p.tasks p.nextTask) (protocol : Protocol) :
    p.get (some protocol) none =
      waiting { p with nextTask := p.nextTask + 1 } p.nextTask protocol
        (p.outputs.get protocol) := by
  have hqueue : p.outputs.set protocol (p.outputs.get protocol) = p.outputs :=
    Outputs.set_get ..
  have htasks : (p.remove p.nextTask).tasks = p.tasks := congrArg Pool.tasks (remove_nextTask hnum)
  show _ = { p with
    nextTask := p.nextTask + 1
    outputs := p.outputs.set protocol (p.outputs.get protocol)
    tasks := (p.remove p.nextTask).tasks ++ [(p.nextTask, Task.taker protocol .waiting)] }
  rw [hqueue, htasks]
  rfl

end Pool

/-- A call for a proxy of a protocol, in any state that a pool can reach, while nobody else
does anything and it is neither cancelled nor dropped. Whatever the re-dials of the
candidates on its queue would come to, its moves are possible, and it ends as served: it is
handed the first candidate that keeps all rules when its turn comes, as the registry knows
it then, or it waits with the queue empty; each candidate before is discarded by the first
rule that it breaks. Then it has no move left, and no lock that it took is held. It makes
no other moves, and at most two for each candidate. -/
theorem first_good_wins {config : Config} {slots : Slots} {start p : Pool} {steps : List Step}
    (hnew : Pool.withSlots config slots = .ok start) (hrun : Run start steps p)
    {protocol : Protocol} (hknown : protocol ≠ .unknown) :
    let id := p.nextTask
    let queue := p.outputs.get protocol
    let called := p.get (some protocol) none
    let base := { p with nextTask := id + 1 }
    (∀ trials : List (Proxy × Bool), trials.map Prod.fst = queue →
      ∃ q, called.perform? ((base.script protocol trials).map (Deed.move id)) = some q ∧
        (∀ move, move ≠ .abandon → q.move? id move = none) ∧
        (∀ life, q.registry.IsLocked life ↔ p.registry.IsLocked life) ∧
        ((∃ before candidate behind rules mid entry,
            trials = before ++ (candidate, true) :: behind ∧
            base.HandedOver mid q id protocol before rules candidate behind entry) ∨
          ∃ rules mid, base.LeftWaiting mid q id protocol trials rules)) ∧
    ∀ (moves : List Move) (q : Pool), Move.abandon ∉ moves →
      called.perform? (moves.map (Deed.move id)) = some q →
        moves.length ≤ 2 * queue.length ∧
        ((∀ move, move ≠ .abandon → q.move? id move = none) →
          ∃ trials : List (Proxy × Bool), trials.map Prod.fst = queue ∧
            moves = base.script protocol trials) := by
  intro id queue called base
  have hnum : Numbered p.tasks p.nextTask :=
    ((orderly_of_withSlots hnew).throughout hrun).1.numbered
  have hbelow : id < base.nextTask := Nat.lt_succ_self _
  have habsent : base.remove id = base :=
    congrArg (fun q : Pool => { q with nextTask := id + 1 }) (Pool.remove_nextTask hnum)
  have hcalled : called = base.waiting id protocol queue := Pool.get_eq_waiting hnum protocol
  rw [hcalled]
  refine ⟨fun trials htrials => ?_, fun moves q hstays hdone =>
    Pool.script_of_perform? hknown hbelow hstays hdone⟩
  obtain ⟨q, hdone, hserved⟩ := Pool.Served.of_script hknown hbelow trials
  refine ⟨q, htrials ▸ hdone, fun move => hserved.settled hknown, hserved.isLocked_iff, ?_⟩
  cases hserved with
  | handed hrejected hgood =>
      exact .inl ⟨_, _, _, _, _, _, rfl, hrejected.handedOver hgood hbelow habsent⟩
  | unserved hrejected => exact .inr ⟨_, _, hrejected.leftWaiting hbelow habsent⟩

/-- Two endpoints have been validated and wait on the queue. The first one no longer answers,
and the call is handed the second. -/
theorem first_good_wins_behind_dead_one :
    ∃ start steps p first second q, Pool.new Config.default = .ok start ∧
      Run start steps p ∧
      steps.map Step.deed =
        [.load "a:1", .load "b:1", .start, .move 0 .lockIntake, .move 0 .receive,
          .move 0 .forward, .move 1 .look, .move 3 .pick,
          .move 3 (.attempted (.ok (.v4 ⟨198, 51, 100, 7⟩))), .move 3 .deliver,
          .move 0 .receive, .move 0 .forward, .move 1 .look, .move 4 .pick,
          .move 4 (.attempted (.ok (.v4 ⟨198, 51, 100, 7⟩))), .move 4 .deliver] ∧
      p.nextTask = 5 ∧ p.outputs.get .socks5 = [first, second] ∧
      (first.endpoint, second.endpoint) = ("a:1", "b:1") ∧
      Pool.script { p with nextTask := 6 } .socks5 [(first, false), (second, true)] =
        [.dispense .socks5, .redialled false, .dispense .socks5, .redialled true] ∧
      (p.get (some .socks5) none).perform?
        ([.dispense .socks5, .redialled false, .dispense .socks5, .redialled true].map
          (Deed.move 5)) = some q ∧
      q.answers = [(5, .proxy ⟨"b:1", .socks5, some (.v4 ⟨198, 51, 100, 7⟩), some 0, 1, 0⟩)] ∧
      (∀ move, move ≠ .abandon → q.move? 5 move = none) ∧
      ∀ life, q.registry.IsLocked life ↔ p.registry.IsLocked life := by
  let first : Proxy := ⟨"a:1", .socks5, some (.v4 ⟨198, 51, 100, 7⟩), some 0, 1, 0⟩
  let second : Proxy := ⟨"b:1", .socks5, some (.v4 ⟨198, 51, 100, 7⟩), some 0, 1, 0⟩
  obtain ⟨start, hmade, hview⟩ : ∃ start, Pool.new Config.default = .ok start ∧
      (start.perform?
        [.load "a:1", .load "b:1", .start, .move 0 .lockIntake, .move 0 .receive,
          .move 0 .forward, .move 1 .look, .move 3 .pick,
          .move 3 (.attempted (.ok (.v4 ⟨198, 51, 100, 7⟩))), .move 3 .deliver,
          .move 0 .receive, .move 0 .forward, .move 1 .look, .move 4 .pick,
          .move 4 (.attempted (.ok (.v4 ⟨198, 51, 100, 7⟩))), .move 4 .deliver]).map
        (fun p => (p.nextTask, p.outputs.get .socks5,
          Pool.script { p with nextTask := 6 } .socks5 [(first, false), (second, true)],
          ((p.get (some .socks5) none).perform?
            ([.dispense .socks5, .redialled false, .dispense .socks5, .redialled true].map
              (Deed.move 5))).map (·.answers))) =
        some (5, [first, second],
          [.dispense .socks5, .redialled false, .dispense .socks5, .redialled true],
          some [(5, .proxy second)]) := ⟨_, rfl, rfl⟩
  obtain ⟨steps, p, hrun, hdeeds, hseen⟩ := Run.of_view _ hview
  simp only [Prod.mk.injEq] at hseen
  obtain ⟨hnext, hqueue, hscript, hcall⟩ := hseen
  have hknown : Protocol.socks5 ≠ .unknown := nofun
  obtain ⟨hall, -⟩ := first_good_wins hmade hrun hknown
  rw [hnext] at hall
  obtain ⟨q, hdone, hsettled, hlocks, -⟩ := hall [(first, false), (second, true)] hqueue.symm
  rw [hscript] at hdone
  rw [hdone] at hcall
  exact ⟨start, steps, p, first, second, q, hmade, hrun, hdeeds, hnext, hqueue, rfl, hscript,
    hdone, Option.some.inj hcall, hsettled, hlocks⟩

end SocksPool
