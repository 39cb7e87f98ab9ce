import SocksPool.Proofs.Calls
import SocksPool.Proofs.Census
import SocksPool.Proofs.Typed

/-!
# Where a proxy that is handed out comes from

A call takes a candidate off an output queue, has it re-dialled, and is then
given what the registry knows of it. The candidate is a copy that some round
made and queued under its protocol, so a call that wants one protocol takes
candidates of that protocol only. But what the call is given is read from the
life that the candidate's name leads to, and this may be a later life than the
one that was copied. A life never changes the protocol that it has found. So
the protocol that is handed out is the one that was asked for, unless a later
life of the endpoint has found another one.

## Main results

* `Step.answers_iff` — when a call is answered with a proxy, and with which.
* `taken_of_run` — a candidate under a check was taken off the queue of its
  protocol.
* `handouts_typed_iff` — proxies are handed out under the protocol that was
  asked for just if no candidate passes for a later life of another protocol.
-/

namespace SocksPool

namespace Step

/-- A call for a proxy of one protocol, which one of the earlier steps began, is
answered in this step with a proxy. -/
def Answers (s : Step) (earlier : List Step) (id : Nat) (wanted : Protocol) (proxy : Proxy) :
    Prop :=
  wanted ≠ .unknown ∧ (∃ x ∈ earlier, x.Calls id (some wanted)) ∧
    s.after.handouts = s.before.handouts ++ [(id, proxy)]

/-- A candidate passes its check under a call for a proxy of one protocol, and
the proxy is what is known now of the life that was re-dialled. -/
def Clears (s : Step) (id : Nat) (wanted : Protocol) (proxy : Proxy) : Prop :=
  wanted ≠ .unknown ∧ s.deed = .move id (.redialled true) ∧
    ∃ c candidate life timeout recycle since entry,
      s.before.task? id = some (.caller c) ∧ c.purpose = .take (some wanted) ∧
      c.stage = .checking candidate life timeout recycle since ∧
      s.before.registry.entry? life = some entry ∧ proxy = entry.snapshot

/-- A call takes the head of the queue of a protocol and has it re-dialled. -/
def Takes (s : Step) (id : Nat) (protocol : Protocol) (candidate : Proxy) : Prop :=
  s.deed = .move id (.dispense protocol) ∧
    (∃ rest, s.before.outputs.get protocol = candidate :: rest) ∧
    s.after.candidate? id = some candidate

/-- A candidate answers under a call that wants its protocol. But the life that
was re-dialled is a later one than that which settled on this protocol, and has
settled on another. -/
def Mistypes (s : Step) : Prop :=
  ∃ id c candidate life timeout recycle since first other,
    s.deed = .move id (.redialled true) ∧ s.before.task? id = some (.caller c) ∧
    c.purpose = .take (some candidate.protocol) ∧
    c.stage = .checking candidate life timeout recycle since ∧ first < life ∧
    s.before.registry.Settled first candidate.endpoint candidate.protocol ∧
    s.before.registry.Settled life candidate.endpoint other ∧ other ≠ candidate.protocol

end Step

/-! ## Answers -/

namespace Pool

variable {p q : Pool} {d : Deed}

/-- A call that wants one protocol accepts no other. -/
theorem eq_of_accepts {wanted protocol : Protocol} (hknown : wanted ≠ .unknown)
    (haccepts : Purpose.accepts (.take (some wanted)) protocol = true) : protocol = wanted := by
  have hsame : (if wanted = .unknown then true else protocol == wanted) = true := haccepts
  rw [if_neg hknown] at hsame
  exact beq_iff_eq.1 hsame

theorem handouts_evict (p : Pool) (endpoint : String) :
    (p.evict endpoint).handouts = p.handouts := by
  unfold evict
  split <;> rfl

theorem handouts_recycle (p : Pool) (wanted : Bool) (endpoint : String) :
    (p.recycle wanted endpoint).handouts = p.handouts := by
  cases wanted <;> rfl

/-- A call that wants a proxy has the one that it is served for an answer. -/
theorem handouts_serve_take (p : Pool) (id : Nat) {c : Caller} {wanted : Option Protocol}
    (hpurpose : c.purpose = .take wanted) (proxy : Proxy) :
    (p.serve id c proxy).handouts = p.handouts ++ [(id, proxy)] := by
  unfold serve
  rw [hpurpose]
  exact List.filterMap_append

/-- A proxy is handed out only where a candidate is cleared. -/
theorem Effect.handouts_cases (h : p.Effect d q) :
    q.handouts = p.handouts ∨
      ∃ id c wanted candidate life timeout recycle since entry,
        d = .move id (.redialled true) ∧ p.task? id = some (.caller c) ∧
        c.purpose = .take wanted ∧
        c.stage = .checking candidate life timeout recycle since ∧
        p.registry.entry? life = some entry ∧
        q.handouts = p.handouts ++ [(id, entry.snapshot)] := by
  cases h with
  | @loaded d raws hraws =>
      obtain ⟨registry, intake, hloaded⟩ := p.loadAll_eq raws
      rw [hloaded]
      exact .inl rfl
  | @reportedOut d life endpoint => exact .inl ((p.punish life endpoint).handouts_evict endpoint)
  | struckOff => exact .inl (handouts_evict _ _)
  | sentBack => exact .inl (handouts_recycle _ _ _)
  | @cleared id life timeout since c candidate recycle entry htask hstage hentry =>
      have hbase : (((p.remove id).recycle recycle candidate.endpoint).unlock life).handouts =
          p.handouts := by
        rw [unlock_recycle, handouts_recycle]
        rfl
      cases hpurpose : c.purpose with
      | take wanted =>
          refine .inr ⟨id, c, wanted, candidate, life, timeout, recycle, since, entry, rfl, htask,
            hpurpose, hstage, hentry, ?_⟩
          rw [handouts_serve_take _ id hpurpose, hbase]
      | _ =>
          left
          unfold serve
          rw [hpurpose]
          exact hbase
  | voided | refused =>
      left
      rw [unlock_recycle, handouts_recycle]
      rfl
  | @failedOut id since r => exact .inl (((p.remove id).miss r).handouts_evict r.endpoint)
  | _ => exact .inl rfl

end Pool

namespace Step

variable {s : Step} {id : Nat} {wanted : Protocol} {proxy : Proxy}

/-- A call that asks for a proxy and is given one was begun by an earlier step. -/
theorem answers_of_asks {p : Pool} {earlier : List Step} (horderly : Orderly p)
    (hidle : ∀ id wanted, ¬ p.Asks id wanted) (hrun : Run p earlier s.before)
    (hknown : wanted ≠ .unknown) (hasks : s.before.Asks id (some wanted))
    (hgiven : s.after.handouts = s.before.handouts ++ [(id, proxy)]) :
    s.Answers earlier id wanted proxy :=
  ⟨hknown, (begun_of_run horderly hidle hrun hasks).1, hgiven⟩

/-- A call for a proxy of one protocol is answered just where its candidate passes
the check. -/
theorem answers_iff {p : Pool} {earlier : List Step} (horderly : Orderly p)
    (hidle : ∀ id wanted, ¬ p.Asks id wanted) (hrun : Run p earlier s.before) :
    s.Answers earlier id wanted proxy ↔ s.Clears id wanted proxy := by
  have hbefore := (horderly.throughout hrun).1
  obtain ⟨mid, heffect, hquiet⟩ := Pool.effects_of_act? hbefore.numbered s.done
  constructor
  · rintro ⟨hknown, ⟨x, hx, hcalls⟩, hgiven⟩
    rw [hquiet.handouts] at hgiven
    rcases heffect.handouts_cases with hsame |
      ⟨number, c, asked, candidate, life, timeout, recycle, since, entry, hdeed, htask, hpurpose,
        hstage, hentry, hadded⟩
    · rw [hsame] at hgiven
      have hlength := congrArg List.length hgiven
      simp at hlength
    · rw [hadded] at hgiven
      cases List.singleton_inj.1 (List.append_cancel_left hgiven)
      have hasks := Pool.asks_of_caller htask hpurpose
      obtain rfl := (begun_of_run horderly hidle hrun hasks).2 x hx _ hcalls
      exact ⟨hknown, hdeed, c, candidate, life, timeout, recycle, since, entry, htask, hpurpose,
        hstage, hentry, rfl⟩
  · rintro ⟨hknown, hdeed, c, candidate, life, timeout, recycle, since, entry, htask, hpurpose,
      hstage, hentry, rfl⟩
    refine answers_of_asks horderly hidle hrun hknown (Pool.asks_of_caller htask hpurpose) ?_
    rw [hquiet.handouts]
    rw [hdeed] at heffect
    cases heffect with
    | idled hplain | reported hplain | reportedOut hplain => cases hplain
    | loaded hraws => cases hraws
    | cleared hother hchecks hfound =>
        rw [htask] at hother
        cases hother
        rw [hstage] at hchecks
        cases hchecks
        rw [hentry] at hfound
        cases hfound
        rw [Pool.handouts_serve_take _ id hpurpose, Pool.unlock_recycle, Pool.handouts_recycle]
        rfl
    | voided hother hchecks hgone =>
        rw [htask] at hother
        cases hother
        rw [hstage] at hchecks
        cases hchecks
        rw [hentry] at hgone
        cases hgone

/-- The candidate is of the protocol that was asked for, on which its own life has
settled. The life that was re-dialled is of the same endpoint and no earlier, and
it has settled on the protocol that is handed out. -/
theorem Clears.settled (h : s.Clears id wanted proxy) (htyped : Typed s.before) :
    ∃ c candidate life timeout recycle since first,
      s.before.task? id = some (.caller c) ∧ c.purpose = .take (some candidate.protocol) ∧
      c.stage = .checking candidate life timeout recycle since ∧ candidate.protocol = wanted ∧
      first ≤ life ∧ s.before.registry.Settled first candidate.endpoint candidate.protocol ∧
      s.before.registry.Settled life candidate.endpoint proxy.protocol ∧
      proxy.endpoint = candidate.endpoint := by
  obtain ⟨hknown, -, c, candidate, life, timeout, recycle, since, entry, htask, hpurpose, hstage,
    hentry, rfl⟩ := h
  have hholds := Option.isSome_of_eq_some (Task.token?_of_checking hstage)
  obtain ⟨haccepts, ⟨first, hle, hfirst⟩, other, hlife⟩ :=
    (Pool.typed_of_task? htyped htask hholds).of_checking hstage
  rw [hpurpose] at haccepts
  obtain rfl := Pool.eq_of_accepts hknown haccepts
  obtain ⟨hother, found, hfound, hname, rfl⟩ := hlife
  rw [hentry] at hfound
  cases hfound
  exact ⟨c, candidate, life, timeout, recycle, since, first, htask, hpurpose, hstage, rfl, hle,
    hfirst, ⟨hother, entry, hentry, hname, rfl⟩, hname⟩

/-- The protocol that was asked for is handed out, unless the candidate passes
for a later life. -/
theorem Clears.protocol_eq (h : s.Clears id wanted proxy) (htyped : Typed s.before)
    (hplain : ¬ s.Mistypes) : proxy.protocol = wanted := by
  obtain ⟨c, candidate, life, timeout, recycle, since, first, htask, hpurpose, hstage, rfl, hle,
    hfirst, hlife, -⟩ := h.settled htyped
  apply Classical.byContradiction
  intro hne
  have holder : first < life := by
    refine Nat.lt_of_le_of_ne hle ?_
    rintro rfl
    exact hne (hfirst.unique hlife)
  exact hplain ⟨id, c, candidate, life, timeout, recycle, since, first, proxy.protocol, h.2.1,
    htask, hpurpose, hstage, holder, hfirst, hlife, hne⟩

/-- A candidate that passes for a later life of another protocol is handed out
under this protocol. -/
theorem Mistypes.clears (h : s.Mistypes) :
    ∃ id wanted proxy, s.Clears id wanted proxy ∧ proxy.protocol ≠ wanted := by
  obtain ⟨id, c, candidate, life, timeout, recycle, since, first, other, hdeed, htask, hpurpose,
    hstage, -, ⟨hknown, -⟩, ⟨-, entry, hentry, -, hprotocol⟩, hne⟩ := h
  refine ⟨id, candidate.protocol, entry.snapshot, ⟨hknown, hdeed, c, candidate, life, timeout,
    recycle, since, entry, htask, hpurpose, hstage, hentry, rfl⟩, ?_⟩
  intro hsame
  exact hne (hprotocol.symm.trans hsame)

end Step

/-! ## Runs -/

variable {p q : Pool} {steps : List Step}

/-- Nobody calls for a proxy in a blank pool. -/
theorem Pool.Blank.not_asks (h : p.Blank) (id : Nat) (wanted : Option Protocol) :
    ¬ p.Asks id wanted := by
  rintro ⟨task, hmem, -⟩
  rw [h.tasks] at hmem
  cases hmem

theorem Pool.Blank.candidate? (h : p.Blank) (id : Nat) : p.candidate? id = none := by
  unfold Pool.candidate? Pool.task?
  rw [h.tasks]
  rfl

/-- A candidate under a check was taken off the queue of its protocol by the
call that has it re-dialled. -/
theorem taken_of_run (horderly : Orderly p) (hidle : ∀ id, p.candidate? id = none)
    (hrun : Run p steps q) {id : Nat} {candidate : Proxy}
    (hcandidate : q.candidate? id = some candidate) :
    ∃ x ∈ steps, x.Takes id candidate.protocol candidate := by
  induction hrun with
  | rest =>
      rw [hidle id] at hcandidate
      cases hcandidate
  | @step steps s hrun ih =>
      have hbefore := (horderly.throughout hrun).1
      obtain ⟨mid, heffect, hquiet⟩ := Pool.effects_of_act? hbefore.numbered s.done
      have hnum := (hbefore.act s.done).numbered
      obtain ⟨task, hholds, hchecks⟩ := (Pool.candidate?_eq_some_iff hnum).1 hcandidate
      rw [hquiet.holders] at hholds
      rcases heffect.holder_cases hholds with hold | harrives
      · have hkept : s.before.candidate? id = some candidate :=
          (Pool.candidate?_eq_some_iff hbefore.numbered).2 ⟨task, hold, hchecks⟩
        obtain ⟨x, hx, htakes⟩ := ih hkept
        exact ⟨x, List.mem_append_left _ hx, htakes⟩
      · refine ⟨s, List.mem_append_right _ (List.mem_singleton.2 rfl), ?_⟩
        generalize hdeed : s.deed = d at harrives
        cases harrives with
        | @checked _ _ life c protocol head rest entry hcaller haccepts hqueue hfind hentry
            hfresh =>
            obtain rfl : head = candidate := Option.some.inj hchecks
            have hhead : head ∈ s.before.outputs.get protocol := hqueue ▸ List.mem_cons_self
            rw [hbefore.sorted protocol head hhead]
            exact ⟨hdeed, ⟨rest, hqueue⟩, hcandidate⟩
        | _ => cases hchecks

/-- In a run of a pool, a call for a proxy of one protocol is answered with the
endpoint of a candidate that it took off the queue of this protocol. And all
such answers are of the protocol that was asked for just if no candidate passes
its check for a later life that has settled on another protocol. -/
theorem handouts_typed_iff {config : Config} {slots : Slots} {p q : Pool} {steps : List Step}
    (hmade : Pool.withSlots config slots = .ok p) (hrun : Run p steps q) :
    (∀ earlier s later id wanted proxy, steps = earlier ++ s :: later →
        s.Answers earlier id wanted proxy →
        ∃ y ∈ earlier, ∃ candidate, y.Takes id wanted candidate ∧
          s.before.candidate? id = some candidate ∧ proxy.endpoint = candidate.endpoint) ∧
      ((∀ earlier s later id wanted proxy, steps = earlier ++ s :: later →
          s.Answers earlier id wanted proxy → proxy.protocol = wanted) ↔
        ∀ s ∈ steps, ¬ s.Mistypes) := by
  have horderly := orderly_of_withSlots hmade
  have hblank := blank_of_withSlots hmade
  have htyped := typed_of_blank hblank
  have hunasked := hblank.not_asks
  refine ⟨?_, ?_, ?_⟩
  · intro earlier s later id wanted proxy hsplit hanswers
    have hupto := hrun.upto hsplit
    have hclears := (Step.answers_iff horderly hunasked hupto).1 hanswers
    obtain ⟨c, candidate, life, timeout, recycle, since, first, htask, -, hstage, rfl, -, -, -,
      hname⟩ := hclears.settled (htyped.throughout horderly hupto).1
    have hcandidate := Pool.candidate?_of_task? htask hstage
    obtain ⟨y, hy, htakes⟩ := taken_of_run horderly hblank.candidate? hupto hcandidate
    exact ⟨y, hy, candidate, htakes, hcandidate, hname⟩
  · intro hall s hs hmistypes
    obtain ⟨earlier, later, hsplit⟩ := List.append_of_mem hs
    obtain ⟨id, wanted, proxy, hclears, hne⟩ := hmistypes.clears
    have hanswers := (Step.answers_iff horderly hunasked (hrun.upto hsplit)).2 hclears
    exact hne (hall earlier s later id wanted proxy hsplit hanswers)
  · intro hnone earlier s later id wanted proxy hsplit hanswers
    have hupto := hrun.upto hsplit
    have hs : s ∈ steps := hsplit ▸ List.mem_append_right _ List.mem_cons_self
    have hclears := (Step.answers_iff horderly hunasked hupto).1 hanswers
    exact hclears.protocol_eq (htyped.throughout horderly hupto).1 (hnone s hs)

/-- A copy is queued, its endpoint is evicted and loaded again, and the new life
is found to speak another protocol. A call that wants the protocol of the copy
is handed a proxy of the other. -/
theorem socks4_handed_for_socks5 :
    ∃ p steps s, Pool.new { Config.default with removeAfter := 1 } = .ok p ∧
      Run p (steps ++ [s]) s.after ∧
      (steps ++ [s]).map Step.deed =
        [.load "a:1", .start, .move 0 .lockIntake, .move 0 .receive, .move 0 .forward,
          .move 1 .look, .move 3 .pick, .move 3 (.attempted (.ok (.v4 ⟨198, 51, 100, 7⟩))),
          .move 3 .deliver, .reportFailure "a:1", .load "a:1", .move 0 .receive,
          .move 0 .forward, .move 1 .look, .move 4 .pick,
          .move 4 (.attempted (.error (.dialTimeout "a:1"))),
          .move 4 (.attempted (.ok (.v4 ⟨198, 51, 100, 7⟩))), .get (some .socks5) none,
          .move 5 (.dispense .socks5), .move 5 (.redialled true)] ∧
      ∃ proxy, s.Answers steps 5 .socks5 proxy ∧ proxy.protocol = .socks4 := by
  obtain ⟨p, hmade, hview⟩ : ∃ p, Pool.new { Config.default with removeAfter := 1 } = .ok p ∧
      ((p.perform?
        [.load "a:1", .start, .move 0 .lockIntake, .move 0 .receive, .move 0 .forward,
          .move 1 .look, .move 3 .pick, .move 3 (.attempted (.ok (.v4 ⟨198, 51, 100, 7⟩))),
          .move 3 .deliver, .reportFailure "a:1", .load "a:1", .move 0 .receive,
          .move 0 .forward, .move 1 .look, .move 4 .pick,
          .move 4 (.attempted (.error (.dialTimeout "a:1"))),
          .move 4 (.attempted (.ok (.v4 ⟨198, 51, 100, 7⟩))), .get (some .socks5) none,
          .move 5 (.dispense .socks5)]).bind fun q =>
            (q.act? (.move 5 (.redialled true))).map fun after =>
              (q.task? 5, q.handouts, after.handouts)) =
        some (some (.caller ⟨.take (some .socks5), none,
            .checking ⟨"a:1", .socks5, some (.v4 ⟨198, 51, 100, 7⟩), some 0, 1, 0⟩ 1
              9000000000 true 0⟩), [],
          [(5, ⟨"a:1", .socks4, some (.v4 ⟨198, 51, 100, 7⟩), some 0, 1, 0⟩)]) := ⟨_, rfl, rfl⟩
  obtain ⟨steps, s, hrun, hdeeds, hseen⟩ := Run.of_last_view
    (fun q after => (q.task? 5, q.handouts, after.handouts)) hview
  simp only [Prod.mk.injEq] at hseen
  obtain ⟨htask, hbefore, hafter⟩ := hseen
  have hunasked := (blank_of_withSlots hmade).not_asks
  refine ⟨p, steps, s, hmade, hrun, hdeeds,
    ⟨"a:1", .socks4, some (.v4 ⟨198, 51, 100, 7⟩), some 0, 1, 0⟩, ?_, rfl⟩
  refine Step.answers_of_asks (orderly_of_withSlots hmade) hunasked (hrun.upto rfl) (by decide)
    (Pool.asks_of_caller htask rfl) ?_
  rw [hbefore, hafter]
  rfl

/-- A copy is queued and taken by a call that wants its protocol, and answers.
The call is given the protocol and the endpoint of the copy. -/
theorem socks5_handed_for_socks5 :
    ∃ p steps s, Pool.new Config.default = .ok p ∧ Run p (steps ++ [s]) s.after ∧
      (steps ++ [s]).map Step.deed =
        [.load "a:1", .start, .move 0 .lockIntake, .move 0 .receive, .move 0 .forward,
          .move 1 .look, .move 3 .pick, .move 3 (.attempted (.ok (.v4 ⟨198, 51, 100, 7⟩))),
          .move 3 .deliver, .get (some .socks5) none, .move 4 (.dispense .socks5),
          .move 4 (.redialled true)] ∧
      ∃ proxy, s.Answers steps 4 .socks5 proxy ∧ proxy.protocol = .socks5 ∧
        ∃ x ∈ steps, ∃ candidate, x.Takes 4 .socks5 candidate ∧
          s.before.candidate? 4 = some candidate ∧ proxy.endpoint = candidate.endpoint := by
  obtain ⟨p, hmade, hview⟩ : ∃ p, Pool.new Config.default = .ok p ∧
      ((p.perform?
        [.load "a:1", .start, .move 0 .lockIntake, .move 0 .receive, .move 0 .forward,
          .move 1 .look, .move 3 .pick, .move 3 (.attempted (.ok (.v4 ⟨198, 51, 100, 7⟩))),
          .move 3 .deliver, .get (some .socks5) none, .move 4 (.dispense .socks5)]).bind fun q =>
            (q.act? (.move 4 (.redialled true))).map fun after =>
              (q.task? 4, q.handouts, after.handouts)) =
        some (some (.caller ⟨.take (some .socks5), none,
            .checking ⟨"a:1", .socks5, some (.v4 ⟨198, 51, 100, 7⟩), some 0, 1, 0⟩ 0
              9000000000 true 0⟩), [],
          [(4, ⟨"a:1", .socks5, some (.v4 ⟨198, 51, 100, 7⟩), some 0, 1, 0⟩)]) := ⟨_, rfl, rfl⟩
  obtain ⟨steps, s, hrun, hdeeds, hseen⟩ := Run.of_last_view
    (fun q after => (q.task? 4, q.handouts, after.handouts)) hview
  simp only [Prod.mk.injEq] at hseen
  obtain ⟨htask, hbefore, hafter⟩ := hseen
  have hunasked := (blank_of_withSlots hmade).not_asks
  have hanswers : s.Answers steps 4 .socks5
      ⟨"a:1", .socks5, some (.v4 ⟨198, 51, 100, 7⟩), some 0, 1, 0⟩ := by
    refine Step.answers_of_asks (orderly_of_withSlots hmade) hunasked (hrun.upto rfl) (by decide)
      (Pool.asks_of_caller htask rfl) ?_
    rw [hbefore, hafter]
    rfl
  rw [List.map_append] at hdeeds
  obtain ⟨hearlier, hlast⟩ := List.append_inj' hdeeds rfl
  -- Only the last step ends a re-dial, and it is one of the first life.
  have hplain : ∀ t ∈ steps ++ [s], ¬ t.Mistypes := by
    rintro t ht ⟨id, c, candidate, life, timeout, recycle, since, first, other, hdeed, hcaller, -,
      hstage, hlater, -⟩
    rcases List.mem_append.1 ht with hsteps | hs
    · have hmem : t.deed ∈ steps.map Step.deed := List.mem_map_of_mem hsteps
      rw [hearlier, hdeed] at hmem
      simp at hmem
    · obtain rfl := List.mem_singleton.1 hs
      rw [List.singleton_inj.1 hlast] at hdeed
      cases hdeed
      rw [htask] at hcaller
      cases hcaller
      cases hstage
      exact absurd hlater (Nat.not_lt_zero first)
  obtain ⟨htaken, htyped⟩ := handouts_typed_iff hmade hrun
  have hprotocol := htyped.2 hplain steps s [] _ _ _ rfl hanswers
  refine ⟨p, steps, s, hmade, hrun, ?_, _, hanswers, hprotocol, ?_⟩
  · rw [List.map_append]
    exact hdeeds
  · exact htaken steps s [] _ _ _ rfl hanswers

end SocksPool
