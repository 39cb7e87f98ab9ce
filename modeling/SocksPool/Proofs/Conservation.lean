import SocksPool.Proofs.Orderly

/-!
# Conservation of tokens

Tokens are neither made nor lost in silence. One equation says so of every
deed and every endpoint: the tokens after it, and the one it lost, are the
tokens before it and the one that it admitted. A token is admitted only when
its endpoint is registered anew, and it is lost only for one of the reasons
that `Loss` lists.

The equation is proved turn by turn. Each operation that a turn is made of has
its own counting lemma, and the turn adds them up.

## Main results

* `flow_of_act?` — the tokens after a deed are accounted for.
* `Turn.names_or_loaded` — only a load registers a name.
-/

open SocksPool.Task (Numbered held without)

namespace SocksPool

/-- Whether a task that re-dials a candidate is going to have it validated
again. -/
def Task.wanted? : Task → Option Bool
  | .caller ⟨_, _, .checking _ _ _ wanted _⟩ => some wanted
  | _ => none

namespace Pool

/-- A task re-dials a candidate. -/
def Checks (p : Pool) (id : Nat) (candidate : Proxy) : Prop :=
  ∃ c life timeout wanted since, p.task? id = some (.caller c) ∧
    c.stage = .checking candidate life timeout wanted since

/-- The copy is on an output queue, or under a check. -/
def Offers (p : Pool) (copy : Proxy) : Prop :=
  (∃ protocol, copy ∈ p.outputs.get protocol) ∨ ∃ id, p.Checks id copy

/-- Candidates are validated again, also those under a check that has begun. -/
structure Recycling (p : Pool) : Prop where
  setting : p.config.recycle = true
  checks : ∀ entry ∈ Task.holders p.tasks, entry.2.wanted? ≠ some false

/-- Why a deed may lose a token of an endpoint. -/
inductive Loss (p : Pool) (d : Deed) (q : Pool) (e : String) : Prop where
  /-- The endpoint is registered no more. -/
  | unregistered (hname : q.registry.contains e = false)
  /-- Another token of it is left. -/
  | doubled (htoken : e ∈ q.tokens)
  /-- A candidate is let go that is not validated again. -/
  | retired {candidate : Proxy} (hoffers : p.Offers candidate) (hname : candidate.endpoint = e)
      (hrecycling : ¬ p.Recycling)
  /-- A cancelled caller finds no room for its candidate. -/
  | overflowed {id : Nat} {candidate : Proxy} (hdeed : d = .move id .cancel)
      (hchecks : p.Checks id candidate) (hname : candidate.endpoint = e)
      (hroom : p.config.bufferSize ≤ (p.outputs.get candidate.protocol).length)
  /-- A dropped caller takes its candidate with it. -/
  | dropped {id : Nat} {candidate : Proxy} (hdeed : d = .move id .abandon)
      (hchecks : p.Checks id candidate) (hname : candidate.endpoint = e)
  /-- A round fails and stops halfway, because the end of its window does not exist. -/
  | halfway {r : Round} (hfails : p.Fails d r) (hname : r.endpoint = e)
      (hwindow : (p.backoff.strike p.now r.endpoint).2 = none) (hcrash : p.crashes < q.crashes)

/-- One if the endpoint is registered in the later pool only. -/
def admitted (p q : Pool) (endpoint : String) : Nat :=
  if p.registry.contains endpoint = false ∧ q.registry.contains endpoint = true then 1 else 0

theorem Recycling.of_task? {p : Pool} (h : p.Recycling) {id life timeout since : Nat} {c : Caller}
    {candidate : Proxy} {wanted : Bool} (hfind : p.task? id = some (.caller c))
    (hstage : c.stage = .checking candidate life timeout wanted since) : wanted = true := by
  have hholds : ((id, Task.caller c).2.token?).isSome = true := by
    rw [Task.token?_of_checking hstage]
    rfl
  have hcheck := h.checks _ (Task.mem_holders.2 ⟨Task.mem_of_lookup hfind, hholds⟩)
  obtain ⟨purpose, patience, stage⟩ := c
  obtain rfl : stage = .checking candidate life timeout wanted since := hstage
  cases wanted with
  | true => rfl
  | false => exact absurd rfl hcheck

/-! ## Counting -/

variable {p q : Pool} {id : Nat} {task : Task} {e : String} {rest : List String}

theorem count_tokens (p : Pool) (e : String) :
    p.tokens.count e = p.intake.count e + p.pending.count e +
      (p.outputs.copies.map (·.endpoint)).count e + (held p.tasks).count e := by
  simp only [tokens, List.count_append]

theorem count_remove (hnum : Numbered p.tasks p.nextTask) (hfind : p.task? id = some task)
    (e : String) :
    (p.remove id).tokens.count e + task.token?.toList.count e = p.tokens.count e := by
  have hheld := hnum.count_held hfind e
  have hgone : (held (p.remove id).tasks).count e = (held (without p.tasks id)).count e := rfl
  rw [count_tokens, count_tokens, hgone]
  simp only [remove]
  omega

/-- A caller that re-dials a candidate ends. -/
theorem count_remove_check (hnum : Numbered p.tasks p.nextTask) {c : Caller} {candidate : Proxy}
    {life timeout since : Nat} {wanted : Bool} (hfind : p.task? id = some (.caller c))
    (hstage : c.stage = .checking candidate life timeout wanted since) (e : String) :
    (p.remove id).tokens.count e + [candidate.endpoint].count e = p.tokens.count e := by
  have hgone := count_remove hnum hfind e
  rwa [Task.token?_of_checking hstage] at hgone

theorem count_put (p : Pool) (id : Nat) (task : Task) (e : String) :
    (p.put id task).tokens.count e =
      (p.remove id).tokens.count e + task.token?.toList.count e := by
  have hheld : held (p.put id task).tasks = held (p.remove id).tasks ++ task.token?.toList := by
    show held ((p.remove id).tasks ++ [(id, task)]) = _
    rw [Task.held_append]
    cases htoken : task.token? <;> simp [held, htoken]
  rw [count_tokens, count_tokens, hheld, List.count_append]
  simp only [put, remove]
  omega

theorem count_spawn (p : Pool) (task : Task) (e : String) :
    (p.spawn task).tokens.count e = p.tokens.count e + task.token?.toList.count e := by
  have hheld : held (p.spawn task).tasks = held p.tasks ++ task.token?.toList := by
    show held (p.tasks ++ [(p.nextTask, task)]) = _
    rw [Task.held_append]
    cases htoken : task.token? <;> simp [held, htoken]
  rw [count_tokens, count_tokens, hheld, List.count_append]
  simp only [spawn]
  omega

theorem count_pushIntake (p : Pool) (endpoint e : String) :
    (p.pushIntake endpoint).tokens.count e = p.tokens.count e + [endpoint].count e := by
  rw [count_tokens, count_tokens]
  simp only [pushIntake, List.count_append]
  omega

theorem count_pushPending (p : Pool) (endpoint e : String) :
    (p.pushPending endpoint).tokens.count e = p.tokens.count e + [endpoint].count e := by
  rw [count_tokens, count_tokens]
  simp only [pushPending, List.count_append]
  omega

theorem count_popIntake {endpoint : String} (hintake : p.intake = endpoint :: rest) (e : String) :
    (tokens { p with intake := rest }).count e + [endpoint].count e = p.tokens.count e := by
  have hhead : p.intake.count e = [endpoint].count e + rest.count e := by
    rw [hintake, ← List.count_append, List.singleton_append]
  rw [count_tokens, count_tokens]
  dsimp only
  omega

theorem count_popPending {endpoint : String} (hpending : p.pending = endpoint :: rest)
    (e : String) :
    (tokens { p with pending := rest }).count e + [endpoint].count e = p.tokens.count e := by
  have hhead : p.pending.count e = [endpoint].count e + rest.count e := by
    rw [hpending, ← List.count_append, List.singleton_append]
  rw [count_tokens, count_tokens]
  dsimp only
  omega

theorem count_deliver {copy : Proxy} (hknown : copy.protocol ≠ .unknown) (e : String) :
    (p.deliver copy).tokens.count e = p.tokens.count e + [copy.endpoint].count e := by
  have hset := p.outputs.count_copies_set hknown (p.outputs.get copy.protocol ++ [copy]) e
  rw [List.map_append, List.count_append] at hset
  rw [count_tokens, count_tokens]
  simp only [deliver]
  simp only [List.map_cons, List.map_nil] at hset
  omega

theorem count_dequeue {protocol : Protocol} {copy : Proxy} {queue : List Proxy}
    (hqueue : p.outputs.get protocol = copy :: queue) (e : String) :
    (tokens { p with outputs := p.outputs.set protocol queue }).count e + [copy.endpoint].count e =
      p.tokens.count e := by
  have hset := p.outputs.count_copies_set (Outputs.known_of_get hqueue) queue e
  rw [hqueue, List.map_cons, ← List.singleton_append, List.count_append] at hset
  rw [count_tokens, count_tokens]
  dsimp only
  omega

theorem count_recycle (p : Pool) (wanted : Bool) (endpoint e : String) :
    (p.recycle wanted endpoint).tokens.count e =
      p.tokens.count e + if wanted then [endpoint].count e else 0 := by
  cases wanted with
  | true => exact count_spawn p _ e
  | false => rfl

/-! ## Names -/

/-- Only a load registers a name. -/
theorem Turn.names_or_loaded {d : Deed} (hturn : p.Turn d q) :
    (∃ raws, q = (p.loadAll raws).1) ∨
      ∀ e, q.registry.contains e = true → p.registry.contains e = true := by
  cases hturn with
  | loaded raws => exact .inl ⟨raws, rfl⟩
  | reportedOut hfind hmarks => exact .inr fun e h => (contains_of_evict h :)
  | struckOff hqueue hfind hmarks => exact .inr fun e h => (contains_of_evict h :)
  | failedOut htask hlast hwindow hmarks => exact .inr fun e h => (contains_of_evict h :)
  | checked htask hwaits hqueue hfind hlock =>
      obtain ⟨-, rfl⟩ := Registry.tryLock?_eq_some hlock
      exact .inr fun e h => h
  | sentBack hqueue =>
      apply Or.inr
      intro e h
      rwa [registry_recycle] at h
  | cleared htask hstage =>
      rw [unlock_recycle]
      apply Or.inr
      intro e h
      rwa [registry_recycle] at h
  | refused htask hstage =>
      rw [unlock_recycle]
      apply Or.inr
      intro e h
      rwa [registry_recycle] at h
  | _ => exact .inr fun e h => h

/-! ## Loads -/

theorem admitted_eq_zero (h : q.registry.contains e = true → p.registry.contains e = true) :
    admitted p q e = 0 := by
  unfold admitted
  rw [if_neg]
  rintro ⟨hbefore, hafter⟩
  rw [h hafter] at hbefore
  cases hbefore

theorem admitted_eq_one (hbefore : p.registry.contains e = false)
    (hafter : q.registry.contains e = true) : admitted p q e = 1 :=
  if_pos ⟨hbefore, hafter⟩

theorem admitted_trans {r : Pool}
    (hpq : p.registry.contains e = true → q.registry.contains e = true)
    (hqr : q.registry.contains e = true → r.registry.contains e = true) :
    admitted p r e = admitted p q e + admitted q r e := by
  unfold admitted
  cases hp : p.registry.contains e <;> cases hq : q.registry.contains e <;>
    cases hr : r.registry.contains e <;> simp_all

/-- A load admits a token of an endpoint that it registers anew. -/
theorem count_load (p : Pool) (raw e : String) :
    (p.load raw).1.tokens.count e = p.tokens.count e + admitted p (p.load raw).1 e := by
  rcases p.load_cases raw with hsame | ⟨endpoint, hfind, hnew⟩
  · rw [hsame, admitted_eq_zero id, Nat.add_zero]
  · rw [hnew]
    show (p.pushIntake endpoint).tokens.count e = _
    rw [count_pushIntake]
    unfold admitted
    dsimp only
    rw [contains_add hfind]
    by_cases he : e = endpoint
    · have hout : p.registry.contains endpoint = false := by
        simp [Registry.contains, hfind]
      simp [he, hout]
    · have hne : ¬ endpoint = e := fun heq => he heq.symm
      cases hin : p.registry.contains e <;> simp [he, hne]

theorem count_loadAll (p : Pool) (raws : List String) (e : String) :
    (p.loadAll raws).1.tokens.count e = p.tokens.count e + admitted p (p.loadAll raws).1 e := by
  induction raws generalizing p with
  | nil => exact (congrArg (p.tokens.count e + ·) (admitted_eq_zero id)).symm
  | cons raw more ih =>
      have hhead := count_load p raw e
      have htail := ih (p.load raw).1
      show ((p.load raw).1.loadAll more).1.tokens.count e =
        p.tokens.count e + admitted p ((p.load raw).1.loadAll more).1 e
      rw [admitted_trans (fun h => contains_load h raw) fun h => contains_loadAll h more]
      omega

/-! ## Turns -/

/-- What a turn that registers nothing does to the tokens: it keeps their
number, or it loses one for a reason. -/
def Accounted (p : Pool) (d : Deed) (q : Pool) : Prop :=
  (∀ e, q.tokens.count e = p.tokens.count e) ∨
  ∃ lost, (∀ e, q.tokens.count e + [lost].count e = p.tokens.count e) ∧ Loss p d q lost

variable {d : Deed} {endpoint : String} {candidate : Proxy} {protocol : Protocol}
  {queue : List Proxy}

/-- While a life is locked, a task re-dials a candidate of its endpoint. -/
theorem held_of_locked (h : Orderly p) {life : Nat}
    (hfind : p.registry.find? endpoint = some life) (hlocked : p.registry.IsLocked life) :
    endpoint ∈ held p.tasks := by
  obtain ⟨⟨number, task⟩, hmem, hlocks⟩ := h.guarded life hlocked
  obtain ⟨c, candidate, timeout, wanted, since, rfl, hstage⟩ := Task.checking_of_locks? hlocks
  have hbacked := (h.backed _ hmem).of_checking hstage
  rw [(h.sound.named hfind).unique hbacked.1]
  refine List.mem_filterMap.2 ⟨_, (Task.mem_holders.1 hmem).1, ?_⟩
  exact Task.token?_of_checking hstage

theorem mem_tokens_of_held (h : e ∈ held p.tasks) : e ∈ p.tokens :=
  List.mem_append_right _ h

/-- A candidate that is sent back to the pending queue, or is not. -/
theorem accounted_of_recycle {wanted : Bool} (hoffers : p.Offers candidate)
    (hcount : ∀ e, p.tokens.count e = q.tokens.count e + [candidate.endpoint].count e)
    (hwanted : p.Recycling → wanted = true) :
    Accounted p d (q.recycle wanted candidate.endpoint) := by
  cases hw : wanted with
  | true =>
      apply Or.inl
      intro e
      rw [count_recycle, if_pos rfl, hcount e]
  | false =>
      refine .inr ⟨_, fun e => ?_, .retired hoffers rfl fun hrecycling => ?_⟩
      · rw [count_recycle, if_neg nofun, hcount e, Nat.add_zero]
      · rw [hwanted hrecycling] at hw
        cases hw

theorem Turn.accounted (h : Orderly p) (hturn : p.Turn d q)
    (hnames : ∀ e, q.registry.contains e = true → p.registry.contains e = true) :
    Accounted p d q := by
  cases hturn with
  | idled => exact .inl fun e => rfl
  | adjusted hrecycle => exact .inl fun e => rfl
  | loaded raws =>
      apply Or.inl
      intro e
      rw [count_loadAll, admitted_eq_zero (hnames e), Nat.add_zero]
  | reported hfind => exact .inl fun e => rfl
  | reportedOut hfind hmarks =>
      apply Or.inl
      intro e
      rw [tokens_evict]
      rfl
  | handedBack htask =>
      apply Or.inl
      intro e
      rw [count_pushIntake, ← count_remove h.numbered htask e]
      rfl
  | @received id epoch endpoint rest htask hintake =>
      apply Or.inl
      intro e
      have hidle := count_remove (p := { p with intake := rest }) h.numbered htask e
      rw [count_put, ← count_popIntake hintake e, ← hidle]
      rfl
  | forwarded htask =>
      apply Or.inl
      intro e
      rw [count_pushPending, ← count_remove h.numbered htask e]
      rfl
  | woke htask =>
      apply Or.inl
      intro e
      rw [count_put, ← count_remove h.numbered htask e]
      rfl
  | cameBack htask =>
      apply Or.inl
      intro e
      rw [count_pushPending, ← count_remove h.numbered htask e]
      rfl
  | skipped hpending hfind =>
      refine .inr ⟨_, count_popPending hpending, .unregistered ?_⟩
      simp [Registry.contains, hfind]
  | deferred due hpending =>
      apply Or.inl
      intro e
      rw [count_spawn, ← count_popPending hpending e]
      rfl
  | @opened id epoch rest r htask hpending hfind hstage =>
      apply Or.inl
      intro e
      have hidle := count_remove (p := { p with pending := rest }) h.numbered htask e
      rw [count_put, ← count_popPending hpending e, ← hidle]
      rfl
  | @delivered id r copy htask hstage hroom =>
      have hname := (h.backed_of_task? htask rfl).2 copy hstage
      apply Or.inl
      intro e
      rw [count_deliver (known_of_room hroom), ← count_remove h.numbered htask e, hname]
      rfl
  | @passedOver id protocol candidate rest hqueue hgate =>
      refine .inr ⟨_, count_dequeue hqueue, ?_⟩
      -- The name is gone, or its life is locked and the lock's holder has a token.
      cases hfind : p.registry.find? candidate.endpoint with
      | none =>
          refine .unregistered ?_
          simp [Registry.contains, hfind]
      | some life =>
          rcases hgate life hfind with hlocked | hnone
          · exact .doubled (mem_tokens_of_held (held_of_locked (h.dequeue hqueue) hfind hlocked))
          · obtain ⟨entry, hentry, -⟩ := h.sound.named hfind
            rw [hnone] at hentry
            cases hentry
  | struckOff hqueue hfind hmarks =>
      refine .inr ⟨_, fun e => ?_, .unregistered (contains_evict_self _ _)⟩
      rw [tokens_evict]
      exact count_dequeue hqueue e
  | sentBack hqueue =>
      have hoffers : p.Offers _ := .inl ⟨_, hqueue ▸ List.mem_cons_self⟩
      refine accounted_of_recycle hoffers (fun e => (count_dequeue hqueue e).symm) ?_
      exact fun hrecycling => hrecycling.setting
  | @checked id life c protocol candidate rest locked htask hwaits hqueue hfind hlock =>
      apply Or.inl
      intro e
      have hidle := count_remove
        (p := { p with outputs := p.outputs.set protocol rest, registry := locked })
        h.numbered htask e
      rw [token?_of_waiting hwaits] at hidle
      rw [count_put, ← count_dequeue hqueue e]
      exact congrArg (· + [candidate.endpoint].count e) hidle
  | cleared htask hstage =>
      rw [unlock_recycle]
      have hoffers : p.Offers _ := .inr ⟨_, _, _, _, _, _, htask, hstage⟩
      refine accounted_of_recycle hoffers (fun e => ?_) fun hrecycling => ?_
      · exact (count_remove_check h.numbered htask hstage e).symm
      · exact hrecycling.of_task? htask hstage
  | refused htask hstage =>
      rw [unlock_recycle]
      have hoffers : p.Offers _ := .inr ⟨_, _, _, _, _, _, htask, hstage⟩
      refine accounted_of_recycle hoffers (fun e => ?_) fun hrecycling => ?_
      · exact (count_remove_check h.numbered htask hstage e).symm
      · exact hrecycling.of_task? htask hstage
  | restored htask hstage hroom =>
      apply Or.inl
      intro e
      rw [count_deliver (known_of_room hroom), ← count_remove_check h.numbered htask hstage e]
      rfl
  | @overflowed id life timeout since c candidate wanted htask hstage hroom =>
      have hholds : (Task.caller c).token?.isSome = true := by
        rw [Task.token?_of_checking hstage]
        rfl
      have hknown := ((h.backed_of_task? htask hholds).of_checking hstage).2
      refine .inr ⟨_, count_remove_check h.numbered htask hstage,
        .overflowed rfl ⟨c, life, timeout, wanted, since, htask, hstage⟩ rfl ?_⟩
      simpa [outputRoom, hknown] using hroom
  | dropped htask hstage =>
      exact .inr ⟨_, count_remove_check h.numbered htask hstage,
        .dropped rfl ⟨_, _, _, _, _, htask, hstage⟩ rfl⟩
  | retried protocol rest htask =>
      apply Or.inl
      intro e
      rw [count_put, ← count_remove h.numbered htask e]
      rfl
  | passed htask hentry =>
      apply Or.inl
      intro e
      rw [count_put, ← count_remove h.numbered htask e]
      rfl
  | vanished htask hentry =>
      obtain ⟨entry, hfound, -⟩ := (h.backed_of_task? htask rfl).1
      rw [hentry] at hfound
      cases hfound
  | failedHalfway htask hlast hwindow =>
      refine .inr ⟨_, count_remove h.numbered htask,
        .halfway ⟨_, _, _, _, rfl, htask, hlast⟩ rfl hwindow ?_⟩
      exact Nat.lt_succ_self _
  | failedOut htask hlast hwindow hmarks =>
      refine .inr ⟨_, fun e => ?_, .unregistered (contains_evict_self _ _)⟩
      rw [tokens_evict]
      exact count_remove h.numbered htask e
  | failedKept htask hlast hwindow hmarks =>
      apply Or.inl
      intro e
      refine (count_spawn _ _ e).trans ?_
      rw [← count_remove h.numbered htask e]
      rfl

theorem Loss.aside {r : Pool} (h : Loss p d q e) (haside : Aside q r) : Loss p d r e := by
  cases h with
  | unregistered hname => exact .unregistered (haside.registry ▸ hname)
  | doubled htoken => exact .doubled (haside.tokens ▸ htoken)
  | retired hoffers hname hrecycling => exact .retired hoffers hname hrecycling
  | overflowed hdeed hchecks hname hroom => exact .overflowed hdeed hchecks hname hroom
  | dropped hdeed hchecks hname => exact .dropped hdeed hchecks hname
  | halfway hfails hname hwindow hcrash =>
      exact .halfway hfails hname hwindow (Nat.lt_of_lt_of_le hcrash haside.crashes)

/-- The tokens after a deed, and the one it lost, are the tokens before it and
the one that it admitted. What it lost it had not admitted. -/
structure Flow (p : Pool) (d : Deed) (q : Pool) (lost : List String) : Prop where
  count : ∀ e, q.tokens.count e + lost.count e = p.tokens.count e + admitted p q e
  reason : ∀ e ∈ lost, Loss p d q e
  known : ∀ e ∈ lost, q.registry.contains e = true → p.registry.contains e = true

theorem Turn.flow (h : Orderly p) (hturn : p.Turn d q) : ∃ lost, Flow p d q lost := by
  -- Loads are apart from the rest: one load admits many endpoints and loses none.
  rcases hturn.names_or_loaded with ⟨raws, rfl⟩ | hnames
  · exact ⟨[], fun e => count_loadAll p raws e, nofun, nofun⟩
  · have hnothing (e : String) : admitted p q e = 0 := admitted_eq_zero (hnames e)
    rcases hturn.accounted h hnames with hkept | ⟨lost, hcount, hreason⟩
    · exact ⟨[], fun e => by rw [hnothing]; exact hkept e, nofun, nofun⟩
    · refine ⟨[lost], fun e => by rw [hnothing]; exact hcount e, ?_, fun e _ => hnames e⟩
      intro e hmem
      rw [List.mem_singleton.1 hmem]
      exact hreason

/-- Every deed accounts for the tokens. -/
theorem flow_of_act? (h : Orderly p) (hact : p.act? d = some q) : ∃ lost, Flow p d q lost := by
  obtain ⟨mid, hturn, haside⟩ := turns_of_act? h.numbered hact
  obtain ⟨lost, hflow⟩ := hturn.flow h
  refine ⟨lost, ?_, fun e hmem => (hflow.reason e hmem).aside haside, ?_⟩
  · intro e
    have hcount := hflow.count e
    unfold admitted at hcount ⊢
    rw [haside.tokens, haside.registry]
    exact hcount
  · rw [haside.registry]
    exact hflow.known

end Pool

end SocksPool
