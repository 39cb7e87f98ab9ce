import SocksPool.Proofs.Conservation
import SocksPool.Proofs.Limits
import SocksPool.Proofs.Shifts
import SocksPool.Proofs.Whereabouts

/-!
# What is on file about one endpoint

Where the name of an endpoint leads, what is known of each of its lives, and its
strikes: this is its *dossier*. Most deeds concern other endpoints and leave it alone.

A caller that checks a candidate locks its life and may mark it, and a caller that uses
a proxy may report it. But both need a copy, and copies come from attempts that succeed.
As long as no attempt finds the endpoint good, there is no copy of it anywhere, and no
caller has to do with it. Then only a load that registers it and a strike change its
dossier.

## Main definitions

* `Pool.dossier` — what is on file about an endpoint.
* `Pool.Copyless` — there is no copy of the endpoint.

## Main results

* `Shift.proxy_cases` — where the proxies in the hands of tasks come from.
* `Copyless.act` — there is still no copy if no attempt succeeds.
* `dossier_of_act?` — the deeds that leave a dossier alone.
* `count_tokens_of_act?` — and they neither make nor lose a token.
-/

namespace SocksPool

/-- The proxy that a task has to do with: it carries a copy, or a caller uses it. -/
def Task.proxy? : Task → Option Proxy
  | .caller ⟨_, _, .using proxy _ _⟩ => some proxy
  | task => task.copy?

namespace Task

variable {proxy : Proxy}

theorem proxy?_of_copy? {task : Task} (h : task.copy? = some proxy) : task.proxy? = some proxy := by
  unfold copy? at h
  split at h
  · exact h
  · exact h
  · cases h

theorem proxy?_wakened (task : Task) : task.wakened.proxy? = task.proxy? := by
  cases task <;> rfl

theorem proxy?_of_waiting {c : Caller} (h : c.stage = .waiting) :
    (Task.caller c).proxy? = none := by
  obtain ⟨purpose, patience, stage⟩ := c
  obtain rfl : stage = .waiting := h
  rfl

theorem proxy?_of_using {c : Caller} {timeout since : Nat}
    (h : c.stage = .using proxy timeout since) : (Task.caller c).proxy? = some proxy := by
  obtain ⟨purpose, patience, stage⟩ := c
  obtain rfl : stage = .using proxy timeout since := h
  rfl

end Task

/-- What is known of a life, if it is one of the endpoint. -/
def Registry.entryOf? (r : Registry) (endpoint : String) (life : Nat) : Option Entry :=
  (r.entry? life).filter (·.endpoint == endpoint)

theorem Entry.endpoint_markBad (entry : Entry) : entry.markBad.endpoint = entry.endpoint := rfl

namespace Registry

variable {r : Registry} {e endpoint : String}

theorem entryOf?_eq_some {life : Nat} {entry : Entry} :
    r.entryOf? e life = some entry ↔ r.entry? life = some entry ∧ entry.endpoint = e := by
  simp [entryOf?, Option.filter_eq_some_iff]

theorem isLife_iff_entryOf? {life : Nat} : r.IsLife life e ↔ (r.entryOf? e life).isSome = true := by
  rw [Option.isSome_iff_exists]
  exact exists_congr fun entry => entryOf?_eq_some.symm

/-- A change of another endpoint's life. -/
theorem entryOf?_update {life : Nat} {change : Entry → Entry}
    (hkeep : ∀ entry, (change entry).endpoint = entry.endpoint) (hlife : r.IsLife life endpoint)
    (hne : endpoint ≠ e) : (r.update life change).entryOf? e = r.entryOf? e := by
  funext other
  unfold entryOf?
  rw [entry?_update]
  by_cases hsame : other = life
  · obtain ⟨entry, hentry, rfl⟩ := hlife
    have hchanged : (change entry).endpoint ≠ e := by rwa [hkeep]
    rw [if_pos hsame, hsame, hentry]
    simp [Option.filter, hne, hchanged]
  · rw [if_neg hsame]

/-- Another endpoint is registered. -/
theorem entryOf?_add (hnone : r.find? endpoint = none) (hne : endpoint ≠ e) :
    (r.add endpoint).1.entryOf? e = r.entryOf? e := by
  funext life
  unfold entryOf?
  rw [entry?_add hnone]
  split
  · next hnew =>
      have hfresh : r.entry? life = none := by
        unfold entry?
        exact List.getElem?_eq_none (Nat.le_of_eq hnew.symm)
      rw [hfresh]
      simp [hne]
  · rfl

end Registry

/-- What is on file about an endpoint. -/
structure Dossier where
  /-- The life that its name leads to. -/
  name : Option Nat
  entries : Nat → Option Entry
  strike : Option Strike

namespace Pool

/-- The dossier of an endpoint. -/
def dossier (p : Pool) (e : String) : Dossier :=
  ⟨p.registry.find? e, p.registry.entryOf? e, p.backoff.strikes.get? e⟩

/-- An attempt of a round of the endpoint succeeds. -/
def Passes (p : Pool) (d : Deed) (e : String) : Prop :=
  ∃ id exit r, d = .move id (.attempted (.ok exit)) ∧ p.task? id = some (.round r) ∧
    r.endpoint = e

/-- There is no copy of the endpoint, neither queued nor in the hands of a task. -/
structure Copyless (p : Pool) (e : String) : Prop where
  queued : ∀ {protocol copy}, copy ∈ p.outputs.get protocol → copy.endpoint ≠ e
  carried : ∀ {task proxy}, task ∈ p.crew → task.proxy? = some proxy → proxy.endpoint ≠ e

variable {p q : Pool} {d : Deed} {e : String}

/-! ## Copies -/

/-- A proxy that comes to a task was with a task before, was queued, has passed a round, or
is what is known of the life under a check. -/
theorem Shift.proxy_cases {gone come : List Task} {mid : Pool}
    (h : Shift p q d gone come mid) {task : Task} {proxy : Proxy} (hmem : task ∈ come)
    (hproxy : task.proxy? = some proxy) :
    task ∈ p.crew ∨ (∃ protocol, proxy ∈ p.outputs.get protocol) ∨
      (∃ id exit r, d = .move id (.attempted (.ok exit)) ∧ p.task? id = some (.round r) ∧
        task = .round { r with stage := .delivering proxy }) ∨
      ∃ id c candidate life timeout wanted since entry, p.task? id = some (.caller c) ∧
        c.stage = .checking candidate life timeout wanted since ∧
        p.registry.entry? life = some entry ∧ proxy = entry.snapshot := by
  have hrequeue {wanted : Bool} {endpoint : String} (hcame : task ∈ recycled wanted endpoint) :
      False := by
    rw [(mem_recycled hcame).2] at hproxy
    cases hproxy
  cases h with
  | called c _ hwaits =>
      rw [List.mem_singleton.1 hmem, Task.proxy?_of_waiting hwaits] at hproxy
      cases hproxy
  | launched _ _ =>
      simp only [freshLoops, List.mem_cons, List.not_mem_nil, or_false] at hmem
      rcases hmem with rfl | rfl | rfl <;> cases hproxy
  | hired _ _ =>
      simp only [List.mem_cons, List.not_mem_nil, or_false] at hmem
      rcases hmem with rfl | rfl <;> cases hproxy
  | locked _ | received _ _ | forwarded _ _ | slept _ _ _ | ticked _ _ _ _ _ _
  | deferred _ _ _ | opened _ _ _ _ _ _ | retried _ _ | failedKept _ _ _ | woke _ _ =>
      rw [List.mem_singleton.1 hmem] at hproxy
      cases hproxy
  | passed copy htask _ =>
      obtain rfl := List.mem_singleton.1 hmem
      obtain rfl := Option.some.inj hproxy
      exact .inr (.inr (.inl ⟨_, _, _, rfl, htask, rfl⟩))
  | passedOver htask _ =>
      rw [List.mem_singleton.1 hmem]
      exact .inl (mem_crew_of_task? htask)
  | sentBack htask _ =>
      rcases List.mem_append.1 hmem with hback | hcaller
      · exact (hrequeue hback).elim
      · rw [List.mem_singleton.1 hcaller]
        exact .inl (mem_crew_of_task? htask)
  | checked life _ _ hqueue =>
      rw [List.mem_singleton.1 hmem] at hproxy
      obtain rfl := Option.some.inj hproxy
      exact .inr (.inl ⟨_, hqueue ▸ List.mem_cons_self⟩)
  | redialled htask hstage hserved =>
      rcases List.mem_append.1 hmem with hback | hcaller
      · exact (hrequeue hback).elim
      · obtain ⟨c, hc, rfl⟩ := mem_goesOn hcaller
        rcases hserved c hc with hwaits | ⟨entry, timeout, since, hentry, huses⟩
        · rw [Task.proxy?_of_waiting hwaits] at hproxy
          cases hproxy
        · rw [Task.proxy?_of_using huses] at hproxy
          obtain rfl := Option.some.inj hproxy
          exact .inr (.inr (.inr ⟨_, _, _, _, _, _, _, entry, htask, hstage, hentry, rfl⟩))
  | used _ _ _ _ hwaits =>
      obtain ⟨c, hc, rfl⟩ := mem_goesOn hmem
      rw [Task.proxy?_of_waiting (hwaits c hc)] at hproxy
      cases hproxy
  | _ => cases hmem

/-- What a check has locked is a life of the candidate's endpoint. -/
theorem isLife_of_checking (h : Orderly p) {id life timeout since : Nat} {c : Caller}
    {candidate : Proxy} {wanted : Bool} (htask : p.task? id = some (.caller c))
    (hstage : c.stage = .checking candidate life timeout wanted since) :
    p.registry.IsLife life candidate.endpoint := by
  have hholds : (Task.caller c).token?.isSome = true := by
    rw [Task.token?_of_checking hstage]
    rfl
  exact ((h.backed_of_task? htask hholds).of_checking hstage).1

namespace Copyless

/-- No candidate under a check is of the endpoint. -/
theorem checking (h : p.Copyless e) {id life timeout since : Nat} {c : Caller}
    {candidate : Proxy} {wanted : Bool} (htask : p.task? id = some (.caller c))
    (hstage : c.stage = .checking candidate life timeout wanted since) :
    candidate.endpoint ≠ e :=
  h.carried (mem_crew_of_task? htask) (Task.proxy?_of_copy? (copy?_of_checking hstage))

theorem not_offers (h : p.Copyless e) {copy : Proxy} (hoffers : p.Offers copy) :
    copy.endpoint ≠ e := by
  rcases hoffers with ⟨protocol, hqueued⟩ | ⟨id, c, life, timeout, wanted, since, htask, hstage⟩
  · exact h.queued hqueued
  · exact h.checking htask hstage

/-- As long as no attempt succeeds, there is still no copy. -/
theorem act (hcopyless : p.Copyless e) (h : Orderly p) (hact : p.act? d = some q)
    (hdead : ¬ p.Passes d e) : q.Copyless e where
  queued {protocol copy} hmem := by
    obtain ⟨mid, heffect, hquiet⟩ := effects_of_act? h.numbered hact
    rw [hquiet.outputs] at hmem
    rcases heffect.copy_cases hmem with hold | ⟨-, id, task, htask, hcopy⟩
    · exact hcopyless.queued hold
    · exact hcopyless.carried (mem_crew_of_task? htask) (Task.proxy?_of_copy? hcopy)
  carried {task proxy} hmem hproxy := by
    obtain ⟨gone, come, mid, hshift, hswap⟩ := shifts_of_act? h.numbered hact
    rcases hshift.mem_cases hswap hmem with ⟨old, hold, rfl | rfl⟩ | hcame
    · exact hcopyless.carried hold hproxy
    · rw [Task.proxy?_wakened] at hproxy
      exact hcopyless.carried hold hproxy
    · rcases hshift.proxy_cases hcame hproxy with hold | ⟨protocol, hqueued⟩ |
        ⟨id, exit, r, hdeed, htask, rfl⟩ |
        ⟨id, c, candidate, life, timeout, wanted, since, entry, htask, hstage, hentry, rfl⟩
      · exact hcopyless.carried hold hproxy
      · exact hcopyless.queued hqueued
      · -- The round goes on, and what it delivers is of its own endpoint.
        obtain ⟨⟨number, _⟩, hheld, rfl⟩ := List.mem_map.1 hmem
        have hbacked := (h.act hact).backed _ (Task.mem_holders.2 ⟨hheld, rfl⟩)
        have hname : proxy.endpoint = r.endpoint := hbacked.2 proxy rfl
        rw [hname]
        exact fun hsame => hdead ⟨id, exit, r, hdeed, htask, hsame⟩
      · have hlife := isLife_of_checking h htask hstage
        have hown : p.registry.IsLife life entry.endpoint := ⟨entry, hentry, rfl⟩
        show entry.endpoint ≠ e
        rw [hown.unique hlife]
        exact hcopyless.checking htask hstage

end Copyless

/-! ## The dossier -/

/-- What is on file is the same where the dossier is. -/
theorem contains_of_dossier (h : q.dossier e = p.dossier e) :
    q.registry.contains e = p.registry.contains e ∧
      q.backoff.strikes.contains e = p.backoff.strikes.contains e :=
  ⟨congrArg (Option.isSome ∘ Dossier.name) h, congrArg (Option.isSome ∘ Dossier.strike) h⟩

theorem count_of_dossier (h : q.dossier e = p.dossier e) :
    q.backoff.count e = p.backoff.count e :=
  congrArg (fun file => (file.strike.map (·.count)).getD 0) h

theorem isLife_of_dossier (h : q.dossier e = p.dossier e) (life : Nat) :
    q.registry.IsLife life e ↔ p.registry.IsLife life e := by
  have hentries : q.registry.entryOf? e = p.registry.entryOf? e := congrArg Dossier.entries h
  rw [Registry.isLife_iff_entryOf?, Registry.isLife_iff_entryOf?, hentries]

theorem dossier_aside (h : Aside p q) (e : String) : q.dossier e = p.dossier e := by
  unfold dossier
  rw [h.registry, h.backoff]

theorem dossier_recycle (p : Pool) (wanted : Bool) (endpoint e : String) :
    (p.recycle wanted endpoint).dossier e = p.dossier e := by
  cases wanted <;> rfl

theorem dossier_serve (p : Pool) (id : Nat) (c : Caller) (proxy : Proxy) (e : String) :
    (p.serve id c proxy).dossier e = p.dossier e := by
  unfold serve
  split <;> rfl

section Other

variable {life : Nat} {endpoint : String}

/-- Another endpoint's life is changed. -/
theorem dossier_update (hlife : p.registry.IsLife life endpoint) (hne : endpoint ≠ e)
    {change : Entry → Entry} (hkeep : ∀ entry, (change entry).endpoint = entry.endpoint) :
    dossier { p with registry := p.registry.update life change } e = p.dossier e := by
  unfold dossier
  dsimp only
  rw [Registry.entryOf?_update hkeep hlife hne]
  rfl

theorem dossier_unlock (hlife : p.registry.IsLife life endpoint) (hne : endpoint ≠ e) :
    (p.unlock life).dossier e = p.dossier e :=
  dossier_update hlife hne fun _ => rfl

/-- Another endpoint is struck. -/
theorem dossier_punish (hlife : p.registry.IsLife life endpoint) (hne : endpoint ≠ e) :
    (p.punish life endpoint).dossier e = p.dossier e := by
  obtain ⟨row, hrow, -⟩ := p.backoff.strike_row p.now endpoint
  have hstrikes : (p.backoff.strike p.now endpoint).1.strikes.get? e =
      p.backoff.strikes.get? e := by
    rw [hrow]
    exact (Table.get?_put _ _ _ _).trans (if_neg hne.symm)
  have hmarked := dossier_update hlife hne Entry.endpoint_markBad
  refine Eq.trans ?_ hmarked
  show Dossier.mk _ _ ((p.backoff.strike p.now endpoint).1.strikes.get? e) = _
  rw [hstrikes]
  rfl

/-- Another endpoint is evicted. -/
theorem dossier_evict (p : Pool) (hne : endpoint ≠ e) :
    (p.evict endpoint).dossier e = p.dossier e := by
  unfold evict
  cases hdelete : p.registry.delete endpoint with
  | error err => rfl
  | ok deleted =>
      have hname : deleted.find? e = p.registry.find? e := by
        rw [Registry.find?_delete hdelete, if_neg hne.symm]
      have hentries : deleted.entryOf? e = p.registry.entryOf? e := by
        funext life
        unfold Registry.entryOf?
        rw [Registry.entry?_delete hdelete]
      have hstrike : (p.backoff.strikes.erase endpoint).get? e = p.backoff.strikes.get? e :=
        (Table.get?_erase _ _ _).trans (if_neg hne.symm)
      show Dossier.mk (deleted.find? e) (deleted.entryOf? e)
        ((p.backoff.strikes.erase endpoint).get? e) = p.dossier e
      rw [hname, hentries, hstrike]
      rfl

end Other

theorem dossier_load {raw : String} (hnone : admitted p (p.load raw).1 e = 0) :
    (p.load raw).1.dossier e = p.dossier e := by
  rcases p.load_cases raw with hsame | ⟨endpoint, hfind, hnew⟩
  · rw [hsame]
  · have hne : endpoint ≠ e := by
      rintro rfl
      have hout : p.registry.contains endpoint = false := by simp [Registry.contains, hfind]
      have hin : (p.load raw).1.registry.contains endpoint = true := by
        rw [hnew]
        exact (contains_add hfind endpoint).trans (if_pos rfl)
      rw [admitted_eq_one hout hin] at hnone
      cases hnone
    rw [hnew]
    show Dossier.mk ((p.registry.add endpoint).1.find? e) ((p.registry.add endpoint).1.entryOf? e)
      (p.backoff.strikes.get? e) = p.dossier e
    rw [Registry.find?_add hfind, if_neg hne.symm, Registry.entryOf?_add hfind hne]
    rfl

/-- Loads that do not register the endpoint anew. -/
theorem dossier_loadAll {raws : List String} (hnone : admitted p (p.loadAll raws).1 e = 0) :
    (p.loadAll raws).1.dossier e = p.dossier e := by
  induction raws generalizing p with
  | nil => rfl
  | cons raw more ih =>
      have hboth : admitted p (p.load raw).1 e +
          admitted (p.load raw).1 ((p.load raw).1.loadAll more).1 e = 0 := by
        rw [← admitted_trans (fun h => contains_load h raw) fun h => contains_loadAll h more]
        exact hnone
      have hhead := dossier_load (Nat.eq_zero_of_add_eq_zero_right hboth)
      have htail := ih (Nat.eq_zero_of_add_eq_zero_left hboth)
      exact htail.trans hhead

/-- While there is no copy of the endpoint, it takes a strike, an attempt that succeeds or
a load that registers it to change its dossier. -/
theorem Effect.dossier_eq (heffect : p.Effect d q) (h : Orderly p) (hcopyless : p.Copyless e)
    (hspared : ¬ p.Strikes d e) (hdead : ¬ p.Passes d e) (hnone : admitted p q e = 0) :
    q.dossier e = p.dossier e := by
  cases heffect with
  | loaded _ => exact dossier_loadAll hnone
  | @reported _ life endpoint _ hfind hstrikes =>
      exact dossier_punish (h.sound.named hfind) fun hsame => hspared (hsame ▸ hstrikes)
  | @reportedOut _ life endpoint _ hfind _ hstrikes =>
      have hne : endpoint ≠ e := fun hsame => hspared (hsame ▸ hstrikes)
      exact (dossier_evict _ hne).trans (dossier_punish (h.sound.named hfind) hne)
  | struckOff _ hqueue _ _ =>
      exact dossier_evict _ (hcopyless.queued (hqueue ▸ List.mem_cons_self))
  | sentBack _ _ _ => exact dossier_recycle _ _ _ _
  | checked _ _ _ hqueue hfind hlock _ _ =>
      obtain ⟨-, rfl⟩ := Registry.tryLock?_eq_some hlock
      have hne := hcopyless.queued (hqueue ▸ List.mem_cons_self)
      exact dossier_update (h.sound.named hfind) hne fun _ => rfl
  | @cleared id life _ _ _ candidate wanted _ htask hstage _ =>
      have hlife := isLife_of_checking h htask hstage
      rw [dossier_serve, unlock_recycle, dossier_recycle]
      exact dossier_unlock (p := p.remove id) hlife (hcopyless.checking htask hstage)
  | @voided id life _ _ _ candidate wanted htask hstage _ =>
      have hlife := isLife_of_checking h htask hstage
      rw [unlock_recycle, dossier_recycle]
      exact dossier_unlock (p := p.remove id) hlife (hcopyless.checking htask hstage)
  | @refused id life _ _ _ candidate wanted htask hstage =>
      have hlife := isLife_of_checking h htask hstage
      have hne := hcopyless.checking htask hstage
      rw [unlock_recycle, dossier_recycle]
      have hmarked := dossier_update (p := p.remove id) hlife hne Entry.endpoint_markBad
      refine Eq.trans ?_ hmarked
      refine dossier_unlock (p := ((p.remove id).markBad life).1) ?_ hne
      exact (Registry.isLife_update _ _ Entry.endpoint_markBad).2 hlife
  | @restored id _ _ _ _ _ _ htask hstage _ | @overflowed id _ _ _ _ _ _ htask hstage _
  | @dropped id _ _ _ _ _ _ htask hstage =>
      have hlife := isLife_of_checking h htask hstage
      exact dossier_unlock (p := p.remove id) hlife (hcopyless.checking htask hstage)
  | @passed id _ r _ _ exit _ htask _ _ =>
      have hlife := (h.backed_of_task? htask rfl).1
      have hne : r.endpoint ≠ e := fun hsame => hdead ⟨id, exit, r, rfl, htask, hsame⟩
      refine dossier_update hlife hne fun entry => ?_
      exact Registry.endpoint_recordValidation _ _ _ _
  | @failedHalfway id _ r _ _ htask hlast _ | @failedKept id _ _ r _ _ htask hlast _ _ =>
      have hne : r.endpoint ≠ e := fun hsame => hspared (hsame ▸ .failed htask hlast)
      exact dossier_punish (p := p.remove id) (h.backed_of_task? htask rfl).1 hne
  | @failedOut id _ r _ _ htask hlast _ _ =>
      have hne : r.endpoint ≠ e := fun hsame => hspared (hsame ▸ .failed htask hlast)
      refine (dossier_evict _ hne).trans ?_
      exact dossier_punish (p := p.remove id) (h.backed_of_task? htask rfl).1 hne
  | _ => rfl

/-- So it is with every deed. -/
theorem dossier_of_act? (hact : p.act? d = some q) (h : Orderly p) (hcopyless : p.Copyless e)
    (hspared : ¬ p.Strikes d e) (hdead : ¬ p.Passes d e) (hnone : admitted p q e = 0) :
    q.dossier e = p.dossier e := by
  obtain ⟨mid, heffect, hquiet⟩ := effects_of_act? h.numbered hact
  rw [dossier_aside hquiet.toAside]
  refine heffect.dossier_eq h hcopyless hspared hdead ?_
  unfold admitted at hnone ⊢
  rwa [← hquiet.registry]

/-- Nor is a token made or lost by such a deed, unless the last one is lost with the
name. -/
theorem count_tokens_of_act? (hact : p.act? d = some q) (h : Orderly p) (hcopyless : p.Copyless e)
    (hspared : ¬ p.Strikes d e) (hlisted : q.registry.contains e = true)
    (hnone : admitted p q e = 0) (hfew : p.tokens.count e ≤ 1) :
    q.tokens.count e = p.tokens.count e := by
  obtain ⟨lost, hflow⟩ := flow_of_act? h hact
  have hcount := hflow.count e
  rw [hnone] at hcount
  suffices hkept : e ∉ lost by
    rw [List.count_eq_zero.2 hkept] at hcount
    omega
  intro hlost
  cases hflow.reason e hlost with
  | unregistered hname =>
      rw [hlisted] at hname
      cases hname
  | doubled htoken =>
      have hone := List.count_pos_iff.2 htoken
      have hmore := List.count_pos_iff.2 hlost
      omega
  | retired hoffers hname _ => exact hcopyless.not_offers hoffers hname
  | overflowed _ hchecks hname _ => exact hcopyless.not_offers (.inr ⟨_, hchecks⟩) hname
  | dropped _ hchecks hname => exact hcopyless.not_offers (.inr ⟨_, hchecks⟩) hname
  | halfway hfails hname _ _ =>
      obtain ⟨id, protocol, since, fault, rfl, htask, hlast⟩ := hfails
      exact hspared (hname ▸ .failed htask hlast)

end Pool

end SocksPool
