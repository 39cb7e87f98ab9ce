import SocksPool.Proofs.Coherence
import SocksPool.Proofs.Dossier
import SocksPool.Proofs.Overflow
import SocksPool.Proofs.Pace
import SocksPool.Proofs.Penalties
import SocksPool.Proofs.Strikes

/-!
# The decline of a dead endpoint

An endpoint that answers no protocol attempt is validated again and again, at longer and
longer intervals, until it has as many bad marks as the configuration allows. Four things
have to keep step for this: the bad marks of its life, the strikes of the limiter, the
task that brings it back, and the eviction. A mark or a strike that is missed or made
twice would move the eviction to another round.

They do keep step, because there is nothing else to make a mark. A caller needs a copy to
mark or to strike, and of a dead endpoint there is none. A round needs the token of the
endpoint, and there is only one. So each round that fails makes one mark and one strike,
and either the endpoint comes back after the window of that strike, or it is evicted. The
limiter counts strikes up to a maximum, and so do its windows.

## Main definitions

* `Step.misses` — a round of the endpoint fails in this step.
* `Step.Fruitless` — the step does nothing for the endpoint, and nothing else against it.
* `Step.Returns`, `Step.Evicts` — the two ends of a round that fails.
* `Pool.Declines`, `Pool.Absent` — the endpoint is on its way out, or not there.

## Main results

* `Absent.act`, `Absent.registered` — an absent endpoint stays so until it is registered,
  and then its decline begins.
* `Declines.endure`, `Declines.fails` — a decline goes further when a round fails, and not
  before.
-/

namespace SocksPool

/-! ## Registry and limiter -/

namespace Registry

/-- The entry is registered, and its endpoint has had no other life. -/
structure Sole (r : Registry) (entry : Entry) : Prop where
  registered : r.get? entry.endpoint = some entry
  lone : ∀ {life}, r.IsLife life entry.endpoint → r.find? entry.endpoint = some life

variable {r : Registry} {entry : Entry} {life : Nat} {e : String}

theorem Sole.entry? (h : r.Sole entry) (hlife : r.IsLife life entry.endpoint) :
    r.entry? life = some entry := by
  obtain ⟨named, hfind, hentry⟩ := get?_eq_some.1 h.registered
  rw [h.lone hlife] at hfind
  rwa [Option.some.inj hfind]

theorem Sole.contains (h : r.Sole entry) : r.contains entry.endpoint = true := by
  obtain ⟨life, hfind, -⟩ := get?_eq_some.1 h.registered
  exact Option.isSome_of_eq_some hfind

theorem Sole.markBad (h : r.Sole entry) (hlife : r.IsLife life entry.endpoint) :
    (r.update life Entry.markBad).Sole entry.markBad where
  registered := by
    refine get?_eq_some.2 ⟨life, h.lone hlife, ?_⟩
    rw [entry?_update, if_pos rfl, h.entry? hlife]
    rfl
  lone hother := h.lone ((isLife_update _ _ Entry.endpoint_markBad).1 hother)

theorem Sole.badMarks_markBad (h : r.Sole entry) (hlife : r.IsLife life entry.endpoint) :
    (r.update life Entry.markBad).badMarks life = entry.timesBad + 1 := by
  unfold badMarks
  rw [entry?_update, if_pos rfl, h.entry? hlife]
  rfl

/-- The first registration of an endpoint. -/
theorem sole_add (hnone : r.find? e = none) (hnever : ∀ life, ¬ r.IsLife life e) :
    (r.add e).1.Sole { endpoint := e } where
  registered := by
    refine get?_eq_some.2 ⟨r.lives.length, ?_, ?_⟩
    · rw [find?_add hnone, if_pos rfl]
    · rw [entry?_add hnone, if_pos rfl]
  lone hlife := by
    rcases (isLife_add hnone).1 hlife with ⟨rfl, -⟩ | hold
    · rw [find?_add hnone, if_pos rfl]
    · exact absurd hold (hnever _)

end Registry

namespace Backoff

variable {b : Backoff} {now window k : Nat} {endpoint : String}

theorem count_strike (b : Backoff) (now : Nat) (endpoint : String) :
    (b.strike now endpoint).1.count endpoint = min (b.count endpoint + 1) maxCount := by
  obtain ⟨row, hrow, hcount, -⟩ := b.strike_row now endpoint
  have hfound : (b.strikes.put endpoint row).get? endpoint = some row :=
    (Table.get?_put _ _ _ _).trans (if_pos rfl)
  rw [hrow, ← hcount]
  unfold count
  dsimp only
  rw [hfound]
  rfl

/-- The window of a strike goes by the strikes before it, as far as they are counted. -/
theorem window_of_strike (hstruck : (b.strike now endpoint).2 = some window)
    (hcount : b.count endpoint = min k maxCount) : window = doubled b.base b.ceiling k := by
  obtain ⟨row, -, hrow, hends⟩ := b.strike_row now endpoint
  rcases hends with ⟨-, hwindow⟩ | ⟨-, hnone⟩
  · rw [hstruck] at hwindow
    obtain rfl := Option.some.inj hwindow
    rw [window_eq_doubled (strike_fits hstruck)]
    -- Windows stop doubling long before the count reaches its maximum.
    have hbefore : min (row.count - 1) 16 = min k 16 := by
      rw [hrow, hcount]
      unfold maxCount
      omega
    unfold doubled
    rw [hbefore]
  · rw [hstruck] at hnone
    cases hnone

end Backoff

/-! ## One step -/

/-- When a task brings the endpoint back, if it is going to: at a deadline, or as soon as
there is room on the pending queue. -/
def Task.comeback? (endpoint : String) : Task → Option (Option Nat)
  | .requeue other due => if other = endpoint then some due else none
  | _ => none

namespace Pool

/-- The tasks that are going to bring the endpoint back, each with its deadline. -/
def comebacks (p : Pool) (e : String) : List (Option Nat) :=
  p.tasks.filterMap (·.2.comeback? e)

/-- The endpoint has nothing on file but `k` bad marks and `k` strikes, which the limiter
counts up to a maximum, and it circulates as one token. -/
structure Marked (p : Pool) (e : String) (k : Nat) : Prop where
  registered : p.registry.get? e = some { endpoint := e, timesBad := k }
  struck : p.backoff.count e = min k Backoff.maxCount
  single : p.tokens.count e = 1

/-- The endpoint has neither entry nor strikes, and does not circulate. -/
structure Forgotten (p : Pool) (e : String) : Prop where
  unregistered : p.registry.contains e = false
  unstruck : p.backoff.strikes.contains e = false
  gone : e ∉ p.tokens

end Pool

namespace Step

/-- The step registers the endpoint. -/
def registers (s : Step) (e : String) : Bool :=
  !s.before.registry.contains e && s.after.registry.contains e

/-- The last attempt of a round of the endpoint fails. -/
def misses (s : Step) (e : String) : Bool :=
  match s.deed with
  | .move id (.attempted (.error _)) =>
    match s.before.task? id with
    | some (.round ⟨endpoint, _, _, _, .attempting _ [] _⟩) => endpoint == e
    | _ => false
  | _ => false

/-- The step does nothing for the endpoint, and nothing else against it than to fail its
rounds: the threshold stays, nobody reports it, no attempt finds it good, and if a round of
it fails the clock can represent the end of its window. -/
structure Fruitless (s : Step) (e : String) (threshold : Nat) : Prop where
  kept : s.before.config.removeAfter = threshold
  silent : s.deed ≠ .reportFailure e
  dead : ¬ s.before.Passes s.deed e
  fits : s.misses e = true → (s.before.backoff.strike s.before.now e).2 ≠ none

/-- The endpoint has `k` marks and strikes after the step, and comes back after the
window. -/
structure Returns (s : Step) (e : String) (k window : Nat) : Prop where
  marked : s.after.Marked e k
  requeued : s.after.comebacks e = [if window = 0 then none else some (s.before.now + window)]
  kept : s.after.stats.evicted = s.before.stats.evicted

/-- The endpoint is evicted. -/
structure Evicts (s : Step) (e : String) : Prop where
  forgotten : s.after.Forgotten e
  counted : s.after.stats.evicted = s.before.stats.evicted + 1

variable {s : Step} {e : String}

theorem misses_iff : s.misses e = true ↔ ∃ r, s.before.Fails s.deed r ∧ r.endpoint = e := by
  constructor
  · intro hmisses
    unfold misses at hmisses
    split at hmisses
    · next id fault hdeed =>
        split at hmisses
        · next endpoint life probe inSlot protocol since htask =>
            refine ⟨_, ⟨id, protocol, since, fault, hdeed, htask, rfl⟩, ?_⟩
            exact beq_iff_eq.1 hmisses
        · cases hmisses
    · cases hmisses
  · rintro ⟨⟨endpoint, life, probe, inSlot, stage⟩, ⟨id, protocol, since, fault, hdeed, htask,
      hlast⟩, rfl⟩
    obtain rfl : stage = .attempting protocol [] since := hlast
    unfold misses
    rw [hdeed]
    dsimp only
    rw [htask]
    exact beq_self_eq_true _

theorem admitted_eq_zero (h : s.registers e = false) : Pool.admitted s.before s.after e = 0 := by
  refine Pool.admitted_eq_zero fun hafter => ?_
  unfold registers at h
  rw [hafter] at h
  simpa using h

end Step

namespace Pool

variable {p q : Pool} {d : Deed} {e : String} {k threshold : Nat}

/-! ## Requeues -/

theorem comebacks_aside (h : Aside p q) (e : String) : q.comebacks e = p.comebacks e := by
  have hidle (task : Task) (htoken : task.token? = none) : task.comeback? e = none := by
    cases task with
    | requeue other due => cases htoken
    | _ => rfl
  unfold comebacks
  rw [← Task.filterMap_holders hidle p.tasks, ← Task.filterMap_holders hidle q.tasks, h.holders]

/-- A task that holds an endpoint is a token of it. -/
theorem mem_tokens_of_task? {id : Nat} {task : Task} (htask : p.task? id = some task)
    (htoken : task.token? = some e) : e ∈ p.tokens :=
  mem_tokens_of_held (List.mem_filterMap.2 ⟨_, Task.mem_of_lookup htask, htoken⟩)

theorem comebacks_eq_nil (h : e ∉ p.tokens) : p.comebacks e = [] := by
  refine List.filterMap_eq_nil_iff.2 fun entry hmem => ?_
  obtain ⟨number, task⟩ := entry
  cases task with
  | requeue other due =>
      refine if_neg ?_
      rintro rfl
      exact h (mem_tokens_of_held (List.mem_filterMap.2 ⟨_, hmem, rfl⟩))
  | _ => rfl

theorem comebacks_requeue (p : Pool) (e : String) (window : Nat) :
    (p.requeue e window).comebacks e =
      p.comebacks e ++ [if window = 0 then none else some (Instant.deadline p.now window)] := by
  unfold comebacks requeue spawn
  rw [List.filterMap_append]
  simp [Task.comeback?]

/-! ## Evictions -/

/-- The eviction of an endpoint that is registered. -/
theorem evict_of_contains (h : p.registry.contains e = true) :
    (p.evict e).backoff = p.backoff.forget e ∧ (p.evict e).stats = p.stats.recordEvicted := by
  unfold evict Registry.delete
  rw [if_pos h]
  exact ⟨rfl, rfl⟩

/-! ## Absence -/

/-- The endpoint is forgotten, and no copy of it is left. -/
structure Absent (p : Pool) (e : String) : Prop extends Forgotten p e where
  copyless : p.Copyless e

theorem Forgotten.round_ne (h : p.Forgotten e) {id : Nat} {r : Round}
    (htask : p.task? id = some (.round r)) : r.endpoint ≠ e := by
  rintro rfl
  exact h.gone (mem_tokens_of_task? htask rfl)

theorem Forgotten.not_strikes (h : p.Forgotten e) : ¬ p.Strikes d e := by
  have hlisted (hin : p.registry.contains e = true) : False := by
    rw [h.unregistered] at hin
    cases hin
  intro hstrikes
  cases hstrikes with
  | reported hin => exact hlisted hin
  | failed htask _ => exact h.round_ne htask rfl
  | undialled _ _ _ hin => exact hlisted hin
  | unanswered _ _ _ _ hin => exact hlisted hin

theorem Forgotten.not_passes (h : p.Forgotten e) : ¬ p.Passes d e :=
  fun ⟨_, _, _, _, htask, hname⟩ => h.round_ne htask hname

theorem Forgotten.not_misses {s : Step} (h : s.before.Forgotten e) : s.misses e = false := by
  refine Bool.eq_false_iff.2 fun hmisses => ?_
  obtain ⟨r, ⟨id, protocol, since, fault, -, htask, -⟩, hname⟩ := Step.misses_iff.1 hmisses
  exact h.round_ne htask hname

theorem sole_of_dossier (h : q.dossier e = p.dossier e) {entry : Entry}
    (hname : entry.endpoint = e) (hsole : p.registry.Sole entry) : q.registry.Sole entry := by
  subst hname
  have hnames : q.registry.find? entry.endpoint = p.registry.find? entry.endpoint :=
    congrArg Dossier.name h
  have hentries : q.registry.entryOf? entry.endpoint = p.registry.entryOf? entry.endpoint :=
    congrArg Dossier.entries h
  constructor
  · obtain ⟨life, hfind, hentry⟩ := Registry.get?_eq_some.1 hsole.registered
    have hown := Registry.entryOf?_eq_some.2 ⟨hentry, rfl⟩
    rw [← hentries] at hown
    exact Registry.get?_eq_some.2 ⟨life, hnames.trans hfind, (Registry.entryOf?_eq_some.1 hown).1⟩
  · intro life hlife
    rw [hnames]
    exact hsole.lone ((isLife_of_dossier h life).1 hlife)

/-- An endpoint that is absent stays so until it is registered. -/
theorem Absent.act (h : p.Absent e) (horderly : Orderly p) (hact : p.act? d = some q)
    (hnone : admitted p q e = 0) : q.Absent e ∧ q.dossier e = p.dossier e := by
  have hsame := dossier_of_act? hact horderly h.copyless h.not_strikes h.not_passes hnone
  obtain ⟨hname, hstrike⟩ := contains_of_dossier hsame
  obtain ⟨lost, hflow⟩ := flow_of_act? horderly hact
  have hcount := hflow.count e
  rw [hnone, List.count_eq_zero.2 h.gone] at hcount
  refine ⟨⟨⟨?_, ?_, ?_⟩, h.copyless.act horderly hact h.not_passes⟩, hsame⟩
  · rw [hname, h.unregistered]
  · rw [hstrike, h.unstruck]
  · exact List.count_eq_zero.1 (by omega)

/-! ## Decline -/

/-- The endpoint has failed `k` rounds since it was loaded for the first time, and is not
evicted yet. -/
structure Declines (p : Pool) (e : String) (k : Nat) : Prop where
  sole : p.registry.Sole { endpoint := e, timesBad := k }
  struck : p.backoff.count e = min k Backoff.maxCount
  single : p.tokens.count e = 1
  copyless : p.Copyless e

theorem Declines.marked (h : p.Declines e k) : p.Marked e k :=
  ⟨h.sole.registered, h.struck, h.single⟩

/-- The first load of an endpoint. -/
theorem sole_loadAll {raws : List String} (hout : p.registry.contains e = false)
    (hnever : ∀ life, ¬ p.registry.IsLife life e)
    (hin : (p.loadAll raws).1.registry.contains e = true) :
    (p.loadAll raws).1.registry.Sole { endpoint := e } := by
  induction raws generalizing p with
  | nil =>
      have hsame : p.registry.contains e = true := hin
      rw [hout] at hsame
      cases hsame
  | cons raw more ih =>
      have hrest : ((p.load raw).1.loadAll more).1.registry.contains e = true := hin
      show ((p.load raw).1.loadAll more).1.registry.Sole { endpoint := e }
      cases hfirst : (p.load raw).1.registry.contains e with
      | false =>
          have hnone : admitted p (p.load raw).1 e = 0 :=
            admitted_eq_zero fun hloaded => absurd hloaded (Bool.eq_false_iff.1 hfirst)
          refine ih hfirst (fun life hlife => ?_) hrest
          exact hnever life ((isLife_of_dossier (dossier_load hnone) life).1 hlife)
      | true =>
          have hnone : admitted (p.load raw).1 ((p.load raw).1.loadAll more).1 e = 0 :=
            admitted_eq_zero fun _ => hfirst
          refine sole_of_dossier (dossier_loadAll hnone) rfl ?_
          rcases p.load_cases raw with hsame | ⟨endpoint, hfind, hnew⟩
          · rw [hsame, hout] at hfirst
            cases hfirst
          · have hname : e = endpoint := by
              by_contra hne
              rw [hnew] at hfirst
              have hkept := (contains_add hfind e).symm.trans hfirst
              rw [if_neg hne, hout] at hkept
              cases hkept
            subst hname
            rw [hnew]
            exact Registry.sole_add hfind hnever

/-- An endpoint that is registered for the first time begins its decline. -/
theorem Absent.registered (h : p.Absent e) (horderly : Orderly p) (hact : p.act? d = some q)
    (hnever : ∀ life, ¬ p.registry.IsLife life e)
    (hin : q.registry.contains e = true) : q.Declines e 0 := by
  obtain ⟨mid, hturn, haside⟩ := turns_of_act? horderly.numbered hact
  rcases hturn.names_or_loaded with ⟨raws, rfl⟩ | hnames
  · obtain ⟨registry, intake, hloaded⟩ := p.loadAll_eq raws
    have hbackoff : q.backoff = p.backoff := by rw [haside.backoff, hloaded]
    obtain ⟨lost, hflow⟩ := flow_of_act? horderly hact
    have hcount := hflow.count e
    have hkept : e ∉ lost := fun hlost => by
      have hold := hflow.known e hlost hin
      rw [h.unregistered] at hold
      cases hold
    rw [admitted_eq_one h.unregistered hin, List.count_eq_zero.2 h.gone,
      List.count_eq_zero.2 hkept] at hcount
    refine ⟨?_, ?_, by omega, h.copyless.act horderly hact h.not_passes⟩
    · rw [haside.registry] at hin ⊢
      exact sole_loadAll h.unregistered hnever hin
    · rw [hbackoff, (Backoff.clear_of_not_contains h.unstruck p.now).1]
      exact (Nat.zero_min _).symm
  · rw [haside.registry] at hin
    have hout := h.unregistered
    rw [hnames e hin] at hout
    cases hout

/-- Without a copy, an endpoint is struck by a report of its own or by a round that
fails. -/
theorem Copyless.not_strikes (h : p.Copyless e) (hsilent : d ≠ .reportFailure e)
    (hspared : ∀ r, p.Fails d r → r.endpoint ≠ e) : ¬ p.Strikes d e := by
  intro hstrikes
  cases hstrikes with
  | reported _ => exact hsilent rfl
  | failed htask hlast => exact hspared _ ⟨_, _, _, _, rfl, htask, hlast⟩ rfl
  | undialled htask _ hstage _ | unanswered htask _ hstage _ _ =>
      exact h.carried (mem_crew_of_task? htask) (Task.proxy?_of_using hstage) rfl

/-- Unless a round of the endpoint fails, its decline goes no further. -/
theorem Declines.endure {s : Step} (h : s.before.Declines e k) (horderly : Orderly s.before)
    (hfruitless : s.Fruitless e threshold) (hmisses : s.misses e = false) :
    s.after.Declines e k := by
  have hspared (r : Round) (hfails : s.before.Fails s.deed r) : r.endpoint ≠ e := by
    intro hname
    rw [Step.misses_iff.2 ⟨r, hfails, hname⟩] at hmisses
    cases hmisses
  have hdead := hfruitless.dead
  have hstrikes := h.copyless.not_strikes hfruitless.silent hspared
  have hin : s.before.registry.contains e = true := h.sole.contains
  have hnone : admitted s.before s.after e = 0 := admitted_eq_zero fun _ => hin
  have hsame := dossier_of_act? s.done horderly h.copyless hstrikes hdead hnone
  have hlisted := (contains_of_dossier hsame).1.trans hin
  refine ⟨sole_of_dossier hsame rfl h.sole, ?_, ?_, h.copyless.act horderly s.done hdead⟩
  · rw [count_of_dossier hsame, h.struck]
  · rw [count_tokens_of_act? s.done horderly h.copyless hstrikes hlisted hnone
      (Nat.le_of_eq h.single), h.single]

/-- A round fails while its endpoint declines: it comes back after its window with one more
mark and one more strike, or it is evicted. -/
theorem Declines.fails {s : Step} (h : s.before.Declines e k) (horderly : Orderly s.before)
    (hfruitless : s.Fruitless e threshold) (hmisses : s.misses e = true) :
    (k + 1 < threshold ∧ s.after.Declines e (k + 1) ∧
        s.Returns e (k + 1) (Backoff.doubled s.before.backoff.base s.before.backoff.ceiling k)) ∨
      (threshold ≤ k + 1 ∧ s.after.Absent e ∧ s.Evicts e) := by
  obtain ⟨r, hfails, rfl⟩ := Step.misses_iff.1 hmisses
  obtain ⟨id, htask, hends⟩ := hfails.cases horderly.numbered s.done
  have hlife : s.before.registry.IsLife r.life r.endpoint :=
    (horderly.backed_of_task? htask rfl).1
  have hexhausts : s.before.Exhausts r.life ↔ threshold ≤ k + 1 := by
    unfold Exhausts
    rw [h.sole.badMarks_markBad hlife, hfruitless.kept]
  have hcopyless := h.copyless.act horderly s.done hfruitless.dead
  -- The round has its mark and its strike, and its token is gone with it.
  have hsole : ((s.before.remove id).miss r).registry.Sole
      { endpoint := r.endpoint, timesBad := k + 1 } := h.sole.markBad hlife
  have hgone : r.endpoint ∉ ((s.before.remove id).miss r).tokens := by
    have htoken : (Task.round r).token?.toList.count r.endpoint = 1 := List.count_singleton_self
    have hcount := count_remove horderly.numbered htask r.endpoint
    rw [h.single, htoken] at hcount
    have hzero : (s.before.remove id).tokens.count r.endpoint = 0 := by omega
    exact List.count_eq_zero.1 hzero
  rcases hends with ⟨hnone, -⟩ | ⟨-, hmany, hquiet⟩ | ⟨window, hwindow, hfew, hquiet⟩
  · exact absurd hnone (hfruitless.fits hmisses)
  · right
    obtain ⟨hforgot, hcounted⟩ := evict_of_contains hsole.contains
    have hforgotten : s.after.Forgotten r.endpoint := by
      refine ⟨?_, ?_, ?_⟩
      · rw [hquiet.registry]
        exact contains_evict_self _ _
      · rw [hquiet.backoff, hforgot]
        refine (Table.contains_erase _ _ _).trans ?_
        simp
      · rw [hquiet.tokens, tokens_evict]
        exact hgone
    refine ⟨hexhausts.1 hmany, ⟨hforgotten, hcopyless⟩, hforgotten, ?_⟩
    rw [hquiet.stats, hcounted]
    rfl
  · left
    have hdoubled := Backoff.window_of_strike hwindow h.struck
    have hends : Instant.deadline s.before.now window = s.before.now + window := by
      refine Instant.deadline_eq ?_
      unfold Instant.add?
      rw [if_pos (Backoff.strike_fits hwindow)]
      exact Option.some_ne_none _
    have hdeclines : s.after.Declines r.endpoint (k + 1) := by
      refine ⟨?_, ?_, ?_, hcopyless⟩
      · rw [hquiet.registry]
        exact hsole
      · have hstruck := s.before.backoff.count_strike s.before.now r.endpoint
        rw [h.struck] at hstruck
        rw [hquiet.backoff]
        refine hstruck.trans ?_
        omega
      · rw [hquiet.tokens]
        refine (count_spawn _ _ _).trans ?_
        rw [List.count_eq_zero.2 hgone]
        exact (Nat.zero_add _).trans List.count_singleton_self
    refine ⟨Nat.lt_of_not_le fun hle => hfew (hexhausts.2 hle), hdeclines,
      hdeclines.marked, ?_, ?_⟩
    · rw [comebacks_aside hquiet.toAside, comebacks_requeue, comebacks_eq_nil hgone, ← hdoubled,
        ← hends]
      rfl
    · rw [hquiet.stats]
      rfl

end Pool

end SocksPool
