import SocksPool.Proofs.Deeds

/-!
# Orderly pools

What every reachable pool has in common. The invariant `Orderly` ties the
tasks to the registry: a round validates a life of its endpoint, a caller
re-dials a candidate whose life it has locked, and nobody else holds a lock.
So a candidate is passed over for a locked life only while another task holds
a token of the same endpoint.

Each operation keeps the invariant by a lemma of its own, and a turn is made
of these operations.

## Main results

* `orderly_of_withSlots` — a pool begins orderly.
* `Orderly.turn`, `Orderly.act` — every deed keeps a pool orderly.
* `Orderly.throughout` — every state of a run is orderly.
-/

open SocksPool.Task (Numbered holders without)

namespace SocksPool

namespace Task

/-- What a task holds is of the endpoint that it says. -/
def Backed (r : Registry) : Task → Prop
  | .round begun => r.IsLife begun.life begun.endpoint ∧
      ∀ copy, begun.stage = .delivering copy → copy.endpoint = begun.endpoint
  | .caller ⟨_, _, .checking candidate life _ _ _⟩ =>
      r.IsLife life candidate.endpoint ∧ candidate.protocol ≠ .unknown
  | _ => True

/-- The life that a task has locked. -/
def locks? : Task → Option Nat
  | .caller ⟨_, _, .checking _ life _ _ _⟩ => some life
  | _ => none

end Task

/-- Tasks and registry fit together. -/
structure Orderly (p : Pool) : Prop where
  numbered : Numbered p.tasks p.nextTask
  sound : p.registry.Sound
  backed : ∀ entry ∈ holders p.tasks, entry.2.Backed p.registry
  sorted : p.outputs.Sorted
  /-- Every lock is held by a task. -/
  guarded : ∀ life, p.registry.IsLocked life →
    ∃ entry ∈ holders p.tasks, entry.2.locks? = some life

namespace Task

variable {tasks : List (Nat × Task)} {id life : Nat} {task : Task}

/-- Lives stay lives, so what is backed stays backed. -/
theorem Backed.mono {r s : Registry} (h : task.Backed r)
    (hlives : ∀ life e, r.IsLife life e → s.IsLife life e) : task.Backed s := by
  unfold Backed at h ⊢
  split at h
  · exact ⟨hlives _ _ h.1, h.2⟩
  · exact ⟨hlives _ _ h.1, h.2⟩
  · trivial

theorem locks?_of_checking {c : Caller} {candidate : Proxy} {timeout since : Nat} {wanted : Bool}
    (h : c.stage = .checking candidate life timeout wanted since) :
    (Task.caller c).locks? = some life := by
  obtain ⟨purpose, patience, stage⟩ := c
  obtain rfl : stage = .checking candidate life timeout wanted since := h
  rfl

theorem token?_of_checking {c : Caller} {candidate : Proxy} {timeout since : Nat} {wanted : Bool}
    (h : c.stage = .checking candidate life timeout wanted since) :
    (Task.caller c).token? = some candidate.endpoint := by
  obtain ⟨purpose, patience, stage⟩ := c
  obtain rfl : stage = .checking candidate life timeout wanted since := h
  rfl

theorem checking_of_locks? (h : task.locks? = some life) :
    ∃ c candidate timeout wanted since, task = .caller c ∧
      c.stage = .checking candidate life timeout wanted since := by
  unfold locks? at h
  split at h
  · rw [← Option.some.inj h]
    exact ⟨_, _, _, _, _, rfl, rfl⟩
  · cases h

theorem Backed.of_checking {r : Registry} {c : Caller} {candidate : Proxy} {timeout since : Nat}
    {wanted : Bool} (h : (Task.caller c).Backed r)
    (hstage : c.stage = .checking candidate life timeout wanted since) :
    r.IsLife life candidate.endpoint ∧ candidate.protocol ≠ .unknown := by
  obtain ⟨purpose, patience, stage⟩ := c
  obtain rfl : stage = .checking candidate life timeout wanted since := hstage
  exact h

theorem mem_holders_without {entry : Nat × Task} :
    entry ∈ holders (without tasks id) ↔ entry ∈ holders tasks ∧ entry.1 ≠ id := by
  rw [holders_without, mem_without]

theorem mem_holders_append {entry : Nat × Task} (h : entry ∈ holders (tasks ++ [(id, task)])) :
    entry ∈ holders tasks ∨ entry = (id, task) := by
  obtain ⟨hmem, hholds⟩ := mem_holders.1 h
  rcases List.mem_append.1 hmem with hold | hnew
  · exact .inl (mem_holders.2 ⟨hold, hholds⟩)
  · exact .inr (List.mem_singleton.1 hnew)

theorem mem_holders_of_append_left {entry : Nat × Task} (h : entry ∈ holders tasks)
    (more : List (Nat × Task)) : entry ∈ holders (tasks ++ more) := by
  rw [holders_append]
  exact List.mem_append_left _ h

end Task

namespace Orderly

variable {p q : Pool} {id life : Nat} {task : Task} {endpoint : String}

/-- Changes aside keep a pool orderly. -/
theorem aside (h : Orderly p) (haside : Aside p q) : Orderly q where
  numbered := haside.numbered h.numbered
  sound := haside.registry ▸ h.sound
  backed := by
    rw [haside.holders, haside.registry]
    exact h.backed
  sorted := haside.outputs ▸ h.sorted
  guarded := by
    rw [haside.holders, haside.registry]
    exact h.guarded

/-- A task that is found and holds an endpoint is backed. -/
theorem backed_of_task? (h : Orderly p) (hfind : p.task? id = some task)
    (hholds : task.token?.isSome = true) : task.Backed p.registry :=
  h.backed (id, task) (Task.mem_holders.2 ⟨Task.mem_of_lookup hfind, hholds⟩)

/-! ## Operations -/

/-- The intake and pending queues do not matter. -/
theorem queues (h : Orderly p) (intake pending : List String) :
    Orderly { p with intake, pending } :=
  ⟨h.numbered, h.sound, h.backed, h.sorted, h.guarded⟩

/-- Neither do strikes. -/
theorem backoff (h : Orderly p) (backoff : Backoff) : Orderly { p with backoff } :=
  ⟨h.numbered, h.sound, h.backed, h.sorted, h.guarded⟩

/-- An output queue loses its head. -/
theorem dequeue (h : Orderly p) {protocol : Protocol} {copy : Proxy} {rest : List Proxy}
    (hqueue : p.outputs.get protocol = copy :: rest) :
    Orderly { p with outputs := p.outputs.set protocol rest } where
  numbered := h.numbered
  sound := h.sound
  backed := h.backed
  sorted := h.sorted.set (Outputs.known_of_get hqueue) fun other hmem =>
    h.sorted protocol other (hqueue ▸ List.mem_cons_of_mem _ hmem)
  guarded := h.guarded

theorem deliver (h : Orderly p) {copy : Proxy} (hknown : copy.protocol ≠ .unknown) :
    Orderly (p.deliver copy) where
  numbered := h.numbered
  sound := h.sound
  backed := h.backed
  sorted := h.sorted.set hknown fun other hmem => by
    rcases List.mem_append.1 hmem with hold | hnew
    · exact h.sorted _ other hold
    · rw [List.mem_singleton.1 hnew]
  guarded := h.guarded

theorem spawn (h : Orderly p) (hbacked : task.Backed p.registry) : Orderly (p.spawn task) where
  numbered := h.numbered.spawn task
  sound := h.sound
  backed entry hmem := by
    rcases Task.mem_holders_append hmem with hold | rfl
    · exact h.backed entry hold
    · exact hbacked
  sorted := h.sorted
  guarded life hlocked := by
    obtain ⟨entry, hmem, hlocks⟩ := h.guarded life hlocked
    exact ⟨entry, Task.mem_holders_of_append_left hmem _, hlocks⟩

theorem requeue (h : Orderly p) (endpoint : String) (delay : Nat) :
    Orderly (p.requeue endpoint delay) :=
  h.spawn trivial

theorem recycle (h : Orderly p) (wanted : Bool) (endpoint : String) :
    Orderly (p.recycle wanted endpoint) := by
  cases wanted with
  | true => exact h.requeue endpoint 0
  | false => exact h

/-- A task that has locked nothing ends. -/
theorem remove (h : Orderly p) (hfind : p.task? id = some task) (hfree : task.locks? = none) :
    Orderly (p.remove id) where
  numbered := h.numbered.drop id
  sound := h.sound
  backed entry hmem := h.backed entry (Task.mem_holders_without.1 hmem).1
  sorted := h.sorted
  guarded life hlocked := by
    obtain ⟨entry, hmem, hlocks⟩ := h.guarded life hlocked
    refine ⟨entry, Task.mem_holders_without.2 ⟨hmem, fun hnumber => ?_⟩, hlocks⟩
    rw [h.numbered.eq_of_lookup hfind (Task.mem_holders.1 hmem).1 hnumber, hfree] at hlocks
    cases hlocks

/-- A task that has locked nothing takes another form. -/
theorem put (h : Orderly p) (hfind : p.task? id = some task) (hfree : task.locks? = none)
    {new : Task} (hbacked : new.Backed p.registry) : Orderly (p.put id new) where
  numbered := (h.numbered.drop id).replace (h.numbered.lt_of_lookup hfind) new
  sound := h.sound
  backed entry hmem := by
    rcases Task.mem_holders_append hmem with hold | rfl
    · exact (h.remove hfind hfree).backed entry hold
    · exact hbacked
  sorted := h.sorted
  guarded life hlocked := by
    obtain ⟨entry, hmem, hlocks⟩ := (h.remove hfind hfree).guarded life hlocked
    exact ⟨entry, Task.mem_holders_of_append_left hmem _, hlocks⟩

/-- A task that has locked a life ends and unlocks it. -/
theorem remove_unlock (h : Orderly p) (hfind : p.task? id = some task)
    (hlocks : task.locks? = some life) : Orderly ((p.remove id).unlock life) where
  numbered := h.numbered.drop id
  sound := h.sound.update life fun _ => rfl
  backed entry hmem :=
    (h.backed entry (Task.mem_holders_without.1 hmem).1).mono fun _ _ hlife =>
      Registry.isLife_release.2 hlife
  sorted := h.sorted
  guarded other hlocked := by
    obtain ⟨hother, hbefore⟩ := Registry.isLocked_release.1 hlocked
    obtain ⟨entry, hmem, hguard⟩ := h.guarded other hbefore
    refine ⟨entry, Task.mem_holders_without.2 ⟨hmem, fun hnumber => hother ?_⟩, hguard⟩
    rw [h.numbered.eq_of_lookup hfind (Task.mem_holders.1 hmem).1 hnumber, hlocks] at hguard
    exact (Option.some.inj hguard).symm

/-- An entry changes that keeps its endpoint and its lock. -/
theorem update (h : Orderly p) (life : Nat) (change : Entry → Entry)
    (hname : ∀ e, (change e).endpoint = e.endpoint) (hlock : ∀ e, (change e).locked = e.locked) :
    Orderly { p with registry := p.registry.update life change } where
  numbered := h.numbered
  sound := h.sound.update life hname
  backed entry hmem := (h.backed entry hmem).mono fun _ _ hlife =>
    (Registry.isLife_update _ _ hname).2 hlife
  sorted := h.sorted
  guarded other hlocked := h.guarded other ((Registry.isLocked_update _ _ hlock).1 hlocked)

theorem punish (h : Orderly p) (life : Nat) (endpoint : String) :
    Orderly (p.punish life endpoint) :=
  (h.update life Entry.markBad (fun _ => rfl) fun _ => rfl).backoff _

theorem evict (h : Orderly p) (endpoint : String) : Orderly (p.evict endpoint) := by
  unfold Pool.evict
  cases hdelete : p.registry.delete endpoint with
  | error e => exact h
  | ok deleted =>
      have hsound := h.sound.delete hdelete
      obtain ⟨-, rfl⟩ := Registry.delete_eq_ok hdelete
      exact
        { numbered := h.numbered
          sound := hsound
          backed := fun entry hmem => (h.backed entry hmem).mono fun _ _ hlife => hlife
          sorted := h.sorted
          guarded := h.guarded }

theorem load (h : Orderly p) (raw : String) : Orderly (p.load raw).1 := by
  rcases p.load_cases raw with hsame | ⟨endpoint, hfind, hnew⟩
  · rw [hsame]
    exact h
  · rw [hnew]
    exact
      { numbered := h.numbered
        sound := h.sound.add hfind
        backed := fun entry hmem => (h.backed entry hmem).mono fun _ _ hlife =>
          (Registry.isLife_add hfind).2 (.inr hlife)
        sorted := h.sorted
        guarded := fun life hlocked => h.guarded life (Registry.isLocked_add hfind hlocked) }

theorem loadAll (h : Orderly p) (raws : List String) : Orderly (p.loadAll raws).1 := by
  induction raws generalizing p with
  | nil => exact h
  | cons raw more ih => exact ih (h.load raw)

/-- A caller locks the life of the candidate that it is going to re-dial. -/
theorem check (h : Orderly p) {c : Caller} (hfind : p.task? id = some (.caller c))
    (hwaits : c.stage = .waiting) {locked : Registry} {candidate : Proxy}
    (hlife : p.registry.IsLife life candidate.endpoint)
    (hknown : candidate.protocol ≠ .unknown) (hlock : p.registry.tryLock? life = some locked) :
    Orderly (Pool.put { p with registry := locked } id
      (.caller { c with stage := p.checkingStage candidate life })) := by
  obtain ⟨-, rfl⟩ := Registry.tryLock?_eq_some hlock
  have hlives : ∀ other e, p.registry.IsLife other e →
      (p.registry.update life ({ · with locked := true })).IsLife other e := by
    intro other e hother
    refine (Registry.isLife_update _ _ ?_).2 hother
    exact fun _ => rfl
  have hfree : (Task.caller c).locks? = none := by
    obtain ⟨purpose, patience, stage⟩ := c
    obtain rfl : stage = .waiting := hwaits
    rfl
  have hothers := h.remove hfind hfree
  exact
    { numbered := (h.numbered.drop id).replace (h.numbered.lt_of_lookup hfind) _
      sound := h.sound.update life fun _ => rfl
      backed := fun entry hmem => by
        rcases Task.mem_holders_append hmem with hold | rfl
        · exact (hothers.backed entry hold).mono hlives
        · exact ⟨hlives life _ hlife, hknown⟩
      sorted := h.sorted
      guarded := fun other hlocked => by
        -- The new lock is held by the caller itself, and the others as before.
        rcases Registry.isLocked_lock hlocked with rfl | hbefore
        · refine ⟨_, Task.mem_holders.2 ⟨List.mem_append_right _ (List.mem_singleton.2 rfl), ?_⟩,
            rfl⟩
          rfl
        · obtain ⟨entry, hmem, hguard⟩ := hothers.guarded other hbefore
          exact ⟨entry, Task.mem_holders_of_append_left hmem _, hguard⟩ }

/-! ## Turns -/

theorem turn {d : Deed} (h : Orderly p) (hturn : p.Turn d q) : Orderly q := by
  cases hturn with
  | idled => exact h
  | adjusted hrecycle => exact ⟨h.numbered, h.sound, h.backed, h.sorted, h.guarded⟩
  | loaded raws => exact h.loadAll raws
  | reported hfind => exact h.punish _ _
  | reportedOut hfind hmarks => exact (h.punish _ _).evict _
  | handedBack htask => exact (h.remove htask rfl).queues _ p.pending
  | @received id epoch endpoint rest htask hintake =>
      refine (h.queues rest p.pending).put htask rfl ?_
      trivial
  | forwarded htask => exact (h.remove htask rfl).queues p.intake _
  | woke htask => exact h.put htask rfl trivial
  | cameBack htask => exact (h.remove htask rfl).queues p.intake _
  | skipped hpending hfind => exact h.queues p.intake _
  | deferred due hpending => exact (h.queues p.intake _).spawn trivial
  | @opened id epoch rest r htask hpending hfind hstage =>
      refine (h.queues p.intake rest).put htask rfl ?_
      exact ⟨h.sound.named hfind, fun copy hcopy => absurd hcopy (hstage copy)⟩
  | delivered htask hstage hroom => exact (h.remove htask rfl).deliver (Pool.known_of_room hroom)
  | passedOver hqueue hgate => exact h.dequeue hqueue
  | struckOff hqueue hfind hmarks => exact (h.dequeue hqueue).evict _
  | sentBack hqueue => exact (h.dequeue hqueue).recycle _ _
  | checked htask hwaits hqueue hfind hlock =>
      have hdequeued := h.dequeue hqueue
      refine hdequeued.check htask hwaits (h.sound.named hfind) ?_ hlock
      rw [h.sorted _ _ (hqueue ▸ List.mem_cons_self)]
      exact Outputs.known_of_get hqueue
  | @cleared id life timeout since c candidate wanted htask hstage =>
      rw [Pool.unlock_recycle]
      exact (h.remove_unlock htask (Task.locks?_of_checking hstage)).recycle _ _
  | @refused id life timeout since c candidate wanted htask hstage =>
      have hmarked := h.update life Entry.markBad (fun _ => rfl) fun _ => rfl
      rw [Pool.unlock_recycle]
      exact (hmarked.remove_unlock htask (Task.locks?_of_checking hstage)).recycle _ _
  | restored htask hstage hroom =>
      have hgone := h.remove_unlock htask (Task.locks?_of_checking hstage)
      exact hgone.deliver (Pool.known_of_room hroom)
  | overflowed htask hstage hroom =>
      exact h.remove_unlock htask (Task.locks?_of_checking hstage)
  | dropped htask hstage => exact h.remove_unlock htask (Task.locks?_of_checking hstage)
  | retried protocol rest htask =>
      have hbacked := h.backed_of_task? htask rfl
      exact h.put htask rfl ⟨hbacked.1, nofun⟩
  | @passed id r protocol exit entry htask hentry =>
      have hvalidated := h.update r.life (·.recordValidation p.now protocol exit)
        (fun e => Registry.endpoint_recordValidation e _ _ _)
        fun e => Registry.locked_recordValidation e _ _ _
      have hlife : (p.registry.update r.life (·.recordValidation p.now protocol exit)).IsLife
          r.life r.endpoint :=
        (hvalidated.backed_of_task? htask rfl).1
      -- The copy is of the life that the round validates, so of its endpoint.
      refine hvalidated.put htask rfl ⟨hlife, ?_⟩
      intro copy hcopy
      obtain ⟨found, hfound, hname⟩ := hlife
      rw [hentry] at hfound
      rw [← Option.some.inj hfound] at hname
      cases hcopy
      exact hname
  | vanished htask hentry => exact h.remove htask rfl
  | @failedHalfway id since r protocol e htask hlast hwindow =>
      have hpunished := (h.remove htask rfl).punish r.life r.endpoint
      exact ⟨hpunished.numbered, hpunished.sound, hpunished.backed, hpunished.sorted,
        hpunished.guarded⟩
  | failedOut htask hlast hwindow hmarks => exact ((h.remove htask rfl).punish _ _).evict _
  | failedKept htask hlast hwindow hmarks => exact ((h.remove htask rfl).punish _ _).requeue _ _

theorem effect {d : Deed} (h : Orderly p) (heffect : p.Effect d q) : Orderly q := by
  obtain ⟨mid, hturn, haside⟩ := heffect.turns
  exact (h.turn hturn).aside haside

/-- Every deed keeps a pool orderly. -/
theorem act {d : Deed} (h : Orderly p) (hact : p.act? d = some q) : Orderly q := by
  obtain ⟨mid, hturn, haside⟩ := Pool.turns_of_act? h.numbered hact
  exact (h.turn hturn).aside haside

end Orderly

/-- A pool in which no endpoint was ever loaded. -/
structure Pool.Blank (p : Pool) : Prop where
  registry : p.registry = {}
  strikes : p.backoff.strikes = {}
  intake : p.intake = []
  pending : p.pending = []
  outputs : p.outputs = {}
  tasks : p.tasks = []

theorem Pool.Blank.tokens {p : Pool} (h : p.Blank) : p.tokens = [] := by
  unfold Pool.tokens
  rw [h.intake, h.pending, h.outputs, h.tasks]
  rfl

theorem Pool.Blank.not_contains {p : Pool} (h : p.Blank) (endpoint : String) :
    p.registry.contains endpoint = false := by
  rw [h.registry]
  rfl

/-- A pool begins blank. -/
theorem blank_of_withSlots {config : Config} {slots : Slots} {p : Pool}
    (h : Pool.withSlots config slots = .ok p) : p.Blank := by
  unfold Pool.withSlots at h
  split at h
  · cases h
  · obtain rfl := Except.ok.inj h
    exact ⟨rfl, rfl, rfl, rfl, rfl, rfl⟩

theorem config_of_withSlots {config : Config} {slots : Slots} {p : Pool}
    (h : Pool.withSlots config slots = .ok p) : p.config = config := by
  unfold Pool.withSlots at h
  split at h
  · cases h
  · obtain rfl := Except.ok.inj h
    rfl

/-- A blank pool is orderly. -/
theorem orderly_of_blank {p : Pool} (h : p.Blank) : Orderly p where
  numbered := by
    rw [h.tasks]
    exact ⟨List.nodup_nil, fun entry hmem => absurd hmem List.not_mem_nil⟩
  sound := by
    rw [h.registry]
    exact Registry.sound_empty
  backed := by
    rw [h.tasks]
    intro entry hmem
    exact absurd hmem List.not_mem_nil
  sorted := by
    rw [h.outputs]
    intro protocol copy hmem
    cases protocol <;> cases hmem
  guarded := by
    rw [h.registry]
    rintro life ⟨entry, hentry, -⟩
    cases hentry

/-- A pool begins orderly. -/
theorem orderly_of_withSlots {config : Config} {slots : Slots} {p : Pool}
    (h : Pool.withSlots config slots = .ok p) : Orderly p :=
  orderly_of_blank (blank_of_withSlots h)

/-- Every state of a run is orderly. -/
theorem Orderly.throughout {p q : Pool} {steps : List Step} (h : Orderly p)
    (hrun : Run p steps q) : Orderly q ∧ ∀ s ∈ steps, Orderly s.before ∧ Orderly s.after :=
  hrun.throughout h fun s _ hbefore => hbefore.act s.done

end SocksPool
