import Mathlib.Data.Finset.Card
import SocksPool.Proofs.Admission
import SocksPool.Proofs.NormalForm

/-!
# Loading lists

A list is loaded in two stages: the reader turns its lines into normal forms, and each of
these is loaded like a candidate, which reads it once more while the registry grows. That
comes to the same as loading the lines one after the other, because a normal form is its own
normal form, and because a line that is no candidate changes nothing.

The lines of two texts with a line feed between them are the lines of the one and of the
other, except at the seam: a line feed at the end of the first text opens an empty line, and
a carriage return at its end joins the line feed. Neither is seen by the reader, which skips
empty lines and trims the others.

## Main definitions

* `Endpoint.candidates` — the lines of a text.
* `Pool.loadEach`, `Pool.replies` — loads one after the other, and what they answer.
* `Pool.newcomers` — the normal forms of candidates that are not registered.

## Main results

* `Text.filterMap_lines_append` — what is read from the lines of a joined text.
* `Pool.loadAll_filterMap` — to load normal forms is to load what they were read from.
* `Pool.added_eq_card` — how many loads find their endpoint new.
* `Pool.list_loads_line_by_line` — a list is loaded like its lines, and joined lists like
  one after the other.
-/

namespace SocksPool

/-! ## Lines -/

namespace Text

/-- A character that is no line break goes in front of the first line. -/
theorem lines_cons {c : Char} {rest : List Char} (hfeed : c ≠ '\n')
    (hreturn : c = '\r' → rest.head? ≠ some '\n') :
    lines (c :: rest) = (c :: (lines rest).headD []) :: (lines rest).tail := by
  rw [lines]
  · cases lines rest <;> rfl
  · exact hfeed
  · rintro more hc rfl
    exact hreturn hc rfl

/-- What follows a character does not make it part of a line break. -/
theorem lines_cons_append {c d : Char} {tail : List Char} (hfeed : c ≠ '\n')
    (hreturn : ∀ rest, c = '\r' → d :: tail = '\n' :: rest → False) (text : List Char) :
    lines (c :: d :: tail ++ text) =
      (c :: (lines (d :: tail ++ text)).headD []) :: (lines (d :: tail ++ text)).tail :=
  lines_cons hfeed fun hc hd => hreturn tail hc (by rw [Option.some.inj hd])

theorem lines_eq_nil_iff {text : List Char} : lines text = [] ↔ text = [] := by
  fun_cases lines text <;> simp_all

/-- A line feed between two texts ends a line of the first. -/
theorem lines_append (first second : List Char) :
    lines (first ++ '\n' :: second) = lines (first ++ ['\n']) ++ lines second := by
  fun_induction lines first with
  | case1 => simp [lines]
  | case2 rest ih => simp [lines, ih]
  | case3 rest ih => simp [lines, ih]
  | case4 c rest hfeed hreturn hrest ih =>
      obtain rfl := lines_eq_nil_iff.1 hrest
      by_cases hc : c = '\r'
      · simp [hc, lines]
      · simp [lines_cons hfeed (absurd · hc), lines]
  | case5 c rest hfeed hreturn line more hrest ih =>
      cases rest with
      | nil => cases hrest
      | cons d tail =>
          rw [lines_cons_append hfeed hreturn, ih, lines_cons_append hfeed hreturn]
          cases hlines : lines (d :: tail ++ ['\n']) with
          | nil => cases lines_eq_nil_iff.1 hlines
          | cons front others => rfl

/-- Lines that differ at their end only: the second ones have an empty line more, or a
carriage return less. -/
inductive Seam : List (List Char) → List (List Char) → Prop
  | opened : Seam [] [[]]
  | kept (line : List Char) : Seam [line] [line]
  | joined (line : List Char) : Seam [line ++ ['\r']] [line]
  | cons (line : List Char) {first second : List (List Char)} (h : Seam first second) :
      Seam (line :: first) (line :: second)

theorem Seam.push {first second : List (List Char)} (h : Seam first second) (hsome : first ≠ [])
    (c : Char) :
    Seam ((c :: first.headD []) :: first.tail) ((c :: second.headD []) :: second.tail) := by
  cases h with
  | opened => exact absurd rfl hsome
  | kept line => exact .kept (c :: line)
  | joined line => exact .joined (c :: line)
  | cons line hrest => exact .cons (c :: line) hrest

/-- A line feed at the end of a text opens an empty line or ends the last one, and then a
carriage return before it is part of the break. -/
theorem seam_lines (text : List Char) : Seam (lines text) (lines (text ++ ['\n'])) := by
  fun_induction lines text with
  | case1 => exact .opened
  | case2 rest ih => exact .cons [] ih
  | case3 rest ih => exact .cons [] ih
  | case4 c rest hfeed hreturn hrest ih =>
      obtain rfl := lines_eq_nil_iff.1 hrest
      by_cases hc : c = '\r'
      · subst hc
        exact .joined []
      · rw [List.cons_append, lines_cons hfeed (absurd · hc)]
        exact .kept [c]
  | case5 c rest hfeed hreturn line more hrest ih =>
      cases rest with
      | nil => cases hrest
      | cons d tail =>
          rw [lines_cons_append hfeed hreturn]
          rw [hrest] at ih
          exact ih.push (List.cons_ne_nil line more) c

example : lines "a:1\r".toList = ["a:1\r".toList] ∧
    lines ("a:1\r".toList ++ ['\n']) = ["a:1".toList] := by decide

/-- What is read from the lines of a joined text, by a reader that skips empty lines and does
not see a carriage return at the end of a line. -/
theorem filterMap_lines_append {α : Type} {read : List Char → Option α} (hempty : read [] = none)
    (hreturn : ∀ line, read (line ++ ['\r']) = read line) (first second : List Char) :
    (lines (first ++ '\n' :: second)).filterMap read =
      (lines first).filterMap read ++ (lines second).filterMap read := by
  have hseam : ∀ {old new : List (List Char)}, Seam old new →
      new.filterMap read = old.filterMap read := by
    intro old new h
    induction h with
    | opened => simp [hempty]
    | kept line => rfl
    | joined line => simp only [List.filterMap_cons, hreturn]
    | cons line _ ih => simp only [List.filterMap_cons, ih]
  rw [lines_append, List.filterMap_append, hseam (seam_lines first)]

end Text

namespace Endpoint

/-- The reader does not see a carriage return at the end of a line. -/
theorem normalizeChars?_concat_return (line : List Char) :
    normalizeChars? (line ++ ['\r']) = normalizeChars? line := by
  have hblank : ∀ c ∈ ['\r'], Text.isBlank c = true := List.all_eq_true.1 (by decide)
  exact normalizeChars?_append (List.forall_mem_nil _) hblank line

theorem parseList_append (first second : String) :
    parseList (first ++ "\n" ++ second) = parseList first ++ parseList second := by
  have hjoin : (first ++ "\n" ++ second).toList = first.toList ++ '\n' :: second.toList := by
    simp
  unfold parseList
  rw [hjoin]
  refine Text.filterMap_lines_append (by decide) (fun line => ?_) _ _
  rw [normalizeChars?_concat_return]

/-- The lines of a text, each a candidate of its own. -/
def candidates (content : String) : List String :=
  (Text.lines content.toList).map String.ofList

theorem parseList_eq (content : String) :
    parseList content = (candidates content).filterMap normalize? := by
  rw [candidates, List.filterMap_map, parseList]
  simp [normalize?, Function.comp_def]

end Endpoint

open Endpoint (normalize? parseList candidates)

namespace Pool

/-! ## Loads one after the other -/

/-- The pool after loads one after the other, whatever they answer. -/
def loadEach (p : Pool) (raws : List String) : Pool :=
  raws.foldl (fun q raw => (q.load raw).1) p

/-- What these loads answer. -/
def replies (p : Pool) : List String → List (Except PoolError Bool)
  | [] => []
  | raw :: more => (p.load raw).2 :: (p.load raw).1.replies more

variable {p : Pool} {raw endpoint : String}

theorem admits_eq (outcome : Except PoolError Bool) :
    admits outcome = if outcome == .ok true then 1 else 0 := by
  rcases outcome with e | created
  · rfl
  · cases created <;> rfl

theorem loadAll_cons (p : Pool) (raw : String) (more : List String) :
    p.loadAll (raw :: more) =
      (((p.load raw).1.loadAll more).1,
        ((p.load raw).1.loadAll more).2 + admits (p.load raw).2) :=
  Prod.ext rfl (p.admitted_loadAll_cons raw more)

theorem loadAll_eq_loadEach (p : Pool) (raws : List String) :
    p.loadAll raws = (p.loadEach raws, (p.replies raws).count (.ok true)) := by
  induction raws generalizing p with
  | nil => rfl
  | cons raw more ih =>
      rw [loadAll_cons, ih, admits_eq, replies, List.count_cons]
      rfl

/-! ## Loads of normal forms -/

/-- Candidates with one normal form are loaded alike. -/
theorem load_eq_of_some {other : String} (h : normalize? raw = some endpoint)
    (hother : normalize? other = some endpoint) : p.load raw = p.load other := by
  rw [load, load, h, hother]

/-- To load normal forms is to load what they were read from. -/
theorem loadAll_filterMap (p : Pool) (raws : List String) :
    p.loadAll (raws.filterMap normalize?) = p.loadAll raws := by
  induction raws generalizing p with
  | nil => rfl
  | cons raw more ih =>
      cases hname : normalize? raw with
      | none =>
          rw [List.filterMap_cons_none hname, ih, loadAll_cons, load_of_none hname]
          rfl
      | some endpoint =>
          rw [List.filterMap_cons_some hname, loadAll_cons, loadAll_cons,
            load_eq_of_some (Endpoint.normalize?_fixed hname) hname, ih]

/-! ## New endpoints -/

/-- The normal forms of the candidates that are not registered. -/
def newcomers (p : Pool) (raws : List String) : Finset String :=
  (raws.filterMap normalize?).toFinset.filter fun e => p.registry.contains e = false

variable {more : List String}

theorem newcomers_of_none (h : normalize? raw = none) :
    p.newcomers (raw :: more) = p.newcomers more := by
  rw [newcomers, List.filterMap_cons_none h, newcomers]

theorem newcomers_of_registered {life : Nat} (h : normalize? raw = some endpoint)
    (hfind : p.registry.find? endpoint = some life) :
    p.newcomers (raw :: more) = p.newcomers more := by
  have hout : ¬ p.registry.contains endpoint = false := by simp [Registry.contains, hfind]
  rw [newcomers, List.filterMap_cons_some h, List.toFinset_cons, Finset.filter_insert,
    if_neg hout, newcomers]

/-- A new endpoint is a newcomer, and after its load the others are. -/
theorem newcomers_of_new (p : Pool) (more : List String) (h : normalize? raw = some endpoint)
    (hfind : p.registry.find? endpoint = none) :
    p.newcomers (raw :: more) = insert endpoint ((p.load raw).1.newcomers more) ∧
      endpoint ∉ (p.load raw).1.newcomers more := by
  have hout : p.registry.contains endpoint = false := by rw [Registry.contains, hfind]; rfl
  rw [load_of_new h hfind]
  constructor
  · ext e
    by_cases he : e = endpoint <;> simp [newcomers, h, contains_add hfind, he, hout]
  · simp [newcomers, contains_add hfind]

/-- As many loads find their endpoint new as there are normal forms that were not
registered. -/
theorem added_eq_card (p : Pool) (raws : List String) :
    (p.loadAll raws).2 = (p.newcomers raws).card := by
  induction raws generalizing p with
  | nil => rfl
  | cons raw more ih =>
      rw [admitted_loadAll_cons, ih]
      cases hname : normalize? raw with
      | none =>
          rw [newcomers_of_none hname, load_of_none hname]
          rfl
      | some endpoint =>
          cases hfind : p.registry.find? endpoint with
          | some life =>
              rw [newcomers_of_registered hname hfind, load_of_registered hname hfind]
              rfl
          | none =>
              obtain ⟨hinsert, hfresh⟩ := p.newcomers_of_new more hname hfind
              rw [hinsert, Finset.card_insert_of_notMem hfresh, load_of_new hname hfind]
              rfl

/-! ## Lists -/

theorem loadAll_parseList (p : Pool) (content : String) :
    p.loadAll (parseList content) = p.loadAll (candidates content) := by
  rw [Endpoint.parseList_eq, loadAll_filterMap]

/-- Loads in two goes. -/
theorem loadAll_loadAll (p : Pool) (raws others : List String) :
    p.loadAll (raws ++ others) =
      (((p.loadAll raws).1.loadAll others).1,
        (p.loadAll raws).2 + ((p.loadAll raws).1.loadAll others).2) := by
  induction raws generalizing p with
  | nil => simp [loadAll]
  | cons raw more ih =>
      rw [List.cons_append, loadAll_cons, loadAll_cons, ih]
      exact Prod.ext rfl (Nat.add_right_comm _ _ _)

/-- Loads take no notice of the log. -/
theorem loadAll_withLog (p : Pool) (log : List Event) (raws : List String) :
    ({ p with log } : Pool).loadAll raws =
      ({ (p.loadAll raws).1 with log }, (p.loadAll raws).2) := by
  induction raws generalizing p with
  | nil => rfl
  | cons raw more ih =>
      have hload : ({ p with log } : Pool).load raw =
          ({ (p.load raw).1 with log }, (p.load raw).2) := by
        unfold load
        cases normalize? raw <;> rfl
      rw [loadAll_cons, loadAll_cons, hload, ih]

/-- A list is loaded like its lines one after the other, and adds as many endpoints as loads
of its lines find new, which are the distinct normal forms that were not registered. A text
that is joined of two by a line feed is loaded like the one and then the other; only the log
tells the difference. -/
theorem list_loads_line_by_line (p : Pool) :
    (∀ content,
      (p.loadList content).1 =
        (p.loadEach (candidates content)).tell (.listLoaded (p.loadList content).2) ∧
      (p.loadList content).2 = (p.replies (candidates content)).count (.ok true) ∧
      (p.loadList content).2 = (p.newcomers (candidates content)).card) ∧
    (∀ a b,
      let first := p.loadList a
      let second := first.1.loadList b
      let joined := p.loadList (a ++ "\n" ++ b)
      joined.2 = first.2 + second.2 ∧
      joined.1 = { second.1 with log := p.log ++ [.listLoaded joined.2] }) := by
  constructor
  · intro content
    have hlines := p.loadAll_parseList content
    have heach := p.loadAll_eq_loadEach (candidates content)
    refine ⟨?_, ?_, ?_⟩
    · rw [loadList, hlines, heach]
    · rw [loadList, hlines, heach]
    · rw [loadList, hlines]
      exact p.added_eq_card (candidates content)
  · intro a b
    have hlog : ∀ raws, (p.loadAll raws).1.log = p.log := fun raws => by
      obtain ⟨registry, intake, hloaded⟩ := p.loadAll_eq raws
      rw [hloaded]
    have hjoined := p.loadAll_loadAll (parseList a) (parseList b)
    simp only [loadList, tell, Endpoint.parseList_append, loadAll_withLog]
    refine ⟨congrArg Prod.snd hjoined, ?_⟩
    rw [hlog, hjoined]

end Pool

end SocksPool
