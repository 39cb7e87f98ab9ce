/-!
# Cutting a text at a separator

The readers of addresses and locations cut a text at one character: at
every occurrence (`pieces`), at the first (`cutFirst`) or at the last
(`cutLast`). The separator itself belongs to no part.

## Main results

* `cutFirst_eq_some` — the parts of a first cut put together again are the
  text, and the first part is free of the separator.
-/

namespace SocksPool.Text

/-- The parts of a text between the occurrences of `sep`; one more than
there are occurrences. -/
def pieces (sep : Char) : List Char → List (List Char)
  | [] => [[]]
  | c :: rest =>
    if c = sep then [] :: pieces sep rest
    else
      match pieces sep rest with
      | [] => [[c]]
      | part :: more => (c :: part) :: more

/-- What stands before and after the first occurrence of `sep`. -/
def cutFirst (sep : Char) : List Char → Option (List Char × List Char)
  | [] => none
  | c :: rest =>
    if c = sep then some ([], rest)
    else (cutFirst sep rest).map fun parts => (c :: parts.1, parts.2)

/-- What stands before and after the last occurrence of `sep`. -/
def cutLast (sep : Char) : List Char → Option (List Char × List Char)
  | [] => none
  | c :: rest =>
    match cutLast sep rest with
    | some parts => some (c :: parts.1, parts.2)
    | none => if c = sep then some ([], rest) else none

theorem cutFirst_eq_some {sep : Char} {text before after : List Char}
    (h : cutFirst sep text = some (before, after)) :
    text = before ++ sep :: after ∧ sep ∉ before := by
  induction text generalizing before with
  | nil => simp [cutFirst] at h
  | cons c rest ih =>
      by_cases hc : c = sep
      · simp only [cutFirst, hc, if_true, Option.some.injEq, Prod.mk.injEq] at h
        simp [hc, ← h.1, ← h.2]
      · simp only [cutFirst, hc, if_false, Option.map_eq_some_iff] at h
        obtain ⟨⟨first, second⟩, hrest, hparts⟩ := h
        simp only [Prod.mk.injEq] at hparts
        obtain ⟨rfl, rfl⟩ := hparts
        have := ih hrest
        refine ⟨by rw [this.1]; rfl, ?_⟩
        simp only [List.mem_cons, not_or]
        exact ⟨fun e => hc e.symm, this.2⟩

end SocksPool.Text
