/-!
# Counts of a machine word

Worker counts are machine words of 64 bits, and changes of a count are
signed words. A change is added with saturation, so that a count stays
within the word. The difference of two counts is exact while it fits a signed
word, as it does if both are below `2 ^ 63`, and wraps beyond.

## Main definitions

* `Spans` — the difference of two counts fits a signed word.

## Main results

* `difference_of_spans` — a difference that fits is exact.
* `saturatingAdd_difference_of_spans` — adding it to one count gives the other.
* `saturatingAdd_difference_of_far_above`, `saturatingAdd_difference_of_far_below` —
  where a difference that does not fit leads.
-/

namespace SocksPool.Word

/-- First number that does not fit a word. -/
def limit : Nat := 18446744073709551616

/-- First number that does not fit the non-negative half of a signed word. -/
def half : Nat := 9223372036854775808

/-- The change that leads from `source` to `target`, as a signed word. -/
def difference (target source : Nat) : Int :=
  Int.bmod ((target : Int) - (source : Int)) limit

/-- A count after a change, kept within the word. -/
def saturatingAdd (count : Nat) (change : Int) : Nat :=
  min ((count : Int) + change).toNat (limit - 1)

/-- The difference from `source` to `target` fits a signed word. -/
def Spans (target source : Nat) : Prop := target < source + half ∧ source ≤ target + half

instance (target source : Nat) : Decidable (Spans target source) :=
  inferInstanceAs (Decidable (_ ∧ _))

variable {target source : Nat}

theorem lt_limit {count : Nat} (h : count < half) : count < limit :=
  Nat.lt_trans h (by decide)

theorem succ_lt_limit {count : Nat} (h : count < half) : count + 1 < limit :=
  Nat.lt_of_le_of_lt h (by decide)

theorem spans_of_small (htarget : target < half) (hsource : source < half) :
    Spans target source := by
  unfold Spans
  omega

/-- A difference that does not fit is too large or too far below zero. -/
theorem far_of_not_spans (h : ¬ Spans target source) :
    source + half ≤ target ∨ target + half < source := by
  unfold Spans at h
  omega

/-- A difference that fits is exact. -/
theorem difference_of_spans (h : Spans target source) :
    difference target source = (target : Int) - source := by
  unfold Spans half at h
  unfold difference limit
  rw [Int.bmod_eq_of_le] <;> omega

/-- A difference that is too large comes out short by the number of words. -/
theorem difference_of_far_above (htarget : target < limit) (h : source + half ≤ target) :
    difference target source = (target : Int) - source - limit := by
  unfold limit at htarget
  unfold half at h
  unfold difference limit
  rw [Int.bmod_def]
  omega

/-- A difference that is too far below zero comes out over by the number of words. -/
theorem difference_of_far_below (hsource : source < limit) (h : target + half < source) :
    difference target source = (target : Int) - source + limit := by
  unfold limit at hsource
  unfold half at h
  unfold difference limit
  rw [Int.bmod_def]
  omega

/-- A difference that fits leads to its goal. -/
theorem saturatingAdd_difference_of_spans (htarget : target < limit) (h : Spans target source) :
    saturatingAdd source (difference target source) = target := by
  rw [difference_of_spans h]
  unfold saturatingAdd
  unfold limit at *
  omega

/-- Growth that does not fit leaves nothing. -/
theorem saturatingAdd_difference_of_far_above (htarget : target < limit)
    (h : source + half ≤ target) : saturatingAdd source (difference target source) = 0 := by
  rw [difference_of_far_above htarget h]
  unfold saturatingAdd
  unfold limit at *
  omega

/-- A loss that does not fit leaves the largest count. -/
theorem saturatingAdd_difference_of_far_below (hsource : source < limit)
    (h : target + half < source) :
    saturatingAdd source (difference target source) = limit - 1 := by
  rw [difference_of_far_below hsource h]
  unfold saturatingAdd
  unfold limit at *
  omega

end SocksPool.Word
