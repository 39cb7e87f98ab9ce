/-!
# Spans and instants of time

Every time in the library is a whole number of nanoseconds. A *span* is a
length of time, an *instant* is the span since the clock's start, and both
are plain natural numbers, so that linear arithmetic decides most facts
about them. The clock itself is a value of the pool's state and moves only when told to.

Two limits are visible to callers. A span has at most `2 ^ 64` seconds, and
arithmetic on configured spans saturates there. An instant has a signed
64-bit count of seconds, so a deadline may fail to exist; `Instant.add?`
says when. Timers have millisecond resolution: a deadline is rounded up to
the next whole millisecond, and `Instant.reached` compares after rounding.

## Main results

* `Instant.le_ceilMilli` — rounding never moves a deadline to an earlier time.
* `Instant.le_of_reached` — a timer never fires before its deadline.
-/

namespace SocksPool

namespace Span

/-- One microsecond. -/
def micro : Nat := 1000

/-- One millisecond. -/
def milli : Nat := 1000000

/-- One second. -/
def second : Nat := 1000000000

/-- The longest span that can be written down: one nanosecond short of
`2 ^ 64` seconds. -/
def longest : Nat := 18446744073709551616 * second - 1

/-- `k` times a span, cut at the longest one. -/
def scale (s : Nat) (k : Nat) : Nat := min (s * k) longest

/-! ## Text -/

/-- Decimal places of `rest / unit` without trailing zeros; `unit` is a power of ten. -/
def fraction (rest unit : Nat) : List Char :=
  let places := Nat.toDigits 10 (unit + rest)
  ((places.drop 1).reverse.dropWhile (· == '0')).reverse

/-- A span counted in `unit`s, with the fraction that is left. -/
def inUnit (s unit : Nat) (name : String) : String :=
  let whole := toString (s / unit)
  match fraction (s % unit) unit with
  | [] => whole ++ name
  | digits => whole ++ "." ++ String.ofList digits ++ name

/-- The text of a span in log lines: the largest of the units s, ms, µs and
ns that makes the whole part positive, and no trailing zeros. -/
def text (s : Nat) : String :=
  if second ≤ s then inUnit s second "s"
  else if milli ≤ s then inUnit s milli "ms"
  else if micro ≤ s then inUnit s micro "µs"
  else toString s ++ "ns"

end Span

namespace Instant

/-- First count of seconds that an instant cannot hold. -/
def secondLimit : Nat := 9223372036854775808

/-- The instant `s` after `t`, if the clock can represent it. -/
def add? (t : Nat) (s : Nat) : Option Nat :=
  if (t + s) / Span.second < secondLimit then some (t + s) else none

/-- How far ahead a timer is set whose deadline cannot be represented:
thirty years of 365 days. -/
def farAhead : Nat := 86400 * 365 * 30 * Span.second

/-- The deadline of a timer that is set for `s` from `t` on. -/
def deadline (t : Nat) (s : Nat) : Nat :=
  (add? t s).getD (t + farAhead)

/-- The instant rounded up to a whole millisecond. -/
def ceilMilli (t : Nat) : Nat :=
  (t + (Span.milli - 1)) / Span.milli * Span.milli

/-- Whether a timer with this deadline fires at `now`. -/
def reached (deadline now : Nat) : Bool :=
  ceilMilli deadline ≤ now

theorem le_ceilMilli (t : Nat) : t ≤ ceilMilli t := by
  unfold ceilMilli Span.milli
  omega

/-- A timer never fires before its deadline. -/
theorem le_of_reached {deadline now : Nat} (h : reached deadline now = true) :
    deadline ≤ now := by
  have := le_ceilMilli deadline
  simp only [reached, decide_eq_true_eq] at h
  omega

end Instant

end SocksPool
