import SocksPool.Word

/-!
# Autoscaler

The scaler compares the backlog of validated proxies to a threshold. A low
backlog means that proxies are used up faster than they are found, so the
capacity grows by one worker per tick, up to a ceiling; once the backlog has
recovered it shrinks by one worker per tick, back to the *baseline* that it
had when it began to grow. From shrinking to growing the scaler always
passes through `idle`. A disabled scaler walks the capacity back to the
baseline and then forgets it.

A tick is a function of the scaler, the backlog and the workers' capacity.
It answers the change to apply, and the caller applies it.

## Main definitions

* `Scaler.tick` — one step of the scaler.
-/

namespace SocksPool

/-- What a scaler is doing. -/
inductive ScalerMode where
  | disabled
  | idle
  | scalingUp
  | scalingDown
deriving DecidableEq, Repr

/-- The name of a mode in messages. -/
def ScalerMode.name : ScalerMode → String
  | .disabled => "Disabled"
  | .idle => "Idle"
  | .scalingUp => "ScalingUp"
  | .scalingDown => "ScalingDown"

/-- An autoscaler. -/
structure Scaler where
  mode : ScalerMode := .disabled
  baseline : Option Nat := none
  threshold : Nat
  ceiling : Nat
deriving DecidableEq, Repr

namespace Scaler

/-- A disabled scaler; the ceiling is at least one. -/
def new (threshold ceiling : Nat) : Scaler := { threshold, ceiling := max ceiling 1 }

/-- Starts scaling, if it is disabled. -/
def enable (s : Scaler) : Scaler :=
  if s.mode = .disabled then { s with mode := .idle } else s

/-- Stops scaling. Later ticks walk the capacity back to the baseline. -/
def disable (s : Scaler) : Scaler := { s with mode := .disabled }

/-- Whether the scaler is not disabled. -/
def enabled (s : Scaler) : Bool := s.mode != .disabled

/-- Sets the backlog that is wanted. -/
def setThreshold (s : Scaler) (threshold : Nat) : Scaler := { s with threshold }

/-- Sets the ceiling, to at least one. -/
def setCeiling (s : Scaler) (ceiling : Nat) : Scaler := { s with ceiling := max ceiling 1 }

/-- What a tick did. -/
structure Tick where
  scaler : Scaler
  /-- The change of capacity to apply. -/
  change : Int := 0
  /-- The modes before and after, if they differ. -/
  moved : Option (ScalerMode × ScalerMode) := none
  /-- The capacities before and after, if they differ. -/
  resized : Option (Nat × Nat) := none

/-- Where a step from `capacity` leads within the bounds of the scaler. -/
def target (s : Scaler) (capacity : Nat) (step : Int) : Nat :=
  min (max (Word.saturatingAdd capacity step) 1) s.ceiling

/-- A tick that takes the given step and moves the scaler to `next`. -/
def apply (s next : Scaler) (capacity : Nat) (step : Int) : Tick :=
  let moved := if next.mode = s.mode then none else some (s.mode, next.mode)
  if step = 0 then { scaler := next, moved }
  else
    let goal := next.target capacity step
    if goal = capacity then { scaler := next, moved }
    else
      { scaler := next, change := Word.difference goal capacity, moved,
        resized := some (capacity, goal) }

/-- Whether the pool should grow. -/
def wantsMore (s : Scaler) (backlog capacity : Nat) : Bool :=
  backlog < s.threshold && capacity < s.ceiling

/-- Whether the pool should shrink towards the baseline. -/
def wantsLess (s : Scaler) (backlog capacity : Nat) : Bool :=
  match s.baseline with
  | some baseline => s.threshold < backlog && baseline < capacity
  | none => false

/-- A tick of a disabled scaler: one step towards the baseline. -/
def tickDisabled (s : Scaler) (capacity : Nat) : Tick :=
  match s.baseline with
  | none => { scaler := s }
  | some baseline =>
    if capacity < baseline then s.apply s capacity 1
    else if baseline < capacity then s.apply s capacity (-1)
    else { scaler := { s with baseline := none } }

/-- The baseline after a tick that comes to rest: it is dropped once the
capacity is back at it and no growth is wanted. -/
def settledBaseline (s : Scaler) (backlog capacity : Nat) : Option Nat :=
  match s.baseline with
  | some baseline =>
    if capacity ≤ baseline && !s.wantsMore backlog capacity then none else some baseline
  | none => none

/-- A tick of an enabled scaler. -/
def tickEnabled (s : Scaler) (backlog capacity : Nat) : Tick :=
  if s.wantsMore backlog capacity && (s.mode = .idle || s.mode = .scalingUp) then
    let baseline := if s.mode = .idle then s.baseline.or (some capacity) else s.baseline
    s.apply { s with mode := .scalingUp, baseline } capacity 1
  else if s.wantsLess backlog capacity then
    s.apply { s with mode := .scalingDown } capacity (-1)
  else
    s.apply { s with mode := .idle, baseline := s.settledBaseline backlog capacity } capacity 0

/-- One step of the scaler. Closed workers are left alone. -/
def tick (s : Scaler) (backlog capacity : Nat) (closed : Bool) : Tick :=
  if closed then { scaler := s }
  else if s.mode = .disabled then s.tickDisabled capacity
  else s.tickEnabled backlog capacity

end Scaler

end SocksPool
