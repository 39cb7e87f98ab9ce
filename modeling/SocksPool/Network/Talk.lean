import SocksPool.Network.Server
import SocksPool.Time

/-!
# Talks

A *talk* is an exchange with servers. It takes time, may fail with a fault
of type `ε`, and may never come to an end: because a server does not answer,
or because the talk's deadline has passed. It is a function of the time at
which it begins, and reports the time at which it ended or fell silent.

## Main definitions

* `Talk.pass` — time goes by.
* `Talk.stall` — nothing happens any more.
-/

namespace SocksPool

/-- How far a talk has come. -/
structure Course where
  now : Nat
  /-- When the talk is given up, if ever. -/
  deadline : Option Nat := none
  /-- The location that was asked for. -/
  asking : String := ""
  /-- What web servers saw of the talk. -/
  sightings : List Sighting := []
deriving DecidableEq, Repr

/-- An exchange with servers that may fail or never end. -/
abbrev Talk (ε α : Type) := ExceptT ε (OptionT (StateM Course)) α

namespace Talk

variable {ε α : Type}

/-- The talk never comes to an end. -/
def stall : Talk ε α := ExceptT.mk (OptionT.mk (pure none))

/-- Time goes by. A talk whose deadline passes is not heard of again. -/
def pass (span : Nat) : Talk ε Unit := do
  modify fun c => { c with now := c.now + span }
  let c ← get
  match c.deadline with
  | some deadline => if Instant.reached deadline c.now then stall
  | none => return

/-- Runs a talk. The outcome is `none` if it does not come to an end. -/
def run (talk : Talk ε α) (c : Course) : Option (Except ε α) × Course :=
  (ExceptT.run talk).run c

end Talk

end SocksPool
