import SocksPool.Protocol

/-!
# Counters

What a pool has done since it was made. A validation is counted under the
protocol that it found; the *backlog* is the number of validated copies that
have not been dispensed, and never goes below zero.

## Main results

* `totalValidated_recordValid` — a validation of a known protocol counts once.
-/

namespace SocksPool

/-- The counters of a pool. -/
structure Stats where
  valid4 : Nat := 0
  valid4a : Nat := 0
  valid5 : Nat := 0
  stale : Nat := 0
  dispensed : Nat := 0
  checked : Nat := 0
  bad : Nat := 0
  evicted : Nat := 0
deriving DecidableEq, Repr

namespace Stats

/-- Counts a validation under its protocol. -/
def recordValid (s : Stats) : Protocol → Stats
  | .socks4 => { s with valid4 := s.valid4 + 1 }
  | .socks4a => { s with valid4a := s.valid4a + 1 }
  | .socks5 => { s with valid5 := s.valid5 + 1 }
  | .unknown => s

/-- Counts a candidate that was too old. -/
def recordStale (s : Stats) : Stats := { s with stale := s.stale + 1 }

/-- Counts a proxy handed out. -/
def recordDispensed (s : Stats) : Stats := { s with dispensed := s.dispensed + 1 }

/-- Counts the start of a validation round. -/
def recordChecked (s : Stats) : Stats := { s with checked := s.checked + 1 }

/-- Counts a round in which no protocol worked. -/
def recordBad (s : Stats) : Stats := { s with bad := s.bad + 1 }

/-- Counts an endpoint removed for good. -/
def recordEvicted (s : Stats) : Stats := { s with evicted := s.evicted + 1 }

/-- Validations of all protocols. -/
def totalValidated (s : Stats) : Nat := s.valid4 + s.valid4a + s.valid5

/-- Validations not yet matched by a proxy handed out. -/
def backlog (s : Stats) : Nat := s.totalValidated - s.dispensed

theorem totalValidated_recordValid (s : Stats) (p : Protocol) :
    (s.recordValid p).totalValidated =
      s.totalValidated + if p = .unknown then 0 else 1 := by
  cases p <;> simp [recordValid, totalValidated] <;> omega

end Stats

end SocksPool
