import SocksPool.Text.Number

/-!
# Numbers that are read back

A number is written by the digits of its remainders, highest first, and read by folding
them from the left. Both go by one recursion: the last digit of `n` is `n % base` and the
digits before it are those of `n / base`. So reading gives back what was written, in every
base whose digits a character can stand for. A text that another reader has to accept
needs three more facts: which characters occur, how many, and that none is a leading zero.

## Main results

* `Text.number?_toDigits` — a written number reads as itself.
* `Text.exists_of_mem_toDigits` — every character written is a digit of the base.
* `Text.head?_toDigits_ne` — a positive number is not written with a zero in front.
-/

namespace SocksPool.Text

theorem digit?_digitChar {base d : Nat} (hd : d < base) (hbase : base ≤ 16) :
    digit? base d.digitChar = some d := by
  have hvalue : ∀ d < 16, hexValue? d.digitChar = some d := by decide
  unfold digit?
  rw [hvalue d (by omega)]
  simpa using hd

theorem foldDigits?_append (base : Nat) (first second : List Char) (acc : Nat) :
    foldDigits? base (first ++ second) acc =
      (foldDigits? base first acc).bind (foldDigits? base second) := by
  induction first generalizing acc with
  | nil => rfl
  | cons c rest ih =>
      simp only [List.cons_append, foldDigits?]
      cases digit? base c with
      | none => rfl
      | some d => exact ih (acc * base + d)

theorem foldDigits?_toDigits {base : Nat} (hlow : 1 < base) (hhigh : base ≤ 16) (n : Nat) :
    foldDigits? base (Nat.toDigits base n) 0 = some n := by
  induction n using Nat.strongRecOn with
  | ind n ih =>
      rw [Nat.toDigits_eq_if hlow]
      split
      · next hsmall => simp [foldDigits?, digit?_digitChar hsmall hhigh]
      · next hlarge =>
          have hpos : 0 < n := by omega
          have hdigit : n % base < base := Nat.mod_lt _ (by omega)
          rw [foldDigits?_append, ih (n / base) (Nat.div_lt_self hpos hlow)]
          simp [foldDigits?, digit?_digitChar hdigit hhigh, Nat.div_add_mod']

/-- A written number reads as itself. -/
theorem number?_toDigits {base : Nat} (hlow : 1 < base) (hhigh : base ≤ 16) (n : Nat) :
    number? base (Nat.toDigits base n) = some n := by
  have hfold := foldDigits?_toDigits hlow hhigh n
  obtain ⟨c, rest, hdigits⟩ := List.exists_cons_of_ne_nil (Nat.toDigits_ne_nil (n := n) (b := base))
  rw [hdigits] at hfold ⊢
  exact hfold

theorem decimal?_decimal {n limit : Nat} (h : n ≤ limit) : decimal? limit (decimal n) = some n := by
  have hread : number? 10 (decimal n) = some n :=
    number?_toDigits (by decide) (by decide) n
  unfold decimal?
  rw [hread]
  simpa using h

/-- Every character of a written number is a digit of the base. -/
theorem exists_of_mem_toDigits {base n : Nat} {c : Char} (hbase : 1 < base)
    (h : c ∈ Nat.toDigits base n) : ∃ d < base, c = d.digitChar := by
  induction n using Nat.strongRecOn with
  | ind n ih =>
      rw [Nat.toDigits_eq_if hbase] at h
      split at h
      · next hsmall => exact ⟨n, hsmall, List.mem_singleton.1 h⟩
      · next hlarge =>
          rcases List.mem_append.1 h with hhigh | hlast
          · exact ih (n / base) (Nat.div_lt_self (by omega) hbase) hhigh
          · exact ⟨n % base, Nat.mod_lt _ (by omega), List.mem_singleton.1 hlast⟩

theorem isDigit_of_mem_decimal {n : Nat} {c : Char} (h : c ∈ decimal n) : c.isDigit = true :=
  Nat.isDigit_of_mem_toDigits (by decide) (by decide) h

/-- A positive number is not written with a zero in front. -/
theorem head?_toDigits_ne {base n : Nat} (hbase : 1 < base) (hpos : 0 < n) :
    (Nat.toDigits base n).head? ≠ some '0' := by
  induction n using Nat.strongRecOn with
  | ind n ih =>
      rw [Nat.toDigits_eq_if hbase]
      split
      · simpa using Nat.pos_iff_ne_zero.1 hpos
      · next hlarge =>
          have hhead :=
            ih (n / base) (Nat.div_lt_self hpos hbase) (Nat.div_pos (by omega) (by omega))
          obtain ⟨c, rest, hdigits⟩ :=
            List.exists_cons_of_ne_nil (Nat.toDigits_ne_nil (n := n / base) (b := base))
          rw [hdigits] at hhead ⊢
          exact hhead

theorem length_hexadecimal_le {n : Nat} (h : n < 65536) : (hexadecimal n).length ≤ 4 :=
  (Nat.length_toDigits_le_iff (by decide) (by decide)).2 h

end SocksPool.Text
