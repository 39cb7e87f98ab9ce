import SocksPool.Table

/-!
# Tables in byte order

The rows of a table are shown in the byte order of their keys. The table compares texts
character by character, which comes to the same: where two texts first differ, the
smaller character has the smaller bytes in UTF-8, since a longer code begins with a
greater byte, and codes of one length are numbers with the same digits in a row.

## Main results

* `Text.bytes_lt` — a smaller text has smaller bytes.
* `Table.sorted_byteOrder` — each key is shown once, in byte order.
-/

namespace SocksPool

namespace Text

open String (utf8EncodeChar)

/-- The bytes of a text. -/
def bytes (s : String) : List UInt8 := s.toUTF8.data.toList

theorem bytes_eq_flatMap (s : String) : bytes s = s.toList.flatMap utf8EncodeChar := by
  have hencode : s.toUTF8 = s.toList.utf8Encode := String.utf8Encode_toList.symm
  unfold bytes
  rw [hencode, List.utf8Encode, List.data_toByteArray]

theorem val_lt (c : Char) : c.val.toNat < 1114112 := by
  rcases c.valid with hlow | ⟨-, hhigh⟩
  · exact Nat.lt_trans hlow (by decide)
  · exact hhigh

/-- The code of a smaller character is smaller, whatever comes after it. -/
theorem utf8EncodeChar_lt {c d : Char} (h : c < d) (more rest : List UInt8) :
    utf8EncodeChar c ++ more < utf8EncodeChar d ++ rest := by
  have hlt : c.val.toNat < d.val.toNat := h
  have hbound := val_lt d
  fun_cases utf8EncodeChar c <;> fun_cases utf8EncodeChar d
  all_goals
    simp only [List.cons_append, List.nil_append, List.cons_lt_cons_iff, UInt8.lt_iff_toNat_lt,
      ← UInt8.toNat_inj, UInt8.toNat_ofNat', Nat.reducePow]
  case case4.case4 =>
    -- The digit that is greater is looked for from the left.
    rcases Nat.lt_or_ge (c.val.toNat / 262144) (d.val.toNat / 262144) with hfirst | hfirst
    · omega
    · rcases Nat.lt_or_ge (c.val.toNat / 4096) (d.val.toNat / 4096) with hsecond | hsecond <;>
        omega
  all_goals omega

/-- A smaller text has smaller bytes. -/
theorem bytes_lt {a b : String} (h : a < b) : bytes a < bytes b := by
  have hchars : a.toList < b.toList := h
  rw [bytes_eq_flatMap, bytes_eq_flatMap]
  generalize a.toList = first at hchars
  generalize b.toList = second at hchars
  induction first generalizing second with
  | nil =>
      cases second with
      | nil => exact absurd hchars (List.not_lt_nil [])
      | cons d ds =>
          have hne : utf8EncodeChar d ≠ [] := String.utf8EncodeChar_ne_nil
          obtain ⟨byte, more, hcode⟩ := List.exists_cons_of_ne_nil hne
          rw [List.flatMap_nil, List.flatMap_cons, hcode]
          exact List.nil_lt_cons _ _
  | cons c cs ih =>
      cases second with
      | nil => exact absurd hchars (List.not_lt_nil _)
      | cons d ds =>
          rw [List.flatMap_cons, List.flatMap_cons]
          rcases List.cons_lt_cons_iff.1 hchars with hless | ⟨rfl, hrest⟩
          · exact utf8EncodeChar_lt hless _ _
          · exact List.append_left_lt (ih ds hrest)

end Text

namespace Table

variable {α : Type}

theorem sorted_perm (t : Table α) : t.sorted.Perm t.entries := List.mergeSort_perm _ _

/-- Among distinct keys, each is shown once, in byte order. -/
theorem sorted_byteOrder {t : Table α} (hnodup : t.keys.Nodup) :
    (t.sorted.map (·.1)).Pairwise fun a b => Text.bytes a < Text.bytes b := by
  have hle : (t.sorted.map (·.1)).Pairwise (· ≤ ·) := by
    rw [List.pairwise_map]
    refine (List.pairwise_mergeSort ?_ ?_ t.entries).imp of_decide_eq_true
    · intro a b c hab hbc
      exact decide_eq_true (String.le_trans (of_decide_eq_true hab) (of_decide_eq_true hbc))
    · intro a b
      rcases String.le_total a.1 b.1 with hab | hba
      · rw [decide_eq_true hab, Bool.true_or]
      · rw [decide_eq_true hba, Bool.or_true]
  have hne : (t.sorted.map (·.1)).Nodup := (t.sorted_perm.map _).nodup_iff.2 hnodup
  refine (hle.and hne).imp fun ⟨hab, hdiffer⟩ => Text.bytes_lt ?_
  exact String.not_le.1 fun hba => hdiffer (String.le_antisymm hab hba)

end Table

end SocksPool
