import Disasm68.Width
import Mathlib.Algebra.Order.Ring.Nat

/-!
# Hexadecimal of bytes

Two digits for each byte, in upper case (`length_upperPadded`). A word is shown as its two bytes are
(`upperPadded_append`).
-/

namespace Disasm68.Hex

/-- Bytes in hexadecimal. -/
def ofBytes (bytes : List Byte) : String :=
  String.join (bytes.map fun b => upperPadded 2 b.toNat)

@[simp] theorem ofBytes_nil : ofBytes [] = "" := rfl

theorem ofBytes_append (bytes rest : List Byte) :
    ofBytes (bytes ++ rest) = ofBytes bytes ++ ofBytes rest := by
  rw [ofBytes, List.map_append, String.join_append]
  rfl

@[simp] theorem ofBytes_singleton (b : Byte) : ofBytes [b] = upperPadded 2 b.toNat := by
  simp [ofBytes, String.join_cons]

/-- The last digit of a padded numeral stands behind the others. -/
theorem upperPadded_succ {width : Nat} (hwidth : 0 < width) (n : Nat) {d : Nat} (hd : d < 16) :
    upperPadded (width + 1) (16 * n + d) =
      upperPadded width n ++ String.singleton d.digitChar.toUpper := by
  rw [← String.toList_inj, String.toList_append, String.toList_singleton]
  simp only [upperPadded, String.toList_ofList, List.leftpad, List.length_map]
  rcases Nat.eq_zero_or_pos n with rfl | hn
  · -- the numeral of zero has a digit, which is the padding of the longer numeral
    obtain ⟨w, rfl⟩ := Nat.exists_eq_add_one.mpr hwidth
    rw [Nat.mul_zero, Nat.zero_add, Nat.toDigits_of_lt_base hd, Nat.toDigits_zero]
    simp [List.replicate_succ']
  · rw [← Nat.toDigits_append_toDigits (by decide) hn hd, Nat.toDigits_of_lt_base hd]
    simp

/-- A numeral of one digit. -/
theorem upperPadded_one {d : Nat} (hd : d < 16) :
    upperPadded 1 d = String.singleton d.digitChar.toUpper := by
  rw [← String.toList_inj, String.toList_singleton]
  simp [upperPadded, Nat.toDigits_of_lt_base hd, List.leftpad]

/-- A numeral that fits into its field fills it. The induction takes the last digit off. -/
theorem length_upperPadded (width : Nat) {n : Nat} (h : n < 16 ^ (width + 1)) :
    (upperPadded (width + 1) n).length = width + 1 := by
  induction width generalizing n with
  | zero => rw [upperPadded_one (by omega), String.length_singleton]
  | succ width ih =>
    have hlast : n % 16 < 16 := Nat.mod_lt _ (by decide)
    have hrest : n / 16 < 16 ^ (width + 1) := Nat.div_lt_of_lt_mul (by rwa [← Nat.pow_succ'])
    rw [← Nat.div_add_mod n 16, upperPadded_succ (Nat.succ_pos width) _ hlast, String.length_append,
      ih hrest, String.length_singleton]

/-- The digits of a word are those of its bytes. -/
theorem upperPadded_append (high low : Byte) :
    upperPadded 4 (high ++ low).toNat = ofBytes [high, low] := by
  have hlow := low.isLt
  have hword : (high ++ low).toNat = 16 * (16 * high.toNat + low.toNat / 16) + low.toNat % 16 := by
    rw [BitVec.toNat_append, ← Nat.shiftLeft_add_eq_or_of_lt hlow, Nat.shiftLeft_eq]
    omega
  have hbyte : low.toNat = 16 * (low.toNat / 16) + low.toNat % 16 := by omega
  calc upperPadded 4 (high ++ low).toNat
    _ = upperPadded 2 high.toNat ++ String.singleton (low.toNat / 16).digitChar.toUpper ++
          String.singleton (low.toNat % 16).digitChar.toUpper := by
      rw [hword, upperPadded_succ (by decide) _ (by omega), upperPadded_succ (by decide) _ (by omega)]
    _ = upperPadded 2 high.toNat ++ upperPadded 2 low.toNat := by
      rw [hbyte, upperPadded_succ (by decide) _ (by omega), upperPadded_one (by omega), ← hbyte,
        String.append_assoc]
    _ = ofBytes [high, low] := by simp [ofBytes, String.join_cons]

end Disasm68.Hex
