import Disasm68.Numeral.Reading

/-!
# Numerals are faithful

The digits of a number are read back as that number (`readDigits_toDigits`), so a numeral determines
what it is the numeral of: `lower_inj` for the bare digits, `unsigned_inj` and `signed_inj` for bit
patterns of one width. A signed numeral does not say its width (`signed_signExtend`).
-/

namespace Disasm68

namespace Numeral

/-- Each digit is read back. -/
theorem digit?_digitChar {d : Nat} (h : d < 16) : digit? 16 d.digitChar = some d := by
  revert d
  decide

/-- Digits are read one after another. -/
theorem readDigits_append (radix bound n : Nat) (cs ds : List Char) :
    readDigits radix bound n (cs ++ ds) =
      readDigits radix bound n cs >>= fun k => readDigits radix bound k ds := by
  induction cs generalizing n with
  | nil => rfl
  | cons c cs ih =>
    simp only [List.cons_append, readDigits]
    cases digit? radix c with
    | none => rfl
    | some d =>
      dsimp only
      split
      · exact ih _
      · rfl

/-- What holds of single digits and is kept when a digit is put behind those of a number that is
not zero, holds of the digits of every number. -/
theorem toDigits_induction {P : List Char → Nat → Prop}
    (single : ∀ {d}, d < 16 → P [d.digitChar] d)
    (snoc : ∀ {cs k d}, 0 < k → d < 16 → P cs k → P (cs ++ [d.digitChar]) (16 * k + d)) (n : Nat) :
    P (Nat.toDigits 16 n) n := by
  induction n using Nat.base_induction 16 (by decide) with
  | single d hd =>
    rw [Nat.toDigits_of_lt_base hd]
    exact single hd
  | digit d k hd hk ih =>
    rw [← Nat.toDigits_append_toDigits (by decide) hk hd, Nat.toDigits_of_lt_base hd]
    exact snoc hk hd ih

/-- **The digits of a number are read back**, as far as the bound allows the number. -/
theorem readDigits_toDigits {bound n : Nat} (h : n < bound) :
    readDigits 16 bound 0 (Nat.toDigits 16 n) = .ok n := by
  revert h
  refine toDigits_induction (P := fun cs n => n < bound → readDigits 16 bound 0 cs = .ok n)
    ?single ?snoc n
  case single =>
    intro d hd h
    simp [readDigits, digit?_digitChar hd, h]
  case snoc =>
    intro cs k d hk hd ih h
    rw [readDigits_append, ih (by omega)]
    simp only [bind, Except.bind, readDigits, digit?_digitChar hd, h, if_true]

/-- Digits that are read as a number under every bound above it are those of no other number. -/
theorem eq_of_readDigits {radix m n : Nat} {cs : List Char}
    (hm : ∀ bound, m < bound → readDigits radix bound 0 cs = .ok m)
    (hn : ∀ bound, n < bound → readDigits radix bound 0 cs = .ok n) : m = n := by
  have hread := hm (max m n + 1) (by omega)
  rw [hn (max m n + 1) (by omega)] at hread
  exact (Except.ok.inj hread).symm

end Numeral

namespace Hex

@[simp] theorem lower_inj {m n : Nat} : lower m = lower n ↔ m = n := by
  refine ⟨fun h => ?_, fun h => h ▸ rfl⟩
  have hdigits : Nat.toDigits 16 m = Nat.toDigits 16 n := String.ofList_injective h
  refine Numeral.eq_of_readDigits (fun _ => Numeral.readDigits_toDigits) fun _ hn => ?_
  rw [hdigits, Numeral.readDigits_toDigits hn]

@[simp] theorem unsigned_inj {w : Nat} {u v : BitVec w} : unsigned u = unsigned v ↔ u = v := by
  simp only [unsigned, String.append_right_inj, lower_inj, BitVec.toNat_inj]

/-- The sign shows. -/
theorem plain_ne_negative (m n : Nat) : "$" ++ lower m ≠ "-$" ++ lower n := by
  simp [← String.toList_inj]

/-- A signed numeral determines its value: the sign is told by the first character, and within one
sign the magnitude is. -/
@[simp] theorem signed_inj {w : Nat} {u v : BitVec w} : signed u = signed v ↔ u = v := by
  refine ⟨fun h => ?_, fun h => h ▸ rfl⟩
  unfold signed at h
  cases hu : u.msb <;> cases hv : v.msb <;> rw [hu, hv] at h
  case false.false =>
    exact unsigned_inj.mp h
  case true.true =>
    simp only [if_true, String.append_right_inj, lower_inj, BitVec.toNat_inj] at h
    exact BitVec.neg_inj.mp h
  case false.true => exact absurd h (plain_ne_negative _ _)
  case true.false => exact absurd h.symm (plain_ne_negative _ _)

/-- A signed numeral is never empty. -/
theorem signed_ne_empty {w : Nat} (v : BitVec w) : signed v ≠ "" := by
  unfold signed
  split <;> simp [← String.toList_inj]

/-- A signed numeral is that of the integer, so its width does not matter. -/
theorem signed_eq {w : Nat} (v : BitVec w) :
    signed v = (if v.toInt < 0 then "-$" else "$") ++ lower v.toInt.natAbs := by
  have hlt := v.isLt
  unfold signed
  cases hv : v.msb
  case false =>
    have hint := BitVec.toInt_eq_toNat_of_msb hv
    rw [if_neg Bool.false_ne_true, if_neg (by omega), hint, Int.natAbs_natCast]
  case true =>
    have hint : v.toInt = v.toNat - (2 ^ w : Nat) := by
      rw [BitVec.toInt_eq_msb_cond, if_pos hv]
    have hpos : 0 < v.toNat :=
      Nat.lt_of_lt_of_le (Nat.two_pow_pos (w - 1)) (BitVec.le_toNat_of_msb_true hv)
    have hmag : (-v).toNat = v.toInt.natAbs := by
      rw [BitVec.toNat_neg, Nat.mod_eq_of_lt (by omega), hint]
      omega
    rw [if_pos rfl, if_pos (by omega), hmag]

/-- Extending a value by its sign leaves its numeral as it is. -/
theorem signed_signExtend {w w' : Nat} (h : w ≤ w') (v : BitVec w) :
    signed (v.signExtend w') = signed v := by
  rw [signed_eq, signed_eq, BitVec.toInt_signExtend_of_le h]

end Hex

end Disasm68
