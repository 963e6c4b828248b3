import Disasm68.Operand
import Disasm68.Proofs.Numeral.Reading
import Mathlib.Data.List.Induction

/-!
# Signed numerals

A signed numeral is a minus sign or none, the mark `$`, and a magnitude in lower case without zeros
in front (`Hex.SignedNumeral`). A magnitude has one such text (`Hex.shortest_iff`), so an integer has
one signed numeral, but for the zero, which may have a sign. `Hex.signed_faithful` says that the
numeral of a bit pattern of any width is the one of its two's-complement value, and what follows for
immediates and for values that are extended by their sign before they are printed.
-/

namespace Disasm68

namespace Hex

/-- Whether characters are the digits of a number in lower case, with no zero in front of others. -/
structure Shortest (cs : List Char) (n : Nat) : Prop where
  spells : Spells cs n
  ne_nil : cs ≠ []
  lowercase : ∀ c ∈ cs, c.isUpper = false
  zero_alone : ∀ rest, cs = '0' :: rest → rest = []

/-- The signed numerals and the integers they stand for. -/
inductive SignedNumeral : String → Int → Prop where
  | plain {digits : List Char} {n : Nat} (h : Shortest digits n) :
      SignedNumeral ("$" ++ String.ofList digits) n
  | negative {digits : List Char} {n : Nat} (h : Shortest digits n) :
      SignedNumeral ("-$" ++ String.ofList digits) (-n)

/-! ## Magnitudes -/

theorem isUpper_digitChar {d : Nat} (hd : d < 16) : d.digitChar.isUpper = false := by
  revert d
  decide

theorem IsDigit.eq_digitChar {c : Char} {d : Nat} (h : IsDigit c d) (hc : c.isUpper = false) :
    c = d.digitChar := by
  obtain ⟨hd, rfl | rfl⟩ := h
  · rfl
  · have hall : ∀ e < 16, e.digitChar.toUpper.isUpper = false →
        e.digitChar.toUpper = e.digitChar := by
      decide
    exact hall d hd hc

namespace Shortest

variable {cs : List Char} {d n : Nat}

theorem single (hd : d < 16) : Shortest [d.digitChar] d where
  spells := by simpa using Spells.nil.snoc (c := d.digitChar) ⟨hd, .inl rfl⟩
  ne_nil := List.cons_ne_nil _ _
  lowercase := by simpa using isUpper_digitChar hd
  zero_alone _ h := (List.cons.inj h).2.symm

/-- A further digit takes the last place. Only behind a zero would it leave one in front. -/
theorem snoc (h : Shortest cs n) (hn : 0 < n) (hd : d < 16) :
    Shortest (cs ++ [d.digitChar]) (16 * n + d) where
  spells := h.spells.snoc ⟨hd, .inl rfl⟩
  ne_nil := by simp
  lowercase := by
    simp only [List.mem_append, List.mem_singleton]
    rintro c (hc | rfl)
    · exact h.lowercase c hc
    · exact isUpper_digitChar hd
  zero_alone rest heq := by
    obtain ⟨c, later, rfl⟩ := List.exists_cons_of_ne_nil h.ne_nil
    obtain ⟨rfl, -⟩ := List.cons.inj heq
    obtain rfl := h.zero_alone later rfl
    have hzero : n = 0 := h.spells.unique Spells.nil.zero_cons
    omega

/-- There is no other way to write a number so. The induction takes the last digit off. -/
theorem eq_toDigits (h : Shortest cs n) : cs = Nat.toDigits 16 n := by
  induction cs using List.reverseRecOn generalizing n with
  | nil => exact absurd rfl h.ne_nil
  | append_singleton cs c ih =>
    obtain ⟨k, d, hk, hd, rfl⟩ := h.spells.exists_of_snoc
    obtain rfl : c = d.digitChar := hd.eq_digitChar (h.lowercase c (by simp))
    by_cases hcs : cs = []
    · subst hcs
      obtain rfl : k = 0 := hk.unique .nil
      rw [Nat.mul_zero, Nat.zero_add, Nat.toDigits_of_lt_base hd.1, List.nil_append]
    -- a zero in front of the others has the last digit behind it
    have hzero : ∀ rest, cs ≠ '0' :: rest := by
      rintro rest rfl
      have hnil : rest ++ [d.digitChar] = [] := h.zero_alone _ rfl
      simp at hnil
    have hfront : cs = Nat.toDigits 16 k :=
      ih ⟨hk, hcs, fun c hc => h.lowercase c (List.mem_append_left _ hc),
        fun rest heq => absurd heq (hzero rest)⟩
    have hpos : 0 < k := by
      refine Nat.pos_of_ne_zero fun hk => hzero [] ?_
      rw [hfront, hk, Nat.toDigits_zero]
    rw [hfront, ← Nat.toDigits_append_toDigits (by decide) hpos hd.1, Nat.toDigits_of_lt_base hd.1]

end Shortest

theorem shortest_toDigits (n : Nat) : Shortest (Nat.toDigits 16 n) n :=
  Numeral.toDigits_induction .single (fun hk hd ih => ih.snoc hk hd) n

/-- The shortest lower-case numeral of a number is the one that is printed. -/
theorem shortest_iff {cs : List Char} {n : Nat} : Shortest cs n ↔ cs = Nat.toDigits 16 n :=
  ⟨Shortest.eq_toDigits, fun h => h ▸ shortest_toDigits n⟩

/-! ## Signs -/

/-- An integer is written with the sign that suits it; a zero suits both. -/
theorem signedNumeral_iff {text : String} {z : Int} : SignedNumeral text z ↔
    0 ≤ z ∧ text = "$" ++ lower z.natAbs ∨ z ≤ 0 ∧ text = "-$" ++ lower z.natAbs := by
  constructor
  · rintro (⟨h⟩ | ⟨h⟩)
    · refine .inl ⟨Int.natCast_nonneg _, ?_⟩
      rw [shortest_iff.mp h, Int.natAbs_natCast, lower]
    · refine .inr ⟨by omega, ?_⟩
      rw [shortest_iff.mp h, Int.natAbs_neg, Int.natAbs_natCast, lower]
  · have hdigits := shortest_toDigits z.natAbs
    rintro (⟨hz, rfl⟩ | ⟨hz, rfl⟩)
    · have h := SignedNumeral.plain hdigits
      rwa [Int.natAbs_of_nonneg hz] at h
    · have h := SignedNumeral.negative hdigits
      rwa [Int.ofNat_natAbs_of_nonpos hz, Int.neg_neg] at h

variable {w : Nat}

theorem signed_ne_negative_zero (v : BitVec w) : signed v ≠ "-$0" := by
  have hzero : "-$0" = "-$" ++ lower 0 := rfl
  rw [hzero, signed_eq]
  split
  case isTrue hv =>
    rw [ne_eq, String.append_right_inj, lower_inj]
    omega
  case isFalse => exact plain_ne_negative _ _

/-- The numeral of a bit pattern is read as its two's-complement value. -/
theorem signedNumeral_signed_iff (v : BitVec w) (z : Int) :
    SignedNumeral (signed v) z ↔ z = v.toInt := by
  rw [signedNumeral_iff, signed_eq]
  by_cases hv : v.toInt < 0
  · have hsign : "-$" ++ lower v.toInt.natAbs ≠ "$" ++ lower z.natAbs :=
      (plain_ne_negative _ _).symm
    simp only [if_pos hv, hsign, and_false, false_or, String.append_right_inj, lower_inj]
    omega
  · have hsign : "$" ++ lower v.toInt.natAbs ≠ "-$" ++ lower z.natAbs := plain_ne_negative _ _
    simp only [if_neg hv, hsign, and_false, or_false, String.append_right_inj, lower_inj]
    omega

/-- No other numeral is read so, but for a zero with a sign. -/
theorem signedNumeral_toInt_iff (v : BitVec w) (text : String) :
    text ≠ "-$0" ∧ SignedNumeral text v.toInt ↔ text = signed v := by
  constructor
  · rintro ⟨hzero, h⟩
    rw [signed_eq]
    rcases signedNumeral_iff.mp h with ⟨hv, rfl⟩ | ⟨hv, rfl⟩
    · rw [if_neg (by omega)]
    · have hne : v.toInt ≠ 0 := fun hv => hzero (by rw [hv]; rfl)
      rw [if_pos (by omega)]
  · rintro rfl
    exact ⟨signed_ne_negative_zero v, (signedNumeral_signed_iff v _).mpr rfl⟩

end Hex

/-- The numerals of two values of one size differ if the values do. -/
theorem Datum.signed_inj {a b : Datum} : a.size = b.size ∧ a.signed = b.signed ↔ a = b := by
  cases a <;> cases b <;> simp [size, signed]

namespace Hex

/-- **Signed numerals are faithful**, whatever the width. The numeral of a bit pattern is in the
grammar and is read as the two's-complement value, also if that is the most negative one; it is the
only numeral of that value, but for a zero with a sign. So bit patterns of one width have different
numerals, and so have immediates of one size. A word that is extended by its sign to a long keeps its
numeral, so a displacement of the full index format shows what its word would. -/
theorem signed_faithful :
    (∀ {w : Nat} (v : BitVec w) (z : Int), SignedNumeral (signed v) z ↔ z = v.toInt) ∧
      (∀ {w : Nat} (v : BitVec w) (text : String),
        text ≠ "-$0" ∧ SignedNumeral text v.toInt ↔ text = signed v) ∧
      (∀ {w : Nat} (u v : BitVec w), signed u = signed v ↔ u = v) ∧
      (∀ (origin : Long) (a b : Datum), a.size = b.size ∧
        (Operand.signed a).text origin = (Operand.signed b).text origin ↔ a = b) ∧
      (∀ v : Word, signed (v.signExtend 32) = signed v) ∧
      ∀ c : Cursor, signed ((EffectiveAddress.decodeDisplacement 2).run c).1 = signed c.word := by
  refine ⟨signedNumeral_signed_iff, signedNumeral_toInt_iff, fun u v => signed_inj,
    fun origin a b => ?_, signed_signExtend (by decide), fun c => ?_⟩
  · rw [← Datum.signed_inj, Operand.text, Operand.text, String.append_right_inj]
  · exact signed_signExtend (by decide) c.word

/-- The magnitude of the most negative byte does not fit into a signed byte, and is printed. -/
example : signed (0x80 : Byte) = "-$80" ∧ (0x80 : Byte).toInt = -0x80 := by
  decide

end Hex

end Disasm68
