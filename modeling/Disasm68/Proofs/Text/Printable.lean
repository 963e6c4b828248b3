import Disasm68.Width
import Disasm68.Proofs.Text.Intercalate
import Disasm68.Text.Column

/-!
# Printable texts

A text is printable when all its characters are printable characters of ASCII, the blank among them.
What is made of printable texts is printable, and so are numerals.
-/

namespace Disasm68

namespace Text

/-- A printable character of ASCII. -/
def isPrintable (c : Char) : Bool :=
  0x20 ≤ c.toNat && c.toNat < 0x7f

/-- A text of printable characters. -/
def Printable (s : String) : Prop :=
  ∀ c ∈ s.toList, isPrintable c = true

instance (s : String) : Decidable (Printable s) :=
  List.decidableBAll (isPrintable · = true) s.toList

/-- What holds of the characters with a printable code point holds of every printable one. -/
theorem isPrintable_induction {p : Char → Prop}
    (h : ∀ n < 0x7f, isPrintable (Char.ofNat n) = true → p (Char.ofNat n)) {c : Char}
    (hc : isPrintable c = true) : p c := by
  have hlt : c.toNat < 0x7f := by
    simp only [isPrintable, Bool.and_eq_true, decide_eq_true_eq] at hc
    exact hc.2
  rw [← Char.ofNat_toNat c] at hc ⊢
  exact h c.toNat hlt hc

@[simp] theorem printable_append {s t : String} :
    Printable (s ++ t) ↔ Printable s ∧ Printable t := by
  simp only [Printable, String.toList_append, List.forall_mem_append]

@[simp] theorem printable_ofList {cs : List Char} :
    Printable (String.ofList cs) ↔ ∀ c ∈ cs, isPrintable c = true := by
  simp only [Printable, String.toList_ofList]

@[simp] theorem printable_replicate {n : Nat} {c : Char} (h : isPrintable c = true) :
    Printable (String.ofList (List.replicate n c)) := by
  rw [printable_ofList]
  intro d hd
  rwa [(List.mem_replicate.mp hd).2]

theorem printable_intercalate {sep : String} {texts : List String} (hsep : Printable sep)
    (htexts : ∀ s ∈ texts, Printable s) : Printable (sep.intercalate texts) :=
  forall_mem_intercalate hsep htexts

theorem printable_left {width : Nat} {s : String} (h : Printable s) :
    Printable (Column.left width s) := by
  rw [Column.left, printable_append]
  exact ⟨h, printable_replicate (by decide)⟩

/-- Letters and digits are printable. -/
theorem isPrintable_of_isAlphanum {c : Char} (h : c.isAlphanum = true) : isPrintable c = true := by
  delta Char.isAlphanum Char.isAlpha Char.isUpper Char.isLower Char.isDigit at h
  simp only [Bool.or_eq_true, Bool.and_eq_true, decide_eq_true_eq, ge_iff_le,
    UInt32.le_iff_toNat_le, Char.toNat_val, Char.reduceToNat] at h
  simp only [isPrintable, Bool.and_eq_true, decide_eq_true_eq]
  omega

/-- What holds of each digit holds of the digits of a number. The induction takes the last one
off. -/
theorem forall_mem_toDigits {p : Char → Prop} {base : Nat} (h : 1 < base)
    (hdigit : ∀ d < base, p d.digitChar) (n : Nat) : ∀ c ∈ Nat.toDigits base n, p c := by
  induction n using Nat.base_induction base h with
  | single d hd =>
    rw [Nat.toDigits_of_lt_base hd, List.forall_mem_singleton]
    exact hdigit d hd
  | digit n d hd hn ih =>
    rw [← Nat.toDigits_append_toDigits h hn hd, List.forall_mem_append,
      Nat.toDigits_of_lt_base hd, List.forall_mem_singleton]
    exact ⟨ih, hdigit d hd⟩

/-- The digits of a number are printable. -/
theorem isPrintable_of_mem_toDigits {base : Nat} (h : 1 < base) (h16 : base ≤ 16) (n : Nat) :
    ∀ c ∈ Nat.toDigits base n, isPrintable c = true := by
  have hdigit : ∀ d < 16, isPrintable d.digitChar = true := by decide
  exact forall_mem_toDigits h (fun d hd => hdigit d (by omega)) n

@[simp] theorem printable_repr (n : Nat) : Printable n.repr :=
  printable_ofList.mpr (isPrintable_of_mem_toDigits (by decide) (by decide) n)

end Text

namespace Hex

open Text

@[simp] theorem printable_lower (n : Nat) : Printable (lower n) :=
  printable_ofList.mpr (isPrintable_of_mem_toDigits (by decide) (by decide) n)

@[simp] theorem printable_lowerPadded (width n : Nat) : Printable (lowerPadded width n) := by
  rw [lowerPadded, printable_ofList, List.leftpad, List.forall_mem_append]
  refine ⟨fun c hc => ?_, isPrintable_of_mem_toDigits (by decide) (by decide) n⟩
  rw [(List.mem_replicate.mp hc).2]
  decide

@[simp] theorem printable_unsigned {w : Nat} (v : BitVec w) : Printable (unsigned v) := by
  rw [unsigned, printable_append]
  exact ⟨by decide, printable_lower _⟩

@[simp] theorem printable_signed {w : Nat} (v : BitVec w) : Printable (signed v) := by
  unfold signed
  split <;> exact printable_append.mpr ⟨by decide, printable_lower _⟩

end Hex

end Disasm68
