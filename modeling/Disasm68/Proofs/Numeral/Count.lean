import Disasm68.Proofs.Numeral.Reading

/-!
# The grammar of counts

A count is written as decimal digits, with a plus sign in front or without one (`Counts`). A text is
read as a number exactly if it is a count of that number and the number fits into 64 bits
(`readCount_eq_ok_iff`).
-/

namespace Disasm68.Numeral

/-- The counts: a plus sign or none, and decimal digits for a number of 64 bits. -/
inductive Counts : String → Nat → Prop where
  | count {sign : String} (hsign : sign ∈ ["", "+"]) {digits : List Char} (hne : digits ≠ [])
      (hdigits : ∀ c ∈ digits, c.isDigit) (hfits : Nat.ofDigitChars 10 digits 0 < 2 ^ 64) :
      Counts (sign ++ String.ofList digits) (Nat.ofDigitChars 10 digits 0)

variable {bound n m : Nat} {c : Char} {cs : List Char}

theorem digit?_ten_of_isDigit (h : c.isDigit) : digit? 10 c = some (c.toNat - '0'.toNat) := by
  obtain ⟨hzero, hnine⟩ := Char.isDigit_iff_toNat.mp h
  have hrange : '0' ≤ c ∧ c ≤ '9' := ⟨hzero, hnine⟩
  have hlt : c.toNat - '0'.toNat < 10 := by
    have hnine : c.toNat ≤ '0'.toNat + 9 := hnine
    omega
  rw [digit?, if_pos hrange]
  exact Option.filter_eq_some_iff.mpr ⟨rfl, decide_eq_true hlt⟩

/-- Letters stand for ten and more. -/
theorem digit?_ten_of_not_isDigit (h : ¬ c.isDigit) : digit? 10 c = none := by
  have hrange : ¬ ('0' ≤ c ∧ c ≤ '9') := fun hc => h (Char.isDigit_iff_toNat.mpr hc)
  rw [digit?, if_neg hrange]
  split_ifs <;> simp

/-- Further digits do not make a number less. -/
theorem le_ofDigitChars (cs : List Char) (n : Nat) : n ≤ Nat.ofDigitChars 10 cs n := by
  induction cs generalizing n with
  | nil => exact Nat.le_refl n
  | cons c cs ih =>
    rw [Nat.ofDigitChars_cons]
    have hle := ih (10 * n + (c.toNat - '0'.toNat))
    omega

/-- **Digits are read as the number they stand for.** The induction is on the digits, and the number
in front of them grows. -/
theorem readDigits_ten_eq_ok_iff (hn : n < bound) :
    readDigits 10 bound n cs = .ok m ↔
      (∀ c ∈ cs, c.isDigit) ∧ Nat.ofDigitChars 10 cs n = m ∧ m < bound := by
  induction cs generalizing n with
  | nil =>
    rw [readDigits, Nat.ofDigitChars_nil, Except.ok.injEq]
    refine ⟨?_, fun h => h.2.1⟩
    rintro rfl
    exact ⟨List.forall_mem_nil _, rfl, hn⟩
  | cons c cs ih =>
    rw [readDigits, List.forall_mem_cons, Nat.ofDigitChars_cons]
    by_cases hc : c.isDigit
    case neg =>
      rw [digit?_ten_of_not_isDigit hc]
      constructor
      · intro h
        cases h
      · intro h
        exact absurd h.1.1 hc
    rw [digit?_ten_of_isDigit hc]
    dsimp only
    split
    case isTrue hlt => rw [ih hlt, and_assoc, and_iff_right hc]
    case isFalse hge =>
      constructor
      · intro h
        cases h
      · rintro ⟨-, rfl, hbound⟩
        have hle := le_ofDigitChars cs (10 * n + (c.toNat - '0'.toNat))
        omega

/-- **A text is read as the number of which it is a count.** -/
theorem readCount_eq_ok_iff {text : String} : readCount text = .ok n ↔ Counts text n := by
  constructor
  · intro h
    rw [readCount] at h
    have hne : text.toList ≠ [] := by
      intro hnil
      rw [hnil] at h
      cases h
    obtain ⟨digits, hunsigned⟩ := Hex.exists_unsigned text.toList
    rw [hunsigned.read_eq hne, readDigits_ten_eq_ok_iff (by decide)] at h
    obtain ⟨hdigits, rfl, hfits⟩ := h
    obtain ⟨sign, hsign, htext⟩ := hunsigned.exists_sign
    have hwhole : text = sign ++ String.ofList digits := by
      rw [← String.toList_inj, htext, String.toList_append, String.toList_ofList]
    rw [hwhole]
    exact .count hsign (hunsigned.ne_nil hne) hdigits hfits
  · intro h
    cases h with
    | count hsign hne hdigits hfits =>
      have hplus : '+' ∉ _ := fun hmem => absurd (hdigits '+' hmem) (by decide)
      have hunsigned := Hex.unsigned_append hsign hne hplus
      rw [readCount, String.toList_append, String.toList_ofList,
        hunsigned.read_eq (List.append_ne_nil_of_right_ne_nil _ hne),
        readDigits_ten_eq_ok_iff (by decide)]
      exact ⟨hdigits, rfl, hfits⟩

end Disasm68.Numeral
