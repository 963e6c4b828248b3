import Disasm68.Proofs.Numeral.Hex
import Mathlib.Data.List.Forall2
import Mathlib.Data.Nat.Digits.Defs

/-!
# The grammar of addresses

An address is written as digits of either case, with a sign and a mark in front or without them
(`Hex.Denotes`). A text that is no address has a fault, and the one that counts is the first from
left to right (`Hex.Fault`): a character that is no digit, or a digit with which the number gets too
large (`Hex.Reads`). `Hex.readAddress_eq_iff` says that addresses are read by this grammar and
faults are reported by it, each in its own words. What a listing shows as an address is in the
grammar.
-/

namespace Disasm68.Hex

open Numeral (digit? readDigits)

/-! ## Digits -/

/-- Whether a character is the digit of a value, in lower or in upper case. -/
def IsDigit (c : Char) (d : Nat) : Prop :=
  d < 16 ∧ (c = d.digitChar ∨ c = d.digitChar.toUpper)

instance (c : Char) (d : Nat) : Decidable (IsDigit c d) :=
  inferInstanceAs (Decidable (_ ∧ _))

/-- Whether characters are the digits of a number, the most significant one first. -/
def Spells (cs : List Char) (n : Nat) : Prop :=
  ∃ ds, List.Forall₂ IsDigit cs ds ∧ Nat.ofDigits 16 ds.reverse = n

/-- What digits come to that are read from left to right: the number that they spell, or the first
fault. A character that is no digit is one, and so is a digit with which the number reaches the
bound. -/
inductive Reads (bound : Nat) : List Char → Except NumeralError Nat → Prop where
  | number {cs : List Char} {n : Nat} (h : Spells cs n) (hn : n < bound) : Reads bound cs (.ok n)
  | invalidDigit {front : List Char} {n : Nat} (hfront : Spells front n) (hn : n < bound) {c : Char}
      (hc : ∀ d, ¬ IsDigit c d) (later : List Char) :
      Reads bound (front ++ c :: later) (.error .invalidDigit)
  | tooLarge {front : List Char} {n : Nat} (hfront : Spells front n) (hn : n < bound) {c : Char}
      {d : Nat} (hc : IsDigit c d) (hd : bound ≤ 16 * n + d) (later : List Char) :
      Reads bound (front ++ c :: later) (.error .tooLarge)

theorem digit?_eq_some_iff {c : Char} {d : Nat} : digit? 16 c = some d ↔ IsDigit c d := by
  constructor
  · intro h
    -- behind the letters there are no digits, and the characters up to them can be tried
    have hall : ∀ n < 0x7b, ∀ e ∈ digit? 16 (Char.ofNat n), IsDigit (Char.ofNat n) e := by decide
    have hc : c.toNat < 0x7b := by
      by_contra hlarge
      have hbehind {m : Char} (hm : m.toNat < 0x7b) : ¬ c ≤ m := fun hle => by
        have hle : c.toNat ≤ m.toNat := hle
        omega
      have hnone : digit? 16 c = none := by
        simp [digit?, hbehind (m := '9') (by decide), hbehind (m := 'z') (by decide),
          hbehind (m := 'Z') (by decide)]
      rw [hnone] at h
      cases h
    have hdigit := hall c.toNat hc d
    rw [Char.ofNat_toNat] at hdigit
    exact hdigit h
  · have hall : ∀ e < 16, digit? 16 e.digitChar = some e ∧
        digit? 16 e.digitChar.toUpper = some e := by
      decide
    rintro ⟨hd, rfl | rfl⟩
    · exact (hall d hd).1
    · exact (hall d hd).2

theorem digit?_eq_none_iff {c : Char} : digit? 16 c = none ↔ ∀ d, ¬ IsDigit c d := by
  simp only [Option.eq_none_iff_forall_ne_some, ne_eq, digit?_eq_some_iff]

/-- Digits continue a number. The induction is on the digits, and the number in front of them
grows. -/
theorem readDigits_of_forall₂ {bound : Nat} {cs : List Char} {ds : List Nat}
    (h : List.Forall₂ IsDigit cs ds) (n : Nat)
    (hbound : 16 ^ ds.length * n + Nat.ofDigits 16 ds.reverse < bound) :
    readDigits 16 bound n cs = .ok (16 ^ ds.length * n + Nat.ofDigits 16 ds.reverse) := by
  induction h generalizing n with
  | nil => simp [readDigits]
  | @cons c d cs ds hc _ ih =>
    have hvalue : 16 ^ (d :: ds).length * n + Nat.ofDigits 16 (d :: ds).reverse =
        16 ^ ds.length * (16 * n + d) + Nat.ofDigits 16 ds.reverse := by
      rw [Nat.ofDigits_reverse_cons, List.length_cons, Nat.pow_succ]
      ring
    rw [hvalue] at hbound ⊢
    have hle : 16 * n + d ≤ 16 ^ ds.length * (16 * n + d) :=
      Nat.le_mul_of_pos_left _ (Nat.pow_pos (by decide))
    rw [readDigits, digit?_eq_some_iff.mpr hc]
    dsimp only
    rw [if_pos (by omega), ih _ hbound]

namespace Spells

variable {cs : List Char} {c : Char} {d n : Nat}

theorem nil : Spells [] 0 := ⟨[], .nil, rfl⟩

/-- A further digit takes the last place. -/
theorem snoc (h : Spells cs n) (hc : IsDigit c d) : Spells (cs ++ [c]) (16 * n + d) := by
  obtain ⟨ds, hds, hn⟩ := h
  refine ⟨ds ++ [d], List.rel_append hds (.cons hc .nil), ?_⟩
  rw [List.reverse_append, List.reverse_singleton, List.singleton_append, Nat.ofDigits_cons, hn,
    Nat.add_comm]

/-- A zero in front of a numeral does not count. -/
theorem zero_cons (h : Spells cs n) : Spells ('0' :: cs) n := by
  obtain ⟨ds, hds, hn⟩ := h
  exact ⟨0 :: ds, .cons (by decide) hds, by rw [Nat.ofDigits_reverse_zero_cons, hn]⟩

theorem not_mem (h : Spells cs n) (hc : digit? 16 c = none) : c ∉ cs := by
  obtain ⟨ds, hds, -⟩ := h
  induction hds with
  | nil => exact List.not_mem_nil
  | @cons e d cs ds he _ ih =>
    rw [List.mem_cons, not_or]
    refine ⟨?_, ih⟩
    rintro rfl
    exact digit?_eq_none_iff.mp hc d he

theorem readDigits_eq_ok {bound : Nat} (h : Spells cs n) (hn : n < bound) :
    readDigits 16 bound 0 cs = .ok n := by
  obtain ⟨ds, hds, rfl⟩ := h
  simpa using readDigits_of_forall₂ hds 0 (by simpa using hn)

/-- Digits are those of one number only. -/
theorem unique {m : Nat} (hm : Spells cs m) (hn : Spells cs n) : m = n :=
  Numeral.eq_of_readDigits (fun _ => hm.readDigits_eq_ok) fun _ => hn.readDigits_eq_ok

/-- The last digit comes off. -/
theorem exists_of_snoc (h : Spells (cs ++ [c]) n) :
    ∃ k d, Spells cs k ∧ IsDigit c d ∧ n = 16 * k + d := by
  obtain ⟨ds, hds, rfl⟩ := h
  have hreversed := List.rel_reverse hds
  rw [List.reverse_append, List.reverse_singleton, List.singleton_append,
    List.forall₂_cons_left_iff] at hreversed
  obtain ⟨d, rest, hd, hrest, heq⟩ := hreversed
  refine ⟨Nat.ofDigits 16 rest, d, ⟨rest.reverse, ?_, by rw [List.reverse_reverse]⟩, hd, ?_⟩
  · rwa [← List.forall₂_reverse_iff, List.reverse_reverse]
  · rw [heq, Nat.ofDigits_cons, Nat.add_comm]

end Spells

/-- Reading on behind what has been read. -/
theorem reads_readDigits {bound n : Nat} {front : List Char} (hfront : Spells front n)
    (hn : n < bound) (cs : List Char) : Reads bound (front ++ cs) (readDigits 16 bound n cs) := by
  induction cs generalizing front n with
  | nil =>
    rw [List.append_nil]
    exact .number hfront hn
  | cons c cs ih =>
    rw [readDigits]
    cases hc : digit? 16 c with
    | none => exact .invalidDigit hfront hn (digit?_eq_none_iff.mp hc) cs
    | some d =>
      have hdigit : IsDigit c d := digit?_eq_some_iff.mp hc
      dsimp only
      split
      case isTrue hlt =>
        rw [← List.singleton_append, ← List.append_assoc]
        exact ih (hfront.snoc hdigit) hlt
      case isFalse hge => exact .tooLarge hfront hn hdigit (Nat.le_of_not_lt hge) cs

/-- **Digits are read as the judgment says**, and it leaves no choice. -/
theorem readDigits_eq_iff {bound : Nat} (hbound : 0 < bound) {cs : List Char}
    {r : Except NumeralError Nat} : readDigits 16 bound 0 cs = r ↔ Reads bound cs r := by
  refine ⟨fun h => h ▸ reads_readDigits .nil hbound cs, fun h => ?_⟩
  cases h with
  | number h hn => exact h.readDigits_eq_ok hn
  | invalidDigit hfront hn hc later =>
    rw [Numeral.readDigits_append, hfront.readDigits_eq_ok hn]
    show readDigits 16 bound _ _ = _
    rw [readDigits, digit?_eq_none_iff.mpr hc]
  | tooLarge hfront hn hc hd later =>
    rw [Numeral.readDigits_append, hfront.readDigits_eq_ok hn]
    show readDigits 16 bound _ _ = _
    rw [readDigits, digit?_eq_some_iff.mpr hc]
    exact if_neg (Nat.not_lt.mpr hd)

/-! ## Marks and signs -/

/-- The marks that may stand in front of an address. -/
def marks : List String := ["0x", "0X", "$"]

/-- What stands behind the mark of an address. It is the whole only if no mark begins it. -/
inductive Unmarked : List Char → List Char → Prop where
  | marked {m : String} (h : m ∈ marks) (rest : List Char) : Unmarked (m.toList ++ rest) rest
  | bare {text : List Char} (h : ∀ mark ∈ marks, ¬ mark.toList <+: text) : Unmarked text text

/-- What stands behind the sign of a number. A sign that nothing follows is none. -/
inductive Unsigned : List Char → List Char → Prop where
  | plus {digits : List Char} (h : digits ≠ []) : Unsigned ('+' :: digits) digits
  | bare {text : List Char} (h : ∀ digits, text = '+' :: digits → digits = []) : Unsigned text text

/-- The addresses: a mark or none, a plus sign or none, and digits of either case. -/
inductive Denotes : String → Nat → Prop where
  | address {mark sign : String} (hmark : mark ∈ "" :: marks) (hsign : sign ∈ ["", "+"])
      {digits : List Char} (hne : digits ≠ []) {n : Nat} (h : Spells digits n) :
      Denotes (mark ++ sign ++ String.ofList digits) n

/-- Why a text is no address: nothing stands behind its mark, or what stands behind mark and sign is
no number below 2^32. -/
inductive Fault (text : String) : NumeralError → Prop where
  | empty (h : Unmarked text.toList []) : Fault text .empty
  | digits {rest digits : List Char} (hmark : Unmarked text.toList rest)
      (hsign : Unsigned rest digits) (hne : digits ≠ []) {e : NumeralError}
      (h : Reads 0x100000000 digits (.error e)) : Fault text e

theorem unmarked_stripMark (text : List Char) : Unmarked text (stripMark text) := by
  unfold stripMark
  split
  case h_1 rest => exact .marked (m := "0x") (by decide) rest
  case h_2 rest => exact .marked (m := "0X") (by decide) rest
  case h_3 rest => exact .marked (m := "$") (by decide) rest
  case h_4 hlower hupper hdollar =>
    refine .bare fun mark hmark hbegins => ?_
    obtain ⟨rest, rfl⟩ := hbegins
    simp only [marks, List.mem_cons, List.not_mem_nil, or_false] at hmark
    rcases hmark with rfl | rfl | rfl
    · exact hlower rest rfl
    · exact hupper rest rfl
    · exact hdollar rest rfl

theorem Unmarked.eq {text rest : List Char} (h : Unmarked text rest) : stripMark text = rest := by
  cases h with
  | marked hmark rest =>
    simp only [marks, List.mem_cons, List.not_mem_nil, or_false] at hmark
    rcases hmark with rfl | rfl | rfl <;> rfl
  | bare hbare =>
    unfold stripMark
    split
    case h_1 rest => exact absurd ⟨rest, rfl⟩ (hbare "0x" (by decide))
    case h_2 rest => exact absurd ⟨rest, rfl⟩ (hbare "0X" (by decide))
    case h_3 rest => exact absurd ⟨rest, rfl⟩ (hbare "$" (by decide))
    case h_4 => rfl

theorem exists_unsigned (text : List Char) : ∃ digits, Unsigned text digits := by
  by_cases h : ∃ digits, digits ≠ [] ∧ text = '+' :: digits
  · obtain ⟨digits, hne, rfl⟩ := h
    exact ⟨digits, .plus hne⟩
  · refine ⟨text, .bare fun digits heq => ?_⟩
    by_contra hne
    exact h ⟨digits, hne, heq⟩

/-- A number that is not empty is read from the digits behind its sign. -/
theorem Unsigned.read_eq {radix bound : Nat} {text digits : List Char} (h : Unsigned text digits)
    (hne : text ≠ []) : Numeral.read radix bound text = readDigits radix bound 0 digits := by
  unfold Numeral.read
  split
  case h_1 => exact absurd rfl hne
  case h_2 =>
    cases h with
    | plus hne => exact absurd rfl hne
    -- the sign is a character that is no digit
    | bare => rfl
  case h_3 c cs =>
    cases h with
    | plus => rfl
    | bare h => cases h _ rfl
  case h_4 c cs _ hplus =>
    cases h with
    | plus hne =>
      obtain ⟨d, digits, rfl⟩ := List.exists_cons_of_ne_nil hne
      exact absurd rfl (hplus d digits rfl)
    | bare => rfl

/-- Something is left behind a sign. -/
theorem Unsigned.ne_nil {text digits : List Char} (h : Unsigned text digits) (hne : text ≠ []) :
    digits ≠ [] := by
  cases h with
  | plus h => exact h
  | bare => exact hne

/-- Sign and digits together are the text. -/
theorem Unsigned.exists_sign {text digits : List Char} (h : Unsigned text digits) :
    ∃ sign ∈ ["", "+"], text = sign.toList ++ digits := by
  cases h with
  | plus => exact ⟨"+", by decide, rfl⟩
  | bare => exact ⟨"", by decide, rfl⟩

/-- A sign in front of digits is found. -/
theorem unsigned_append {sign : String} {digits : List Char} (hsign : sign ∈ ["", "+"])
    (hne : digits ≠ []) (hplus : '+' ∉ digits) : Unsigned (sign.toList ++ digits) digits := by
  simp only [List.mem_cons, List.not_mem_nil, or_false] at hsign
  rcases hsign with rfl | rfl
  · refine .bare fun rest heq => absurd ?_ hplus
    rw [show digits = '+' :: rest from heq]
    exact List.mem_cons_self
  · exact .plus hne

namespace Spells

variable {digits : List Char} {n : Nat} {mark sign : String}

/-- No mark is taken for digits. -/
theorem unmarked (h : Spells digits n) (hmark : mark ∈ "" :: marks) (hsign : sign ∈ ["", "+"]) :
    Unmarked (mark ++ sign ++ String.ofList digits).toList (sign.toList ++ digits) := by
  rw [String.toList_append, String.toList_append, String.toList_ofList, List.append_assoc]
  rcases List.mem_cons.mp hmark with rfl | hmark
  case inr => exact .marked hmark _
  refine .bare fun mark hmark hbegins => ?_
  -- a Boolean, since the characters of the mark are to be tried and no others
  have hforeign : ∀ mark ∈ marks, ∀ sign ∈ ["", "+"],
      mark.toList.any fun c => c ∉ sign.toList ∧ digit? 16 c = none := by decide
  obtain ⟨c, hc, hforeign⟩ := List.any_eq_true.mp (hforeign mark hmark sign hsign)
  obtain ⟨hcsign, hcdigit⟩ := of_decide_eq_true hforeign
  have hmem : c ∈ sign.toList ++ digits := hbegins.subset hc
  rcases List.mem_append.mp hmem with hmem | hmem
  · exact hcsign hmem
  · exact h.not_mem hcdigit hmem

/-- Nor is a sign. -/
theorem unsigned (h : Spells digits n) (hne : digits ≠ []) (hsign : sign ∈ ["", "+"]) :
    Unsigned (sign.toList ++ digits) digits :=
  unsigned_append hsign hne (h.not_mem (by decide))

end Spells

/-! ## Addresses -/

variable {text : String}

theorem readAddress_of_mark (h : Unmarked text.toList []) : readAddress text = .error .empty := by
  rw [readAddress, h.eq]
  rfl

theorem readAddress_of_digits {rest digits : List Char} (hmark : Unmarked text.toList rest)
    (hsign : Unsigned rest digits) (hne : digits ≠ []) :
    readAddress text = BitVec.ofNat 32 <$> readDigits 16 0x100000000 0 digits := by
  have hrest : rest ≠ [] := by
    cases hsign with
    | plus => exact List.cons_ne_nil _ _
    | bare => exact hne
  rw [readAddress, hmark.eq, hsign.read_eq hrest]

/-- Every text is a mark alone, or has something behind its mark and sign. -/
theorem exists_digits (text : String) : Unmarked text.toList [] ∨
    ∃ rest digits, Unmarked text.toList rest ∧ Unsigned rest digits ∧ digits ≠ [] := by
  have hmark := unmarked_stripMark text.toList
  generalize stripMark text.toList = rest at hmark
  by_cases hnil : rest = []
  · exact .inl (hnil ▸ hmark)
  · obtain ⟨digits, hsign⟩ := exists_unsigned rest
    exact .inr ⟨rest, digits, hmark, hsign, hsign.ne_nil hnil⟩

/-- Mark, sign and digits together are the text. -/
theorem denotes_of_digits {rest digits : List Char} {n : Nat} (hmark : Unmarked text.toList rest)
    (hsign : Unsigned rest digits) (hne : digits ≠ []) (h : Spells digits n) : Denotes text n := by
  have hmark : ∃ mark ∈ "" :: marks, text.toList = mark.toList ++ rest := by
    generalize text.toList = cs at hmark
    cases hmark with
    | marked hmark rest => exact ⟨_, List.mem_cons_of_mem _ hmark, rfl⟩
    | bare => exact ⟨"", List.mem_cons_self, rfl⟩
  obtain ⟨mark, hmem, htext⟩ := hmark
  obtain ⟨sign, hmem', rfl⟩ := hsign.exists_sign
  have hwhole : text = mark ++ sign ++ String.ofList digits := by
    rw [← String.toList_inj, htext]
    simp
  rw [hwhole]
  exact .address hmem hmem' hne h

/-- A text is read as the address it denotes, or it has a fault and is refused for that. -/
theorem readAddress_cases (text : String) :
    (∃ v, readAddress text = .ok v ∧ Denotes text v.toNat) ∨
      ∃ e, readAddress text = .error e ∧ Fault text e := by
  rcases exists_digits text with hmark | ⟨rest, digits, hmark, hsign, hne⟩
  · exact .inr ⟨.empty, readAddress_of_mark hmark, .empty hmark⟩
  have hread := readAddress_of_digits hmark hsign hne
  have hdigits : Reads 0x100000000 digits (readDigits 16 0x100000000 0 digits) :=
    reads_readDigits .nil (by decide) digits
  cases hr : readDigits 16 0x100000000 0 digits with
  | error e =>
    rw [hr] at hread hdigits
    exact .inr ⟨e, hread, .digits hmark hsign hne hdigits⟩
  | ok n =>
    rw [hr] at hread hdigits
    cases hdigits with
    | number hspells hn =>
      refine .inl ⟨BitVec.ofNat 32 n, hread, ?_⟩
      rw [BitVec.toNat_ofNat, Nat.mod_eq_of_lt hn]
      exact denotes_of_digits hmark hsign hne hspells

theorem Denotes.readAddress_eq_ok {v : Long} (h : Denotes text v.toNat) :
    readAddress text = .ok v := by
  generalize hn : v.toNat = n at h
  cases h with
  | address hmark hsign hne h =>
    rw [readAddress_of_digits (h.unmarked hmark hsign) (h.unsigned hne hsign) hne,
      h.readDigits_eq_ok (hn ▸ v.isLt), ← hn]
    exact congrArg Except.ok (BitVec.ofNat_toNat ..)

theorem Fault.readAddress_eq_error {e : NumeralError} (h : Fault text e) :
    readAddress text = .error e := by
  cases h with
  | empty hmark => exact readAddress_of_mark hmark
  | digits hmark hsign hne h =>
    rw [readAddress_of_digits hmark hsign hne, (readDigits_eq_iff (by decide)).mpr h]
    rfl

/-! ## What a listing shows -/

/-- The digits of a number spell it, in upper case too. -/
theorem spells_toDigits (n : Nat) : Spells ((Nat.toDigits 16 n).map Char.toUpper) n := by
  have hdigit {d : Nat} (hd : d < 16) : IsDigit d.digitChar.toUpper d := ⟨hd, .inr rfl⟩
  refine Numeral.toDigits_induction (P := fun cs n => Spells (cs.map Char.toUpper) n)
    ?single ?snoc n
  case single =>
    intro d hd
    simpa using Spells.nil.snoc (hdigit hd)
  case snoc =>
    intro cs k d _ hd ih
    rw [List.map_append]
    exact ih.snoc (hdigit hd)

theorem spells_upperPadded (width n : Nat) : Spells (upperPadded width n).toList n := by
  rw [upperPadded, String.toList_ofList, List.leftpad]
  generalize width - _ = zeros
  induction zeros with
  | zero => exact spells_toDigits n
  | succ zeros ih => exact ih.zero_cons

theorem denotes_upperPadded {mark : String} (hmark : mark ∈ "" :: marks) (width n : Nat) :
    Denotes (mark ++ upperPadded width n) n := by
  have hne : (upperPadded width n).toList ≠ [] := by
    simp [upperPadded, List.leftpad, Nat.toDigits_ne_nil]
  have h : Denotes (mark ++ "" ++ String.ofList (upperPadded width n).toList) n :=
    .address hmark (by decide) hne (spells_upperPadded width n)
  rwa [String.append_empty, String.ofList_toList] at h

/-- A text is read as an address exactly if it denotes it. -/
theorem readAddress_eq_ok_iff {v : Long} : readAddress text = .ok v ↔ Denotes text v.toNat := by
  constructor
  · intro h
    rcases readAddress_cases text with ⟨u, hread, hdenotes⟩ | ⟨e, hread, -⟩
    · rw [hread] at h
      exact Except.ok.inj h ▸ hdenotes
    · rw [hread] at h
      cases h
  · exact Denotes.readAddress_eq_ok

/-- It is refused exactly for its fault. -/
theorem readAddress_eq_error_iff {e : NumeralError} :
    readAddress text = .error e ↔ Fault text e := by
  constructor
  · intro h
    rcases readAddress_cases text with ⟨u, hread, -⟩ | ⟨e', hread, hfault⟩
    · rw [hread] at h
      cases h
    · rw [hread] at h
      exact Except.error.inj h ▸ hfault
  · exact Fault.readAddress_eq_error

/-- The wording of a fault follows the text. -/
theorem addressMessage_of_wording {e : NumeralError} (wording : String)
    (h : "': " ++ e.message = wording) :
    addressMessage text e = "invalid hex address '" ++ text ++ wording := by
  rw [← h]
  exact String.append_assoc

/-- Each of the three faults has a wording of its own. -/
theorem addressMessage_eq_iff {e : NumeralError} {message : String} :
    addressMessage text e = message ↔
      e = .empty ∧ message =
          "invalid hex address '" ++ text ++ "': cannot parse integer from empty string" ∨
        e = .invalidDigit ∧ message =
          "invalid hex address '" ++ text ++ "': invalid digit found in string" ∨
        e = .tooLarge ∧ message =
          "invalid hex address '" ++ text ++ "': number too large to fit in target type" := by
  cases e with
  | empty =>
    rw [addressMessage_of_wording "': cannot parse integer from empty string" (by decide)]
    simp [eq_comm]
  | invalidDigit =>
    rw [addressMessage_of_wording "': invalid digit found in string" (by decide)]
    simp [eq_comm]
  | tooLarge =>
    rw [addressMessage_of_wording "': number too large to fit in target type" (by decide)]
    simp [eq_comm]

/-- **Reading an address accepts exactly its grammar.** A text is read as the number below 2^32 that
it denotes. Every other text is refused for the first of its faults from left to right, and the
message quotes it as it was given with the wording of that fault behind it. What a listing shows as
an address is read back, with a mark or without one. -/
theorem readAddress_eq_iff :
    (∀ (text : String) (v : Long), (readAddress text).mapError (addressMessage text) = .ok v ↔
        Denotes text v.toNat) ∧
      (∀ (text : String) (e : NumeralError), readAddress text = .error e ↔ Fault text e) ∧
      (∀ text message : String,
        (readAddress text).mapError (addressMessage text) = .error message ↔
          Fault text .empty ∧ message =
              "invalid hex address '" ++ text ++ "': cannot parse integer from empty string" ∨
            Fault text .invalidDigit ∧ message =
              "invalid hex address '" ++ text ++ "': invalid digit found in string" ∨
            Fault text .tooLarge ∧ message =
              "invalid hex address '" ++ text ++ "': number too large to fit in target type") ∧
      ∀ v : Long, readAddress (upperPadded 8 v.toNat) = .ok v ∧
        readAddress ("$" ++ upperPadded 8 v.toNat) = .ok v := by
  refine ⟨?_, fun text e => readAddress_eq_error_iff, ?_, fun v => ⟨?_, ?_⟩⟩
  · intro text v
    rw [← readAddress_eq_ok_iff]
    cases readAddress text <;> simp [Except.mapError]
  · intro text message
    rw [← readAddress_eq_error_iff, ← readAddress_eq_error_iff, ← readAddress_eq_error_iff]
    cases readAddress text with
    | ok v => simp [Except.mapError]
    | error e =>
      simp only [Except.mapError, Except.error.injEq]
      exact addressMessage_eq_iff
  · have h : Denotes ("" ++ upperPadded 8 v.toNat) v.toNat :=
      denotes_upperPadded (by decide) 8 v.toNat
    rw [String.empty_append] at h
    exact h.readAddress_eq_ok
  · exact (denotes_upperPadded (by decide) 8 v.toNat).readAddress_eq_ok

end Disasm68.Hex
