import Disasm68.Listing.Columns
import Disasm68.Proofs.Family.Printable

/-!
# The case of a mnemonic

Printable characters take one byte in either case. So where the text behind the mnemonic begins does
not depend on the case of the mnemonic, and an instruction has a text in both (`shownText_eq`).
-/

namespace Disasm68

open Text

namespace Text

/-- The upper-case form of a printable character is printable. -/
theorem isPrintable_toUpper {c : Char} (h : isPrintable c = true) : isPrintable c.toUpper = true :=
  isPrintable_induction (p := fun c => isPrintable c.toUpper = true) (by decide) h

/-- A printable character takes one byte. -/
theorem utf8Size_of_isPrintable {c : Char} (h : isPrintable c = true) : c.utf8Size = 1 := by
  rw [Char.utf8Size_eq_one_iff, UInt32.le_iff_toNat_le]
  simp only [isPrintable, Bool.and_eq_true, decide_eq_true_eq] at h
  exact Nat.le_of_lt_succ (Nat.lt_succ_of_lt h.2)

end Text

/-- The upper-case form of a text of printable characters is taken character by character. -/
theorem Uppercase.text_of_printable {cs : List Char} (h : ∀ c ∈ cs, isPrintable c = true) :
    text cs = cs.map Char.toUpper := by
  induction cs with
  | nil => rfl
  | cons c cs ih =>
    obtain ⟨hc, hcs⟩ := List.forall_mem_cons.mp h
    have hascii : c.toNat < 0x80 := by
      simp only [isPrintable, Bool.and_eq_true, decide_eq_true_eq] at hc
      omega
    rw [text, List.flatMap_cons, char_of_ascii hascii, List.map_cons, ← ih hcs]
    rfl

namespace Columns

/-- Printable characters are counted in bytes as they are. -/
theorem byteCount_of_printable {cs : List Char} (h : ∀ c ∈ cs, isPrintable c = true) :
    byteCount cs = cs.length := by
  induction cs with
  | nil => rfl
  | cons c cs ih =>
    obtain ⟨hc, hcs⟩ := List.forall_mem_cons.mp h
    show c.utf8Size + byteCount cs = cs.length + 1
    rw [utf8Size_of_isPrintable hc, ih hcs, Nat.add_comm]

/-- A text without the bytes of its beginning. -/
theorem dropBytes_append (first rest : List Char) :
    dropBytes (byteCount first) (first ++ rest) = some rest := by
  induction first with
  | nil => rw [byteCount, List.foldr_nil, List.nil_append, dropBytes]
  | cons c first ih =>
    obtain ⟨n, hn⟩ : ∃ n, c.utf8Size + byteCount first = n + 1 :=
      Nat.exists_eq_add_one.mpr (by have := c.utf8Size_pos; omega)
    show dropBytes (c.utf8Size + byteCount first) (c :: (first ++ rest)) = some rest
    rw [hn, dropBytes, if_pos (by omega), ← hn, Nat.add_sub_cancel_left, ih]

/-- A mnemonic that takes as many bytes as the old one replaces it. -/
theorem withMnemonic_eq {mnemonic text : List Char}
    (h : byteCount mnemonic = byteCount (mnemonicOf text)) :
    withMnemonic mnemonic text = some (mnemonic ++ text.dropWhile (· ≠ ' ')) := by
  have hsplit : text = mnemonicOf text ++ text.dropWhile (· ≠ ' ') :=
    List.takeWhile_append_dropWhile.symm
  have hdrop := dropBytes_append (mnemonicOf text) (text.dropWhile (· ≠ ' '))
  rw [withMnemonic, h]
  rw [← hsplit] at hdrop
  rw [hdrop, Option.map_some]

/-- What stands behind a blank does not belong to the mnemonic. -/
theorem mnemonicOf_append {text : List Char} (h : ' ' ∈ text) (rest : List Char) :
    mnemonicOf (text ++ rest) = mnemonicOf text := by
  induction text with
  | nil => cases h
  | cons c text ih =>
    by_cases hc : c = ' '
    · simp [mnemonicOf, hc]
    · have hrest := ih ((List.mem_cons.mp h).resolve_left (Ne.symm hc))
      simpa [mnemonicOf, hc] using hrest

/-- Both cases of a printable mnemonic take the same number of bytes. -/
theorem byteCount_shownMnemonic {text : List Char} (h : ∀ c ∈ text, isPrintable c = true)
    (uppercase : Bool) : byteCount (shownMnemonic uppercase text) = byteCount (mnemonicOf text) := by
  cases uppercase with
  | false => rfl
  | true =>
    have hmnemonic : ∀ c ∈ mnemonicOf text, isPrintable c = true :=
      fun c hc => h c ((List.takeWhile_sublist _).subset hc)
    have hupper : ∀ c ∈ (mnemonicOf text).map Char.toUpper, isPrintable c = true := by
      intro c hc
      obtain ⟨d, hd, rfl⟩ := List.mem_map.mp hc
      exact isPrintable_toUpper (hmnemonic d hd)
    show byteCount (Uppercase.text (mnemonicOf text)) = _
    rw [Uppercase.text_of_printable hmnemonic, byteCount_of_printable hupper,
      byteCount_of_printable hmnemonic, List.length_map]

end Columns

/-- **An instruction has a text in both cases.** What stands behind its mnemonic stays as it is. -/
theorem Disassembly.shownText_eq {d : Disassembly} (h : Printable d.text) (uppercase : Bool) :
    d.shownText uppercase = some (String.ofList
      (Columns.shownMnemonic uppercase d.text.toList ++ d.text.toList.dropWhile (· ≠ ' '))) := by
  unfold shownText
  dsimp only
  rw [Columns.withMnemonic_eq (Columns.byteCount_shownMnemonic h uppercase), Option.map_some]

/-- Instructions with the same mnemonic are told apart by their texts in either case. -/
theorem Disassembly.shownText_inj {d d' : Disassembly} (h : Printable d.text)
    (h' : Printable d'.text)
    (hmnemonic : Columns.mnemonicOf d'.text.toList = Columns.mnemonicOf d.text.toList)
    (uppercase : Bool) :
    d'.shownText uppercase = d.shownText uppercase ↔ d'.text = d.text := by
  refine ⟨fun heq => ?_, fun heq => by rw [shownText, shownText, heq]⟩
  have hshown : Columns.shownMnemonic uppercase d'.text.toList =
      Columns.shownMnemonic uppercase d.text.toList := by
    rw [Columns.shownMnemonic, Columns.shownMnemonic, hmnemonic]
  rw [shownText_eq h', shownText_eq h, hshown, Option.some_inj] at heq
  have hrest := List.append_cancel_left (String.ofList_injective heq)
  rw [← String.toList_inj]
  calc d'.text.toList
    _ = Columns.mnemonicOf d'.text.toList ++ d'.text.toList.dropWhile (· ≠ ' ') :=
      List.takeWhile_append_dropWhile.symm
    _ = Columns.mnemonicOf d.text.toList ++ d.text.toList.dropWhile (· ≠ ' ') := by
      rw [hmnemonic, hrest]
    _ = d.text.toList := List.takeWhile_append_dropWhile

end Disasm68
