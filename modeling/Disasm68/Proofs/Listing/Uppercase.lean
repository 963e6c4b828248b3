import Disasm68.Proofs.Listing.Columns
import Disasm68.Proofs.Listing.Lines
import Disasm68.Proofs.Listing.Sweep

/-!
# Listings in upper case

Upper case changes the letters of mnemonics and nothing else (`uppercase_only_mnemonics`). Every
instruction has columns in both cases, since its text is printable: with its mnemonic in upper case
the text is as long as before, and behind the mnemonic it is the same. So the rows of a listing in
upper case are those of the listing in lower case with their mnemonics raised
(`Listing.body_uppercase`), and the lines differ nowhere else.
-/

namespace Disasm68

open Text

namespace Columns

/-- A text with the ASCII letters of its mnemonic in upper case. -/
def raiseMnemonic (text : String) : String :=
  String.ofList ((mnemonicOf text.toList).map Char.toUpper ++ text.toList.dropWhile (· ≠ ' '))

/-- The mnemonic ends at the first blank, and what follows it begins there. -/
theorem raiseMnemonic_append {word : String} (h : ' ' ∉ word.toList) (rest : String) :
    raiseMnemonic (word ++ " " ++ rest) =
      String.ofList (word.toList.map Char.toUpper) ++ " " ++ rest := by
  have hword : ∀ c ∈ word.toList, decide (c ≠ ' ') = true :=
    fun c hc => decide_eq_true (ne_of_mem_of_not_mem hc h)
  have hsplit : (word ++ " " ++ rest).toList = word.toList ++ ' ' :: rest.toList := by simp
  have hmnemonic : mnemonicOf (word.toList ++ ' ' :: rest.toList) = word.toList := by
    rw [mnemonicOf, List.takeWhile_append_of_pos hword, List.takeWhile_cons_of_neg (by decide),
      List.append_nil]
  have hrest : (word.toList ++ ' ' :: rest.toList).dropWhile (· ≠ ' ') = ' ' :: rest.toList := by
    rw [List.dropWhile_append_of_pos hword, List.dropWhile_cons_of_neg (by decide)]
  rw [raiseMnemonic, hsplit, hmnemonic, hrest, ← String.toList_inj]
  simp

/-- A mnemonic keeps its length. -/
theorem length_raiseMnemonic (text : String) : (raiseMnemonic text).length = text.length := by
  rw [raiseMnemonic, String.length_ofList, List.length_append, List.length_map, ← List.length_append,
    mnemonicOf, List.takeWhile_append_dropWhile, String.length_toList]

/-- What stands behind the mnemonic stays as it is. -/
theorem drop_raiseMnemonic (text : String) :
    (raiseMnemonic text).toList.drop (mnemonicOf text.toList).length =
      text.toList.drop (mnemonicOf text.toList).length := by
  have hsplit : mnemonicOf text.toList ++ text.toList.dropWhile (· ≠ ' ') = text.toList :=
    List.takeWhile_append_dropWhile
  calc (raiseMnemonic text).toList.drop (mnemonicOf text.toList).length
    _ = text.toList.dropWhile (· ≠ ' ') := by
      rw [raiseMnemonic, String.toList_ofList, List.drop_left' (List.length_map _)]
    _ = (mnemonicOf text.toList ++ text.toList.dropWhile (· ≠ ' ')).drop
          (mnemonicOf text.toList).length := List.drop_left.symm
    _ = text.toList.drop (mnemonicOf text.toList).length := by rw [hsplit]

end Columns

namespace Disassembly

variable {d : Disassembly}

/-- In upper case a mnemonic of printable characters is raised letter by letter. -/
theorem shownMnemonic_uppercase (h : Printable d.text) :
    Columns.shownMnemonic true d.text.toList =
      (Columns.mnemonicOf d.text.toList).map Char.toUpper :=
  Uppercase.text_of_printable fun c hc => h c ((List.takeWhile_sublist _).subset hc)

/-- In lower case a text is shown as it is. -/
theorem shownText_lowercase (h : Printable d.text) : d.shownText false = some d.text := by
  rw [shownText_eq h, Option.some_inj, ← String.toList_inj, String.toList_ofList]
  exact List.takeWhile_append_dropWhile

/-- In upper case it is shown with its mnemonic raised. -/
theorem shownText_uppercase (h : Printable d.text) :
    d.shownText true = some (Columns.raiseMnemonic d.text) := by
  rw [shownText_eq h, shownMnemonic_uppercase h]
  rfl

end Disassembly

namespace Row

/-- A row with its mnemonic, or its directive, in upper case. -/
def raise (row : Row) : Row :=
  { row with text := Columns.raiseMnemonic row.text }

variable (options : ListingOptions)

theorem code_uppercase (memory : Memory) {d : Disassembly} (h : Printable d.text) :
    code memory { options with uppercase := true } d =
      (code memory { options with uppercase := false } d).raise := by
  simp only [code, raise, Disassembly.shownText_uppercase h, Disassembly.shownText_lowercase h,
    Option.getD_some]

/-- A directive of four characters stands before its data like a mnemonic. -/
theorem data_uppercase (address : Long) {directive : String} (digits : String)
    (h : Printable directive) (hblank : ' ' ∉ directive.toList) (hlength : directive.length = 4) :
    data { options with uppercase := true } address directive digits =
      (data { options with uppercase := false } address directive digits).raise := by
  have hshown : ∀ s : String, s.length = 4 →
      Column.left 7 s ++ " $" ++ digits = s ++ " " ++ ("   $" ++ digits) := by
    intro s hs
    rw [Column.left, hs, ← String.toList_inj]
    simp [List.replicate]
  have hupper : Uppercase.text directive.toList = directive.toList.map Char.toUpper :=
    Uppercase.text_of_printable h
  simp only [data, raise, if_true, Bool.false_eq_true, if_false, hupper]
  rw [hshown _ hlength, Columns.raiseMnemonic_append hblank, hshown]
  rw [String.length_ofList, List.length_map, String.length_toList, hlength]

theorem ofBytes_uppercase (address : Long) (bytes : List Byte) :
    ofBytes { options with uppercase := true } address bytes =
      (ofBytes { options with uppercase := false } address bytes).map raise := by
  induction address, bytes using ofBytes.induct with
  | case1 address high low rest ih =>
    rw [ofBytes, ofBytes, ih, List.map_cons, word, word,
      data_uppercase options address _ (by decide) (by decide) (by decide)]
  | case2 address b =>
    rw [ofBytes, ofBytes, List.map_cons, byte, byte,
      data_uppercase options address _ (by decide) (by decide) (by decide)]
    rfl
  | case3 address => rw [ofBytes, ofBytes, List.map_nil]

end Row

namespace Listing

/-- **The rows of a listing in upper case** are those in lower case with their mnemonics raised: the
case wanted plays no part in the sweep. -/
theorem body_uppercase (data : Array Byte) (options : ListingOptions) :
    body data { options with uppercase := true } =
      (body data { options with uppercase := false }).map Row.raise := by
  let lower : ListingOptions := { options with uppercase := false }
  have hprintable : ∀ d ∈ (sweep data lower).code, Printable d.text :=
    (sweep_sweeps data lower).forall_mem_code fun _ => disassemble_printable _ _ _
  have hcode : (sweep data lower).code.map
        (Row.code (image data lower).memory { options with uppercase := true }) =
      ((sweep data lower).code.map (Row.code (image data lower).memory lower)).map Row.raise := by
    rw [List.map_map]
    exact List.map_congr_left fun d hd => Row.code_uppercase options _ (hprintable d hd)
  calc body data { options with uppercase := true }
    _ = (sweep data lower).code.map
            (Row.code (image data lower).memory { options with uppercase := true }) ++
          Row.ofBytes { options with uppercase := true }
            ((image data lower).addressOf (sweep data lower).codeSize)
            (sweep data lower).tail.bytes := rfl
    _ = (body data lower).map Row.raise := by
      rw [hcode, Row.ofBytes_uppercase, ← List.map_append]
      rfl

/-- Two listings whose rows differ in the case of their mnemonics only. -/
structure Raises (data : Array Byte) (lower upper : ListingOptions) : Prop where
  length : (listing data upper).length = (listing data lower).length
  header : (listing data upper).take 3 = (listing data lower).take 3
  /-- The line of a row ends with its text, and only the mnemonic there is changed. -/
  rows : ∀ (i : Nat) (row : Row), (body data lower)[i]? = some row → ∃ front,
    (listing data lower)[3 + i]? = some ⟨i + 4, front ++ row.text⟩ ∧
      (listing data upper)[3 + i]? = some ⟨i + 4, front ++ Columns.raiseMnemonic row.text⟩

theorem raises_uppercase (data : Array Byte) (options : ListingOptions) :
    Raises data { options with uppercase := false } { options with uppercase := true } := by
  refine ⟨?_, ?_, fun i row hrow => ?_⟩
  · rw [length_listing, length_listing, body_uppercase, List.length_map]
  · rw [take_header, take_header]
    rfl
  · obtain ⟨front, hfront⟩ := Row.exists_shown options row.address row.bytes (i + 4)
    refine ⟨front, ?_, ?_⟩
    · rw [getElem?_listing, hrow, Option.map_some]
      exact congrArg some (hfront row.text)
    · rw [getElem?_listing, body_uppercase, List.getElem?_map, hrow, Option.map_some,
        Option.map_some]
      exact congrArg some (hfront (Columns.raiseMnemonic row.text))

end Listing

/-- **Upper case changes mnemonics only.** Every instruction is printable and has columns in both
cases, over any memory its bytes are read back from. In upper case the text is as long as the text
of the instruction and the same behind the mnemonic, which is raised letter by letter; bytes and
operands stay. A listing in upper case has the lines of the listing in lower case but for the
mnemonics, or directives, of its rows. -/
theorem uppercase_only_mnemonics :
    (∀ (memory shown : Memory) (address : Long) (cpu : Cpu),
      let d := disassemble memory address cpu
      let mnemonic := Columns.mnemonicOf d.text.toList
      Printable d.text ∧
      ∃ lower upper,
        d.columns shown false = some lower ∧ d.columns shown true = some upper ∧
        lower.text = d.text ∧ upper.text.length = d.text.length ∧
        upper.text.toList.drop mnemonic.length = d.text.toList.drop mnemonic.length ∧
        upper.text.toList.take mnemonic.length = mnemonic.map Char.toUpper ∧
        lower.mnemonic = String.ofList mnemonic ∧
        upper.mnemonic = String.ofList (mnemonic.map Char.toUpper) ∧
        upper.bytes = lower.bytes ∧ upper.operands = lower.operands) ∧
    ∀ (data : Array Byte) (options : ListingOptions),
      Listing.Raises data { options with uppercase := false } { options with uppercase := true } := by
  refine ⟨fun memory shown address cpu => ?_, Listing.raises_uppercase⟩
  intro d mnemonic
  have hprintable : Printable d.text := disassemble_printable memory address cpu
  let lower : Columns := ⟨d.hexColumn shown, String.ofList mnemonic,
    String.ofList (Columns.operandsOf d.text.toList), d.text⟩
  let upper : Columns := { lower with
    mnemonic := String.ofList (mnemonic.map Char.toUpper)
    text := Columns.raiseMnemonic d.text }
  have hlower : d.columns shown false = some lower := by
    rw [Disassembly.columns, Disassembly.shownText_lowercase hprintable]
    rfl
  have hupper : d.columns shown true = some upper := by
    rw [Disassembly.columns, Disassembly.shownText_uppercase hprintable,
      Disassembly.shownMnemonic_uppercase hprintable]
    rfl
  refine ⟨hprintable, lower, upper, hlower, hupper, rfl, Columns.length_raiseMnemonic d.text,
    Columns.drop_raiseMnemonic d.text, ?_, rfl, rfl, rfl, rfl⟩
  show (Columns.raiseMnemonic d.text).toList.take _ = _
  rw [Columns.raiseMnemonic, String.toList_ofList, List.take_left' (List.length_map _)]

end Disasm68
