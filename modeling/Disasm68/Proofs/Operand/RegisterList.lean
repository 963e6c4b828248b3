import Disasm68.Proofs.Operand.Register
import Disasm68.Proofs.Operand.Runs
import Disasm68.Proofs.Text.Intercalate

/-!
# Register lists are exact and canonical

The text of a register list is read back part by part (`RegisterList.read_scanText`). Whether the
mask has its lowest bit for `D0` or its highest one, the parts name the registers of the mask and no
others, once each and in ascending order; a range has two members at least, stays within its bank
and is as long as it can be (`RegisterList.text_canonical`). So the text determines the mask.
-/

namespace Disasm68

/-! ## The sixteen registers in order -/

/-- The position of the first register of a bank. -/
def Bank.offset : Bank → Nat
  | .data => 0
  | .address => 8

namespace Register

/-- The position of a register from `D0` to `A7`. -/
def index (r : Register) : Nat :=
  r.bank.offset + r.number.toNat

/-- The register at a position. -/
def ofIndex (i : Nat) : Register :=
  .ofBits (BitVec.ofNat 4 i)

/-- The register with a number of a bank. -/
def ofNumber (bank : Bank) (n : Nat) : Register :=
  ⟨bank, BitVec.ofNat 3 n⟩

theorem index_ofNumber (bank : Bank) {n : Nat} (h : n < 8) :
    (ofNumber bank n).index = bank.offset + n := by
  rw [index, ofNumber, BitVec.toNat_ofNat, Nat.mod_eq_of_lt h]

theorem ofIndex_offset_add (bank : Bank) {n : Nat} (h : n < 8) :
    ofIndex (bank.offset + n) = ofNumber bank n := by
  have hall : ∀ n < 8, ofIndex (bank.offset + n) = ofNumber bank n := by
    cases bank <;> decide
  exact hall n h

/-- All registers from `D0` to `A7`. -/
def all : List Register :=
  (List.range 16).map ofIndex

/-- The register with a name. -/
def read (name : List Char) : Option Register :=
  all.find? fun r => r.text.toList = name

theorem read_text (r : Register) : read r.text.toList = some r := by
  have hall : ∀ r ∈ all, read r.text.toList = some r := by decide +kernel
  have hmem : ∀ (bank : Bank) (n : BitVec 3), ⟨bank, n⟩ ∈ all := by
    intro bank
    cases bank <;> decide
  exact hall r (hmem r.bank r.number)

/-- There are no separators in the name of a register. -/
theorem not_mem_text (r : Register) : '-' ∉ r.text.toList ∧ '/' ∉ r.text.toList := by
  obtain ⟨bank, number⟩ := r
  revert number
  cases bank <;> decide

end Register

namespace RegisterList

/-! ## Parts of a list -/

/-- A part of a register list. -/
inductive Part where
  | single (r : Register)
  | range (first last : Register)
  deriving DecidableEq, Repr

namespace Part

/-- The first register of a part. -/
def first : Part → Register
  | .single r => r
  | .range first _ => first

/-- The last register of a part. -/
def last : Part → Register
  | .single r => r
  | .range _ last => last

/-- A register alone, or the first and the last one of a range. -/
def text : Part → String
  | .single r => r.text
  | .range first last => first.text ++ "-" ++ last.text

/-- The registers a part stands for, a range for all from its first to its last one. -/
def registers : Part → List Register
  | .single r => [r]
  | .range first last =>
    (List.range' first.index (last.index + 1 - first.index)).map Register.ofIndex

/-- The part with a text. -/
def read (text : List Char) : Option Part :=
  match text.splitOn '-' with
  | [name] => (Register.read name).map .single
  | [first, last] => do return .range (← Register.read first) (← Register.read last)
  | _ => none

/-- The registers that are named in the text of a part. -/
def names : Part → List Register
  | .single r => [r]
  | .range first last => [first, last]

theorem text_eq (p : Part) : p.text = "-".intercalate (p.names.map Register.text) := by
  cases p with
  | single r => exact String.intercalate_singleton.symm
  | range first last =>
    rw [names, List.map_cons, List.map_cons, List.map_nil, String.intercalate_cons_cons,
      String.intercalate_singleton, text]

theorem splitOn_text (p : Part) :
    p.text.toList.splitOn '-' = p.names.map fun r => r.text.toList := by
  have hne : p.names.map Register.text ≠ [] := by
    cases p <;> exact List.cons_ne_nil _ _
  have hnames : ∀ s ∈ p.names.map Register.text, '-' ∉ s.toList :=
    List.forall_mem_map.mpr fun r _ => r.not_mem_text.1
  rw [text_eq, Text.splitOn_intercalate rfl hne hnames, List.map_map]
  rfl

/-- Parts are read back. -/
theorem read_text (p : Part) : read p.text.toList = some p := by
  unfold read
  rw [splitOn_text]
  cases p with
  | single r => simp [names, Register.read_text]
  | range first last => simp [names, Register.read_text]

theorem text_ne_empty (p : Part) : p.text ≠ "" := by
  have hname (r : Register) : r.text ≠ "" := fun h => by
    have hlength := r.length_text
    rw [h] at hlength
    cases hlength
  cases p with
  | single r => exact hname r
  | range first last => simp [text, hname]

theorem not_mem_text (p : Part) : '/' ∉ p.text.toList := by
  rw [text_eq]
  exact Text.not_mem_intercalate (by decide) (List.forall_mem_map.mpr fun r _ => r.not_mem_text.2)

end Part

/-- The parts of a list with a text. -/
def read (text : String) : Option (List Part) :=
  if text = "" then some [] else (text.toList.splitOn '/').mapM Part.read

/-- **A list is read back from its parts.** -/
theorem read_intercalate (parts : List Part) :
    read ("/".intercalate (parts.map Part.text)) = some parts := by
  have hmapM : (parts.map fun p => p.text.toList).mapM Part.read = some parts := by
    induction parts with
    | nil => rfl
    | cons p parts ih => simp [Part.read_text, ih]
  have hempty : "" ∉ parts.map Part.text := by
    intro hmem
    obtain ⟨p, -, hp⟩ := List.mem_map.mp hmem
    exact p.text_ne_empty hp
  unfold read
  by_cases hnil : parts = []
  · rw [hnil]
    rfl
  · have hne : parts.map Part.text ≠ [] := mt List.map_eq_nil_iff.mp hnil
    have htexts : ∀ s ∈ parts.map Part.text, '/' ∉ s.toList :=
      List.forall_mem_map.mpr fun p _ => p.not_mem_text
    rw [if_neg (mt (Text.intercalate_eq_empty_iff hempty).mp hne),
      Text.splitOn_intercalate rfl hne htexts, List.map_map]
    exact hmapM

/-! ## The part of a run -/

namespace Part

/-- The part of a run of registers of one bank. -/
def ofRun (bank : Bank) (run : Nat × Nat) : Part :=
  if run.1 = run.2 then .single (.ofNumber bank run.1)
  else .range (.ofNumber bank run.1) (.ofNumber bank run.2)

variable {bank : Bank} {run : Nat × Nat}

theorem first_ofRun : (ofRun bank run).first = .ofNumber bank run.1 := by
  unfold ofRun
  split <;> rfl

theorem last_ofRun : (ofRun bank run).last = .ofNumber bank run.2 := by
  unfold ofRun
  split
  case isTrue h => rw [last, h]
  case isFalse => rfl

theorem text_ofRun (hle : run.1 ≤ run.2) (hlt : run.2 < 8) :
    (ofRun bank run).text = runText bank run := by
  have hname {n : Nat} (hn : n < 8) :
      (Register.ofNumber bank n).text = bank.letter ++ toString n := by
    rw [Register.text, Register.ofNumber, BitVec.toNat_ofNat, Nat.mod_eq_of_lt hn]
  unfold ofRun runText
  dsimp only
  split
  · rw [text, hname (by omega)]
  · rw [text, hname (by omega), hname hlt]
    simp only [String.append_assoc]

theorem registers_ofRun (hle : run.1 ≤ run.2) (hlt : run.2 < 8) :
    (ofRun bank run).registers =
      (List.range' run.1 (run.2 + 1 - run.1)).map fun n => .ofIndex (bank.offset + n) := by
  unfold ofRun
  split
  case isTrue h =>
    rw [registers, ← h, Nat.add_sub_cancel_left, ← Register.ofIndex_offset_add bank (by omega)]
    rfl
  case isFalse h =>
    have hlength : bank.offset + run.2 + 1 - (bank.offset + run.1) = run.2 + 1 - run.1 := by omega
    rw [registers, Register.index_ofNumber bank (by omega), Register.index_ofNumber bank hlt,
      hlength, ← List.map_add_range', List.map_map]
    rfl

end Part

/-! ## The parts of a set of registers -/

variable {set set' : Nat → Bool}

/-- The runs of a bank, where the registers are given by their positions. -/
def bankRuns (set : Nat → Bool) (bank : Bank) : List (Nat × Nat) :=
  scan (fun n => set (bank.offset + n)) 0

/-- The parts of both banks, data registers first. -/
def parts (set : Nat → Bool) : List Part :=
  (bankRuns set .data).map (.ofRun .data) ++ (bankRuns set .address).map (.ofRun .address)

/-- The text of the list that goes through both banks register by register. -/
def scanText (set : Nat → Bool) : String :=
  "/".intercalate <|
    (bankRuns set .data).map (runText .data) ++ (bankRuns set .address).map (runText .address)

theorem bankRuns_eq (set : Nat → Bool) (bank : Bank) : bankRuns set bank =
    runs 0 ((List.range' 0 8).map fun n => set (bank.offset + n)) :=
  scan_eq _ 0

theorem bankRuns_bounds {bank : Bank} {run : Nat × Nat} (h : run ∈ bankRuns set bank) :
    run.1 ≤ run.2 ∧ run.2 < 8 := by
  rw [bankRuns_eq] at h
  obtain ⟨-, hle, hlt⟩ := runs_bounds run h
  rw [List.length_map, List.length_range', Nat.zero_add] at hlt
  exact ⟨hle, hlt⟩

/-- The parts are what the list is written with. -/
theorem scanText_eq (set : Nat → Bool) :
    scanText set = "/".intercalate ((parts set).map Part.text) := by
  have hbank (bank : Bank) : ((bankRuns set bank).map (.ofRun bank)).map Part.text =
      (bankRuns set bank).map (runText bank) := by
    rw [List.map_map]
    refine List.map_congr_left fun run hrun => ?_
    obtain ⟨hle, hlt⟩ := bankRuns_bounds hrun
    exact Part.text_ofRun hle hlt
  rw [scanText, parts, List.map_append, hbank, hbank]

/-- The text of a mask is that of the registers whose bits are set. -/
theorem text_eq_scanText {mask : Word} (h : ∀ i < 16, mask.getLsbD i = set i) :
    text mask = scanText set := by
  have hbank (bank : Bank) : runs 0 (bankBits mask bank) = bankRuns set bank := by
    have hbits : bankBits mask bank = (List.range' 0 8).map fun n => set (bank.offset + n) := by
      rw [← List.range_eq_range']
      cases bank with
      | data =>
        refine List.map_congr_left fun n hn => ?_
        rw [Bank.offset, Nat.zero_add, h n (by have := List.mem_range.mp hn; omega)]
      | address =>
        refine List.map_congr_left fun n hn => ?_
        rw [Bank.offset, h (8 + n) (by have := List.mem_range.mp hn; omega)]
    rw [hbits, bankRuns_eq]
  rw [text, hbank, hbank, scanText]

/-- **The parts name the registers of the set**, once each and in ascending order. -/
theorem registers_parts (set : Nat → Bool) : (parts set).flatMap Part.registers =
    ((List.range 16).filter set).map Register.ofIndex := by
  have hbank (bank : Bank) : ((bankRuns set bank).map (.ofRun bank)).flatMap Part.registers =
      ((List.range 8).filter fun n => set (bank.offset + n)).map
        fun n => .ofIndex (bank.offset + n) := by
    have hregisters : (bankRuns set bank).flatMap (fun run => (Part.ofRun bank run).registers) =
        (bankRuns set bank).flatMap fun run =>
          (List.range' run.1 (run.2 + 1 - run.1)).map fun n => .ofIndex (bank.offset + n) := by
      refine List.flatMap_congr fun run hrun => ?_
      obtain ⟨hle, hlt⟩ := bankRuns_bounds hrun
      exact Part.registers_ofRun hle hlt
    rw [List.flatMap_map, hregisters, ← List.map_flatMap, bankRuns_eq, flatMap_runs,
      ← List.range_eq_range']
  have hrange : List.range 16 = List.range 8 ++ (List.range 8).map (8 + ·) :=
    List.range_add (n := 8) (m := 8)
  rw [parts, List.flatMap_append, hbank, hbank, hrange, List.filter_append, List.map_append,
    List.filter_map, List.map_map]
  simp only [Bank.offset, Nat.zero_add]
  rfl

/-- A part that is as long as it can be within its bank, and is no range if it has one member. -/
structure Part.Canonical (set : Nat → Bool) (p : Part) : Prop where
  bank : p.first.bank = p.last.bank
  begins : p.first.index % 8 = 0 ∨ set (p.first.index - 1) = false
  ends : p.last.index % 8 = 7 ∨ set (p.last.index + 1) = false
  two : ∀ first last, p = .range first last → first.index < last.index

/-- **The parts are canonical.** -/
theorem canonical_of_mem_parts {p : Part} (h : p ∈ parts set) : p.Canonical set := by
  obtain ⟨bank, run, hrun, rfl⟩ :
      ∃ bank, ∃ run ∈ bankRuns set bank, Part.ofRun bank run = p := by
    rcases List.mem_append.mp h with hdata | haddress
    · exact ⟨.data, List.mem_map.mp hdata⟩
    · exact ⟨.address, List.mem_map.mp haddress⟩
  obtain ⟨hle, hlt⟩ := bankRuns_bounds hrun
  rw [bankRuns_eq] at hrun
  obtain ⟨hbegins, hends⟩ := runs_maximal hrun
  have hoffset : bank.offset % 8 = 0 := by
    cases bank <;> rfl
  have hfirst : (Part.ofRun bank run).first.index = bank.offset + run.1 := by
    rw [Part.first_ofRun, Register.index_ofNumber bank (by omega)]
  have hlast : (Part.ofRun bank run).last.index = bank.offset + run.2 := by
    rw [Part.last_ofRun, Register.index_ofNumber bank hlt]
  refine ⟨by rw [Part.first_ofRun, Part.last_ofRun]; rfl, ?_, ?_, fun first last hrange => ?_⟩
  · rw [hfirst]
    by_cases hzero : run.1 = 0
    · exact .inl (by omega)
    · have hunset := hbegins.resolve_left hzero
      exact .inr (by rwa [Nat.add_sub_assoc (by omega)])
  · rw [hlast]
    rcases hends with hseven | hunset
    · exact .inl (by omega)
    · exact .inr hunset
  · rw [hrange] at hfirst hlast
    have hne : run.1 ≠ run.2 := by
      intro heq
      rw [Part.ofRun, if_pos heq] at hrange
      cases hrange
    rw [Part.first] at hfirst
    rw [Part.last] at hlast
    omega

/-- The text of a list is read as its parts. -/
theorem read_scanText (set : Nat → Bool) : read (scanText set) = some (parts set) := by
  rw [scanText_eq, read_intercalate]

/-- **The text of a list determines the set.** -/
theorem set_eq_of_scanText (h : scanText set = scanText set') : ∀ i < 16, set i = set' i := by
  have hparts : parts set = parts set' := by
    refine Option.some.inj ?_
    rw [← read_scanText, h, read_scanText]
  have hindex : ∀ i < 16, (Register.ofIndex i).index = i := by decide
  have hpositions (set : Nat → Bool) :
      ((parts set).flatMap Part.registers).map Register.index = (List.range 16).filter set := by
    rw [registers_parts, List.map_map]
    refine (List.map_congr_left fun i hi => ?_).trans (List.map_id _)
    exact hindex i (List.mem_range.mp (List.mem_of_mem_filter hi))
  have hfilter : (List.range 16).filter set = (List.range 16).filter set' := by
    rw [← hpositions, hparts, hpositions]
  intro i hi
  have hmem : i ∈ (List.range 16).filter set ↔ i ∈ (List.range 16).filter set' := by rw [hfilter]
  rw [List.mem_filter, List.mem_filter, List.mem_range] at hmem
  exact Bool.eq_iff_iff.mpr (and_congr_right_iff.mp hmem hi)

/-! ## Both orders of a mask -/

/-- The text of the list of a mask whose lowest bit, or whose highest one if it is reversed, stands
for `D0`. -/
def ordered (mask : Word) (reversed : Bool) : String :=
  scanText fun i => mask.getLsbD (if reversed then 15 - i else i)

theorem text_eq_ordered (mask : Word) (reversed : Bool) :
    text (if reversed then mask.reverse else mask) = ordered mask reversed := by
  refine text_eq_scanText fun i hi => ?_
  cases reversed with
  | false => rfl
  | true =>
    rw [if_pos rfl, if_pos rfl, BitVec.getLsbD_reverse, BitVec.getMsbD, decide_eq_true hi,
      Bool.true_and]

theorem ordered_injective (reversed : Bool) :
    Function.Injective fun mask => ordered mask reversed := by
  intro mask mask' h
  have hbits := set_eq_of_scanText h
  refine BitVec.eq_of_getLsbD_eq fun i hi => ?_
  cases reversed with
  | false => exact hbits i hi
  | true =>
    have hbit : mask.getLsbD (15 - (15 - i)) = mask'.getLsbD (15 - (15 - i)) :=
      hbits (15 - i) (by omega)
    rwa [Nat.sub_sub_self (by omega)] at hbit

/-- **Register lists are exact and canonical**, whether a mask has its lowest bit for `D0` or, in
the reversed order, its highest one. A list is written with parts, as which it is read back: they
name the registers whose bits are set, once each and in ascending order, and they are canonical. The
text is what one finds register by register in that order, so reversing the order is the same as
reversing the mask, and it determines the mask. -/
theorem text_canonical (mask : Word) (reversed : Bool) :
    let set (i : Nat) : Bool := mask.getLsbD (if reversed then 15 - i else i)
    let list := text (if reversed then mask.reverse else mask)
    (∃ parts, read list = some parts ∧ "/".intercalate (parts.map Part.text) = list ∧
        parts.flatMap Part.registers = ((List.range 16).filter set).map Register.ofIndex ∧
        ∀ p ∈ parts, p.Canonical set) ∧
      list = ordered mask reversed ∧ ordered mask true = ordered mask.reverse false ∧
      ∀ mask', text (if reversed then mask'.reverse else mask') = list → mask' = mask := by
  intro set list
  have hlist : list = ordered mask reversed := text_eq_ordered mask reversed
  have hreverse : ordered mask true = ordered mask.reverse false :=
    (text_eq_ordered mask true).symm.trans (text_eq_ordered mask.reverse false)
  refine ⟨⟨parts set, ?_, ?_, registers_parts set, fun p => canonical_of_mem_parts⟩, hlist,
    hreverse, fun mask' hmask => ?_⟩
  · rw [hlist]
    exact read_scanText set
  · rw [hlist]
    exact (scanText_eq set).symm
  · rw [hlist, text_eq_ordered] at hmask
    exact ordered_injective reversed hmask

example : text 0xfffe = "D1-D7/A0-A7" ∧ text (0xc001 : Word).reverse = "D0-D1/A7" := by
  decide

end RegisterList

end Disasm68
