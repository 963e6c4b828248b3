import Disasm68.Proofs.Listing.Sweep
import Disasm68.Proofs.Memory.Image
import Disasm68.Proofs.Numeral.Bytes
import Mathlib.Data.List.Forall2

/-!
# Extents

An extent is a run of bytes of a buffer. The instructions of a sweep take extents that follow one
another without a gap (`Image.Sweeps.tile`), and what is left over begins where they end
(`Image.Sweeps.tail_bytes`). As far as the bus goes, an instruction shows the bytes of its extent
(`Image.hexColumn_instruction`).
-/

namespace Disasm68

/-- A run of bytes of a buffer. -/
structure Extent where
  offset : Nat
  size : Nat

namespace Extent

/-- The offset behind the last byte. -/
def stop (e : Extent) : Nat := e.offset + e.size

/-- The bytes of an extent. -/
def bytes (data : Array Byte) (e : Extent) : List Byte :=
  (data.extract e.offset e.stop).toList

/-- What stands behind an offset. -/
theorem toList_extract (data : Array Byte) (offset : Nat) :
    (data.extract offset).toList = data.toList.drop offset := by
  rw [Array.toList_extract, List.extract_eq_take_drop]
  exact List.take_of_length_le (by simp)

/-- The bytes up to an offset and those from there on. -/
theorem extract_split {data : Array Byte} {first middle last : Nat} (h : first ≤ middle)
    (h' : middle ≤ last) :
    data.extract first last = data.extract first middle ++ data.extract middle last := by
  rw [Array.extract_append_extract, Nat.min_eq_left h, Nat.max_eq_right h']

theorem bytes_eq (data : Array Byte) (e : Extent) :
    e.bytes data = (data.toList.drop e.offset).take e.size := by
  rw [bytes, Array.toList_extract, List.extract_eq_take_drop, stop, Nat.add_sub_cancel_left]

/-- Extents that follow one another from one offset to another, none of them empty. -/
def Tile : (first : Nat) → List Extent → (last : Nat) → Prop
  | first, [], last => first = last
  | first, e :: rest, last => e.offset = first ∧ 0 < e.size ∧ Tile e.stop rest last

namespace Tile

variable {first middle last : Nat} {es fs : List Extent}

theorem append (h : Tile first es middle) (h' : Tile middle fs last) : Tile first (es ++ fs) last := by
  induction es generalizing first with
  | nil =>
    obtain rfl : first = middle := h
    exact h'
  | cons e es ih =>
    obtain ⟨hoffset, hsize, hrest⟩ := h
    exact ⟨hoffset, hsize, ih hrest⟩

theorem le (h : Tile first es last) : first ≤ last := by
  induction es generalizing first with
  | nil => exact Nat.le_of_eq h
  | cons e es ih =>
    obtain ⟨rfl, -, hrest⟩ := h
    exact Nat.le_trans (Nat.le_add_right _ _) (ih hrest)

end Tile

end Extent

namespace Image

variable {image : Image} {cpu : Cpu} {offset : Nat} {limit : Option Nat} {s : Sweep}

/-- An extent of the buffer holds the instruction that is disassembled where it is mapped. -/
structure Holds (image : Image) (cpu : Cpu) (e : Extent) (d : Disassembly) : Prop where
  within : e.stop ≤ image.bytes.size
  instruction : d = image.instruction cpu e.offset
  size : d.length = e.size

namespace Sweeps

/-- **The instructions of a sweep follow one another.** The induction is on the sweep: the extent of
an instruction ends where that of the next one begins. -/
theorem tile (h : image.Sweeps cpu limit offset s) :
    ∃ es, Extent.Tile offset es (offset + s.codeSize) ∧
      List.Forall₂ (image.Holds cpu) es s.code := by
  induction h with
  | limit | finished | stray | truncated => exact ⟨[], rfl, .nil⟩
  | @next limit offset rest hlimit hfit _ ih =>
    obtain ⟨es, htile, hholds⟩ := ih
    let e : Extent := ⟨offset, (image.instruction cpu offset).length⟩
    have hpos : 0 < e.size := Nat.lt_of_succ_lt (image.two_le_length_instruction cpu offset)
    refine ⟨e :: es, ⟨rfl, hpos, ?_⟩, .cons ⟨hfit, rfl, rfl⟩ hholds⟩
    rw [Sweep.codeSize_cons, ← Nat.add_assoc]
    exact htile

/-- The instructions lie within the buffer. -/
theorem codeSize_le (h : image.Sweeps cpu limit offset s) (hoffset : offset ≤ image.bytes.size) :
    offset + s.codeSize ≤ image.bytes.size := by
  induction h with
  | limit | finished | stray | truncated => exact hoffset
  | next hlimit hfit _ ih =>
    have hrest := ih hfit
    rw [Sweep.codeSize_cons, ← Nat.add_assoc]
    exact hrest

/-- What is left over is what stands behind the instructions, unless the sweep stopped at its
limit. -/
theorem tail_bytes (h : image.Sweeps cpu limit offset s) :
    s.tail.bytes = (image.bytes.extract (offset + s.codeSize)).toList ∨
      s.tail = .empty ∧ limit = some s.code.length := by
  induction h with
  | limit => exact .inr ⟨rfl, rfl⟩
  | finished hend =>
    left
    rw [Sweep.codeSize_nil, Nat.add_zero, Array.extract_empty_of_size_le_start hend]
    rfl
  | stray _ hb => exact .inl hb.symm
  | truncated => exact .inl rfl
  | @next limit offset rest hlimit _ _ ih =>
    rw [Sweep.codeSize_cons, ← Nat.add_assoc]
    refine ih.imp id fun ⟨htail, hcount⟩ => ⟨htail, ?_⟩
    obtain ⟨n, rfl, hn⟩ := Option.map_eq_some_iff.mp hcount
    have hn0 : n ≠ 0 := fun h0 => hlimit (h0 ▸ rfl)
    rw [List.length_cons]
    exact congrArg some (by omega)

end Sweeps

/-- The words of an instruction are at its extent. -/
theorem wordAddress_instruction {i : Nat}
    (h : image.base.toNat + offset + 2 * i + 2 ≤ cpu.busSize) :
    image.memory.word ((image.instruction cpu offset).wordAddress i) =
      image.word (offset + 2 * i) := by
  have hword : ((image.cursor cpu offset).advance i).word = image.word (offset + 2 * i) := by
    rw [cursor_advance]
    exact cursor_word (by omega)
  exact hword

/-- **As far as the bus goes an instruction shows the bytes of its extent.** The induction is on the
number of its words. -/
theorem hexColumn_instruction {e : Extent} (h : image.Holds cpu e (image.instruction cpu e.offset))
    (hroom : image.base.toNat + e.stop ≤ cpu.busSize) :
    (image.instruction cpu e.offset).hexColumn image.memory =
      Hex.ofBytes (e.bytes image.bytes) := by
  have hstop : e.stop = e.offset + e.size := rfl
  have hwithin := h.within
  have hwords (n : Nat) (hn : 2 * n ≤ e.size) :
      String.join (((List.range n).map fun i =>
        image.memory.word ((image.instruction cpu e.offset).wordAddress i)).map
          fun w => Hex.upperPadded 4 w.toNat) =
        Hex.ofBytes (image.bytes.extract e.offset (e.offset + 2 * n)).toList := by
    induction n with
    | zero => simp
    | succ n ih =>
      have hsplit : image.bytes.extract e.offset (e.offset + 2 * (n + 1)) =
          image.bytes.extract e.offset (e.offset + 2 * n) ++
            image.bytes.extract (e.offset + 2 * n) (e.offset + 2 * n + 2) :=
        Extent.extract_split (by omega) (by omega)
      rw [List.range_succ, List.map_append, List.map_append, String.join_append, ih (by omega),
        hsplit, Array.toList_append, Hex.ofBytes_append, extract_two (by omega),
        ← Hex.upperPadded_append, List.map_singleton, List.map_singleton,
        wordAddress_instruction (by omega)]
      simp [String.join_cons, word]
  obtain ⟨n, hn⟩ : ∃ n, e.size = 2 * n := ⟨_, h.size.symm⟩
  have hhalf : (image.instruction cpu e.offset).length / 2 = n := by
    rw [h.size, hn]
    omega
  rw [Disassembly.hexColumn, Disassembly.words, hhalf, hwords n (by omega), Extent.bytes, hstop, hn]

end Image

end Disasm68
