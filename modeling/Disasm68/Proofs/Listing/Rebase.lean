import Disasm68.Proofs.Listing.Overlap
import Disasm68.Proofs.Listing.Partition

/-!
# Listings at another base

Where a buffer is mapped does not matter for what its listing shows of it, as far as the bus goes
(`listing_rebase`). Instructions behind the top of the bus are fetched from its beginning, where
nothing is mapped: their rows show zeros and not the bytes of the buffer.
-/

namespace Disasm68

/-! ## Behind the top of the bus -/

/-- What a processor makes of an opcode of zeros. -/
theorem Cursor.decode_of_zero {c : Cursor} (h : c.word = 0) :
    c.decode = (.of "ori.b" [.immediate (.byte ((c.advance 1).word.setWidth 8)), .data 0], 2) := by
  have hpattern : (Pattern.ofOpcode 0).family = .immediate .or .byte ∧
      (Pattern.ofOpcode 0).availability = .always := by decide +kernel
  have hfamily : c.cpu.family 0 = .immediate .or .byte := by
    rw [Cpu.family, hpattern.1, hpattern.2]
    cases c.cpu <;> rfl
  rw [decode, h, hfamily]
  rfl

namespace Image

variable {image : Image} {cpu : Cpu} {offset : Nat}

/-- **Behind the top of the bus an instruction shows zeros**, whatever its bytes are. -/
theorem instruction_of_wrapped (hbase : image.base.toNat < cpu.busSize)
    (hwrap : cpu.busSize ≤ image.base.toNat + offset)
    (hfit : offset + (image.instruction cpu offset).length ≤ cpu.busSize) :
    (image.instruction cpu offset).text = "ori.b   #$0, D0" ∧
      (image.instruction cpu offset).length = 4 ∧
      (image.instruction cpu offset).hexColumn image.memory = "00000000" := by
  have h2 := image.two_le_length_instruction cpu offset
  have hword : (image.cursor cpu offset).word = 0 :=
    cursor_word_of_wrapped hbase hwrap (by omega)
  have hdecode := Cursor.decode_of_zero hword
  have hlength : (image.instruction cpu offset).length = 4 := by
    rw [length_instruction, hdecode]
    rfl
  have hnext : ((image.cursor cpu offset).advance 1).word = 0 := by
    rw [cursor_advance]
    exact cursor_word_of_wrapped hbase (by omega) (by omega)
  have hwords : (image.instruction cpu offset).words image.memory =
      [((image.cursor cpu offset).advance 0).word, ((image.cursor cpu offset).advance 1).word] := by
    rw [Disassembly.words, hlength]
    rfl
  refine ⟨?_, hlength, ?_⟩
  · show (image.cursor cpu offset).decode.1.text _ = _
    rw [hdecode, hnext]
    rfl
  · rw [Disassembly.hexColumn, hwords, Cursor.advance_zero, hword, hnext]
    decide

end Image

/-- Rows of data show the same bytes at every address. -/
theorem Row.map_bytes_ofBytes (options options' : ListingOptions) (address address' : Long)
    (bytes : List Byte) :
    (ofBytes options' address' bytes).map Row.bytes =
      (ofBytes options address bytes).map Row.bytes := by
  induction address, bytes using ofBytes.induct generalizing address' with
  | case1 address high low rest ih => exact congrArg (_ :: ·) (ih (address' + 2))
  | case2 | case3 => rfl

namespace Listing

/-- Two listings have the same rows of code and data, of the same bytes, and the same counts. -/
structure SameRows (data : Array Byte) (options options' : ListingOptions) : Prop where
  sizes : (sweep data options').code.map Disassembly.length =
    (sweep data options).code.map Disassembly.length
  tail : (sweep data options').tail = (sweep data options).tail
  bytes : (body data options').map Row.bytes = (body data options).map Row.bytes
  count : (header data options')[1]? = (header data options)[1]?

variable {data : Array Byte} {options : ListingOptions}

/-- The bytes of the rows are those of the instructions and of what is left over. -/
theorem map_bytes_body (data : Array Byte) (options : ListingOptions) :
    (body data options).map Row.bytes =
      (sweep data options).code.map (·.hexColumn (image data options).memory) ++
        (Row.ofBytes options 0 (sweep data options).tail.bytes).map Row.bytes := by
  rw [body, Sweep.rows, List.map_append, List.map_map,
    Row.map_bytes_ofBytes options options 0]
  rfl

/-- Instructions that show the same bytes have the same lengths and hexadecimal columns. -/
theorem maps_of_sameBytes {image image' : Image} {code code' : List Disassembly}
    (h : List.Forall₂ (Image.SameBytes image image') code code') :
    code'.map Disassembly.length = code.map Disassembly.length ∧
      code'.map (·.hexColumn image'.memory) = code.map (·.hexColumn image.memory) :=
  ⟨map_eq_map_of_forall₂ h fun _ _ hd => hd.length, map_eq_map_of_forall₂ h fun _ _ hd => hd.bytes⟩

/-- As far as the bus goes behind both bases, the images of a buffer overlap. -/
theorem overlap_of_room {base' : Long} {stop : Nat}
    (hroom : (image data options).base.toNat + stop ≤ options.cpu.busSize)
    (hroom' : (image data { options with base := base' }).base.toNat + stop ≤
      options.cpu.busSize) :
    (image data options).Overlap 0 (image data { options with base := base' }) options.cpu stop :=
  .of_extract Array.extract_size.symm (by rwa [Nat.zero_add]) hroom'

/-- Where the bus has room for the buffer behind both bases, the listings have the same rows. -/
theorem sameRows_of_room {base' : Long} (hlimit : options.limit = none)
    (hroom : (image data options).base.toNat + data.size ≤ options.cpu.busSize)
    (hroom' : (image data { options with base := base' }).base.toNat + data.size ≤
      options.cpu.busSize) :
    SameRows data options { options with base := base' } := by
  let options' : ListingOptions := { options with base := base' }
  have hlimit' : options'.limit = none := hlimit
  have hoverlap := overlap_of_room hroom hroom'
  obtain ⟨s', hsweeps', htail, -, htwins⟩ :=
    hoverlap.sweeps_rest Array.extract_size.symm (sweep_sweeps_of_unlimited data hlimit)
  obtain rfl : sweep data options' = s' := sweep_eq_of_unlimited hlimit' hsweeps'
  have hsame := htwins.imp fun d d' ht => ht.sameBytes hoverlap
  obtain ⟨hsizes, hhex⟩ := maps_of_sameBytes hsame
  refine ⟨hsizes, htail, ?_, ?_⟩
  · rw [map_bytes_body, map_bytes_body]
    show _ ++ (Row.ofBytes options' 0 (sweep data options').tail.bytes).map Row.bytes = _
    rw [hhex, htail]
    exact congrArg (_ ++ ·) (Row.map_bytes_ofBytes options options' 0 0 _)
  · have hlength : (sweep data options').code.length = (sweep data options).code.length :=
      hsame.length_eq.symm
    have hcounted : (sweep data options').counted = (sweep data options).counted := by
      rw [Sweep.counted, Sweep.counted, Sweep.codeSize_congr hsizes, htail]
    show some ("; instructions: " ++ toString (sweep data options').code.length ++ ", bytes: " ++
      toString (sweep data options').counted ++ "/" ++ toString data.size) = _
    rw [hlength, hcounted]
    rfl

/-- As far as the bus goes behind both bases, the listings have the same rows. -/
theorem take_of_room {base' : Long} (hlimit : options.limit = none) {n : Nat}
    (hn : n ≤ (sweep data options).code.length)
    (hroom : (image data options).base.toNat + (sweep data options).start n ≤ options.cpu.busSize)
    (hroom' : (image data { options with base := base' }).base.toNat +
      (sweep data options).start n ≤ options.cpu.busSize) :
    ((sweep data { options with base := base' }).code.take n).map Disassembly.length =
        ((sweep data options).code.take n).map Disassembly.length ∧
      ((body data { options with base := base' }).take n).map Row.bytes =
        ((body data options).take n).map Row.bytes := by
  let options' : ListingOptions := { options with base := base' }
  have hlimit' : options'.limit = none := hlimit
  have hoverlap := overlap_of_room hroom hroom'
  have hrun := ((sweep_sweeps_of_unlimited data hlimit).run_take_drop n).1
  have hsize := hrun.last_le
  rw [Nat.zero_add, Nat.zero_max] at hsize
  obtain ⟨s', hsweeps', -, htwins⟩ := hoverlap.sweeps_begin hsize hrun (Nat.le_refl _)
  obtain rfl : sweep data options' = s' := sweep_eq_of_unlimited hlimit' hsweeps'
  rw [List.length_take, Nat.min_eq_left hn] at htwins
  have hsame := htwins.imp fun d d' ht => ht.sameBytes hoverlap
  obtain ⟨hsizes, hhex⟩ := maps_of_sameBytes hsame
  have hn' : n ≤ (sweep data options').code.length := by
    have hlength := htwins.length_eq
    rw [List.length_take, List.length_take, Nat.min_eq_left hn] at hlength
    omega
  -- the first rows are rows of code
  have hbody (o : ListingOptions) (ho : n ≤ (sweep data o).code.length) :
      ((body data o).take n).map Row.bytes =
        ((sweep data o).code.take n).map (·.hexColumn (image data o).memory) := by
    rw [take_body ho, List.map_map]
    rfl
  exact ⟨hsizes, by rw [hbody _ hn, hbody _ hn', hhex]⟩

end Listing

/-- **Listings at another base.** Where the bus has room for the buffer behind both bases, the
listings have the same rows, which show all bytes of the buffer. In any case the listings have the
same rows as far as the bus goes behind both. But an instruction behind the top of the bus shows
zeros. -/
theorem listing_rebase (data : Array Byte) (options : ListingOptions) (base' : Long)
    (hlimit : options.limit = none) (hsize : data.size ≤ options.cpu.addressMask.toNat + 1) :
    let options' : ListingOptions := { options with base := base' }
    let first := (options.base &&& options.cpu.addressMask).toNat
    let first' := (base' &&& options.cpu.addressMask).toNat
    let top := options.cpu.addressMask.toNat + 1
    let s := Listing.sweep data options
    (first + data.size ≤ top → first' + data.size ≤ top →
      Listing.SameRows data options options' ∧
        String.join ((Listing.body data options).map Row.bytes) = Hex.ofBytes data.toList) ∧
    (∀ n ≤ s.code.length, first + s.start n ≤ top → first' + s.start n ≤ top →
      ((Listing.sweep data options').code.take n).map Disassembly.length =
          (s.code.take n).map Disassembly.length ∧
        ((Listing.body data options').take n).map Row.bytes =
          ((Listing.body data options).take n).map Row.bytes) ∧
    ∀ (n : Nat) (d : Disassembly), s.code[n]? = some d → top ≤ first + s.start n →
      d.text = "ori.b   #$0, D0" ∧ d.length = 4 ∧
        d.hexColumn (Listing.image data options).memory = "00000000" := by
  intro options' first first' top s
  refine ⟨fun hroom hroom' => ⟨Listing.sameRows_of_room hlimit hroom hroom', ?_⟩,
    fun n hn hroom hroom' => Listing.take_of_room hlimit hn hroom hroom', fun n d hd hwrap => ?_⟩
  · exact Listing.join_bytes hlimit hroom
  · obtain ⟨rfl, hfit⟩ := (Listing.sweep_sweeps data options).getElem?_code hd
    rw [Nat.zero_add] at hfit ⊢
    have hbase : (Listing.image data options).base.toNat < options.cpu.busSize :=
      Nat.lt_succ_of_le (Nat.and_le_right)
    exact Image.instruction_of_wrapped hbase hwrap (Nat.le_trans hfit hsize)

/-- A buffer in the middle of the bus and at its top. -/
theorem listing_rebase_to_top :
    let data : Array Byte := #[0x4e, 0x71, 0x4e, 0x71, 0x4e, 0x71]
    Listing.SameRows data { base := 0x1000 } { base := 0xfffffa } ∧
      String.join ((Listing.body data { base := 0x1000 }).map Row.bytes) = "4E714E714E71" := by
  intro data
  obtain ⟨hroom, -, -⟩ :=
    listing_rebase data { base := 0x1000 } 0xfffffa rfl (by decide)
  exact hroom (by decide) (by decide)

/-- The same buffer over the top of the bus: the second row is fetched from the beginning of the bus
and takes four bytes, so there is no third one. -/
theorem listing_rebase_over_top_ne :
    let data : Array Byte := #[0x4e, 0x71, 0x4e, 0x71, 0x4e, 0x71]
    data.size ≤ Cpu.m68000.addressMask.toNat + 1 ∧
      ¬ Listing.SameRows data { base := 0 } { base := 0xfffffe } ∧
      ((listing data { base := 0 }).drop 3).map Line.text =
        ["    4  00000000  4E71                  nop",
          "    5  00000002  4E71                  nop",
          "    6  00000004  4E71                  nop"] ∧
      ((listing data { base := 0xfffffe }).drop 3).map Line.text =
        ["    4  00FFFFFE  4E71                  nop",
          "    5  01000000  00000000              ori.b   #$0, D0"] := by
  intro data
  refine ⟨by decide, fun h => ?_, by decide +kernel, by decide +kernel⟩
  have hbytes := h.bytes
  revert hbytes
  decide +kernel

end Disasm68
