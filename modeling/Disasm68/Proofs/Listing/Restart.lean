import Disasm68.CommandLine.Program
import Disasm68.Proofs.Listing.Overlap
import Disasm68.Proofs.Listing.Partition

/-!
# Listings of the rest of a buffer

The rows of a listing behind an instruction are those of the rest of the buffer, listed from the
address where it stands (`listing_restart`). Nothing is carried over from one instruction to the
next, so they always have the same addresses and bytes.

They have the same texts too, unless a long branch of a coprocessor ends at the last address of a
bus of 32 lines: the word it sees behind itself is then the first one of memory. That word belongs
to the buffer only if this fills the whole bus, and never to the rest of it
(`Listing.Restart.render_skip_iff`, `Listing.Restart.sameAhead`).
-/

namespace Disasm68

/-- The mnemonic of a long branch of a coprocessor does not depend on the long it looks at. -/
theorem CoprocessorOperation.mnemonicOf_longBranch {opcode extension displacement : Word}
    {ahead ahead' origin : Long} :
    Columns.mnemonicOf ((longBranch opcode extension displacement ahead').text origin).toList =
      Columns.mnemonicOf ((longBranch opcode extension displacement ahead).text origin).toList := by
  have hblank (note : Note) : ' ' ∈ ((Instruction.of
      (decode.id opcode ++ "b" ++ Coprocessor.condition (opcode.extractLsb' 0 6))
      [.signed (.word displacement)] note).body origin).toList := by
    simp [Instruction.body, Instruction.of]
  rw [Instruction.text, Instruction.text, String.toList_append, String.toList_append,
    longBranch, longBranch, Columns.mnemonicOf_append (hblank _), Columns.mnemonicOf_append (hblank _)]
  rfl

namespace Cursor

variable {c : Cursor} {other : Memory} {k : Nat}

/-- Over another memory with the same words an instruction has the same mnemonic. -/
theorem mnemonicOf_eq_of_agree (h : c.Agree (c.withMemory other) (k + 1))
    (hk : c.decode.2 ≤ k + 1) :
    Columns.mnemonicOf (disassemble other c.address c.cpu).text.toList =
      Columns.mnemonicOf (disassemble c.memory c.address c.cpu).text.toList := by
  by_cases hbranch : c.cpu.family c.word = .coprocessor (.branch .long)
  · have hwords := words_of_longBranch h hk hbranch
    have hopcode : other.word c.busAddress = c.memory.word c.busAddress := by
      simpa only [advance_zero] using hwords 0 (by decide)
    rw [text_of_longBranch hbranch hopcode, text_of_longBranch hbranch rfl, hwords 1 (by decide),
      hwords 2 (by decide), CoprocessorOperation.mnemonicOf_longBranch]
  · rw [(text_eq_iff_of_agree h hk).mpr (absurd · hbranch)]

/-- And it is shown by the same text, unless it looks ahead and sees something else. -/
theorem shownText_eq_iff_of_agree (h : c.Agree (c.withMemory other) (k + 1))
    (hk : c.decode.2 ≤ k + 1) (uppercase : Bool) :
    (disassemble other c.address c.cpu).shownText uppercase =
        (disassemble c.memory c.address c.cpu).shownText uppercase ↔
      (c.cpu.family c.word = .coprocessor (.branch .long) →
        other.word ((c.advance 2).busAddress + 2) =
          c.memory.word ((c.advance 2).busAddress + 2)) := by
  rw [Disassembly.shownText_inj (disassemble_printable _ _ _) (disassemble_printable _ _ _)
    (mnemonicOf_eq_of_agree h hk), text_eq_iff_of_agree h hk]

end Cursor

/-- Rows with the same address and bytes are told apart by their texts. -/
theorem Row.render_inj {row row' : Row} (haddress : row'.address = row.address)
    (hbytes : row'.bytes = row.bytes) (options : ListingOptions) :
    row'.render options = row.render options ↔ row'.text = row.text := by
  rw [render_eq, render_eq, haddress, hbytes, String.append_right_inj]

namespace Image

variable {image image' : Image} {cpu : Cpu} {shift stop : Nat} {d d' : Disassembly}

/-- Should an instruction be a long branch of a coprocessor, it sees the same word behind itself in
two images. -/
def SameAhead (image image' : Image) (d : Disassembly) : Prop :=
  d.cpu.family d.opcode = .coprocessor (.branch .long) →
    image'.memory.word (d.address + 6) = image.memory.word (d.address + 6)

/-- **An instruction of a buffer that leaves a byte of the address space free sees the same in the
rest of the buffer.** What stands behind it may have wrapped to the first addresses, but then these
are in front of the buffer. -/
theorem sameAhead_of_size_lt {offset : Nat} (hbytes : image'.bytes = image.bytes.extract shift)
    (hbase : image'.base = image.addressOf shift)
    (hroom : image.base.toNat + image.bytes.size ≤ 0x100000000)
    (hsize : image.bytes.size < 0x100000000) (hshift : shift ≤ offset) (heven : offset % 2 = 0)
    (hfit : offset + (image.instruction cpu offset).length ≤ image.bytes.size) :
    SameAhead image image' (image.instruction cpu offset) := by
  intro hbranch
  rw [length_instruction, Cursor.decode_of_longBranch (c := image.cursor cpu offset) hbranch]
    at hfit
  have hbase' : image'.base.toNat = image.base.toNat + shift := by
    rw [hbase, addressOf_toNat (by omega)]
  have hbyte (i : Nat) (hi : i ≤ 1) :
      image'.byteAt (image.addressOf (offset + 6 + i)) =
        image.byteAt (image.addressOf (offset + 6 + i)) := by
    refine byteAt_of_extract hbytes hbase (by omega) ?_
    rw [BitVec.le_def, BitVec.lt_def, hbase', addressOf, BitVec.toNat_add, BitVec.toNat_ofNat]
    omega
  have hahead : (image.instruction cpu offset).address + 6 = image.addressOf (offset + 6) :=
    image.addressOf_add offset 6
  have hnext : image.addressOf (offset + 6) + 1 = image.addressOf (offset + 6 + 1) :=
    image.addressOf_add (offset + 6) 1
  show (image'.byteAt _ ++ image'.byteAt _ : Word) = image.byteAt _ ++ image.byteAt _
  rw [hahead, hnext, hbyte 0 (by decide), hbyte 1 (by decide)]

namespace Twin

/-- Mapped alike, both instructions of an overlap are shown by the same text, as far as they see the
same. -/
theorem shownText_eq_iff (ht : Twin image shift image' cpu stop d d')
    (h : Overlap image shift image' cpu stop) (hbase : image'.base = image.addressOf shift)
    (uppercase : Bool) :
    d'.shownText uppercase = d.shownText uppercase ↔ SameAhead image image' d := by
  have haddress := ht.address hbase
  obtain @⟨offset, hfit⟩ := ht
  let c := image.cursor cpu (shift + offset)
  have hother : image'.cursor cpu offset = c.withMemory image'.memory :=
    congrArg (Cursor.mk image'.memory cpu) haddress
  have hd' : image'.instruction cpu offset = disassemble image'.memory c.address c.cpu :=
    congrArg (disassemble image'.memory · cpu) haddress
  obtain ⟨k, hk⟩ : ∃ k, c.decode.2 = k + 1 := ⟨_, Nat.add_comm ..⟩
  rw [length_instruction, hk] at hfit
  have hagree := h.cursor_agree hfit
  rw [hother] at hagree
  rw [hd']
  refine (Cursor.shownText_eq_iff_of_agree hagree (Nat.le_of_eq hk) uppercase).trans ?_
  refine imp_congr_right fun hbranch => ?_
  -- the branch has three words, all of them on the bus
  have hahead : (c.advance 2).busAddress + 2 = c.address + 6 := by
    have hroom := h.room
    have hthree : k + 1 = 3 := hk.symm.trans (Cursor.decode_of_longBranch hbranch)
    rw [cursor_advance, cursor_busAddress (by omega), ← addressOf_add, BitVec.add_assoc]
    rfl
  rw [hahead]
  exact Iff.rfl

/-- And so are their rows. -/
theorem render_code_eq_iff (ht : Twin image shift image' cpu stop d d')
    (h : Overlap image shift image' cpu stop) (hbase : image'.base = image.addressOf shift)
    (options : ListingOptions) :
    (Row.code image'.memory options d').render options =
        (Row.code image.memory options d).render options ↔
      SameAhead image image' d := by
  have hprintable : Text.Printable d.text ∧ Text.Printable d'.text := by
    obtain ⟨-⟩ := ht
    exact ⟨disassemble_printable _ _ _, disassemble_printable _ _ _⟩
  rw [Row.render_inj (ht.address hbase) (ht.sameBytes h).bytes, ← Option.some_inj,
    ← Row.shownText_code hprintable.1, ← Row.shownText_code hprintable.2,
    ht.shownText_eq_iff h hbase]

end Twin

end Image

/-- The options for what stands behind the first bytes of a buffer. -/
def ListingOptions.skip (options : ListingOptions) (count : Nat) : ListingOptions :=
  { options with base := options.base + BitVec.ofNat 32 count }

/-- The rows of data do not depend on the base. -/
theorem Row.ofBytes_skip (options : ListingOptions) (k : Nat) (address : Long) (bytes : List Byte) :
    ofBytes (options.skip k) address bytes = ofBytes options address bytes := by
  induction address, bytes using ofBytes.induct with
  | case1 address high low rest ih => exact congrArg (_ :: ·) ih
  | case2 | case3 => rfl

namespace Listing

variable {data : Array Byte} {options : ListingOptions} {n k : Nat}

/-- A base on the bus is where the buffer is mapped. -/
theorem base_image (hbase : options.base ≤ options.cpu.addressMask) :
    (image data options).base = options.base := by
  refine BitVec.eq_of_toNat_eq ?_
  show (options.base &&& options.cpu.addressMask).toNat = _
  rw [Cpu.toNat_and_addressMask]
  exact Nat.mod_eq_of_lt (Nat.lt_succ_of_le hbase)

/-- What stands behind the first bytes of a buffer stays where it is. -/
theorem base_skip (hbase : options.base ≤ options.cpu.addressMask)
    (hk : options.base.toNat + k < options.cpu.busSize) :
    (image (data.extract k) (options.skip k)).base = (image data options).addressOf k := by
  have hbus := options.cpu.busSize_le
  have hsum : (options.base + BitVec.ofNat 32 k).toNat = options.base.toNat + k := by
    rw [BitVec.toNat_add, BitVec.toNat_ofNat, Nat.add_mod_mod, Nat.mod_eq_of_lt (by omega)]
  have hle : (options.skip k).base ≤ (options.skip k).cpu.addressMask := by
    rw [BitVec.le_def]
    show (options.base + BitVec.ofNat 32 k).toNat ≤ options.cpu.addressMask.toNat
    rw [hsum]
    exact Nat.le_of_lt_succ hk
  rw [base_image hle, Image.addressOf, base_image hbase]
  rfl

/-- A listing is taken up again behind its first `n` instructions, which take `k` bytes. It has no
limit, and the bus has room for the buffer behind the base. -/
structure Restart (data : Array Byte) (options : ListingOptions) (n k : Nat) : Prop where
  unlimited : options.limit = none
  base_le : options.base ≤ options.cpu.addressMask
  room : options.base.toNat + data.size ≤ options.cpu.busSize
  count_le : n ≤ (sweep data options).code.length
  start_eq : (sweep data options).start n = k

namespace Restart

theorem le_size (h : Restart data options n k) : k ≤ data.size := by
  have hbefore := ((sweep_sweeps_of_unlimited data h.unlimited).run_take_drop n).1.last_le
  rwa [Nat.zero_add, Nat.zero_max, h.start_eq] at hbefore

/-- The sweep goes on at the restart. -/
theorem sweeps (h : Restart data options n k) :
    (image data options).Sweeps options.cpu none k
      ⟨(sweep data options).code.drop n, (sweep data options).tail⟩ := by
  have hdrop := (sweep_sweeps_of_unlimited data h.unlimited).drop n
  rwa [Nat.zero_add, h.start_eq] at hdrop

/-- The rest is mapped where it is in the whole, unless there is none. -/
theorem base_eq (h : Restart data options n k) (hk : k < data.size) :
    (image (data.extract k) (options.skip k)).base = (image data options).addressOf k := by
  have hroom := h.room
  exact base_skip h.base_le (by omega)

theorem overlap (h : Restart data options n k) :
    (image data options).Overlap k (image (data.extract k) (options.skip k)) options.cpu
      (data.extract k).size := by
  have hroom := h.room
  have hbus := options.cpu.busSize_le
  have hbase : (image data options).base = options.base := base_image h.base_le
  have hsize : (data.extract k).size = data.size - k := by simp
  refine .of_extract rfl ?_ ?_
  · have hle := h.le_size
    rw [hbase, hsize]
    omega
  · rcases Nat.lt_or_eq_of_le h.le_size with hlt | rfl
    · rw [h.base_eq hlt, Image.addressOf_toNat (by rw [hbase]; omega), hbase, hsize]
      omega
    · rw [hsize, Nat.sub_self]
      exact Nat.le_succ_of_le Nat.and_le_right

/-- **The sweep of the rest of a buffer is the rest of its sweep.** -/
theorem sweep_skip (h : Restart data options n k) :
    (sweep (data.extract k) (options.skip k)).tail = (sweep data options).tail ∧
      (sweep data options).codeSize = k + (sweep (data.extract k) (options.skip k)).codeSize ∧
      List.Forall₂
        (Image.Twin (image data options) k (image (data.extract k) (options.skip k)) options.cpu
          (data.extract k).size)
        ((sweep data options).code.drop n) (sweep (data.extract k) (options.skip k)).code := by
  have hlimit : (options.skip k).limit = none := h.unlimited
  obtain ⟨s', hsweeps', htail, hsize, htwins⟩ := h.overlap.sweeps_rest rfl h.sweeps
  obtain rfl : sweep (data.extract k) (options.skip k) = s' :=
    sweep_eq_of_unlimited hlimit hsweeps'
  have hlast := ((sweep_sweeps_of_unlimited data h.unlimited).run_take_drop n).2.last_eq
  rw [Nat.zero_add, Nat.zero_add, h.start_eq] at hlast
  exact ⟨htail, hlast.trans (congrArg (k + ·) hsize.symm), htwins⟩

/-- What is left over is shown at the same addresses. -/
theorem ofBytes_skip (h : Restart data options n k) :
    let s' := sweep (data.extract k) (options.skip k)
    Row.ofBytes (options.skip k)
        ((image (data.extract k) (options.skip k)).addressOf s'.codeSize) s'.tail.bytes =
      Row.ofBytes options ((image data options).addressOf (sweep data options).codeSize)
        (sweep data options).tail.bytes := by
  intro s'
  obtain ⟨htail, hsize, -⟩ := h.sweep_skip
  rcases Nat.lt_or_eq_of_le h.le_size with hlt | hend
  · have haddress : (image (data.extract k) (options.skip k)).addressOf s'.codeSize =
        (image data options).addressOf (sweep data options).codeSize := by
      rw [hsize, ← Image.addressOf_add, ← h.base_eq hlt]
      rfl
    rw [haddress, htail, Row.ofBytes_skip]
  · -- nothing is left over
    have hnone : (sweep data options).tail.bytes = [] := by
      rcases (sweep_sweeps_of_unlimited data h.unlimited).tail_bytes with hbytes | ⟨-, hlimited⟩
      · rw [hbytes, Array.extract_empty_of_size_le_start (by show data.size ≤ _; omega)]
      · cases hlimited
    rw [htail, hnone, Row.ofBytes, Row.ofBytes]

/-- The rows of the rest are those of its instructions and the rows of data of the whole. -/
theorem body_skip (h : Restart data options n k) :
    body (data.extract k) (options.skip k) =
      (sweep (data.extract k) (options.skip k)).code.map
          (Row.code (image (data.extract k) (options.skip k)).memory options) ++
        Row.ofBytes options ((image data options).addressOf (sweep data options).codeSize)
          (sweep data options).tail.bytes :=
  congrArg (_ ++ ·) h.ofBytes_skip

/-- **The rows of the rest of a buffer.** Row by row they have the addresses and the bytes of the
remaining rows of the listing, and are the same if they see the same. -/
theorem rows_skip (h : Restart data options n k) :
    List.Forall₂
      (fun d d' =>
        let row := Row.code (image data options).memory options d
        let row' := Row.code (image (data.extract k) (options.skip k)).memory options d'
        (row'.address = row.address ∧ row'.bytes = row.bytes) ∧
          (row'.render options = row.render options ↔
            (image data options).SameAhead (image (data.extract k) (options.skip k)) d))
      ((sweep data options).code.drop n) (sweep (data.extract k) (options.skip k)).code := by
  refine h.sweep_skip.2.2.imp fun d d' ht => ?_
  have hpos := ht.stop_pos
  rw [Array.size_extract, Nat.min_self] at hpos
  have hbase := h.base_eq (Nat.lt_of_sub_pos hpos)
  exact ⟨⟨ht.address hbase, (ht.sameBytes h.overlap).bytes⟩,
    ht.render_code_eq_iff h.overlap hbase options⟩

theorem columns_skip (h : Restart data options n k) :
    (body (data.extract k) (options.skip k)).map (fun row => (row.address, row.bytes)) =
      ((body data options).drop n).map (fun row => (row.address, row.bytes)) := by
  rw [h.body_skip, drop_body h.count_le, List.map_append, List.map_append, List.append_left_inj,
    List.map_map, List.map_map]
  exact map_eq_map_of_forall₂ h.rows_skip fun d d' hrow => Prod.ext hrow.1.1 hrow.1.2

/-- **The rest is shown as in the whole exactly if no instruction sees the difference.** -/
theorem render_skip_iff (h : Restart data options n k) :
    (body (data.extract k) (options.skip k)).map (Row.render (options.skip k)) =
        ((body data options).drop n).map (Row.render options) ↔
      ∀ d ∈ (sweep data options).code.drop n,
        (image data options).SameAhead (image (data.extract k) (options.skip k)) d := by
  show List.map (Row.render options) _ = _ ↔ _
  rw [h.body_skip, drop_body h.count_le, List.map_append, List.map_append, List.append_left_inj,
    List.map_map, List.map_map]
  exact map_eq_map_iff_of_forall₂ h.rows_skip fun d d' hrow => hrow.2

/-- If the buffer leaves a byte of the address space free, none does. -/
theorem sameAhead (h : Restart data options n k) (hsize : data.size < 0x100000000)
    {d : Disassembly} (hd : d ∈ (sweep data options).code.drop n) :
    (image data options).SameAhead (image (data.extract k) (options.skip k)) d := by
  obtain ⟨i, hi⟩ := List.mem_iff_getElem?.mp hd
  obtain ⟨rfl, hfit⟩ := h.sweeps.getElem?_code hi
  have hpos := (image data options).two_le_length_instruction options.cpu
    (k + Sweep.start ⟨(sweep data options).code.drop n, (sweep data options).tail⟩ i)
  have hbytes : (image data options).bytes.size = data.size := rfl
  have heven : k % 2 = 0 := by
    have hstart := ((sweep_sweeps_of_unlimited data h.unlimited).run_take_drop n).1.last_mod_two
    rwa [Nat.zero_add, h.start_eq] at hstart
  refine Image.sameAhead_of_size_lt rfl (h.base_eq (by omega)) ?_ hsize (Nat.le_add_right ..)
    ((h.sweeps.run_take_drop i).1.last_mod_two.trans heven) hfit
  rw [base_image h.base_le]
  exact Nat.le_trans h.room options.cpu.busSize_le

end Restart

end Listing

/-- **Listings of the rest of a buffer.** Where the bus has room for the buffer behind the base, what
is left of it behind any number of instructions has the remaining rows of its listing, with the same
addresses and bytes. They are the same rows exactly if every long branch of a coprocessor among them
sees the same word behind itself, and always if the buffer does not fill the address space. -/
theorem listing_restart {data : Array Byte} {options : ListingOptions} {n : Nat}
    (hlimit : options.limit = none) (hbase : options.base ≤ options.cpu.addressMask)
    (hroom : options.base.toNat + data.size ≤ options.cpu.addressMask.toNat + 1)
    (hn : n ≤ (Listing.sweep data options).code.length) :
    let k := (Listing.sweep data options).start n
    let rest := Listing.body (data.extract k) (options.skip k)
    let behind := (Listing.body data options).drop n
    let sameRows := rest.map (Row.render (options.skip k)) = behind.map (Row.render options)
    CommandLine.selectRange data k none = .ok (data.extract k) ∧
      rest.map (fun row => (row.address, row.bytes)) =
        behind.map (fun row => (row.address, row.bytes)) ∧
      (sameRows ↔ ∀ d ∈ (Listing.sweep data options).code.drop n,
        (Listing.image data options).SameAhead
          (Listing.image (data.extract k) (options.skip k)) d) ∧
      (data.size < 0x100000000 → sameRows) := by
  intro k rest behind sameRows
  have h : Listing.Restart data options n k := ⟨hlimit, hbase, hroom, hn, rfl⟩
  refine ⟨if_neg (Nat.not_lt.mpr h.le_size), h.columns_skip, h.render_skip_iff, fun hsize => ?_⟩
  exact h.render_skip_iff.mpr fun d hd => h.sameAhead hsize hd

/-- A long branch of a coprocessor in the middle of memory, and data behind it. -/
theorem listing_restart_behind_nop :
    let data : Array Byte := #[0x4e, 0x71, 0xf2, 0xc1, 0x00, 0x00, 0x00, 0x08, 0x20, 0x39, 0x12]
    let options : ListingOptions := { cpu := .m68020, base := 0x1000 }
    (Listing.sweep data options).start 1 = 2 ∧
      (Listing.body (data.extract 2) (options.skip 2)).map (Row.render (options.skip 2)) =
        ((Listing.body data options).drop 1).map (Row.render options) := by
  intro data options
  have hstart : (Listing.sweep data options).start 1 = 2 := by decide +kernel
  obtain ⟨-, -, -, hsame⟩ := listing_restart (show options.limit = none from rfl)
    (show options.base ≤ options.cpu.addressMask by decide)
    (show options.base.toNat + data.size ≤ options.cpu.addressMask.toNat + 1 by decide)
    (show 1 ≤ (Listing.sweep data options).code.length by decide +kernel)
  rw [hstart] at hsame
  exact ⟨hstart, hsame (by decide)⟩

namespace Listing

/-- The bytes of a buffer that fills a bus of 32 lines: nops, and a long branch of a coprocessor at
the end. -/
def fullBusByte (offset : Nat) : Byte :=
  if offset < 0xfffffffa then
    if offset % 2 = 0 then 0x4e else 0x71
  else if offset = 0xfffffffa then 0xf2
  else if offset = 0xfffffffb then 0xc1
  else 0

variable {data : Array Byte}

/-- The words of such a buffer, as a processor with a bus of 32 lines sees them. -/
theorem word_fullBus (hbyte : ∀ i < 0x100000000, data[i]? = some (fullBusByte i)) (offset : Nat)
    (h : offset + 2 ≤ 0x100000000) :
    ((image data { cpu := .m68020 }).cursor .m68020 offset).word =
      fullBusByte offset ++ fullBusByte (offset + 1) := by
  have hcell (i : Nat) (hi : i < 0x100000000) :
      (image data { cpu := .m68020 }).byte i = fullBusByte i :=
    congrArg (Option.getD · 0) (hbyte i hi)
  have hbase : (image data { cpu := .m68020 }).base.toNat = 0 := rfl
  have hbus : Cpu.m68020.busSize = 0x100000000 := rfl
  rw [Image.cursor_word (by omega), Image.word, hcell _ (by omega), hcell _ (by omega)]

theorem opcode_fullBus (hbyte : ∀ i < 0x100000000, data[i]? = some (fullBusByte i)) :
    Cpu.m68020.family ((image data { cpu := .m68020 }).instruction .m68020 0xfffffffa).opcode =
      .coprocessor (.branch .long) := by
  have hopcode : ((image data { cpu := .m68020 }).instruction .m68020 0xfffffffa).opcode = 0xf2c1 :=
    word_fullBus hbyte 0xfffffffa (by decide)
  rw [hopcode]
  decide +kernel

/-- The branch is the last instruction, behind as many nops as there is room for. -/
theorem sweep_fullBus (hsize : data.size = 0x100000000)
    (hbyte : ∀ i < 0x100000000, data[i]? = some (fullBusByte i)) :
    0x7ffffffd ≤ (sweep data { cpu := .m68020 }).code.length ∧
      (sweep data { cpu := .m68020 }).start 0x7ffffffd = 0xfffffffa ∧
      (sweep data { cpu := .m68020 }).code.drop 0x7ffffffd =
        [(image data { cpu := .m68020 }).instruction .m68020 0xfffffffa] := by
  let image := image data { cpu := .m68020 }
  have hbytes : image.bytes.size = 0x100000000 := hsize
  have hnop (i : Nat) (hi : i < 0x7ffffffd) :
      (image.instruction .m68020 (0 + 2 * i)).length = 2 := by
    have hopcode : (image.cursor .m68020 (0 + 2 * i)).word = 0x4e71 := by
      rw [word_fullBus hbyte _ (by omega), fullBusByte, fullBusByte, if_pos (by omega),
        if_pos (by omega), if_pos (by omega), if_neg (by omega)]
      rfl
    have hfamily : Cpu.m68020.family 0x4e71 = .nop := by decide +kernel
    rw [Image.length_instruction, Cursor.decode, hopcode]
    show 2 * (1 + ((Cpu.m68020.family 0x4e71).decode _ _ |>.run _).2) = 2
    rw [hfamily]
    rfl
  have hlength : (image.instruction .m68020 0xfffffffa).length = 6 := by
    rw [Image.length_instruction, Cursor.decode_of_longBranch
      (c := image.cursor .m68020 0xfffffffa) (opcode_fullBus hbyte)]
  obtain ⟨nops, hcount, hrun⟩ :
      ∃ nops, nops.length = 0x7ffffffd ∧ image.Run .m68020 0 nops 0xfffffffa :=
    Image.Run.exists_of_length_two (by omega) hnop
  have hend : image.Sweeps .m68020 none 0xfffffffa
      ⟨[image.instruction .m68020 0xfffffffa], .empty⟩ := by
    refine .next (Option.some_ne_none 0).symm (by omega) (.finished ?_)
    omega
  have hs : sweep data { cpu := .m68020 } =
      ⟨nops ++ [image.instruction .m68020 0xfffffffa], .empty⟩ :=
    sweep_eq_of_unlimited rfl (hrun.sweeps hend)
  refine ⟨?_, ?_, ?_⟩
  · rw [hs, List.length_append, hcount]
    exact Nat.le_add_right ..
  · rw [hs, Sweep.start, List.take_left' hcount, hrun.last_eq, Nat.zero_add]
  · rw [hs, List.drop_left' hcount]

/-- It sees the first nop, which the rest of the buffer does not have. -/
theorem not_sameAhead_fullBus (hbyte : ∀ i < 0x100000000, data[i]? = some (fullBusByte i)) :
    ¬ (image data { cpu := .m68020 }).SameAhead
      (image (data.extract 0xfffffffa) (ListingOptions.skip { cpu := .m68020 } 0xfffffffa))
      ((image data { cpu := .m68020 }).instruction .m68020 0xfffffffa) := by
  intro hsame
  have hahead := hsame (opcode_fullBus hbyte)
  have hbase : (image data { cpu := .m68020 }).base = 0 := base_image (by decide)
  have hwrap : ((image data { cpu := .m68020 }).instruction .m68020 0xfffffffa).address + 6 = 0 := by
    show (image data { cpu := .m68020 }).base + _ + _ = _
    rw [hbase]
    decide
  have hnop : (image data { cpu := .m68020 }).memory.word 0 = 0x4e71 := by
    have hzero : ((image data { cpu := .m68020 }).cursor .m68020 0).busAddress = 0 := by
      rw [Image.cursor_busAddress (by rw [hbase]; decide), Image.addressOf, hbase]
      decide
    have hword := word_fullBus hbyte 0 (by decide)
    rw [Cursor.word, hzero] at hword
    exact hword.trans (by decide)
  have hskip : (image (data.extract 0xfffffffa)
      (ListingOptions.skip { cpu := .m68020 } 0xfffffffa)).base =
        (image data { cpu := .m68020 }).addressOf 0xfffffffa :=
    base_skip (by decide) (by decide)
  have hrest : (image (data.extract 0xfffffffa)
      (ListingOptions.skip { cpu := .m68020 } 0xfffffffa)).memory.word 0 = 0 := by
    show (Image.byteAt _ 0 ++ Image.byteAt _ 1 : Word) = 0
    rw [Image.byteAt_of_lt, Image.byteAt_of_lt]
    · rfl
    all_goals
      rw [hskip, Image.addressOf, hbase]
      decide
  rw [hwrap, hrest, hnop] at hahead
  exact absurd hahead (by decide)

end Listing

/-- In a buffer that fills a bus of 32 lines the last branch sees the first nop, which the rest of
the buffer does not have. -/
theorem listing_restart_ne :
    let data : Array Byte := Array.ofFn fun i : Fin 0x100000000 => Listing.fullBusByte i
    let options : ListingOptions := { cpu := .m68020 }
    let n : Nat := 0x7ffffffd
    let k := (Listing.sweep data options).start n
    options.base ≤ options.cpu.addressMask ∧
      options.base.toNat + data.size ≤ options.cpu.addressMask.toNat + 1 ∧
      n ≤ (Listing.sweep data options).code.length ∧ k = 0xfffffffa ∧
      (Listing.body (data.extract k) (options.skip k)).map (Row.render (options.skip k)) ≠
        ((Listing.body data options).drop n).map (Row.render options) := by
  intro data options n k
  have hsize : data.size = 0x100000000 := Array.size_ofFn
  have hbyte (i : Nat) (hi : i < 0x100000000) : data[i]? = some (Listing.fullBusByte i) := by
    rw [Array.getElem?_ofFn, dif_pos hi]
  obtain ⟨hn, hstart, hdrop⟩ := Listing.sweep_fullBus hsize hbyte
  have hk : k = 0xfffffffa := hstart
  have hroom : options.base.toNat + data.size ≤ options.cpu.busSize := by
    rw [hsize]
    decide
  have h : Listing.Restart data options n k := ⟨rfl, by decide, hroom, hn, rfl⟩
  refine ⟨h.base_le, hroom, hn, hk, fun hsame => ?_⟩
  have hahead := h.render_skip_iff.mp hsame _ (hdrop ▸ List.mem_singleton_self _)
  rw [hk] at hahead
  exact Listing.not_sameAhead_fullBus hbyte hahead

end Disasm68
