import Disasm68.Proofs.Listing.Columns
import Disasm68.Proofs.Listing.Count

/-!
# Listings partition their buffer

Where the bus has room for the whole buffer, the rows of a listing show extents that follow one
another from the first byte on, each by its address and its bytes (`listing_partition`). Rows of
data come behind the last instruction. Without a limit the extents reach to the end of the buffer.
-/

namespace Disasm68

namespace Row

/-- The line of a row with all columns. -/
def line (row : Row) (number : Nat) : Line where
  number
  text := Column.right 5 (toString number) ++ "  " ++
    (Hex.upperPadded 8 row.address.toNat ++ "  " ++ Column.left 20 row.bytes ++ "  " ++ row.text)

/-- A row has the address and the bytes of an extent of a mapped buffer. -/
structure Shows (image : Image) (e : Extent) (row : Row) : Prop where
  within : e.stop ≤ image.bytes.size
  address : row.address.toNat = image.base.toNat + e.offset
  bytes : row.bytes = Hex.ofBytes (e.bytes image.bytes)

/-- A row shows an instruction that fills its extent. -/
structure IsCode (image : Image) (options : ListingOptions) (e : Extent) (row : Row) : Prop
    extends Shows image e row where
  length : (disassemble image.memory row.address options.cpu).length = e.size
  text : (disassemble image.memory row.address options.cpu).shownText options.uppercase =
    some row.text

/-- A row shows two bytes as a word, or a last byte. -/
structure IsData (image : Image) (options : ListingOptions) (e : Extent) (row : Row) : Prop
    extends Shows image e row where
  directive : (e.size = 2 ∧ ∃ high low, row = word options row.address high low) ∨
    (e.size = 1 ∧ e.stop = image.bytes.size ∧ ∃ b, row = byte options row.address b)

variable {image : Image} {options : ListingOptions}

/-- The text of a row is the text of its instruction in the case wanted. -/
theorem shownText_code {d : Disassembly} (h : Text.Printable d.text) (memory : Memory)
    (options : ListingOptions) :
    d.shownText options.uppercase = some (code memory options d).text := by
  rw [code, Disassembly.shownText_eq h, Option.getD_some]

/-- The row of an instruction shows its extent. -/
theorem isCode_code {e : Extent} {d : Disassembly} (h : image.Holds options.cpu e d)
    (hroom : image.base.toNat + image.bytes.size ≤ options.cpu.busSize) :
    IsCode image options e (code image.memory options d) := by
  have hwithin := h.within
  have hbus := options.cpu.busSize_le
  have hpos : 2 ≤ d.length := by
    rw [h.instruction]
    exact image.two_le_length_instruction options.cpu e.offset
  have hstop : e.stop = e.offset + e.size := rfl
  have hsize := h.size
  obtain rfl := h.instruction
  refine { within := hwithin, address := ?_, bytes := ?_, length := hsize, text := ?_ }
  · exact Image.addressOf_toNat (by omega)
  · exact Image.hexColumn_instruction h (by omega)
  · have hprintable : Text.Printable (image.instruction options.cpu e.offset).text :=
      disassemble_printable _ _ _
    exact shownText_code hprintable image.memory options

/-- A row of data has the address of its extent and the digits of its bytes. -/
theorem shows_data {offset size : Nat} {bytes : List Byte} {directive : String}
    (hbytes : (image.bytes.toList.drop offset).take size = bytes) (hlength : bytes.length = size)
    (hpos : 0 < size) (hroom : image.base.toNat + image.bytes.size ≤ 0x100000000) :
    Shows image ⟨offset, size⟩
      (data options (image.addressOf offset) directive (Hex.ofBytes bytes)) := by
  have hwithin : offset + size ≤ image.bytes.size := by
    rw [← hbytes, List.length_take, List.length_drop, Array.length_toList] at hlength
    omega
  refine ⟨hwithin, Image.addressOf_toNat ?_, ?_⟩
  · show image.base.toNat + offset < 0x100000000
    omega
  · rw [Extent.bytes_eq, hbytes]
    rfl

/-- **Rows of data follow one another to the end of the buffer.** The induction is on the rows. -/
theorem ofBytes_tile (options : ListingOptions)
    (hroom : image.base.toNat + image.bytes.size ≤ 0x100000000) {offset : Nat}
    (hoffset : offset ≤ image.bytes.size) :
    ∃ es, Extent.Tile offset es image.bytes.size ∧ List.Forall₂ (IsData image options) es
      (ofBytes options (image.addressOf offset) (image.bytes.extract offset).toList) := by
  rw [Extent.toList_extract]
  generalize haddress : image.addressOf offset = address
  generalize hbytes : image.bytes.toList.drop offset = bytes
  have hleft : image.bytes.size - offset = bytes.length := by
    rw [← hbytes, List.length_drop, Array.length_toList]
  induction address, bytes using ofBytes.induct generalizing offset with
  | case1 address high low rest ih =>
    obtain rfl := haddress
    simp only [List.length_cons] at hleft
    have hrest : image.bytes.toList.drop (offset + 2) = rest := by
      rw [← List.drop_drop, hbytes]
      rfl
    have hnext : image.addressOf (offset + 2) = image.addressOf offset + 2 :=
      (image.addressOf_add offset 2).symm
    obtain ⟨es, htile, hdata⟩ := ih (by omega) hnext hrest (by omega)
    have hshows : Shows image ⟨offset, 2⟩ (word options (image.addressOf offset) high low) := by
      rw [word, Hex.upperPadded_append]
      exact shows_data (by rw [hbytes]; rfl) rfl (by decide) hroom
    exact ⟨⟨offset, 2⟩ :: es, ⟨rfl, Nat.zero_lt_two, htile⟩,
      .cons ⟨hshows, .inl ⟨rfl, high, low, rfl⟩⟩ hdata⟩
  | case2 address b =>
    obtain rfl := haddress
    simp only [List.length_singleton] at hleft
    have hend : offset + 1 = image.bytes.size := by omega
    have hshows : Shows image ⟨offset, 1⟩ (byte options (image.addressOf offset) b) := by
      rw [byte, ← Hex.ofBytes_singleton]
      exact shows_data (by rw [hbytes]; rfl) rfl (by decide) hroom
    exact ⟨[⟨offset, 1⟩], ⟨rfl, Nat.zero_lt_one, hend⟩,
      .cons ⟨hshows, .inr ⟨rfl, hend, b, rfl⟩⟩ .nil⟩
  | case3 address =>
    rw [List.length_nil] at hleft
    exact ⟨[], Nat.le_antisymm hoffset (by omega), .nil⟩

end Row

namespace Listing

variable {data : Array Byte} {options : ListingOptions}

/-- With all columns, a line is its row behind its number. -/
theorem shown_eq_line (haddresses : options.addresses = true) (hhex : options.hex = true)
    (hnumbers : options.lineNumbers = true) (row : Row) (number : Nat) :
    row.shown options number = row.line number := by
  rw [Row.shown, Row.line, if_pos haddresses, if_pos hhex, if_pos hnumbers]
  simp only [String.append_assoc]

/-- The lines of a listing below its header are rows that show extents of the buffer: those of
instructions and, behind them, those of data. -/
structure Partition (data : Array Byte) (options : ListingOptions) (code rest : List Extent)
    (codeRows dataRows : List Row) : Prop where
  /-- The extents follow one another from the first byte on, without a limit to the last. -/
  tile : ∃ stop, Extent.Tile 0 (code ++ rest) stop ∧ (options.limit = none → stop = data.size)
  instructions : List.Forall₂ (Row.IsCode (image data options) options) code codeRows
  leftOver : List.Forall₂ (Row.IsData (image data options) options) rest dataRows
  lines : (listing data options).drop 3 =
    (codeRows ++ dataRows).mapIdx fun i row => row.line (i + 4)
  count : (listing data options)[1]? = some
    { number := 2
      text := "    2  ; instructions: " ++ toString codeRows.length ++ ", bytes: " ++
        toString (sweep data options).counted ++ "/" ++ toString data.size }
  numbers : (listing data options).map Line.number = List.range' 1 (listing data options).length
  /-- A number of 32 bits counts the lines. -/
  fits : ∀ line ∈ listing data options, line.number < 2 ^ 32

/-- The first rows are those of the instructions. -/
theorem take_body {n : Nat} (hn : n ≤ (sweep data options).code.length) :
    (body data options).take n =
      ((sweep data options).code.take n).map (Row.code (image data options).memory options) := by
  rw [body, Sweep.rows, List.take_append_of_le_length (by rwa [List.length_map]), List.map_take]

theorem drop_body {n : Nat} (hn : n ≤ (sweep data options).code.length) :
    (body data options).drop n =
      ((sweep data options).code.drop n).map (Row.code (image data options).memory options) ++
        Row.ofBytes options ((image data options).addressOf (sweep data options).codeSize)
          (sweep data options).tail.bytes := by
  rw [body, Sweep.rows, List.drop_append_of_le_length (by rwa [List.length_map]), List.map_drop]

/-- The rows of a sweep show the extents of its instructions and, behind them, extents of what is
left over. -/
theorem body_tile
    (hroom : (image data options).base.toNat + data.size ≤ options.cpu.busSize) :
    ∃ (code rest : List Extent) (dataRows : List Row) (stop : Nat),
      Extent.Tile 0 (code ++ rest) stop ∧ (options.limit = none → stop = data.size) ∧
      List.Forall₂ (Row.IsCode (image data options) options) code
        ((sweep data options).code.map (Row.code (image data options).memory options)) ∧
      List.Forall₂ (Row.IsData (image data options) options) rest dataRows ∧
      body data options =
        (sweep data options).code.map (Row.code (image data options).memory options) ++ dataRows := by
  have hsweeps := sweep_sweeps data options
  have haddresses : (image data options).base.toNat + data.size ≤ 0x100000000 :=
    Nat.le_trans hroom options.cpu.busSize_le
  obtain ⟨code, hcode, hholds⟩ := hsweeps.tile
  have hrows : List.Forall₂ (Row.IsCode (image data options) options) code
      ((sweep data options).code.map (Row.code (image data options).memory options)) := by
    rw [List.forall₂_map_right_iff]
    exact hholds.imp fun e d h => Row.isCode_code h hroom
  have hsize := hsweeps.codeSize_le (Nat.zero_le _)
  rw [Nat.zero_add] at hcode hsize
  rcases hsweeps.tail_bytes with htail | ⟨htail, hlimit⟩
  · obtain ⟨rest, hrest, hdata⟩ := Row.ofBytes_tile options haddresses hsize
    refine ⟨code, rest, _, data.size, hcode.append hrest, fun _ => rfl, hrows, hdata, ?_⟩
    rw [Nat.zero_add] at htail
    rw [body, Sweep.rows, htail]
  · refine ⟨code, [], [], (sweep data options).codeSize, ?_, fun hnone => ?_, hrows, .nil, ?_⟩
    · rw [List.append_nil]
      exact hcode
    · rw [hnone] at hlimit
      cases hlimit
    · rw [body, Sweep.rows, htail]
      rfl

/-- Extents that follow one another show the bytes between the first and the last. -/
theorem join_bytes_of_tile {image : Image} {first last : Nat} {es : List Extent} {rows : List Row}
    (htile : Extent.Tile first es last) (hrows : List.Forall₂ (Row.Shows image) es rows) :
    String.join (rows.map Row.bytes) = Hex.ofBytes (image.bytes.extract first last).toList := by
  induction hrows generalizing first with
  | nil =>
    obtain rfl : first = last := htile
    simp
  | @cons e row es rows hrow _ ih =>
    obtain ⟨rfl, -, hrest⟩ := htile
    have hle : e.offset ≤ e.stop := Nat.le_add_right _ _
    rw [List.map_cons, String.join_cons, ih hrest, hrow.bytes, Extent.extract_split hle hrest.le,
      Array.toList_append, Hex.ofBytes_append]
    rfl

/-- Without a limit the rows show the whole buffer. -/
theorem join_bytes (hlimit : options.limit = none)
    (hroom : (image data options).base.toNat + data.size ≤ options.cpu.busSize) :
    String.join ((body data options).map Row.bytes) = Hex.ofBytes data.toList := by
  obtain ⟨code, rest, dataRows, stop, htile, hstop, hcode, hdata, hbody⟩ := body_tile hroom
  obtain rfl := hstop hlimit
  have hshows := List.rel_append (hcode.imp fun _ _ h => h.toShows) (hdata.imp fun _ _ h => h.toShows)
  rw [hbody, join_bytes_of_tile htile hshows]
  simp [image]

/-- The second line counts the instructions. -/
theorem getElem?_count (hnumbers : options.lineNumbers = true) :
    (listing data options)[1]? = some
      { number := 2
        text := "    2  ; instructions: " ++ toString (sweep data options).code.length ++
          ", bytes: " ++ toString (sweep data options).counted ++ "/" ++ toString data.size } := by
  rw [getElem?_counts, if_pos hnumbers]
  rw [← String.append_assoc]
  rfl

end Listing

/-- **A listing partitions its buffer.** Where the bus has room for the buffer behind the base, the
lines below the header show extents that follow one another from the first byte on: first
instructions, then data. Without a limit they reach to the end of the buffer. The header counts the
instructions, and the lines are numbered from one, with numbers that fit into 32 bits. -/
theorem listing_partition {data : Array Byte} {options : ListingOptions}
    (hroom : (options.base &&& options.cpu.addressMask).toNat + data.size ≤
      options.cpu.addressMask.toNat + 1)
    (haddresses : options.addresses = true) (hhex : options.hex = true)
    (hnumbers : options.lineNumbers = true) :
    ∃ code rest codeRows dataRows,
      Listing.Partition data options code rest codeRows dataRows := by
  obtain ⟨code, rest, dataRows, stop, htile, hstop, hcode, hdata, hbody⟩ :=
    Listing.body_tile (show (Listing.image data options).base.toNat + _ ≤ _ from hroom)
  refine ⟨code, rest, _, dataRows, ⟨stop, htile, hstop⟩, hcode, hdata, ?_, ?_,
    Listing.map_number data options, ?_⟩
  · rw [Listing.drop_header, hbody]
    simp only [Listing.shown_eq_line haddresses hhex hnumbers]
  · rw [List.length_map]
    exact Listing.getElem?_count hnumbers
  · have hbus : options.cpu.busSize ≤ 2 ^ 32 := options.cpu.busSize_le
    have hsize : data.size ≤ options.cpu.busSize :=
      Nat.le_trans (Nat.le_add_left _ _) hroom
    exact Listing.number_lt options (Nat.le_trans hsize hbus)

/-- A buffer that fills the bus up to its top and whose last instruction is cut off. -/
theorem listing_partition_top :
    let data : Array Byte := #[0x4e, 0x71, 0x20, 0x39, 0x00, 0x00, 0x12]
    let options : ListingOptions := { base := 0x00fffff9 }
    ((listing data options).drop 3).map Line.text =
        ["    4  00FFFFF9  4E71                  nop",
          "    5  00FFFFFB  2039                  dc.w    $2039",
          "    6  00FFFFFD  0000                  dc.w    $0000",
          "    7  00FFFFFF  12                    dc.b    $12"] ∧
      ∃ code rest codeRows dataRows,
        Listing.Partition data options code rest codeRows dataRows := by
  intro data options
  exact ⟨by decide +kernel, listing_partition (by decide) rfl rfl rfl⟩

end Disasm68
