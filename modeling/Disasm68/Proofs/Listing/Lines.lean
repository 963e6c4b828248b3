import Disasm68.Listing
import Disasm68.Proofs.Text.Intercalate

/-!
# The lines of a listing

A listing is three lines of header (`take_header`) and a line for each row below them
(`drop_header`). `Row.shown` spells out the line of a row, with those of its columns that are wanted.
The text of a row ends its line, and what stands before it depends on the address, the bytes and the
number of the line only (`Row.exists_shown`).
-/

namespace Disasm68

namespace Row

/-- The line of a row: its number, its address and its bytes as far as they are wanted, and its
text. -/
def shown (options : ListingOptions) (row : Row) (number : Nat) : Line where
  number
  text := (if options.lineNumbers then Column.right 5 (toString number) ++ "  " else "") ++
    (if options.addresses then Hex.upperPadded 8 row.address.toNat ++ "  " else "") ++
    (if options.hex then Column.left 20 row.bytes ++ "  " else "") ++ row.text

/-- The columns of a row, each with the gap behind it. -/
theorem render_eq (options : ListingOptions) (row : Row) :
    row.render options =
      (if options.addresses then Hex.upperPadded 8 row.address.toNat ++ "  " else "") ++
        (if options.hex then Column.left 20 row.bytes ++ "  " else "") ++ row.text := by
  unfold render
  cases options.addresses <;> cases options.hex <;>
    simp [String.append_assoc]

/-- The text of a row ends its line. -/
theorem exists_shown (options : ListingOptions) (address : Long) (bytes : String) (number : Nat) :
    ∃ front, ∀ text, shown options ⟨address, bytes, text⟩ number = ⟨number, front ++ text⟩ := by
  refine ⟨(shown options ⟨address, bytes, ""⟩ number).text, fun text => ?_⟩
  rw [shown, shown, String.append_empty]

end Row

namespace Listing

variable {data : Array Byte} {options : ListingOptions}

/-- A line has its number in front, if that is wanted. -/
theorem line_eq (options : ListingOptions) (text : String) (index : Nat) :
    line options text index =
      { number := index + 1
        text := (if options.lineNumbers then Column.right 5 (toString (index + 1)) ++ "  " else "") ++
          text } := by
  unfold line
  cases options.lineNumbers <;> simp

/-- The line of a row is the one that is spelled out. -/
theorem line_render (options : ListingOptions) (row : Row) (index : Nat) :
    line options (row.render options) index = row.shown options (index + 1) := by
  rw [line_eq, Row.render_eq, ← String.append_assoc, ← String.append_assoc]
  rfl

/-- The lines of the header. -/
theorem take_header (data : Array Byte) (options : ListingOptions) :
    (listing data options).take 3 = (header data options).mapIdx fun i text => line options text i := by
  have hheader : (header data options).length = 3 := rfl
  rw [listing, List.mapIdx_append, List.take_left' (by rw [List.length_mapIdx, hheader])]

/-- The second line counts the instructions and the bytes. -/
theorem getElem?_counts (data : Array Byte) (options : ListingOptions) :
    (listing data options)[1]? = some
      { number := 2
        text := (if options.lineNumbers then "    2  " else "") ++
          ("; instructions: " ++ toString (sweep data options).code.length ++ ", bytes: " ++
            toString (sweep data options).counted ++ "/" ++ toString data.size) } := by
  have hheader : (header data options).length = 3 := rfl
  have hnumber : Column.right 5 (toString 2) ++ "  " = "    2  " := by decide
  rw [listing, List.getElem?_mapIdx, List.getElem?_append_left (by rw [hheader]; decide)]
  show some (line options _ 1) = _
  rw [line_eq, hnumber]

/-- The lines below the header. -/
theorem drop_header (data : Array Byte) (options : ListingOptions) :
    (listing data options).drop 3 =
      (body data options).mapIdx fun i row => row.shown options (i + 4) := by
  have hheader : (header data options).length = 3 := rfl
  rw [listing, List.mapIdx_append, List.drop_left' (by rw [List.length_mapIdx, hheader]), hheader]
  apply List.ext_getElem
  · simp
  · intro i hi hi'
    simp [line_render]

/-- There is a line for each row below the header. -/
theorem length_listing (data : Array Byte) (options : ListingOptions) :
    (listing data options).length = 3 + (body data options).length := by
  have hheader : (header data options).length = 3 := rfl
  rw [listing, List.length_mapIdx, List.length_append, List.length_map, hheader]

/-- The line of a row. -/
theorem getElem?_listing (data : Array Byte) (options : ListingOptions) (i : Nat) :
    (listing data options)[3 + i]? =
      (body data options)[i]?.map fun row => row.shown options (i + 4) := by
  rw [← List.getElem?_drop, drop_header, List.getElem?_mapIdx]

/-- The lines are numbered from one. -/
theorem map_number (data : Array Byte) (options : ListingOptions) :
    (listing data options).map Line.number = List.range' 1 (listing data options).length := by
  apply List.ext_getElem
  · simp
  · intro i hi hi'
    simp [listing, line, Nat.add_comm]

end Listing

end Disasm68
