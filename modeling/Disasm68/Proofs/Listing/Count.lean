import Disasm68.Proofs.Listing.Extent
import Disasm68.Proofs.Listing.Lines
import Mathlib.Algebra.Order.BigOperators.Group.List

/-!
# The bytes a header counts

The header of a listing counts the bytes its rows show, except for one case: a single byte behind
the last instruction is shown as data and not counted (`listing_counts`). Without a limit the rows
show the whole buffer, so the header counts the whole of it unless such a byte is left. Most rows
show two bytes at least, so there are fewer lines than a number of 32 bits can count
(`Listing.number_lt`).
-/

namespace Disasm68

/-! ## The bytes a row shows -/

namespace Row

/-- The number of bytes a row shows, two digits for each. -/
def size (row : Row) : Nat :=
  row.bytes.length / 2

/-- The row of an instruction shows as many bytes as it has. -/
theorem size_code (memory : Memory) (options : ListingOptions) {d : Disassembly}
    (heven : d.length % 2 = 0) : (code memory options d).size = d.length := by
  have hword (w : Word) : (String.length ∘ fun w : Word => Hex.upperPadded 4 w.toNat) w = 4 := by
    rw [Function.comp_apply, Hex.length_upperPadded 3 w.isLt]
  have hdigits : (d.hexColumn memory).length = d.length / 2 * 4 := by
    rw [Disassembly.hexColumn, String.length_join, List.map_map,
      List.map_congr_left fun w _ => hword w, List.map_const', List.sum_replicate_nat,
      Disassembly.words, List.length_map, List.length_range]
  show (d.hexColumn memory).length / 2 = d.length
  omega

/-- Rows of data show two bytes each, and a last row shows one if the number of bytes is odd. -/
theorem map_size_ofBytes (options : ListingOptions) (address : Long) (bytes : List Byte) :
    (ofBytes options address bytes).map size =
      List.replicate (bytes.length / 2) 2 ++ List.replicate (bytes.length % 2) 1 := by
  induction address, bytes using ofBytes.induct with
  | case1 address high low rest ih =>
    have hsize : (word options address high low).size = 2 :=
      congrArg (· / 2) (Hex.length_upperPadded 3 (high ++ low).isLt)
    have hhalf : (high :: low :: rest).length / 2 = rest.length / 2 + 1 := by
      simp only [List.length_cons]
      omega
    have hodd : (high :: low :: rest).length % 2 = rest.length % 2 := by
      simp only [List.length_cons]
      omega
    rw [ofBytes, List.map_cons, hsize, ih, hhalf, hodd, List.replicate_succ, List.cons_append]
  | case2 address b =>
    have hsize : (byte options address b).size = 1 :=
      congrArg (· / 2) (Hex.length_upperPadded 1 b.isLt)
    rw [ofBytes, List.map_singleton, hsize, List.length_singleton, Nat.mod_eq_of_lt Nat.one_lt_two]
    rfl
  | case3 address => rfl

end Row

/-! ## The bytes a sweep counts -/

/-- The bytes of the instructions, added up. -/
theorem Sweep.codeSize_eq_sum (s : Sweep) : s.codeSize = (s.code.map Disassembly.length).sum := by
  rw [codeSize, List.sum_eq_foldr, List.foldr_map]

namespace Image.Sweeps

variable {image : Image} {cpu : Cpu} {limit : Option Nat} {offset : Nat} {s : Sweep}

/-- Instructions have an even number of bytes. -/
theorem length_mod_two (h : image.Sweeps cpu limit offset s) : ∀ d ∈ s.code, d.length % 2 = 0 :=
  h.forall_mem_code fun _ => Nat.mul_mod_right ..

/-- A sweep ends with a stray byte where one byte is left, unless its limit was reached before. -/
theorem stray_iff (h : image.Sweeps cpu limit offset s) :
    (∃ b, s.tail = .stray b) ↔
      offset + s.codeSize + 1 = image.bytes.size ∧ limit ≠ some s.code.length := by
  induction h with
  | limit => simp
  | finished hend =>
    simp only [Sweep.codeSize_nil, reduceCtorEq, exists_false, false_iff]
    omega
  | @stray limit offset b hlimit hb =>
    have hone : image.bytes.size - offset = 1 := by simpa using congrArg List.length hb
    simp only [Sweep.codeSize_nil, Tail.stray.injEq, exists_eq', true_iff, List.length_nil]
    exact ⟨by omega, hlimit⟩
  | truncated _ hleft _ =>
    simp only [Sweep.codeSize_nil, reduceCtorEq, exists_false, false_iff]
    omega
  | @next limit offset rest hlimit hfit _ ih =>
    rw [Sweep.codeSize_cons, ← Nat.add_assoc, List.length_cons, ih]
    refine and_congr_right fun _ => not_congr ?_
    cases limit with
    | none => simp
    | some m =>
      have hm : m ≠ 0 := fun h0 => hlimit (congrArg some h0)
      simp only [Option.map_some, Option.some.injEq]
      omega

end Image.Sweeps

/-- What is not counted of a tail is a stray byte. -/
theorem Tail.counted_eq (tail : Tail) :
    (∃ b, tail = .stray b) ∧ tail.counted + 1 = tail.bytes.length ∨
      ¬ (∃ b, tail = .stray b) ∧ tail.counted = tail.bytes.length := by
  cases tail with
  | empty => exact .inr ⟨by simp, rfl⟩
  | stray b => exact .inl ⟨⟨b, rfl⟩, rfl⟩
  | truncated bytes => exact .inr ⟨by simp, rfl⟩

namespace Listing

variable {data : Array Byte} {options : ListingOptions}

/-- A single byte is left behind the last instruction, and no limit stopped the listing there. -/
def LeavesByte (data : Array Byte) (options : ListingOptions) : Prop :=
  (sweep data options).codeSize + 1 = data.size ∧
    options.limit ≠ some (sweep data options).code.length

/-- What the rows show: the instructions, then two bytes at a time of what is left over. -/
theorem map_size_body (data : Array Byte) (options : ListingOptions) :
    (body data options).map Row.size =
      (sweep data options).code.map Disassembly.length ++
        (List.replicate ((sweep data options).tail.bytes.length / 2) 2 ++
          List.replicate ((sweep data options).tail.bytes.length % 2) 1) := by
  have hsweeps := sweep_sweeps data options
  rw [body, Sweep.rows, List.map_append, Row.map_size_ofBytes, List.map_map]
  refine congrArg (· ++ _) (List.map_congr_left fun d hd => ?_)
  exact Row.size_code _ options (hsweeps.length_mod_two d hd)

/-- How many bytes that are. -/
theorem sum_size_body (data : Array Byte) (options : ListingOptions) :
    ((body data options).map Row.size).sum =
      (sweep data options).codeSize + (sweep data options).tail.bytes.length := by
  rw [map_size_body, List.sum_append, List.sum_append, List.sum_replicate_nat,
    List.sum_replicate_nat, Sweep.codeSize_eq_sum]
  omega

/-- The instructions and what is left over make up the buffer, unless the limit was reached. -/
theorem size_cases (data : Array Byte) (options : ListingOptions) :
    (sweep data options).codeSize + (sweep data options).tail.bytes.length = data.size ∨
      (sweep data options).codeSize ≤ data.size ∧ (sweep data options).tail = .empty ∧
        options.limit = some (sweep data options).code.length := by
  have hsweeps := sweep_sweeps data options
  have hsize : (sweep data options).codeSize ≤ data.size := by
    have hle := hsweeps.codeSize_le (Nat.zero_le _)
    rwa [Nat.zero_add] at hle
  rcases hsweeps.tail_bytes with htail | hlimit
  · have hleft : (sweep data options).tail.bytes.length =
        data.size - (sweep data options).codeSize := by
      rw [Nat.zero_add] at htail
      exact (congrArg List.length htail).trans (by simp [image, sweep, Image.sweep])
    exact .inl (by omega)
  · exact .inr ⟨hsize, hlimit⟩

/-- Without a limit the rows show the whole buffer. -/
theorem sum_size_body_of_unlimited (data : Array Byte) (hlimit : options.limit = none) :
    ((body data options).map Row.size).sum = data.size := by
  rw [sum_size_body]
  rcases size_cases data options with hsize | ⟨-, -, hcount⟩
  · exact hsize
  · rw [hlimit] at hcount
    cases hcount

/-- Rows show two bytes at least, but for a last one. -/
theorem length_body_le (data : Array Byte) (options : ListingOptions) :
    2 * (body data options).length ≤ data.size + 1 := by
  have hsweeps := sweep_sweeps data options
  have hlengths : ∀ n ∈ (sweep data options).code.map Disassembly.length, 2 ≤ n := by
    intro n hn
    obtain ⟨d, hd, rfl⟩ := List.mem_map.mp hn
    refine hsweeps.forall_mem_code (p := fun d => 2 ≤ d.length) (fun offset => ?_) d hd
    exact Image.two_le_length_instruction _ _ _
  have hcode : (sweep data options).code.length * 2 ≤ (sweep data options).codeSize := by
    have hle := List.card_nsmul_le_sum _ 2 hlengths
    rwa [List.length_map, nsmul_eq_mul, Nat.cast_id, ← Sweep.codeSize_eq_sum] at hle
  have hshown :
      (sweep data options).codeSize + (sweep data options).tail.bytes.length ≤ data.size := by
    rcases size_cases data options with hsize | ⟨hsize, htail, -⟩
    · exact Nat.le_of_eq hsize
    · rw [htail]
      exact hsize
  have hrows := congrArg List.length (map_size_body data options)
  simp only [List.length_map, List.length_append, List.length_replicate] at hrows
  omega

/-- So a number of 32 bits counts the lines of a buffer that fits into an address space. -/
theorem number_lt (options : ListingOptions) (hsize : data.size ≤ 2 ^ 32) :
    ∀ line ∈ listing data options, line.number < 2 ^ 32 := by
  intro line hline
  have hrows := length_body_le data options
  have hnumber : line.number ∈ List.range' 1 (3 + (body data options).length) := by
    rw [← length_listing, ← map_number]
    exact List.mem_map_of_mem hline
  have hle := (List.mem_range'_1.mp hnumber).2
  omega

/-- The header counts what the rows show, and one byte less where a byte is left. -/
theorem counted_cases (data : Array Byte) (options : ListingOptions) :
    (LeavesByte data options ∧
        (sweep data options).counted + 1 = ((body data options).map Row.size).sum) ∨
      (¬ LeavesByte data options ∧
        (sweep data options).counted = ((body data options).map Row.size).sum) := by
  have hstray := (sweep_sweeps data options).stray_iff
  rw [Nat.zero_add] at hstray
  rw [sum_size_body, Sweep.counted, Nat.add_assoc, Nat.add_right_inj, Nat.add_right_inj,
    show LeavesByte data options ↔ _ from hstray.symm]
  exact (sweep data options).tail.counted_eq

end Listing

/-- **The header counts the bytes that the rows show, except for a stray byte.** The row of an
instruction shows its length, rows of data show two bytes each or a last one. Without a limit that
is the whole buffer. The header says the same number exactly if no single byte is left behind the
last instruction, and otherwise one less. -/
theorem listing_counts (data : Array Byte) (options : ListingOptions) :
    let s := Listing.sweep data options
    let left := s.tail.bytes.length
    let sizes := (Listing.body data options).map Row.size
    (listing data options)[1]? = some
        { number := 2
          text := (if options.lineNumbers then "    2  " else "") ++
            ("; instructions: " ++ toString s.code.length ++ ", bytes: " ++ toString s.counted ++
              "/" ++ toString data.size) } ∧
      sizes = s.code.map Disassembly.length ++
        (List.replicate (left / 2) 2 ++ List.replicate (left % 2) 1) ∧
      (s.counted = sizes.sum ↔ ¬ Listing.LeavesByte data options) ∧
      (Listing.LeavesByte data options → s.counted + 1 = sizes.sum) ∧
      (options.limit = none → sizes.sum = data.size) := by
  intro s left sizes
  have hcases := Listing.counted_cases data options
  refine ⟨Listing.getElem?_counts data options, Listing.map_size_body data options, ?_, ?_,
    Listing.sum_size_body_of_unlimited data⟩
  · rcases hcases with ⟨hbyte, hcount⟩ | ⟨hbyte, hcount⟩
    · exact ⟨fun heq => absurd (hcount.trans heq.symm) (Nat.succ_ne_self _),
        fun hno => absurd hbyte hno⟩
    · exact ⟨fun _ => hbyte, fun _ => hcount⟩
  · rcases hcases with ⟨_, hcount⟩ | ⟨hbyte, _⟩
    · exact fun _ => hcount
    · exact fun hyes => absurd hyes hbyte

/-- The byte behind a single instruction has a row and is not counted. -/
theorem listing_counts_stray_ne :
    let data : Array Byte := #[0x4e, 0x71, 0x4e]
    let options : ListingOptions := {}
    (listing data options).map Line.text =
        ["    1  ; 68000 disassembly at $00000000",
          "    2  ; instructions: 1, bytes: 2/3",
          "    3  ",
          "    4  00000000  4E71                  nop",
          "    5  00000002  4E                    dc.b    $4E"] ∧
      (Listing.body data options).map Row.size = [2, 1] ∧
      (Listing.sweep data options).counted ≠ ((Listing.body data options).map Row.size).sum := by
  decide +kernel

end Disasm68
