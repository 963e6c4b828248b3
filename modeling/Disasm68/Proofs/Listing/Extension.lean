import Disasm68.Proofs.Listing.Overlap
import Disasm68.Proofs.Listing.Partition

/-!
# Listings of a longer buffer

What is put behind a buffer does not change the instructions that were found in it
(`listing_extend`). An instruction that was cut off at its end was decoded against zeros, but it is
longer than what was left of it whatever stands there: its length is decided by its own words, and
these cannot all have been words of the buffer.
-/

namespace Disasm68

namespace Listing

variable {data extra : Array Byte} {options : ListingOptions}

/-- The images of a buffer and of a longer one overlap in the whole of the shorter one. -/
theorem overlap_append
    (hroom : (image data options).base.toNat + (data ++ extra).size ≤ options.cpu.busSize) :
    (image data options).Overlap 0 (image (data ++ extra) options) options.cpu data.size := by
  rw [Array.size_append] at hroom
  refine ⟨fun offset hoffset => ?_, ?_, ?_⟩
  · rw [Nat.zero_add]
    exact congrArg (Option.getD · 0) (Array.getElem?_append_left hoffset)
  · show _ ≤ _
    omega
  · show (image data options).base.toNat + _ ≤ _
    omega

/-- **The sweep of a longer buffer begins with the instructions of the shorter one.** -/
theorem sweep_extend (hlimit : options.limit = none)
    (hroom : (image data options).base.toNat + (data ++ extra).size ≤ options.cpu.busSize) :
    (sweep data options).code.length ≤ (sweep (data ++ extra) options).code.length ∧
      (sweep (data ++ extra) options).start (sweep data options).code.length =
        (sweep data options).codeSize ∧
      List.Forall₂
        (fun d d' => d'.address = d.address ∧
          (image data options).SameBytes (image (data ++ extra) options) d d')
        (sweep data options).code
        ((sweep (data ++ extra) options).code.take (sweep data options).code.length) := by
  have hoverlap := overlap_append hroom
  have hwithin : data.size ≤ (data ++ extra).size := by simp
  have hrun := (sweep_sweeps_of_unlimited data hlimit).run.1
  have hlast : (sweep data options).codeSize ≤ data.size := by
    have hle := hrun.last_le
    rwa [Nat.zero_add, Nat.zero_max] at hle
  obtain ⟨s', hsweeps', hstart, htwins⟩ := hoverlap.sweeps_begin hwithin hrun hlast
  obtain rfl : sweep (data ++ extra) options = s' := sweep_eq_of_unlimited hlimit hsweeps'
  refine ⟨?_, hstart, htwins.imp fun d d' ht => ⟨ht.address ?_, ht.sameBytes hoverlap⟩⟩
  · have hlength := htwins.length_eq
    rw [List.length_take] at hlength
    omega
  · exact (BitVec.add_zero _).symm

/-- **An instruction that was cut off is longer than what was left**, whatever is put there. -/
theorem left_lt_length_extend (hlimit : options.limit = none)
    (hroom : (image data options).base.toNat + (data ++ extra).size ≤ options.cpu.busSize)
    (hleft : (sweep data options).codeSize + 2 ≤ data.size) :
    (sweep data options).tail =
        .truncated (data.extract (sweep data options).codeSize).toList ∧
      data.size < (sweep data options).codeSize +
        ((image (data ++ extra) options).instruction options.cpu
          (sweep data options).codeSize).length := by
  have hstop := (sweep_sweeps_of_unlimited data hlimit).run.2
  rw [Nat.zero_add] at hstop
  obtain ⟨htail, hlong⟩ := hstop.truncated_of_left hleft
  refine ⟨htail, ?_⟩
  rcases (overlap_append hroom).length_agree hleft with ⟨hle, -⟩ | ⟨-, hlong'⟩
  · rw [Nat.zero_add] at hle
    exact absurd hlong (Nat.not_lt.mpr hle)
  · exact hlong'

end Listing

/-- **Listings of a longer buffer.** Where the bus has room for both, the rows of the instructions
of a buffer come first in the listing of the longer one, with the same addresses and bytes. If more
than a single byte was left behind them and shown as data, then the instruction that begins there in
the longer buffer is longer than that. -/
theorem listing_extend {data extra : Array Byte} {options : ListingOptions}
    (hlimit : options.limit = none)
    (hroom : (options.base &&& options.cpu.addressMask).toNat + (data ++ extra).size ≤
      options.cpu.addressMask.toNat + 1) :
    let s := Listing.sweep data options
    let s' := Listing.sweep (data ++ extra) options
    let image := Listing.image data options
    let image' := Listing.image (data ++ extra) options
    let n := s.code.length
    let left := (data.extract s.codeSize).toList
    n ≤ s'.code.length ∧
      (Listing.body (data ++ extra) options).take n =
        (s'.code.take n).map (Row.code image'.memory options) ∧
      ((Listing.body (data ++ extra) options).take n).map (fun row => (row.address, row.bytes)) =
        ((Listing.body data options).take n).map (fun row => (row.address, row.bytes)) ∧
      (2 ≤ left.length →
        (Listing.body data options).drop n =
            Row.ofBytes options (image.addressOf s.codeSize) left ∧
          s'.start n = s.codeSize ∧
          left.length < (image'.instruction options.cpu s.codeSize).length) := by
  intro s s' image image' n left
  obtain ⟨hn, hstart, hsame⟩ := Listing.sweep_extend hlimit hroom
  have hrows := Listing.take_body hn
  refine ⟨hn, hrows, ?_, fun hleft => ?_⟩
  · rw [hrows, Listing.take_body (Nat.le_refl n), List.take_length, List.map_map, List.map_map]
    exact map_eq_map_of_forall₂ hsame fun d d' h => Prod.ext h.1 h.2.bytes
  · have hlength : left.length = data.size - (Listing.sweep data options).codeSize := by
      simp [left, s]
    rw [hlength] at hleft ⊢
    obtain ⟨htail, hlong⟩ := Listing.left_lt_length_extend hlimit hroom (by omega)
    refine ⟨?_, hstart, Nat.sub_lt_left_of_lt_add (by omega) hlong⟩
    rw [Listing.drop_body (Nat.le_refl n), List.drop_length, htail]
    rfl

/-- An index word that is cut in half: what stands behind the half decides how long the instruction
is, but not that it is cut off. -/
theorem listing_extend_cut_index :
    let data : Array Byte := #[0x4e, 0x71, 0x22, 0x30, 0x01]
    let extra : Array Byte := #[0x73, 0x12, 0x34, 0x56, 0x78]
    let options : ListingOptions := { cpu := .m68020, base := 0x1000 }
    let image' := Listing.image (data ++ extra) options
    ((listing data options).drop 3).map Line.text =
        ["    4  00001000  4E71                  nop",
          "    5  00001002  2230                  dc.w    $2230",
          "    6  00001004  01                    dc.b    $01"] ∧
      3 < (image'.instruction .m68020 2).length := by
  intro data extra options image'
  refine ⟨by decide +kernel, ?_⟩
  obtain ⟨-, -, -, hlong⟩ :=
    listing_extend (show options.limit = none from rfl)
      (show (options.base &&& options.cpu.addressMask).toNat + (data ++ extra).size ≤ _ by decide)
  have hsize : (Listing.sweep data options).codeSize = 2 := by decide +kernel
  rw [hsize] at hlong
  exact (hlong (by decide)).2.2

end Disasm68
