import Disasm68.Proofs.Listing.Count

/-!
# Listings with a limit

A limit on the number of instructions cuts a listing off and changes nothing else
(`listing_limit`). The sweep under a limit is the sweep without one, cut behind so many instructions
(`Image.Sweeps.cut`): if there are as many, nothing is looked at behind them, and if there are fewer,
the limit is never reached. So a listing with a lower limit shows the first rows of one with a higher
limit.
-/

namespace Disasm68

namespace Sweep

/-- The first instructions of a sweep. What is left over belongs to it only if the sweep ends before
so many are found. -/
def cut (s : Sweep) (m : Nat) : Sweep :=
  if m ≤ s.code.length then ⟨s.code.take m, .empty⟩ else s

variable {s : Sweep} {m : Nat}

theorem cut_of_le (h : m ≤ s.code.length) : s.cut m = ⟨s.code.take m, .empty⟩ :=
  if_pos h

theorem cut_of_lt (h : s.code.length < m) : s.cut m = s :=
  if_neg (Nat.not_le.mpr h)

theorem cut_zero (s : Sweep) : s.cut 0 = ⟨[], .empty⟩ := by
  rw [cut_of_le (Nat.zero_le _), List.take_zero]

/-- A cut behind the first instruction cuts what follows it. -/
theorem cut_cons_succ (d : Disassembly) (rest : Sweep) (m : Nat) :
    Sweep.cut ⟨d :: rest.code, rest.tail⟩ (m + 1) = ⟨d :: (rest.cut m).code, (rest.cut m).tail⟩ := by
  by_cases hm : m ≤ rest.code.length
  · rw [cut_of_le hm, cut_of_le (Nat.succ_le_succ hm), List.take_succ_cons]
  · have hlt := Nat.lt_of_not_le hm
    rw [cut_of_lt hlt, cut_of_lt (Nat.succ_lt_succ hlt)]

end Sweep

/-- **A limit cuts a sweep.** A limit of zero stops it before anything is looked at; above that the
induction is on the sweep without the limit. -/
theorem Image.Sweeps.cut {image : Image} {cpu : Cpu} {offset : Nat} {s : Sweep}
    (h : image.Sweeps cpu none offset s) (m : Nat) : image.Sweeps cpu (some m) offset (s.cut m) := by
  have hzero (offset : Nat) (s : Sweep) : image.Sweeps cpu (some 0) offset (s.cut 0) := by
    rw [Sweep.cut_zero]
    exact .limit
  have hpos {m : Nat} : some (m + 1) ≠ some 0 := by simp
  generalize hnone : none = limit at h
  induction h generalizing m with
  | limit => cases hnone
  | @finished limit offset hend =>
    cases m with
    | zero => exact hzero offset _
    | succ m => exact .finished hend
  | @stray limit offset b _ hb =>
    cases m with
    | zero => exact hzero offset _
    | succ m => exact .stray hpos hb
  | @truncated limit offset _ hleft hlong =>
    cases m with
    | zero => exact hzero offset _
    | succ m => exact .truncated hpos hleft hlong
  | @next limit offset rest _ hfit _ ih =>
    subst hnone
    cases m with
    | zero => exact hzero offset _
    | succ m =>
      rw [Sweep.cut_cons_succ]
      exact .next hpos hfit (ih m rfl)

/-- Rows of data do not depend on a limit. -/
theorem Row.ofBytes_limit (options : ListingOptions) (limit : Option Nat) (address : Long)
    (bytes : List Byte) :
    ofBytes { options with limit } address bytes = ofBytes options address bytes := by
  induction address, bytes using ofBytes.induct with
  | case1 address high low rest ih =>
    rw [ofBytes, ofBytes, ih]
    rfl
  | case2 | case3 => rfl

namespace Listing

variable (data : Array Byte) (options : ListingOptions) {m : Nat}

/-- The sweep of a listing with a limit. -/
theorem sweep_limit (m : Nat) :
    sweep data { options with limit := some m } =
      (sweep data { options with limit := none }).cut m :=
  ((sweep_sweeps data { options with limit := none }).cut m).eq_sweepFrom

/-- The rows under a limit that is reached are rows of instructions. -/
theorem body_limit (hm : m ≤ (sweep data { options with limit := none }).code.length) :
    body data { options with limit := some m } =
      ((sweep data { options with limit := none }).code.take m).map
        (Row.code (image data options).memory options) := by
  rw [body, Sweep.rows, sweep_limit, Sweep.cut_of_le hm]
  exact List.append_nil _

/-- They are the first rows without the limit. -/
theorem body_limit_eq_take (hm : m ≤ (sweep data { options with limit := none }).code.length) :
    body data { options with limit := some m } =
      (body data { options with limit := none }).take m := by
  rw [body_limit data options hm, body, Sweep.rows,
    List.take_append_of_le_length (by rwa [List.length_map]), List.map_take]
  rfl

/-- The lines below the header under a limit that is reached. -/
theorem drop_limit (hm : m ≤ (sweep data { options with limit := none }).code.length) :
    (listing data { options with limit := some m }).drop 3 =
      ((listing data { options with limit := none }).drop 3).take m := by
  rw [drop_header, drop_header, body_limit_eq_take data options hm]
  apply List.ext_getElem?
  intro i
  rw [List.getElem?_mapIdx, List.getElem?_take, List.getElem?_take, List.getElem?_mapIdx]
  split <;> rfl

/-- A limit that is not reached changes nothing. -/
theorem listing_limit_of_lt (hm : (sweep data { options with limit := none }).code.length < m) :
    listing data { options with limit := some m } = listing data { options with limit := none } := by
  have hsweep : sweep data { options with limit := some m } =
      sweep data { options with limit := none } := by
    rw [sweep_limit, Sweep.cut_of_lt hm]
  have hheader : header data { options with limit := some m } =
      header data { options with limit := none } := by
    rw [header, header, hsweep]
    rfl
  have hbody : body data { options with limit := some m } =
      body data { options with limit := none } := by
    rw [body, body, hsweep, Sweep.rows, Sweep.rows, Row.ofBytes_limit options (some m),
      Row.ofBytes_limit options none]
    rfl
  rw [listing, listing, hheader, hbody]
  rfl

/-- The lines below the header under a limit begin those without one. -/
theorem drop_limit_prefix (m : Nat) :
    (listing data { options with limit := some m }).drop 3 <+:
      (listing data { options with limit := none }).drop 3 := by
  rcases Nat.lt_or_ge (sweep data { options with limit := none }).code.length m with hm | hm
  · exact listing_limit_of_lt data options hm ▸ List.prefix_rfl
  · rw [drop_limit data options hm]
    exact List.take_prefix _ _

/-- And those under a higher limit. -/
theorem drop_limit_prefix_of_le {m' : Nat} (hle : m ≤ m') :
    (listing data { options with limit := some m }).drop 3 <+:
      (listing data { options with limit := some m' }).drop 3 := by
  rcases Nat.lt_or_ge (sweep data { options with limit := none }).code.length m' with hm' | hm'
  · rw [listing_limit_of_lt data options hm']
    exact drop_limit_prefix data options m
  · rw [drop_limit data options hm', drop_limit data options (Nat.le_trans hle hm')]
    exact List.take_prefix_take_left hle

/-- The header under a limit that is reached counts what its rows show. -/
theorem getElem?_counts_limit
    (hm : m ≤ (sweep data { options with limit := none }).code.length) :
    (listing data { options with limit := some m })[1]? = some
      { number := 2
        text := (if options.lineNumbers then "    2  " else "") ++
          ("; instructions: " ++ toString m ++ ", bytes: " ++
            toString ((body data { options with limit := some m }).map Row.size).sum ++ "/" ++
            toString data.size) } := by
  have hcut : sweep data { options with limit := some m } =
      ⟨(sweep data { options with limit := none }).code.take m, .empty⟩ := by
    rw [sweep_limit, Sweep.cut_of_le hm]
  rw [getElem?_counts, sum_size_body, hcut, List.length_take, Nat.min_eq_left hm]
  rfl

end Listing

/-- **A limit only cuts.** Let the sweep without a limit find `n` instructions. Under a limit of `m`
up to `n` a listing has the first `m` rows of the listing without one, all of them instructions, each
on a line of its own, and its header counts them and the bytes they show. Under a higher limit it is
the listing without one. So the rows under a limit begin the rows under every higher limit, and those
without one. -/
theorem listing_limit (data : Array Byte) (options : ListingOptions) (m : Nat) :
    let unlimited : ListingOptions := { options with limit := none }
    let limited : ListingOptions := { options with limit := some m }
    let code := (Listing.sweep data unlimited).code
    let rows := Listing.body data limited
    (m ≤ code.length →
      rows = (Listing.body data unlimited).take m ∧
        rows = (code.take m).map (Row.code (Listing.image data options).memory options) ∧
        (listing data limited).drop 3 = ((listing data unlimited).drop 3).take m ∧
        (listing data limited).drop 3 = rows.mapIdx (fun i row => row.shown options (i + 4)) ∧
        (listing data limited)[1]? = some
          { number := 2
            text := (if options.lineNumbers then "    2  " else "") ++
              ("; instructions: " ++ toString m ++ ", bytes: " ++
                toString (rows.map Row.size).sum ++ "/" ++ toString data.size) }) ∧
      (code.length < m → listing data limited = listing data unlimited) ∧
      (∀ m' : Nat, m ≤ m' → (listing data limited).drop 3 <+:
        (listing data { options with limit := some m' }).drop 3) ∧
      (listing data limited).drop 3 <+: (listing data unlimited).drop 3 := by
  intro unlimited limited code rows
  refine ⟨fun hm => ⟨?_, ?_, ?_, ?_, ?_⟩, ?_, fun m' hle => ?_, ?_⟩
  · exact Listing.body_limit_eq_take data options hm
  · exact Listing.body_limit data options hm
  · exact Listing.drop_limit data options hm
  · exact Listing.drop_header data limited
  · exact Listing.getElem?_counts_limit data options hm
  · exact Listing.listing_limit_of_lt data options
  · exact Listing.drop_limit_prefix_of_le data options hle
  · exact Listing.drop_limit_prefix data options m

/-- A limit that is reached where the next instruction is cut off. The data that a listing without
the limit shows there is left out, and the header counts none of it. -/
theorem listing_limit_before_data :
    let data : Array Byte := #[0x4e, 0x71, 0x4e, 0x75, 0x20, 0x39, 0x00]
    let options : ListingOptions := {}
    let limited : ListingOptions := { limit := some 2 }
    (Listing.sweep data options).code.length = 2 ∧
      (listing data options).map Line.text =
        ["    1  ; 68000 disassembly at $00000000",
          "    2  ; instructions: 2, bytes: 7/7",
          "    3  ",
          "    4  00000000  4E71                  nop",
          "    5  00000002  4E75                  rts",
          "    6  00000004  2039                  dc.w    $2039",
          "    7  00000006  00                    dc.b    $00"] ∧
      (listing data limited).drop 3 = ((listing data options).drop 3).take 2 ∧
      (listing data limited)[1]? = some
        { number := 2, text := "    2  ; instructions: 2, bytes: 4/7" } := by
  intro data options limited
  have hcode : (Listing.sweep data options).code.length = 2 := by decide +kernel
  obtain ⟨-, -, hrows, -, hcount⟩ := (listing_limit data options 2).1 (Nat.le_of_eq hcode.symm)
  have hbytes : ((Listing.body data limited).map Row.size).sum = 4 := by decide +kernel
  rw [hbytes] at hcount
  exact ⟨hcode, by decide +kernel, hrows, hcount.trans (by decide)⟩

end Disasm68
