import Disasm68.Proofs.Disassembly.Agreement
import Disasm68.Proofs.Listing.Extent
import Disasm68.Proofs.Listing.Run

/-!
# Images with common bytes

Two images overlap when the first bytes of one are those of the other from an offset on and the bus
has room for them in both. An instruction that ends within the overlap has the same length in both
images (`Overlap.length_agree`) and shows the same bytes (`Overlap.sameBytes`). So a run of
instructions within the overlap is repeated in the other image (`Overlap.run`), and where an image
is the rest of another, its sweep is the rest of the other's (`Overlap.sweeps`).

The texts are another matter: they show addresses, and the long branch of a coprocessor is fetched
further than it reaches.
-/

namespace Disasm68

section Lists

variable {α β γ : Type} {r : α → β → Prop} {f : α → γ} {g : β → γ} {as : List α} {bs : List β}

/-- Where the members of two lists are mapped to the same values under a condition, the lists are if
all members meet it. -/
theorem map_eq_map_iff_of_forall₂ {p : α → Prop} (h : List.Forall₂ r as bs)
    (hr : ∀ a b, r a b → (g b = f a ↔ p a)) : bs.map g = as.map f ↔ ∀ a ∈ as, p a := by
  induction h with
  | nil => simp
  | cons hab _ ih => simp [hr _ _ hab, ih]

theorem map_eq_map_of_forall₂ (h : List.Forall₂ r as bs) (hr : ∀ a b, r a b → g b = f a) :
    bs.map g = as.map f :=
  (map_eq_map_iff_of_forall₂ h fun a b hab => iff_true_intro (hr a b hab)).mpr fun _ _ => trivial

end Lists

namespace Image

variable {image image' : Image} {cpu : Cpu} {offset : Nat}

/-- No long straddles the top of the bus where there is room for it. -/
theorem cursor_not_straddles (h : image.base.toNat + offset + 4 ≤ cpu.busSize) :
    ¬ (image.cursor cpu offset).Straddles := by
  have hbus := cpu.busSize_le
  rw [Cursor.straddles_iff, cursor_busAddress (by omega), addressOf_toNat (by omega)]
  show ¬ (_ ∧ cpu.busSize ≤ _)
  omega

/-- The length of an instruction counts the bytes of its words. -/
theorem length_instruction (image : Image) (cpu : Cpu) (offset : Nat) :
    (image.instruction cpu offset).length = 2 * (image.cursor cpu offset).decode.2 := rfl

/-- The bytes of the rest of a buffer. -/
theorem byte_of_extract {shift : Nat} (hbytes : image'.bytes = image.bytes.extract shift)
    (offset : Nat) : image'.byte offset = image.byte (shift + offset) := by
  rw [byte, byte, hbytes, ← Array.getElem?_toList, Extent.toList_extract, List.getElem?_drop,
    Array.getElem?_toList]

/-- The memory of the rest of a buffer differs only where the part before it is mapped. -/
theorem byteAt_of_extract {shift : Nat} (hbytes : image'.bytes = image.bytes.extract shift)
    (hbase : image'.base = image.addressOf shift)
    (hroom : image.base.toNat + shift < 0x100000000) {a : Long}
    (ha : image'.base ≤ a ∨ a < image.base) : image'.byteAt a = image.byteAt a := by
  have hbase' : image'.base.toNat = image.base.toNat + shift := by
    rw [hbase, addressOf_toNat hroom]
  rcases ha with hle | hlt
  · have hlimit := a.isLt
    obtain ⟨offset, hoffset⟩ := Nat.exists_eq_add_of_le (BitVec.le_def.mp hle)
    have haddress : a = image'.addressOf offset := by
      refine BitVec.eq_of_toNat_eq ?_
      rw [addressOf_toNat (by omega), hoffset]
    have haddress' : a = image.addressOf (shift + offset) := by
      rw [haddress, ← addressOf_add, ← hbase]
      rfl
    rw [haddress, byteAt_addressOf (by omega), byte_of_extract hbytes, ← haddress, haddress',
      byteAt_addressOf (by omega)]
  · have hlt' : a < image'.base := by
      rw [BitVec.lt_def] at hlt ⊢
      omega
    rw [byteAt_of_lt hlt, byteAt_of_lt hlt']

/-- Two instructions show the same bytes. -/
structure SameBytes (image image' : Image) (d d' : Disassembly) : Prop where
  length : d'.length = d.length
  bytes : d'.hexColumn image'.memory = d.hexColumn image.memory

/-- The first bytes of one image are those of another from an offset on, and the bus has room for
them in both. -/
structure Overlap (image : Image) (shift : Nat) (image' : Image) (cpu : Cpu) (stop : Nat) :
    Prop where
  byte : ∀ offset < stop, image'.byte offset = image.byte (shift + offset)
  room : image.base.toNat + (shift + stop) ≤ cpu.busSize
  room' : image'.base.toNat + stop ≤ cpu.busSize

/-- An instruction within an overlap, as either image has it. -/
inductive Twin (image : Image) (shift : Nat) (image' : Image) (cpu : Cpu) (stop : Nat) :
    Disassembly → Disassembly → Prop
  | mk {offset : Nat} : offset + (image.instruction cpu (shift + offset)).length ≤ stop →
      Twin image shift image' cpu stop (image.instruction cpu (shift + offset))
        (image'.instruction cpu offset)

namespace Overlap

variable {shift stop : Nat}

theorem cursor_agree (h : Overlap image shift image' cpu stop) {n : Nat}
    (hn : offset + 2 * n ≤ stop) :
    (image.cursor cpu (shift + offset)).Agree (image'.cursor cpu offset) n := by
  have hroom := h.room
  have hroom' := h.room'
  apply Cursor.Agree.of_words
  · intro i hi
    rw [cursor_advance, cursor_advance, cursor_word (by omega), cursor_word (by omega), word, word,
      h.byte _ (by omega), h.byte _ (by omega)]
    simp only [Nat.add_assoc]
  · intro i hi
    rw [cursor_advance]
    exact cursor_not_straddles (by omega)
  · intro i hi
    rw [cursor_advance]
    exact cursor_not_straddles (by omega)

/-- An instruction that ends within the overlap has the same length in both images. -/
theorem length_agree (h : Overlap image shift image' cpu stop) (hleft : offset + 2 ≤ stop) :
    offset + (image.instruction cpu (shift + offset)).length ≤ stop ∧
        (image'.instruction cpu offset).length =
          (image.instruction cpu (shift + offset)).length ∨
      stop < offset + (image.instruction cpu (shift + offset)).length ∧
        stop < offset + (image'.instruction cpu offset).length := by
  obtain ⟨k, hk⟩ : ∃ k, (stop - offset) / 2 = k + 1 :=
    Nat.exists_eq_add_one.mpr (Nat.div_pos (by omega) Nat.zero_lt_two)
  have hcpu : (image'.cursor cpu offset).cpu = (image.cursor cpu (shift + offset)).cpu := rfl
  rw [length_instruction, length_instruction]
  rcases Cursor.decode_agree hcpu (h.cursor_agree (show offset + 2 * (k + 1) ≤ stop by omega)) with
    ⟨hle, heq⟩ | ⟨hlt, hlt'⟩ <;> omega

/-- An instruction that ends within the overlap has its length from there. -/
theorem length_eq (h : Overlap image shift image' cpu stop)
    (hfit : offset + (image.instruction cpu (shift + offset)).length ≤ stop) :
    (image'.instruction cpu offset).length = (image.instruction cpu (shift + offset)).length := by
  have h2 := image.two_le_length_instruction cpu (shift + offset)
  rcases h.length_agree (show offset + 2 ≤ stop by omega) with ⟨-, heq⟩ | ⟨hlt, -⟩
  · exact heq
  · omega

/-- And it shows the same bytes. -/
theorem sameBytes (h : Overlap image shift image' cpu stop)
    (hfit : offset + (image.instruction cpu (shift + offset)).length ≤ stop) :
    SameBytes image image' (image.instruction cpu (shift + offset))
      (image'.instruction cpu offset) := by
  have hlength := h.length_eq hfit
  refine ⟨hlength, congrArg String.join (congrArg (List.map _) ?_)⟩
  rw [Disassembly.words, Disassembly.words, hlength]
  refine List.map_congr_left fun i hi => ?_
  have hi := List.mem_range.mp hi
  exact (h.cursor_agree (show offset + 2 * (i + 1) ≤ stop by omega)).word i (Nat.lt_succ_self i)

/-- **A run within the overlap is repeated in the other image.** The induction is on the run. -/
theorem run (h : Overlap image shift image' cpu stop) (hstop : stop ≤ image'.bytes.size)
    {first last : Nat} {code : List Disassembly}
    (hrun : image.Run cpu (shift + first) code (shift + last)) (hlast : last ≤ stop) :
    ∃ code', image'.Run cpu first code' last ∧
      List.Forall₂ (Twin image shift image' cpu stop) code code' := by
  generalize hfrom : shift + first = start at hrun
  generalize hto : shift + last = finish at hrun
  induction hrun generalizing first with
  | nil =>
    obtain rfl : first = last := by omega
    exact ⟨[], .nil, .nil⟩
  | @cons offset finish code hfit hrest ih =>
    subst hfrom
    have hend := hrest.last_eq
    have hfirst : first + (image.instruction cpu (shift + first)).length ≤ stop := by omega
    have hlength := h.length_eq hfirst
    obtain ⟨code', hrun', htwins⟩ := ih (Nat.add_assoc ..).symm hto
    rw [← hlength] at hrun' hfirst
    exact ⟨_, .cons (Nat.le_trans hfirst hstop) hrun', .cons (.mk (hlength ▸ hfirst)) htwins⟩

/-- The sweep of the other image begins with such a run. -/
theorem sweeps_begin (h : Overlap image shift image' cpu stop) (hstop : stop ≤ image'.bytes.size)
    {code : List Disassembly} {last : Nat} (hrun : image.Run cpu shift code (shift + last))
    (hlast : last ≤ stop) :
    ∃ s, image'.Sweeps cpu none 0 s ∧ s.start code.length = last ∧
      List.Forall₂ (Twin image shift image' cpu stop) code (s.code.take code.length) := by
  have hstart : image.Run cpu (shift + 0) code (shift + last) := hrun
  obtain ⟨code', hrun', htwins⟩ := h.run hstop hstart hlast
  have hsweeps := hrun'.sweeps (image'.sweepFrom_sweeps cpu none last)
  have htake (rest : List Disassembly) : (code' ++ rest).take code.length = code' := by
    rw [htwins.length_eq, List.take_left]
  refine ⟨_, hsweeps, ?_, ?_⟩
  · rw [Sweep.start, htake, hrun'.last_eq, Nat.zero_add]
  · rwa [htake]

/-- An image of the rest of a buffer. -/
theorem of_extract (hbytes : image'.bytes = image.bytes.extract shift)
    (hroom : image.base.toNat + (shift + stop) ≤ cpu.busSize)
    (hroom' : image'.base.toNat + stop ≤ cpu.busSize) :
    Overlap image shift image' cpu stop :=
  ⟨fun offset _ => byte_of_extract hbytes offset, hroom, hroom'⟩

/-- Where a sweep stops, the sweep of the rest of its buffer stops too. -/
theorem stop_of_extract (h : Overlap image shift image' cpu image'.bytes.size)
    (hbytes : image'.bytes = image.bytes.extract shift) {tail : Tail}
    (hsweeps : image.Sweeps cpu none (shift + offset) ⟨[], tail⟩) :
    image'.Sweeps cpu none offset ⟨[], tail⟩ := by
  have hsize : image'.bytes.size = image.bytes.size - shift := by simp [hbytes]
  have hrest : image.bytes.extract (shift + offset) = image'.bytes.extract offset := by
    apply Array.toList_inj.mp
    rw [Extent.toList_extract, Extent.toList_extract, hbytes, Extent.toList_extract, List.drop_drop]
  cases hsweeps with
  | finished hend => exact .finished (by omega)
  | stray hlimit hb => exact .stray hlimit (hrest ▸ hb)
  | truncated hlimit hleft hlong =>
    rw [hrest]
    refine .truncated hlimit (by omega) ?_
    rcases h.length_agree (show offset + 2 ≤ _ by omega) with ⟨hle, -⟩ | ⟨-, hlong'⟩
    · omega
    · exact hlong'

/-- **The sweep of the rest of a buffer is the rest of its sweep.** -/
theorem sweeps_rest (h : Overlap image shift image' cpu image'.bytes.size)
    (hbytes : image'.bytes = image.bytes.extract shift) {s : Sweep}
    (hs : image.Sweeps cpu none shift s) :
    ∃ s', image'.Sweeps cpu none 0 s' ∧ s'.tail = s.tail ∧ s'.codeSize = s.codeSize ∧
      List.Forall₂ (Twin image shift image' cpu image'.bytes.size) s.code s'.code := by
  have hsize : image'.bytes.size = image.bytes.size - shift := by simp [hbytes]
  obtain ⟨hrun, hstop⟩ := hs.run
  have hlast := hrun.last_le
  have hstart : image.Run cpu (shift + 0) s.code (shift + s.codeSize) := hrun
  obtain ⟨code', hrun', htwins⟩ := h.run (Nat.le_refl _) hstart (by omega)
  have hsweeps := hrun'.sweeps (h.stop_of_extract hbytes hstop)
  have hcodeSize := hrun'.last_eq
  rw [List.append_nil] at hsweeps
  rw [Nat.zero_add] at hcodeSize
  exact ⟨_, hsweeps, rfl, hcodeSize.symm, htwins⟩

end Overlap

namespace Twin

variable {shift stop : Nat} {d d' : Disassembly}

theorem stop_pos (ht : Twin image shift image' cpu stop d d') : 0 < stop := by
  obtain @⟨offset, hfit⟩ := ht
  have h2 := image.two_le_length_instruction cpu (shift + offset)
  omega

theorem sameBytes (ht : Twin image shift image' cpu stop d d')
    (h : Overlap image shift image' cpu stop) : SameBytes image image' d d' := by
  obtain ⟨hfit⟩ := ht
  exact h.sameBytes hfit

/-- In images that are mapped alike both have the same address. -/
theorem address (ht : Twin image shift image' cpu stop d d')
    (hbase : image'.base = image.addressOf shift) : d'.address = d.address := by
  obtain ⟨-⟩ := ht
  show image'.base + _ = image.addressOf _
  rw [hbase, addressOf_add]

end Twin

end Image

end Disasm68
