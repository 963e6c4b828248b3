import Disasm68.Family.Decode
import Disasm68.Opcode.Lookup
import Disasm68.Proofs.Reader.Ensures

/-!
# Index words of an instruction

The index format of a processor matters in one place of an instruction: in the words that describe
its indexed addresses. Where these stand is fixed by the family, which has so many words between its
opcode and its first address (`Family.wordsBefore`), and by the lengths of the addresses before
(`Family.addresses`, `Cursor.indexWordsOf`).

An index word that neither selects the full format nor scales its register means the same in both
formats. An instruction all of whose index words are like that is decoded alike in both
(`Family.run_decode_format`).
-/

namespace Disasm68

open Reader

/-- Whether a field selects an address with an index: mode 6, or register 3 of mode 7. -/
def AddressMode.isIndexed (field : BitVec 6) : Bool :=
  field.extractLsb' 3 3 == 6 || field == 0x3b

/-- The bits of an index word that only the full format gives a meaning: its scale and the bit that
selects the format. -/
def IndexWord.extendedBits (w : IndexWord) : Word :=
  w.bits &&& 0x0700

/-- The number of words that hold an immediate. -/
def Size.words : Size → Nat
  | .byte | .word => 1
  | .long => 2

namespace Family

/-- The number of words between an opcode and the first address of its instruction. -/
def wordsBefore : Family → Nat
  | .immediate _ size | .compareProgram size => size.words
  | .divideLong | .multiplyLong | .bitConstant _ | .bitField _ | .callm | .bounds _ | .movem _ _
  | .moves _ | .cas _ => 1
  | .coprocessor .set => 2
  | _ => 0

/-- The fields of the addresses of an instruction, in the order of their words, each with the size
of an immediate there. -/
def addresses (opcode : Word) : Family → List (BitVec 6 × Size)
  | .move size => [(Opcode.field opcode, size), (Opcode.destination opcode, size)]
  | .toData _ size | .fromData _ size | .toAddress _ size | .immediate _ size
  | .compareProgram size | .addq size | .subq size | .unary _ size | .testExtended size
  | .chk size | .bounds size | .movea size | .movem _ size | .moves size | .cas size =>
    [(Opcode.field opcode, size)]
  | .nbcd | .tas | .bitRegister _ | .bitConstant _ | .bitField _ | .scc | .callm | .moveToCcr
  | .moveFromCcr | .coprocessor .restore | .coprocessor .save | .coprocessor .set =>
    [(Opcode.field opcode, .byte)]
  | .product _ | .shiftMemory _ | .moveToSr | .moveFromSr => [(Opcode.field opcode, .word)]
  | .divideLong | .multiplyLong | .jmp | .jsr | .lea | .pea => [(Opcode.field opcode, .long)]
  | _ => []

end Family

namespace Cursor

/-- The index words of addresses whose words begin under a cursor. -/
def indexWordsOf (format : IndexFormat) : Cursor → List (BitVec 6 × Size) → List IndexWord
  | _, [] => []
  | c, (field, size) :: rest =>
    let words := ((EffectiveAddress.decode format field size).run c).2
    let behind := (c.advance words).indexWordsOf format rest
    if AddressMode.isIndexed field then ⟨c.word⟩ :: behind else behind

/-- The index words of the instruction under a cursor. -/
def indexWords (c : Cursor) : List IndexWord :=
  let family := c.cpu.family c.word
  (c.advance (1 + family.wordsBefore)).indexWordsOf c.cpu.indexFormat (family.addresses c.word)

end Cursor

/-- The modes that have an index word are the indexed ones. -/
theorem AddressMode.isIndexed_of_ofField? {field : BitVec 6}
    (h : ofField? field = some .index ∨ ofField? field = some .pcIndex) :
    isIndexed field = true := by
  revert field
  decide

/-- A word without extended bits has no scale and does not select the full format. -/
theorem IndexWord.of_extendedBits {w : IndexWord} (h : w.extendedBits = 0) :
    w.isFull = false ∧ w.index.scale = 0 := by
  have hbit (i : Nat) (hi : (0x0700 : Word).getLsbD i = true) : w.bits.getLsbD i = false := by
    have hand : w.extendedBits.getLsbD i = (0 : Word).getLsbD i := by rw [h]
    rw [extendedBits, BitVec.getLsbD_and, hi, Bool.and_true] at hand
    exact hand.trans BitVec.getLsbD_zero
  refine ⟨hbit 8 (by decide), ?_⟩
  have h9 := hbit 9 (by decide)
  have h10 := hbit 10 (by decide)
  refine BitVec.eq_of_getLsbD_eq fun i hi => ?_
  rcases (by omega : i = 0 ∨ i = 1) with rfl | rfl
  · simpa [index] using h9
  · simpa [index] using h10

variable {format format' : IndexFormat} {opcode : Word}

namespace EffectiveAddress

/-- Without extended bits an index word means the same in both formats. -/
theorem run_decodeIndexed_format {base : Base} {c : Cursor}
    (h : IndexWord.extendedBits ⟨c.word⟩ = 0) :
    (decodeIndexed format base).run c = (decodeIndexed format' base).run c := by
  obtain ⟨hfull, hscale⟩ := IndexWord.of_extendedBits h
  have hbrief (f : IndexFormat) : (decodeIndexed f base).run c =
      (.brief base (c.word.setWidth 8) (IndexWord.mk c.word).index, 1) := by
    cases f
    · simp [decodeIndexed, nextWord, Reader.bind, Reader.run, hscale]
    · simp [decodeIndexed, nextWord, Reader.bind, Reader.run, hfull]
  rw [hbrief format, hbrief format']

/-- Only an index word tells the formats apart. -/
theorem run_decode_format {field : BitVec 6} {size : Size} {c : Cursor}
    (h : AddressMode.isIndexed field = true → IndexWord.extendedBits ⟨c.word⟩ = 0) :
    (decode format field size).run c = (decode format' field size).run c := by
  unfold decode
  cases hmode : AddressMode.ofField? field with
  | none => rfl
  | some mode =>
    cases mode
    case index =>
      exact run_decodeIndexed_format (h (AddressMode.isIndexed_of_ofField? (.inl hmode)))
    case pcIndex =>
      exact run_decodeIndexed_format (h (AddressMode.isIndexed_of_ofField? (.inr hmode)))
    all_goals rfl

end EffectiveAddress

namespace Reader

variable {α β : Type}

/-- Behind a reader of so many words, runs are the same if they are the same from there. -/
theorem run_bind_congr {r : Reader α} {f g : α → Reader β} {c : Cursor} {k : Nat}
    (hr : r.Ensures fun _ n => n = k)
    (h : ∀ a, (f a).run (c.advance k) = (g a).run (c.advance k)) :
    (r.bind f).run c = (r.bind g).run c := by
  have hk : (r.run c).2 = k := hr.run c
  rw [run_bind, run_bind]
  dsimp only
  rw [hk, h]

theorem next_words (size : Size) : (next size).Ensures fun _ n => n = size.words := by
  cases size with
  | byte | word => exact fun _ => rfl
  | long => exact fun _ => rfl

end Reader

/-- All index words of addresses that begin under a cursor lack extended bits. -/
def Cursor.Unextended (format : IndexFormat) (c : Cursor) (fields : List (BitVec 6 × Size)) : Prop :=
  ∀ w ∈ c.indexWordsOf format fields, w.extendedBits = 0

namespace Cursor.Unextended

variable {c : Cursor} {field : BitVec 6} {size : Size} {fields : List (BitVec 6 × Size)}

theorem head (h : c.Unextended format ((field, size) :: fields))
    (hfield : AddressMode.isIndexed field = true) : IndexWord.extendedBits ⟨c.word⟩ = 0 := by
  refine h _ ?_
  simp only [indexWordsOf, hfield, if_true]
  exact List.mem_cons_self

theorem tail (h : c.Unextended format ((field, size) :: fields)) :
    (c.advance ((EffectiveAddress.decode format field size).run c).2).Unextended format fields := by
  intro w hw
  refine h w ?_
  simp only [indexWordsOf]
  split
  · exact List.mem_cons_of_mem _ hw
  · exact hw

/-- An instruction that reads one address and nothing behind it. -/
theorem run_address (h : c.Unextended format [(field, size)])
    (make : EffectiveAddress → Instruction) :
    ((EffectiveAddress.decode format field size).bind fun a => .done (make a)).run c =
      ((EffectiveAddress.decode format' field size).bind fun a => .done (make a)).run c := by
  rw [run_bind, run_bind, EffectiveAddress.run_decode_format h.head]

/-- An instruction that reads two addresses. -/
theorem run_two_addresses {field₂ : BitVec 6} {size₂ : Size}
    (h : c.Unextended format [(field, size), (field₂, size₂)])
    (make : EffectiveAddress → EffectiveAddress → Instruction) :
    ((EffectiveAddress.decode format field size).bind fun a =>
        (EffectiveAddress.decode format field₂ size₂).bind fun b => .done (make a b)).run c =
      ((EffectiveAddress.decode format' field size).bind fun a =>
        (EffectiveAddress.decode format' field₂ size₂).bind fun b => .done (make a b)).run c := by
  have hfirst : (EffectiveAddress.decode format field size).run c =
      (EffectiveAddress.decode format' field size).run c :=
    EffectiveAddress.run_decode_format h.head
  rw [run_bind, run_bind, ← hfirst]
  dsimp only
  rw [h.tail.run_address _]

end Cursor.Unextended

/-- A coprocessor instruction without extended bits in its index words is decoded alike in both
formats. -/
theorem CoprocessorOperation.run_decode_format {op : CoprocessorOperation} {c : Cursor}
    (h : (c.advance (Family.coprocessor op).wordsBefore).Unextended format
      ((Family.coprocessor op).addresses opcode)) :
    (op.decode format opcode).run c = (op.decode format' opcode).run c := by
  cases op with
  | branch | loop | general | trap => rfl
  | restore | save =>
    replace h : (c.advance 0).Unextended format _ := h
    rw [Cursor.advance_zero] at h
    exact h.run_address _
  | set =>
    refine run_bind_congr (k := 1) (fun _ => rfl) fun predicate => ?_
    refine run_bind_congr (k := 1) (fun _ => rfl) fun extension => ?_
    rw [Cursor.advance_advance]
    exact h.run_address _

/-- **The index format matters for extended index words only.** The cases are grouped by what is
read before the address. -/
theorem Family.run_decode_format {family : Family} {c : Cursor}
    (h : (c.advance family.wordsBefore).Unextended format (family.addresses opcode)) :
    (family.decode format opcode).run c = (family.decode format' opcode).run c := by
  cases family
  case coprocessor op => exact op.run_decode_format h
  case move size =>
    replace h : (c.advance 0).Unextended format _ := h
    rw [Cursor.advance_zero] at h
    exact h.run_two_addresses _
  case exchange kind => cases kind <;> rfl
  case trapcc size => cases size <;> rfl
  -- no address
  case illegal | lineA | lineF | immediateToCcr | immediateToSr | extendedRegisters | extendedMemory
      | cmpm | ext | extb | swap | pack | unpack | shiftConstant | shiftRegister | branch
      | dbra | dbcc | rts | rte | rtr | rtd | rtm | trap | trapv | bkpt | stop | reset | nop
      | moveq | moveToUsp | moveFromUsp | movec | movepFromMemory | movepToMemory | move16 | link
      | unlk | cas2 | cache =>
    rfl
  -- an address
  case toData | fromData | toAddress | addq | subq | unary | testExtended | nbcd | tas | product
      | shiftMemory | bitRegister | scc | jmp | jsr | chk | movea | moveToCcr | moveFromCcr
      | moveToSr | moveFromSr | lea | pea =>
    replace h : (c.advance 0).Unextended format _ := h
    rw [Cursor.advance_zero] at h
    exact h.run_address _
  -- a value and an address
  case immediate | compareProgram | bitConstant | callm =>
    exact run_bind_congr (next_words _) fun _ => h.run_address _
  -- a word and an address
  case divideLong | multiplyLong | bitField | bounds | movem | moves | cas =>
    exact run_bind_congr (k := 1) (fun _ => rfl) fun _ => h.run_address _

end Disasm68
