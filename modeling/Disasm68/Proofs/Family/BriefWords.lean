import Disasm68.Proofs.Family.IndexWords
import Mathlib.Algebra.Order.BigOperators.Group.List
import Mathlib.Algebra.Order.Ring.Nat

/-!
# How many words an opcode stands for in the brief format

Where index words are always brief, an address takes as many words as its mode says, an index word
counting as one whatever it holds (`EffectiveAddress.decode_brief_words`). The other words of an
instruction are fixed by its family. So the opcode alone decides how many words follow it
(`Family.decode_brief_words`), and there are four at most (`Family.briefWords_le`).
-/

namespace Disasm68

open Reader

/-- The number of words an address of a mode takes, with a brief index word and an immediate of a
given size. -/
def AddressMode.briefWords (size : Size) : AddressMode → Nat
  | .dataRegister | .addressRegister | .indirect | .postincrement | .predecrement => 0
  | .displacement | .index | .absoluteShort | .pcDisplacement | .pcIndex => 1
  | .absoluteLong => 2
  | .immediate => size.words

/-- The number of words of the address a field selects. -/
def EffectiveAddress.briefWords (field : BitVec 6) (size : Size) : Nat :=
  ((AddressMode.ofField? field).map (AddressMode.briefWords size)).getD 0

/-- The number of words of a coprocessor instruction that belong to no address. -/
def CoprocessorOperation.ownWords : CoprocessorOperation → Nat
  | .branch _ | .general | .set | .trap none => 2
  | .loop => 3
  | .restore | .save => 0
  | .trap (some size) => 2 + size.words

namespace Family

/-- The number of words behind an opcode that belong to no address. -/
def ownWords : Family → Nat
  | .immediateToCcr _ | .immediateToSr _ | .pack _ | .unpack _ | .rtd | .stop | .dbra | .dbcc
  | .movec | .movepFromMemory _ | .movepToMemory _ | .branch _ .word | .move16 .between => 1
  | .branch _ .long | .move16 _ | .cas2 _ => 2
  | .link size | .trapcc (some size) => size.words
  | .coprocessor op => op.ownWords
  | family => family.wordsBefore

/-- The number of words behind an opcode where index words are brief. -/
def briefWords (opcode : Word) (family : Family) : Nat :=
  family.ownWords + ((family.addresses opcode).map fun a =>
    EffectiveAddress.briefWords a.1 a.2).sum

end Family

/-- An instruction with one address. -/
theorem Family.briefWords_of_address {opcode : Word} {family : Family} {field : BitVec 6}
    {size : Size} (h : family.addresses opcode = [(field, size)]) :
    family.briefWords opcode = family.ownWords + EffectiveAddress.briefWords field size := by
  rw [briefWords, h, List.map_singleton, List.sum_singleton]

namespace Reader

variable {α β : Type}

/-- The words of two readers add up. -/
theorem bind_words_eq {r : Reader α} {f : α → Reader β} {j k : Nat}
    (hr : r.Ensures fun _ n => n = j) (hf : ∀ a, (f a).Ensures fun _ n => n = k) :
    (r.bind f).Ensures fun _ n => n = j + k := by
  rw [ensures_bind]
  refine hr.mono fun a m hm => ?_
  exact (hf a).mono fun _ n hn => by rw [hm, hn]

/-- What is made of the value of a reader takes no further words. -/
theorem bind_done_words_eq {r : Reader α} {k : Nat} (hr : r.Ensures fun _ n => n = k)
    (make : α → β) : (r.bind fun a => .done (make a)).Ensures fun _ n => n = k :=
  bind_words_eq (k := 0) hr fun _ => rfl

end Reader

namespace EffectiveAddress

/-- A brief index word is all there is, also where it is refused for its scale. -/
theorem decodeIndexed_brief_words (base : Base) :
    (decodeIndexed .brief base).Ensures fun _ n => n = 1 :=
  fun _ => rfl

/-- **The mode decides how many words an address takes.** -/
theorem decode_brief_words (field : BitVec 6) (size : Size) :
    (decode .brief field size).Ensures fun _ n => n = briefWords field size := by
  unfold decode briefWords
  cases AddressMode.ofField? field with
  | none => rfl
  | some mode =>
    cases mode
    case index | pcIndex => exact decodeIndexed_brief_words _
    case immediate => exact bind_done_words_eq (next_words size) _
    case displacement | absoluteShort | pcDisplacement | absoluteLong => exact fun _ => rfl
    all_goals rfl

theorem briefWords_le (field : BitVec 6) (size : Size) : briefWords field size ≤ 2 := by
  unfold briefWords
  cases AddressMode.ofField? field with
  | none => exact Nat.zero_le 2
  | some mode => cases mode <;> cases size <;> decide

end EffectiveAddress

variable (opcode : Word)

/-- A coprocessor instruction has words of its own and an address at most. -/
theorem CoprocessorOperation.decode_brief_words (op : CoprocessorOperation) :
    (op.decode .brief opcode).Ensures fun _ n => n = (Family.coprocessor op).briefWords opcode := by
  have address (make : EffectiveAddress → Instruction) :
      ((decode.operand .brief opcode).bind fun a => .done (make a)).Ensures fun _ n =>
        n = EffectiveAddress.briefWords (Opcode.field opcode) .byte :=
    bind_done_words_eq (EffectiveAddress.decode_brief_words _ _) make
  cases op with
  | branch size =>
    show Ensures _ fun _ n => n = 2
    cases size <;> simp [CoprocessorOperation.decode]
  | loop => exact fun _ _ _ => rfl
  | general => exact fun _ => rfl
  | restore | save =>
    rw [Family.briefWords_of_address rfl]
    exact (address _).mono fun _ n hn => hn.trans (Nat.zero_add _).symm
  | set =>
    rw [Family.briefWords_of_address rfl]
    intro predicate extension
    refine (address _).mono fun _ n hn => ?_
    show 1 + (1 + n) = 2 + _
    omega
  | trap size =>
    intro predicate extension
    cases size with
    | none => rfl
    | some size => cases size <;> exact fun _ => rfl

/-- **The opcode decides how many words follow it.** The cases are grouped by what is read. -/
theorem Family.decode_brief_words (family : Family) :
    (family.decode .brief opcode).Ensures fun _ n => n = family.briefWords opcode := by
  have address (field : BitVec 6) (size : Size) (make : EffectiveAddress → Instruction) :
      ((EffectiveAddress.decode .brief field size).bind fun a => .done (make a)).Ensures
        fun _ n => n = EffectiveAddress.briefWords field size :=
    bind_done_words_eq (EffectiveAddress.decode_brief_words field size) make
  cases family
  case coprocessor op => exact op.decode_brief_words opcode
  case branch kind size => cases size <;> first | exact rfl | exact fun _ => rfl
  case move16 form => cases form <;> exact fun _ => rfl
  case exchange kind => cases kind <;> rfl
  case trapcc size =>
    cases size with
    | none => rfl
    | some size => exact bind_done_words_eq (next_words size) _
  case move size =>
    have hwords : briefWords opcode (.move size) =
        EffectiveAddress.briefWords (Opcode.field opcode) size +
          EffectiveAddress.briefWords (Opcode.destination opcode) size := by
      simp [briefWords, ownWords, wordsBefore, addresses]
    rw [hwords]
    exact bind_words_eq (EffectiveAddress.decode_brief_words _ _) fun _ => address _ size _
  -- nothing is read
  case illegal | lineA | lineF | extendedRegisters | extendedMemory | cmpm | ext | extb | swap
      | shiftConstant | shiftRegister | rts | rte | rtr | rtm | trap | trapv | bkpt | reset | nop
      | moveq | moveToUsp | moveFromUsp | unlk | cache =>
    rfl
  -- a word or a long
  case dbra | dbcc | movec | movepFromMemory | movepToMemory | cas2 => exact fun _ => rfl
  -- a value
  case immediateToCcr | immediateToSr | pack | unpack | rtd | stop | link =>
    exact bind_done_words_eq (next_words _) _
  -- an address
  case toData | fromData | toAddress | addq | subq | unary | testExtended | nbcd | tas | product
      | shiftMemory | bitRegister | scc | jmp | jsr | chk | movea | moveToCcr | moveFromCcr
      | moveToSr | moveFromSr | lea | pea =>
    rw [briefWords_of_address rfl]
    exact (address _ _ _).mono fun _ n hn => hn.trans (Nat.zero_add _).symm
  -- a value and an address
  case immediate | compareProgram | bitConstant | callm =>
    rw [briefWords_of_address rfl]
    exact bind_words_eq (next_words _) fun _ => address _ _ _
  -- a word and an address
  case divideLong | multiplyLong | bitField | bounds | movem | moves | cas =>
    rw [briefWords_of_address rfl]
    exact bind_words_eq (r := nextWord) (fun _ => rfl) fun _ => address _ _ _

/-- There are two addresses at most, and the fewer there are the more room is left for other
words. -/
theorem Family.ownWords_le (opcode : Word) (family : Family) :
    family.ownWords + 2 * (family.addresses opcode).length ≤ 4 := by
  have hsize (size : Size) : size.words ≤ 2 := by cases size <;> decide
  cases family
  case coprocessor op =>
    cases op with
    | trap size =>
      cases size with
      | none => exact Nat.le_of_ble_eq_true rfl
      | some size => exact Nat.add_le_add_left (hsize size) 2
    | _ => exact Nat.le_of_ble_eq_true rfl
  case branch kind size => cases size <;> exact Nat.le_of_ble_eq_true rfl
  case move16 form => cases form <;> exact Nat.le_of_ble_eq_true rfl
  case trapcc size =>
    cases size with
    | none => exact Nat.zero_le 4
    | some size => exact Nat.le_trans (hsize size) (by decide)
  case link size => exact Nat.le_trans (hsize size) (by decide)
  case immediate op size | compareProgram size => exact Nat.add_le_add_right (hsize size) 2
  all_goals exact Nat.le_of_ble_eq_true rfl

/-- Four words at most follow an opcode where index words are brief. -/
theorem Family.briefWords_le (opcode : Word) (family : Family) : family.briefWords opcode ≤ 4 := by
  let words : List Nat := (family.addresses opcode).map fun a => EffectiveAddress.briefWords a.1 a.2
  have hwords : ∀ n ∈ words, n ≤ 2 := by
    intro n hn
    obtain ⟨a, -, rfl⟩ := List.mem_map.mp hn
    exact EffectiveAddress.briefWords_le a.1 a.2
  have hsum : words.sum ≤ (family.addresses opcode).length * 2 := by
    have hcard := List.sum_le_card_nsmul words 2 hwords
    rwa [List.length_map] at hcard
  have hown := family.ownWords_le opcode
  show family.ownWords + words.sum ≤ 4
  omega

end Disasm68
