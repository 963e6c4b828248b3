import Disasm68.Family.Decode
import Disasm68.Proofs.Instruction
import Disasm68.Proofs.Operand.EffectiveAddress
import Disasm68.Proofs.Operand.Register

/-!
# Every long shows in the text

Apart from the long branch of a coprocessor, which looks at a long without consuming it, every
instruction consumes the longs it reads, and a long that differs in its lowest bit makes another
text (`Family.decode_shows`). The text of that branch shows the long it looks at as well
(`CoprocessorOperation.longBranch_text_inj`). For most instructions this is what their operands
show: an address shows its longs (`Operand.address_shows`), and so does an immediate
(`Operand.immediate_shows`, `Operand.signed_shows`).
-/

namespace Disasm68

open Reader
open Instruction (text_first_ne text_second_ne text_third_ne text_of_operand_ne
  text_first_ne_of_length)

variable {format : IndexFormat} {opcode : Word} {origin : Long}

namespace Operand

/-- An address shows its longs. -/
theorem address_shows (field : BitVec 6) (size : Size) :
    (EffectiveAddress.decode format field size).Shows fun a => (address a).text origin :=
  EffectiveAddress.decode_shows format field size

/-- An immediate shows its value. -/
theorem immediate_shows (size : Size) :
    (next size).Shows fun v => (immediate v).text origin :=
  (Datum.next_shows_unsigned size).mono fun v v' h => by
    simpa only [text, ne_eq, String.append_right_inj] using h

/-- A signed immediate shows its value. -/
theorem signed_shows (size : Size) :
    (next size).Shows fun v => (signed v).text origin :=
  (Datum.next_shows_signed size).mono fun v v' h => by
    simpa only [text, ne_eq, String.append_right_inj] using h

/-- Two comparisons take eleven characters, with places for all four registers. -/
theorem comparisons_length_text (a b u v : BitVec 3) :
    ((comparisons a b u v).text origin).length = 11 := by
  simp only [text, String.length_append, Register.length_text]
  rfl

theorem comparisons_text_inj {a b u v a' b' u' v' : BitVec 3} :
    (comparisons a b u v).text origin = (comparisons a' b' u' v').text origin ↔
      a = a' ∧ b = b' ∧ u = u' ∧ v = v' := by
  simp only [text, String.append_assoc]
  rw [Text.append_inj (by simp), String.append_right_inj, Text.append_inj (by simp),
    String.append_right_inj, Text.append_inj (by simp), String.append_right_inj]
  simp

end Operand

/-- A branch shows its target. -/
theorem Branch.decode_shows (size : Size) (kind : Branch) :
    (kind.decode opcode size).Shows (Instruction.text · origin) := by
  cases size with
  | byte => exact trivial
  | word => exact fun _ => trivial
  | long =>
    refine ⟨fun _ => trivial, fun l l' => .done fun hbit => text_first_ne fun h => hbit ?_⟩
    simp only [Operand.text, Hex.lower_inj, BitVec.toNat_inj, BitVec.add_right_inj] at h
    rw [h]

/-- A block move shows the place it names with a long. -/
theorem BlockMove.decode_shows (form : BlockMove) :
    (form.decode opcode).Shows (Instruction.text · origin) := by
  cases form with
  | between => exact fun _ => trivial
  | incrementToAbsolute | indirectToAbsolute =>
    exact (Operand.immediate_shows .long).bind_done fun _ _ => text_second_ne
  | absoluteToIncrement | absoluteToIndirect =>
    exact (Operand.immediate_shows .long).bind_done fun _ _ => text_first_ne

/-- A coprocessor instruction shows its longs, unless it is a long branch. -/
theorem CoprocessorOperation.decode_shows {op : CoprocessorOperation} (h : op ≠ .branch .long) :
    (op.decode format opcode).Shows (Instruction.text · origin) := by
  have address {make : EffectiveAddress → Instruction}
      (hmake : ∀ a a', (Operand.address a).text origin ≠ (Operand.address a').text origin →
        (make a).text origin ≠ (make a').text origin) :
      ((decode.operand format opcode).bind fun a => .done (make a)).Shows
        (Instruction.text · origin) :=
    (Operand.address_shows _ _).bind_done hmake
  cases op with
  | branch size =>
    cases size with
    | byte | word => exact fun _ _ => trivial
    | long => exact absurd rfl h
  | loop => exact fun _ _ _ => trivial
  | general => exact (Operand.immediate_shows .long).bind_done fun _ _ => text_first_ne
  | restore | save => exact address fun _ _ => text_first_ne
  | set => exact fun _ _ => address fun _ _ => text_first_ne
  | trap size =>
    cases size with
    | none => exact fun _ _ => trivial
    | some size =>
      exact fun _ _ =>
        (Operand.immediate_shows size).bind_done fun _ _ => text_of_operand_ne [] []

/-- A long branch of a coprocessor, with the long that was looked at. -/
def CoprocessorOperation.longBranch (opcode extension displacement : Word) (ahead : Long) :
    Instruction :=
  .of (decode.id opcode ++ "b" ++ Coprocessor.condition (opcode.extractLsb' 0 6))
    [.signed (.word displacement)] (.coprocessor (some ahead) extension)

/-- It looks at a long and consumes the first half of it. -/
theorem CoprocessorOperation.decode_longBranch :
    decode format opcode (.branch .long) = .word fun extension => .peek fun ahead =>
      .word fun displacement => .done (longBranch opcode extension displacement ahead) := rfl

/-- The text shows the long all the same. -/
theorem CoprocessorOperation.longBranch_text_inj {extension displacement : Word}
    {ahead ahead' : Long} :
    (longBranch opcode extension displacement ahead).text origin =
      (longBranch opcode extension displacement ahead').text origin ↔ ahead = ahead' :=
  Instruction.text_note_inj.trans Note.coprocessor_text_inj

/-- **Every long shows in the text.** The cases are grouped by what is read. -/
theorem Family.decode_shows {family : Family} (h : family ≠ .coprocessor (.branch .long)) :
    (family.decode format opcode).Shows (Instruction.text · origin) := by
  have address {size : Size} {make : EffectiveAddress → Instruction}
      (hmake : ∀ a a', (Operand.address a).text origin ≠ (Operand.address a').text origin →
        (make a).text origin ≠ (make a').text origin) :
      ((decode.operand format opcode size).bind fun a => .done (make a)).Shows
        (Instruction.text · origin) :=
    (Operand.address_shows _ _).bind_done hmake
  cases family
  case branch kind size => exact kind.decode_shows size
  case move16 form => exact form.decode_shows
  case coprocessor op => exact CoprocessorOperation.decode_shows fun hop => h (by rw [hop])
  case move size =>
    exact (Operand.address_shows _ size).bind_bind_done (Operand.address_shows _ size)
      (fun _ _ _ => text_first_ne) fun _ _ _ => text_second_ne
  case cas2 size =>
    -- the lowest bit of the long is the lowest bit of the register compared second
    refine ⟨fun _ => trivial, fun l l' => .done fun hbit => ?_⟩
    refine text_first_ne_of_length ?_ fun h => hbit ?_
    · rw [Operand.comparisons_length_text, Operand.comparisons_length_text]
    · obtain ⟨-, hregister, -, -⟩ := Operand.comparisons_text_inj.mp h
      simpa using congrArg (·.getLsbD 0) hregister
  case exchange kind => cases kind <;> exact trivial
  -- nothing is read
  case illegal | lineA | lineF | extendedRegisters | extendedMemory | cmpm | ext | extb | swap
      | shiftConstant | shiftRegister | rts | rte | rtr | rtm | trap | trapv | bkpt | reset | nop
      | moveq | moveToUsp | moveFromUsp | unlk | cache =>
    exact trivial
  -- a word
  case dbra | dbcc | movec | movepFromMemory | movepToMemory => exact fun _ => trivial
  -- a value
  case immediateToCcr | immediateToSr =>
    exact (Operand.immediate_shows _).bind_done fun _ _ => text_first_ne
  case pack inMemory | unpack inMemory =>
    exact (Operand.immediate_shows _).bind_done fun _ _ => text_of_operand_ne _ []
  case rtd | stop => exact (Operand.signed_shows _).bind_done fun _ _ => text_first_ne
  case link => exact (Operand.signed_shows _).bind_done fun _ _ => text_second_ne
  case trapcc size =>
    cases size with
    | none => exact trivial
    | some size => exact (Operand.immediate_shows _).bind_done fun _ _ => text_first_ne
  -- an address
  case toData | toAddress | unary | testExtended | nbcd | tas | product | shiftMemory | scc | jmp
      | jsr | chk | movea | moveToCcr | moveToSr | lea | pea =>
    exact address fun _ _ => text_first_ne
  case fromData | addq | subq | bitRegister | moveFromCcr | moveFromSr =>
    exact address fun _ _ => text_second_ne
  -- a value and an address
  case immediate op size =>
    have value : (next size).Shows fun v =>
        (if op.isLogical then Operand.immediate v else .signed v).text origin := by
      cases op.isLogical with
      | false => exact Operand.signed_shows size
      | true => exact Operand.immediate_shows size
    exact value.bind_bind_done (Operand.address_shows _ size) (fun _ _ _ => text_first_ne)
      fun _ _ _ => text_second_ne
  case compareProgram size =>
    exact (Operand.signed_shows size).bind_bind_done (Operand.address_shows _ size)
      (fun _ _ _ => text_first_ne) fun _ _ _ => text_second_ne
  case bitConstant | callm =>
    exact (Operand.immediate_shows .byte).bind_bind_done (Operand.address_shows _ .byte)
      (fun _ _ _ => text_first_ne) fun _ _ _ => text_second_ne
  -- a word and an address
  case bounds => exact fun _ => address fun _ _ => text_first_ne
  case cas => exact fun _ => address fun _ _ => text_third_ne
  case divideLong =>
    intro extension
    refine address fun a a' ha => ?_
    split
    · exact text_first_ne ha
    · split <;> exact text_first_ne ha
  case multiplyLong =>
    intro extension
    refine address fun a a' ha => ?_
    split
    · exact text_of_operand_ne [] _ ha
    · exact text_first_ne ha
  case bitField op =>
    intro extension
    refine address fun a a' ha => ?_
    have hbits : (Operand.bits a (.ofWord extension)).text origin ≠
        (Operand.bits a' (.ofWord extension)).text origin := by
      simpa only [Operand.text, ne_eq, String.append_left_inj] using ha
    cases op.hasRegister with
    | false => exact text_first_ne hbits
    | true => exact text_second_ne hbits
  case movem form size =>
    intro mask
    refine address fun a a' ha => ?_
    cases form with
    | push | toMemory => exact text_second_ne ha
    | fromMemory => exact text_first_ne ha
  case moves size =>
    intro extension
    refine address fun a a' ha => ?_
    split
    · exact text_second_ne ha
    · exact text_first_ne ha

end Disasm68
