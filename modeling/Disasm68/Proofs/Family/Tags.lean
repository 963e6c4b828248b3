import Disasm68.Proofs.Disassembly.Body
import Disasm68.Proofs.Operand.Tags

/-!
# Which instructions are tagged

The text of an instruction ends with a tag exactly if its note does (`Instruction.tagged_iff`), since
neither mnemonics nor operands look like one. Whether the note does is a question about the family
(`Family.decode_isTag`): some families are tagged in all sizes, some only where they work on longs.
-/

namespace Disasm68

open Reader Text

/-- Whether a note ends with a tag. -/
def Note.isTag : Note → Bool
  | .tag _ | .coprocessor .. => true
  | .empty | .illegal | .lineA | .lineF => false

/-- A note ends with the tag that it has, and without one it opens no parenthesis. -/
theorem Note.isTag_cases (note : Note) (origin : Long) :
    (note.isTag = true ∧ ∃ tag : Tag, tag.text.toList <:+ (note.text origin).toList) ∨
      note.isTag = false ∧ Flat (note.text origin) := by
  cases note with
  | empty | illegal | lineA | lineF => exact .inr ⟨rfl, by simp +decide [text]⟩
  | tag t =>
    refine .inl ⟨rfl, t, ?_⟩
    rw [text, String.toList_append]
    exact List.suffix_append _ _
  | coprocessor distance extension =>
    refine .inl ⟨rfl, .coprocessor, ?_⟩
    dsimp only [text]
    rw [String.toList_append]
    exact List.suffix_append _ _

namespace Instruction

@[simp] theorem note_of (mnemonic : String) (operands : List Operand) (note : Note) :
    (of mnemonic operands note).note = note := rfl

@[simp] theorem note_compact (mnemonic : String) (operands : List Operand) (note : Note) :
    (compact mnemonic operands note).note = note := rfl

variable {i : Instruction}

/-- In front of the note there is nothing like a tag. -/
theorem tidy_body (hmnemonic : Mnemonic.Plain i.mnemonic) (origin : Long) :
    Tidy .tags (i.body origin) := by
  obtain ⟨blanks, -, hbody⟩ := i.body_eq origin
  have hflat : Flat (i.mnemonic ++ String.ofList (List.replicate blanks ' ')) := by
    refine written_append.mpr ⟨fun c hc => decide_eq_true ?_, fun c hc => ?_⟩
    · rintro rfl
      cases hmnemonic _ hc
    · rw [String.toList_ofList] at hc
      rw [List.eq_of_mem_replicate hc]
      decide
  rw [hbody]
  refine hflat.tidy_append (Solid.tidy_intercalate (by decide) ?_)
  exact List.forall_mem_map.mpr fun o _ => o.tidy_text origin

/-- **The text ends with a tag exactly if the note does.** -/
theorem tagged_iff (hmnemonic : Mnemonic.Plain i.mnemonic) (origin : Long) :
    (∃ tag : Tag, tag.text.toList <:+ (i.text origin).toList) ↔ i.note.isTag = true := by
  rcases i.note.isTag_cases origin with ⟨htag, tag, hsuffix⟩ | ⟨htag, hflat⟩
  · refine iff_of_true ⟨tag, ?_⟩ htag
    rw [text, String.toList_append]
    exact hsuffix.trans (List.suffix_append _ _)
  · have htidy : Tidy .tags (i.text origin) :=
      (tidy_body hmnemonic origin).append hflat.tidy fun _ _ d hd hmeet => by
        rw [Note.head_text _ origin d hd] at hmeet
        exact absurd hmeet.2 (by decide)
    refine iff_of_false ?_ (by simp [htag])
    rintro ⟨tag, hsuffix⟩
    exact tag.not_suffix_of_tidy htidy hsuffix

end Instruction

/-! ## The notes of families -/

variable {format : IndexFormat} {opcode : Word}

theorem BlockMove.decode_isTag (opcode : Word) (form : BlockMove) :
    (form.decode opcode).Ensures fun i _ => i.note.isTag = true := by
  cases form <;> simp [BlockMove.decode, Note.isTag]

theorem CoprocessorOperation.decode_isTag (op : CoprocessorOperation) :
    (op.decode format opcode).Ensures fun i _ => i.note.isTag = true := by
  cases op with
  | branch size => cases size <;> simp [CoprocessorOperation.decode, Note.isTag]
  | trap size => cases size <;> simp [CoprocessorOperation.decode, Note.isTag]
  | general | restore | save | loop | set => simp [CoprocessorOperation.decode, Note.isTag]

theorem CacheOperation.isTag_instruction (opcode : Word) (op : CacheOperation) :
    (op.instruction opcode).note.isTag = true := by
  unfold instruction
  dsimp only
  repeat' split
  all_goals rfl

namespace Family

/-- Whether the instructions of a family are tagged. -/
def isTagged : Family → Bool
  | .branch _ .long | .chk .long | .link .long => true
  | .compareProgram _ | .testExtended _ | .extb | .divideLong | .multiplyLong | .pack _ | .unpack _
  | .bitField _ | .trapcc _ | .rtd | .rtm | .callm | .bounds _ | .bkpt | .moveFromCcr | .movec
  | .moves _ | .move16 _ | .cas _ | .cas2 _ | .coprocessor _ | .cache _ => true
  | _ => false

/-- **A family is tagged or not**, whatever the operands are. The cases are grouped by what is
read. -/
theorem decode_isTag (family : Family) :
    (family.decode format opcode).Ensures fun i _ => i.note.isTag = family.isTagged := by
  cases family
  case branch kind size => cases size <;> simp [decode, Branch.decode, Note.isTag, isTagged]
  case move16 form => exact form.decode_isTag opcode
  case coprocessor op => exact op.decode_isTag
  case cache op => exact op.isTag_instruction opcode
  case exchange kind => cases kind <;> simp [decode, Note.isTag, isTagged]
  case trapcc size => cases size <;> simp [decode, Note.isTag, isTagged]
  case chk size | link size => cases size <;> simp [decode, Note.isTag, isTagged]
  -- nothing is read
  case illegal | lineA | lineF | extendedRegisters | extendedMemory | cmpm | ext | extb | swap
      | shiftConstant | shiftRegister | rts | rte | rtr | rtm | trap | trapv | bkpt | reset | nop
      | moveq | moveToUsp | moveFromUsp | unlk =>
    simp [decode, Note.isTag, isTagged]
  -- one value or address is read
  case toData | fromData | toAddress | immediateToCcr | immediateToSr | addq | subq | unary
      | testExtended | nbcd | tas | product | pack | unpack | shiftMemory | bitRegister | dbra
      | dbcc | scc | jmp | jsr | rtd | stop | movea | moveToCcr | moveFromCcr | moveToSr
      | moveFromSr | movec | movepFromMemory | movepToMemory | lea | pea | cas2 =>
    exact ensures_behind _ fun _ => rfl
  -- and another address behind it
  case immediate | compareProgram | bitConstant | bitField | callm | move | movem | moves | cas
      | bounds | divideLong | multiplyLong =>
    refine ensures_behind _ fun _ => ensures_behind _ fun _ => ?_
    simp only [pure_eq_done, ensures_done]
    repeat' split
    all_goals rfl

end Family

end Disasm68
