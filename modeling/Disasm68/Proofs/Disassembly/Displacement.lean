import Disasm68.Disassembly
import Disasm68.Proofs.Family.IndexWords
import Disasm68.Proofs.Numeral.Hex

/-!
# Displacements from an address register

A word can be the displacement of an operand in memory from an address register in two ways. An
effective address of mode 5 has one, and so has the memory operand of a `movep`, which is no
effective address: its register is in the opcode and its word is the one behind it.
`Cursor.displacements` lists them from the bits, and the operands of an instruction have these and
no others (`Cursor.flatMap_displacements`).

Effective addresses show the displacement as a signed number and `movep` as an unsigned one, so the
two forms agree unless a `movep` has a negative displacement (`disassemble_displacements`).
-/

namespace Disasm68

open Reader

/-! ## Where the displacements are -/

/-- A word that is the displacement of an operand in memory from an address register. -/
structure Displacement where
  word : Word
  register : BitVec 3
  /-- Whether the operand is that of a `movep`. -/
  isPeripheral : Bool
  deriving DecidableEq

namespace Cursor

/-- The displacement of an address of mode 5 whose words begin under a cursor. -/
def displacementOf (c : Cursor) (field : BitVec 6) : List Displacement :=
  if field.extractLsb' 3 3 = 5 then [⟨c.word, field.extractLsb' 0 3, false⟩] else []

/-- The displacements of addresses whose words begin under a cursor. -/
def displacementsOf (format : IndexFormat) :
    Cursor → List (BitVec 6 × Size) → List Displacement
  | _, [] => []
  | c, (field, size) :: rest =>
    let words := ((EffectiveAddress.decode format field size).run c).2
    c.displacementOf field ++ (c.advance words).displacementsOf format rest

end Cursor

namespace Family

/-- Whether a family moves the bytes of a peripheral. -/
def isMovep : Family → Bool
  | .movepFromMemory _ | .movepToMemory _ => true
  | _ => false

/-- The displacements of an instruction whose opcode ends at a cursor. -/
def displacements (format : IndexFormat) (opcode : Word) (c : Cursor) (family : Family) :
    List Displacement :=
  if family.isMovep then [⟨c.word, Opcode.y opcode, true⟩]
  else (c.advance family.wordsBefore).displacementsOf format (family.addresses opcode)

end Family

/-- The displacements of the instruction under a cursor. -/
def Cursor.displacements (c : Cursor) : List Displacement :=
  (c.cpu.family c.word).displacements c.cpu.indexFormat c.word (c.advance 1)

/-! ## Where they are shown -/

/-- The displacement of an address from an address register. -/
def EffectiveAddress.displacements : EffectiveAddress → List Displacement
  | .displaced (.address n) d => [⟨d, n, false⟩]
  | _ => []

namespace Operand

/-- The displacement of an operand in memory from an address register. -/
def displacements : Operand → List Displacement
  | .address ea | .bits ea _ => ea.displacements
  | .peripheral d n => [⟨d, n, true⟩]
  | _ => []

/-- What is shown behind the place of an operand. -/
def rest : Operand → String
  | .bits _ field => " " ++ field.text
  | _ => ""

end Operand

namespace Instruction

/-- The displacements of the operands of an instruction, in the order in which they are shown. -/
def displacements (i : Instruction) : List Displacement :=
  i.operands.flatMap Operand.displacements

@[simp] theorem displacements_of (mnemonic : String) (operands : List Operand) (note : Note) :
    (of mnemonic operands note).displacements = operands.flatMap Operand.displacements := rfl

end Instruction

variable {format : IndexFormat} {opcode : Word}

/-! ## An address -/

namespace EffectiveAddress

variable {field : BitVec 6} {size : Size}

theorem decodeFull_displacements (base : Base) (w : IndexWord) :
    (decodeFull base w).Ensures fun ea _ => ea.displacements = [] := by
  unfold decodeFull
  split
  · rfl
  · split
    · rfl
    · exact ensures_behind _ fun _ => ensures_behind _ fun _ => rfl

theorem decodeIndexed_displacements (format : IndexFormat) (base : Base) :
    (decodeIndexed format base).Ensures fun ea _ => ea.displacements = [] := by
  intro w
  cases format with
  | brief =>
    show displacements (if (IndexWord.index ⟨w⟩).scale = 0 then _ else _) = []
    split <;> rfl
  | full =>
    show Ensures (if IndexWord.isFull ⟨w⟩ then _ else _) _
    split
    · exact (decodeFull_displacements base ⟨w⟩).mono fun _ _ h => h
    · rfl

/-- Mode 5 is the one with a displacement from an address register. -/
theorem ofField?_eq_displacement_iff :
    AddressMode.ofField? field = some .displacement ↔ field.extractLsb' 3 3 = 5 := by
  revert field
  decide

theorem decode_displacements (hfield : field.extractLsb' 3 3 ≠ 5) :
    (decode format field size).Ensures fun ea _ => ea.displacements = [] := by
  have hmode : AddressMode.ofField? field ≠ some .displacement :=
    mt ofField?_eq_displacement_iff.mp hfield
  unfold decode
  cases hany : AddressMode.ofField? field with
  | none => rfl
  | some mode =>
    cases mode
    case displacement => exact absurd hany hmode
    case index | pcIndex => exact decodeIndexed_displacements format _
    case immediate => exact ensures_behind _ fun _ => rfl
    case absoluteShort | absoluteLong | pcDisplacement => exact fun _ => rfl
    all_goals rfl

/-- An address has the displacement of its field. -/
theorem displacements_run_decode (format : IndexFormat) (field : BitVec 6) (size : Size)
    (c : Cursor) :
    ((decode format field size).run c).1.displacements = c.displacementOf field := by
  unfold Cursor.displacementOf
  by_cases hfield : field.extractLsb' 3 3 = 5
  · rw [if_pos hfield, decode, ofField?_eq_displacement_iff.mpr hfield]
    rfl
  · rw [if_neg hfield]
    exact (decode_displacements hfield).run c

/-- An instruction that reads one address. -/
theorem displacements_run_bind {c : Cursor} {make : EffectiveAddress → Instruction}
    (hmake : ∀ ea, (make ea).displacements = ea.displacements) :
    (((decode format field size).bind fun ea => .done (make ea)).run c).1.displacements =
      c.displacementsOf format [(field, size)] := by
  rw [run_bind]
  refine (hmake _).trans ?_
  rw [displacements_run_decode]
  exact (List.append_nil _).symm

/-- An instruction that reads two addresses. -/
theorem displacements_run_bind_bind {field₂ : BitVec 6} {size₂ : Size} {c : Cursor}
    {make : EffectiveAddress → EffectiveAddress → Instruction}
    (hmake : ∀ a b, (make a b).displacements = a.displacements ++ b.displacements) :
    (((decode format field size).bind fun a => (decode format field₂ size₂).bind fun b =>
        .done (make a b)).run c).1.displacements =
      c.displacementsOf format [(field, size), (field₂, size₂)] := by
  rw [run_bind]
  dsimp only
  rw [run_bind]
  refine (hmake _ _).trans ?_
  rw [displacements_run_decode, displacements_run_decode, Cursor.displacementsOf,
    Cursor.displacementsOf, Cursor.displacementsOf, List.append_nil]

end EffectiveAddress

/-! ## An instruction -/

/-- What is read behind so many words is read from there. -/
theorem Instruction.displacements_run_bind {α : Type} {r : Reader α} {f : α → Reader Instruction}
    {c : Cursor} {k : Nat} {ds : List Displacement} (hr : r.Ensures fun _ n => n = k)
    (h : ∀ a, ((f a).run (c.advance k)).1.displacements = ds) :
    ((r.bind f).run c).1.displacements = ds := by
  have hk : (r.run c).2 = k := hr.run c
  rw [run_bind]
  dsimp only
  rw [hk, h]

theorem Branch.decode_displacements (opcode : Word) (size : Size) (kind : Branch) :
    (kind.decode opcode size).Ensures fun i _ => i.displacements = [] := by
  cases size <;> simp [Branch.decode, Operand.displacements]

theorem BlockMove.decode_displacements (opcode : Word) (form : BlockMove) :
    (form.decode opcode).Ensures fun i _ => i.displacements = [] := by
  cases form <;>
    simp [BlockMove.decode, Operand.displacements, EffectiveAddress.displacements]

theorem CacheOperation.displacements_instruction (opcode : Word) (op : CacheOperation) :
    (op.instruction opcode).displacements = [] := by
  unfold instruction
  dsimp only
  repeat' split
  all_goals rfl

/-- A coprocessor instruction has the displacements of its address. -/
theorem CoprocessorOperation.run_decode_displacements (op : CoprocessorOperation) (c : Cursor) :
    ((op.decode format opcode).run c).1.displacements =
      (Family.coprocessor op).displacements format opcode c := by
  cases op with
  | branch size =>
    have hnone : (CoprocessorOperation.decode format opcode (.branch size)).Ensures
        fun i _ => i.displacements = [] := by
      cases size <;> simp [CoprocessorOperation.decode, Operand.displacements]
    exact hnone.run c
  | trap size =>
    have hnone : (CoprocessorOperation.decode format opcode (.trap size)).Ensures
        fun i _ => i.displacements = [] := by
      cases size <;>
        simp [CoprocessorOperation.decode, Instruction.displacements, Operand.displacements]
    exact hnone.run c
  | loop | general => rfl
  | restore | save =>
    show _ = (c.advance 0).displacementsOf format _
    rw [Cursor.advance_zero]
    refine EffectiveAddress.displacements_run_bind ?_
    exact fun ea => List.append_nil _
  | set =>
    refine Instruction.displacements_run_bind (k := 1) (fun _ => rfl) fun predicate => ?_
    refine Instruction.displacements_run_bind (k := 1) (fun _ => rfl) fun extension => ?_
    rw [Cursor.advance_advance]
    refine EffectiveAddress.displacements_run_bind ?_
    exact fun ea => List.append_nil _

/-- **The operands of an instruction have its displacements**, in the order of their words. The
cases are grouped by what is read before the address. -/
theorem Family.displacements_run_decode (family : Family) (c : Cursor) :
    ((family.decode format opcode).run c).1.displacements =
      family.displacements format opcode c := by
  -- what has no address has no displacement, whatever the words are
  have none_of {family : Family} (hfamily : family.displacements format opcode c = [])
      (hnone : (family.decode format opcode).Ensures fun i _ => i.displacements = []) :
      ((family.decode format opcode).run c).1.displacements =
        family.displacements format opcode c :=
    (hnone.run c).trans hfamily.symm
  cases family
  case coprocessor op => exact op.run_decode_displacements c
  case branch kind size => exact none_of rfl (kind.decode_displacements opcode size)
  case move16 form => exact none_of rfl (form.decode_displacements opcode)
  case cache op => exact none_of rfl (op.displacements_instruction opcode)
  case exchange kind => cases kind <;> rfl
  case trapcc size =>
    cases size with
    | none => rfl
    | some size => exact none_of rfl (ensures_behind _ fun _ => rfl)
  case pack inMemory | unpack inMemory =>
    cases inMemory <;> exact none_of rfl (ensures_behind _ fun _ => rfl)
  case movec =>
    refine none_of rfl fun extension => ?_
    show Instruction.displacements (.of _ (if _ then _ else _) _) = []
    split <;> rfl
  -- the memory operand has no address
  case movepFromMemory | movepToMemory => rfl
  -- no address
  case illegal | lineA | lineF | extendedRegisters | extendedMemory | cmpm | ext | extb | swap
      | shiftConstant | shiftRegister | rts | rte | rtr | rtm | trap | trapv | bkpt | reset | nop
      | moveq | moveToUsp | moveFromUsp | unlk =>
    rfl
  case immediateToCcr | immediateToSr | dbra | dbcc | rtd | stop | link | cas2 =>
    exact none_of rfl (ensures_behind _ fun _ => rfl)
  -- an address
  case toData | fromData | toAddress | addq | subq | unary | testExtended | nbcd | tas | product
      | shiftMemory | bitRegister | scc | jmp | jsr | chk | movea | moveToCcr | moveFromCcr
      | moveToSr | moveFromSr | lea | pea =>
    show _ = (c.advance 0).displacementsOf format _
    rw [Cursor.advance_zero]
    refine EffectiveAddress.displacements_run_bind ?_
    exact fun ea => List.append_nil _
  case move size =>
    show _ = (c.advance 0).displacementsOf format _
    rw [Cursor.advance_zero]
    refine EffectiveAddress.displacements_run_bind_bind ?_
    exact fun a b => congrArg (a.displacements ++ ·) (List.append_nil _)
  -- a value and an address
  case compareProgram | bitConstant | callm =>
    refine Instruction.displacements_run_bind (next_words _) fun value => ?_
    refine EffectiveAddress.displacements_run_bind ?_
    exact fun ea => List.append_nil _
  case immediate op size =>
    refine Instruction.displacements_run_bind (next_words _) fun value => ?_
    refine EffectiveAddress.displacements_run_bind fun ea => ?_
    cases op.isLogical <;> exact List.append_nil _
  -- a word and an address
  case bounds | cas =>
    refine Instruction.displacements_run_bind (k := 1) (fun _ => rfl) fun extension => ?_
    refine EffectiveAddress.displacements_run_bind ?_
    exact fun ea => List.append_nil _
  -- the other operands or their order depend on the word
  case movem | moves | divideLong | multiplyLong | bitField =>
    refine Instruction.displacements_run_bind (k := 1) (fun _ => rfl) fun extension => ?_
    refine EffectiveAddress.displacements_run_bind fun ea => ?_
    repeat' split
    all_goals exact List.append_nil _

/-! ## What is shown -/

/-- A negative number is the only one that shows as a signed numeral of its own. -/
theorem Hex.unsigned_eq_signed_iff {w : Nat} {v : BitVec w} :
    unsigned v = signed v ↔ v.msb = false := by
  unfold unsigned signed
  cases v.msb with
  | false => simp
  | true => simp [← String.toList_inj]

/-- The name of an address register. -/
theorem Base.append_text_address (s : String) (n : BitVec 3) :
    s ++ "," ++ (Base.address n).text = s ++ ",A" ++ toString n.toNat := by
  have hcomma : ",A" = "," ++ "A" := rfl
  rw [hcomma, text, Register.text, Bank.letter]
  simp only [String.append_assoc]

theorem EffectiveAddress.text_of_mem_displacements {ea : EffectiveAddress} {p : Displacement}
    (h : p ∈ ea.displacements) : p.isPeripheral = false ∧
      ea.text = "(" ++ Hex.signed p.word ++ ",A" ++ toString p.register.toNat ++ ")" := by
  unfold displacements at h
  split at h
  · obtain rfl := List.mem_singleton.mp h
    refine ⟨rfl, ?_⟩
    rw [text, Base.append_text_address]
  · cases h

/-- The displacement of a peripheral is shown without a sign, any other one with it. -/
theorem Operand.text_of_mem_displacements {o : Operand} {p : Displacement}
    (h : p ∈ o.displacements) (origin : Long) :
    o.text origin = "(" ++ (if p.isPeripheral then Hex.unsigned p.word else Hex.signed p.word) ++
      ",A" ++ toString p.register.toNat ++ ")" ++ o.rest := by
  cases o with
  | address ea =>
    obtain ⟨hkind, htext⟩ := EffectiveAddress.text_of_mem_displacements h
    rw [text, htext, hkind, if_neg Bool.false_ne_true]
    exact String.append_empty.symm
  | bits ea field =>
    obtain ⟨hkind, htext⟩ := EffectiveAddress.text_of_mem_displacements h
    rw [text, htext, hkind, if_neg Bool.false_ne_true]
    exact String.append_assoc
  | peripheral d n =>
    obtain rfl := List.mem_singleton.mp h
    rw [text, if_pos rfl, Base.append_text_address]
    exact String.append_empty.symm
  | _ => cases h

namespace Cursor

variable {c : Cursor} {o : Operand} {p : Displacement}

/-- Addresses have no displacements of peripherals. The induction is on the addresses, and the
cursor is where the words of the first one begin. -/
theorem isPeripheral_of_mem {fields : List (BitVec 6 × Size)}
    (h : p ∈ c.displacementsOf format fields) : p.isPeripheral = false := by
  induction fields generalizing c with
  | nil => cases h
  | cons a fields ih =>
    rw [displacementsOf, List.mem_append] at h
    rcases h with hhead | htail
    · unfold displacementOf at hhead
      split at hhead
      · rw [List.mem_singleton.mp hhead]
      · cases hhead
    · exact ih htail

/-- The displacements of a `movep`, and no others, are those of peripherals. -/
theorem isPeripheral_eq (h : p ∈ c.displacements) :
    p.isPeripheral = (c.cpu.family c.word).isMovep := by
  unfold displacements Family.displacements at h
  split at h
  case isTrue hmovep => rw [List.mem_singleton.mp h, hmovep]
  case isFalse hmovep => rw [isPeripheral_of_mem h, Bool.eq_false_iff.mpr hmovep]

/-- A `movep` has one displacement, the word behind its opcode. -/
theorem displacements_of_movep (h : (c.cpu.family c.word).isMovep = true) :
    c.displacements = [⟨(c.advance 1).word, Opcode.y c.word, true⟩] := by
  unfold displacements Family.displacements
  rw [if_pos h]

/-- **The operands of an instruction have its displacements.** -/
theorem flatMap_displacements (c : Cursor) :
    c.decode.1.operands.flatMap Operand.displacements = c.displacements :=
  Family.displacements_run_decode _ _

theorem mem_displacements (ho : o ∈ c.decode.1.operands) (hp : p ∈ o.displacements) :
    p ∈ c.displacements := by
  rw [← flatMap_displacements]
  exact List.mem_flatMap.mpr ⟨o, ho, hp⟩

/-- A `movep` shows its displacement without a sign, any other instruction shows its displacements
with it. -/
theorem text_of_mem_displacements (ho : o ∈ c.decode.1.operands) (hp : p ∈ o.displacements)
    (origin : Long) : o.text origin = "(" ++
      (if (c.cpu.family c.word).isMovep then Hex.unsigned p.word else Hex.signed p.word) ++
        ",A" ++ toString p.register.toNat ++ ")" ++ o.rest := by
  rw [Operand.text_of_mem_displacements hp, isPeripheral_eq (mem_displacements ho hp)]

/-- One of the operands of a `movep` has the displacement. -/
theorem exists_displacement_of_movep (h : (c.cpu.family c.word).isMovep = true) :
    ∃ o ∈ c.decode.1.operands, ⟨(c.advance 1).word, Opcode.y c.word, true⟩ ∈ o.displacements := by
  rw [← List.mem_flatMap, flatMap_displacements, displacements_of_movep h]
  exact List.mem_singleton.mpr rfl

end Cursor

/-- **Displacements are signed numbers**, unless a `movep` has a negative one. The operands in
memory at a displacement of 16 bits from an address register are those of mode 5 and those of
`movep` (`Cursor.displacements`), and all of them are shown as mode 5 is, but `movep` shows the word
as an unsigned number. -/
theorem disassemble_displacements (memory : Memory) (address : Long) (cpu : Cpu) :
    let c : Cursor := { memory, cpu, address }
    let i := c.decode.1
    let origin := (c.advance 1).address
    let movep := (cpu.family c.word).isMovep = true
    i.operands.flatMap Operand.displacements = c.displacements ∧
      ((∀ o ∈ i.operands, ∀ p ∈ o.displacements, o.text origin =
            "(" ++ Hex.signed p.word ++ ",A" ++ toString p.register.toNat ++ ")" ++ o.rest) ↔
        ¬ (movep ∧ (c.advance 1).word.msb = true)) ∧
      (movep → ∀ o ∈ i.operands, ∀ p ∈ o.displacements, o.text origin =
        "(" ++ Hex.unsigned p.word ++ ",A" ++ toString p.register.toNat ++ ")" ++ o.rest) := by
  intro c i origin movep
  refine ⟨c.flatMap_displacements, ⟨fun hsigned ⟨hmovep, hnegative⟩ => ?_, fun hno o ho p hp => ?_⟩,
    fun hmovep o ho p hp => ?_⟩
  · -- the displacement would have the same numeral with and without a sign
    obtain ⟨o, ho, hp⟩ := Cursor.exists_displacement_of_movep (c := c) hmovep
    have htext := (Cursor.text_of_mem_displacements ho hp origin).symm.trans (hsigned o ho _ hp)
    rw [if_pos hmovep] at htext
    simp only [String.append_left_inj, String.append_right_inj] at htext
    rw [Hex.unsigned_eq_signed_iff.mp htext] at hnegative
    cases hnegative
  · rw [Cursor.text_of_mem_displacements ho hp]
    by_cases hmovep : movep
    · have hp := Cursor.mem_displacements ho hp
      rw [Cursor.displacements_of_movep hmovep] at hp
      have hpositive : p.word.msb = false := by
        rw [List.mem_singleton.mp hp]
        exact Bool.eq_false_iff.mpr fun hnegative => hno ⟨hmovep, hnegative⟩
      rw [if_pos hmovep, Hex.unsigned_eq_signed_iff.mpr hpositive]
    · rw [if_neg hmovep]
  · rw [Cursor.text_of_mem_displacements ho hp, if_pos hmovep]

/-- A `movep` with a negative displacement, and a move with the same one. -/
theorem disassemble_movep_unsigned :
    let movep := disassemble ⟨fun a => if a = 0 then 0x0188 else 0xfff0⟩ 0 .m68000
    let move := disassemble ⟨fun a => if a = 0 then 0x3140 else 0xfff0⟩ 0 .m68000
    Hex.signed (0xfff0 : Word) = "-$10" ∧ move.text = "move.w  D0, (-$10,A0)" ∧
      movep.text = "movep.w D0, ($fff0,A0)" ∧ movep.text ≠ "movep.w D0, (-$10,A0)" := by
  decide +kernel

end Disasm68
