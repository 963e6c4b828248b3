import Disasm68.Proofs.Operand.Items

/-!
# The notation of operands

One operand can be encoded in several ways, and a displacement of zero is written or left out
depending on which of them is used. A `Location` is what all encodings of an operand have in common,
and `Location.Spells` relates it to the texts that are written for it. The notation is unambiguous:
no text is written for two locations (`Location.Spells.eq`). What `EffectiveAddress.text` prints is
in this notation (`EffectiveAddress.spells_text`).
-/

namespace Disasm68

/-! ## Addresses in memory -/

namespace Item

/-- What is listed for a displacement. A zero may be left out. -/
inductive Adds (d : Long) : List Item → Prop where
  | shown : Adds d [.displacement d]
  | omitted (hzero : d = 0) : Adds d []

/-- What is listed for the registers. -/
def names (b : Option Base) (i : Option Index) : List Item :=
  (b.map .base).toList ++ (i.map .index).toList

theorem cons_displacement_ne_names (d : Long) (items : List Item) (b : Option Base)
    (i : Option Index) : .displacement d :: items ≠ names b i := by
  cases b <;> cases i <;> simp [names]

theorem names_inj {b b' : Option Base} {i i' : Option Index} :
    names b i = names b' i' ↔ b = b' ∧ i = i' := by
  cases b <;> cases b' <;> cases i <;> cases i' <;> simp [names]

namespace Adds

variable {d d' : Long} {ds ds' : List Item} {b b' : Option Base} {i i' : Option Index}

/-- A list of a displacement and of registers determines them. -/
theorem append_names (h : Adds d ds) (h' : Adds d' ds')
    (heq : ds ++ names b i = ds' ++ names b' i') : d = d' ∧ b = b' ∧ i = i' := by
  cases h with
  | shown =>
    cases h' with
    | shown =>
      rw [List.singleton_append, List.singleton_append, List.cons.injEq] at heq
      exact ⟨Item.displacement.inj heq.1, names_inj.mp heq.2⟩
    | omitted => exact absurd heq (cons_displacement_ne_names _ _ _ _)
  | omitted hzero =>
    cases h' with
    | shown => exact absurd heq.symm (cons_displacement_ne_names _ _ _ _)
    | omitted hzero' => exact ⟨hzero.trans hzero'.symm, names_inj.mp heq⟩

/-- So does a list of an index register and a displacement. -/
theorem names_append (h : Adds d ds) (h' : Adds d' ds')
    (heq : names none i ++ ds = names none i' ++ ds') : i = i' ∧ d = d' := by
  cases h <;> cases h' <;> cases i <;> cases i' <;> simp_all [names]

end Adds

/-- A displacement that is left out under a condition has to be zero under it. -/
theorem exists_adds {d : Long} {p : Prop} [Decidable p] (h : ¬ p → d = 0) :
    ∃ ds, Adds d ds ∧ ds.map Item.text = if p then [Hex.signed d] else [] := by
  by_cases hp : p
  · exact ⟨_, .shown, (if_pos hp).symm⟩
  · exact ⟨_, .omitted (h hp), (if_neg hp).symm⟩

@[simp] theorem map_text_names (b : Option Base) (i : Option Index) :
    (names b i).map Item.text = (b.map Base.text).toList ++ (i.map Index.text).toList := by
  cases b <;> cases i <;> rfl

end Item

open Item (Adds names listed bracketed)

namespace FullIndex

/-- The lists written for an address in memory. -/
inductive Spells (parts : FullIndex) : String → Prop where
  | direct {ds : List Item} (hkind : parts.indirection = .direct) (houter : parts.outer = 0)
      (hds : Adds parts.displacement ds) :
      Spells parts (listed (ds ++ names parts.base parts.index))
  | preindexed {ds os : List Item} (hkind : parts.indirection = .preindexed)
      (hds : Adds parts.displacement ds) (hos : Adds parts.outer os) :
      Spells parts (bracketed (ds ++ names parts.base parts.index) os)
  | postindexed {ds os : List Item} (hkind : parts.indirection = .postindexed)
      (hindex : parts.index ≠ none) (hds : Adds parts.displacement ds)
      (hos : Adds parts.outer os) :
      Spells parts (bracketed (ds ++ names parts.base none) (names none parts.index ++ os))

/-- **A list is written for one address only.** Indirection shows by the brackets, and where the
index is added by the side of them on which it stands. -/
theorem Spells.eq {parts parts' : FullIndex} {s s' : String} (h : parts.Spells s)
    (h' : parts'.Spells s') (heq : s = s') : parts = parts' := by
  obtain ⟨base, displacement, index, indirection, outer⟩ := parts
  obtain ⟨base', displacement', index', indirection', outer'⟩ := parts'
  cases h with
  | direct hkind houter hds =>
    cases h' with
    | direct hkind' houter' hds' =>
      obtain ⟨rfl, rfl, rfl⟩ := hds.append_names hds' (Item.listed_inj.mp heq)
      cases hkind.trans hkind'.symm
      cases houter.trans houter'.symm
      rfl
    | preindexed => exact absurd heq Item.listed_ne_bracketed
    | postindexed => exact absurd heq Item.listed_ne_bracketed
  | preindexed hkind hds hos =>
    cases h' with
    | direct => exact absurd heq.symm Item.listed_ne_bracketed
    | preindexed hkind' hds' hos' =>
      obtain ⟨hinner, houter⟩ := Item.bracketed_inj.mp heq
      obtain ⟨rfl, rfl, rfl⟩ := hds.append_names hds' hinner
      obtain ⟨-, rfl⟩ := hos.names_append hos' <|
        show names none none ++ _ = names none none ++ _ from houter
      cases hkind.trans hkind'.symm
      rfl
    | postindexed hkind' hindex hds' hos' =>
      obtain ⟨-, houter⟩ := Item.bracketed_inj.mp heq
      obtain ⟨hnone, -⟩ := hos.names_append hos' <|
        show names none none ++ _ = _ from houter
      exact absurd hnone.symm hindex
  | postindexed hkind hindex hds hos =>
    cases h' with
    | direct => exact absurd heq.symm Item.listed_ne_bracketed
    | preindexed hkind' hds' hos' =>
      obtain ⟨-, houter⟩ := Item.bracketed_inj.mp heq
      obtain ⟨hnone, -⟩ := hos.names_append hos' <|
        show _ = names none none ++ _ from houter
      exact absurd hnone hindex
    | postindexed hkind' hindex' hds' hos' =>
      obtain ⟨hinner, houter⟩ := Item.bracketed_inj.mp heq
      obtain ⟨rfl, rfl, -⟩ := hds.append_names hds' hinner
      obtain ⟨rfl, rfl⟩ := hos.names_append hos' houter
      cases hkind.trans hkind'.symm
      rfl

end FullIndex

/-! ## Locations -/

/-- Where an operand is, whichever way it is encoded. -/
inductive Location where
  | register (r : Register)
  | postincrement (n : BitVec 3)
  | predecrement (n : BitVec 3)
  | short (address : Word)
  | absolute (address : Long)
  | immediate (value : Nat)
  /-- A place in memory whose address is computed. A full index word can say all that the other
  modes can, so its parts describe them too. -/
  | memory (parts : FullIndex)
  deriving DecidableEq, Repr

namespace Location

/-- The texts written for an operand. -/
inductive Spells : Location → String → Prop where
  | register (r : Register) : Spells (.register r) r.text
  | postincrement (n : BitVec 3) : Spells (.postincrement n) ("(" ++ (Base.address n).text ++ ")+")
  | predecrement (n : BitVec 3) : Spells (.predecrement n) ("-(" ++ (Base.address n).text ++ ")")
  | short (address : Word) : Spells (.short address) ("(" ++ Hex.signed address ++ ").w")
  | absolute (address : Long) : Spells (.absolute address) ("(" ++ Hex.signed address ++ ").l")
  | immediate (value : Nat) : Spells (.immediate value) ("#$" ++ Hex.lower value)
  | memory {parts : FullIndex} {s : String} (h : parts.Spells s) :
      Spells (.memory parts) ("(" ++ s ++ ")")

/-- The kinds of operands. -/
inductive Kind where
  | register
  | postincrement
  | predecrement
  | short
  | absolute
  | immediate
  | memory
  deriving DecidableEq

def kind : Location → Kind
  | register _ => .register
  | postincrement _ => .postincrement
  | predecrement _ => .predecrement
  | short _ => .short
  | absolute _ => .absolute
  | immediate _ => .immediate
  | memory _ => .memory

/-- The kind of operand a text is written for, by its first and last characters. -/
def Kind.ofText (s : String) : Kind :=
  match s.toList.head?, s.toList.getLast? with
  | some '(', some '+' => .postincrement
  | some '(', some 'w' => .short
  | some '(', some 'l' => .absolute
  | some '(', _ => .memory
  | some '-', _ => .predecrement
  | some '#', _ => .immediate
  | _, _ => .register

theorem Spells.kind_eq {l : Location} {s : String} (h : l.Spells s) : Kind.ofText s = l.kind := by
  cases h with
  | register r =>
    obtain ⟨bank, number⟩ := r
    revert number
    cases bank <;> decide
  | _ => simp [Kind.ofText, kind, List.getLast?_cons, List.getLast?_append]

/-- **A text is written for one operand only.** The kind of operand shows by the ends of the text;
within one kind the text between them tells the parts. -/
theorem Spells.eq {l l' : Location} {s s' : String} (h : l.Spells s) (h' : l'.Spells s')
    (heq : s = s') : l = l' := by
  have hkind : l.kind = l'.kind := by rw [← h.kind_eq, ← h'.kind_eq, heq]
  cases h with
  | register r =>
    cases h' with
    | register r' => exact congrArg Location.register (Register.text_inj.mp heq)
    | _ => cases hkind
  | postincrement n =>
    cases h' with
    | postincrement n' =>
      rw [String.append_left_inj, String.append_right_inj] at heq
      exact congrArg Location.postincrement (Base.address.inj (Base.text_inj.mp heq))
    | _ => cases hkind
  | predecrement n =>
    cases h' with
    | predecrement n' =>
      rw [String.append_left_inj, String.append_right_inj] at heq
      exact congrArg Location.predecrement (Base.address.inj (Base.text_inj.mp heq))
    | _ => cases hkind
  | short address =>
    cases h' with
    | short address' =>
      rw [String.append_left_inj, String.append_right_inj] at heq
      exact congrArg Location.short (Hex.signed_inj.mp heq)
    | _ => cases hkind
  | absolute address =>
    cases h' with
    | absolute address' =>
      rw [String.append_left_inj, String.append_right_inj] at heq
      exact congrArg Location.absolute (Hex.signed_inj.mp heq)
    | _ => cases hkind
  | immediate value =>
    cases h' with
    | immediate value' =>
      rw [String.append_right_inj] at heq
      exact congrArg Location.immediate (Hex.lower_inj.mp heq)
    | _ => cases hkind
  | memory hlist =>
    cases h' with
    | memory hlist' =>
      rw [String.append_left_inj, String.append_right_inj] at heq
      exact congrArg Location.memory (hlist.eq hlist' heq)
    | _ => cases hkind

end Location

/-! ## The texts of effective addresses -/

namespace FullIndex

/-- A base and what is added to it. -/
def displaced (base : Base) (displacement : Long) : FullIndex where
  base := some base
  displacement
  index := none
  indirection := .direct
  outer := 0

/-- What an index word can say: without indirection there is no outer displacement, and an index
is added behind the indirection only if there is one. -/
structure Sound (parts : FullIndex) : Prop where
  outer_eq_zero (hkind : parts.indirection = .direct) : parts.outer = 0
  index_ne_none (hkind : parts.indirection = .postindexed) : parts.index ≠ none

/-- The text of an address is one of those written for it. -/
theorem Sound.spells_text {parts : FullIndex} (h : parts.Sound) :
    ∃ s, parts.text = "(" ++ s ++ ")" ∧ parts.Spells s := by
  obtain ⟨base, displacement, index, indirection, outer⟩ := parts
  obtain ⟨ds, hds, hdtext⟩ := Item.exists_adds
    (d := displacement) (p := displacement ≠ 0 ∨ (base = none ∧ index = none))
    (fun hno => Decidable.not_not.mp (not_or.mp hno).1)
  obtain ⟨os, hos, hotext⟩ := Item.exists_adds (d := outer) (p := ¬ outer = 0) Decidable.not_not.mp
  rw [ite_not] at hotext
  simp only [text, ← hdtext, ← hotext]
  cases indirection with
  | direct =>
    refine ⟨_, ?_, .direct rfl (h.outer_eq_zero rfl) hds⟩
    simp [listed]
  | preindexed =>
    refine ⟨_, ?_, .preindexed rfl hds hos⟩
    simp [listed, bracketed]
  | postindexed =>
    refine ⟨_, ?_, .postindexed rfl (h.index_ne_none rfl) hds hos⟩
    simp [listed, bracketed]

end FullIndex

/-- The value as an unsigned number. -/
def Datum.toNat : Datum → Nat
  | .byte v => v.toNat
  | .word v => v.toNat
  | .long v => v.toNat

namespace EffectiveAddress

/-- The operand an address stands for, unless it stands for none. -/
def location? : EffectiveAddress → Option Location
  | .register r => some (.register r)
  | .indirect n => some (.memory (.displaced (.address n) 0))
  | .postincrement n => some (.postincrement n)
  | .predecrement n => some (.predecrement n)
  | .displaced base d => some (.memory (.displaced base (d.signExtend 32)))
  | .short address => some (.short address)
  | .absolute address => some (.absolute address)
  | .immediate value => some (.immediate value.toNat)
  | .brief base d index =>
    some (.memory { FullIndex.displaced base (d.signExtend 32) with index := some index })
  | .full parts => some (.memory parts)
  | .null | .reserved | .undefined _ => none

/-- An address has the parts that an index word can say. -/
def Sound : EffectiveAddress → Prop
  | .full parts => parts.Sound
  | _ => True

/-- The text of an address is written for the operand that it stands for. -/
theorem spells_text {ea : EffectiveAddress} {l : Location} (hl : ea.location? = some l)
    (hsound : ea.Sound) : l.Spells ea.text := by
  cases ea with
  | register r =>
    cases hl
    exact .register r
  | indirect n =>
    cases hl
    exact .memory (s := (Base.address n).text) (FullIndex.Spells.direct rfl rfl (.omitted rfl))
  | postincrement n =>
    cases hl
    exact .postincrement n
  | predecrement n =>
    cases hl
    exact .predecrement n
  | displaced base d =>
    cases hl
    have htext : text (.displaced base d) =
        "(" ++ listed ([.displacement (d.signExtend 32)] ++ names (some base) none) ++ ")" := by
      simp [text, listed, names, Item.text, Hex.signed_signExtend, String.append_assoc]
    exact htext ▸ .memory (.direct rfl rfl .shown)
  | short address =>
    cases hl
    exact .short address
  | absolute address =>
    cases hl
    exact .absolute address
  | immediate value =>
    cases hl
    have htext : text (.immediate value) = "#$" ++ Hex.lower value.toNat := by
      rw [show "#$" = "#" ++ "$" by decide, String.append_assoc]
      cases value <;> rfl
    exact htext ▸ .immediate value.toNat
  | brief base d index =>
    cases hl
    have htext : text (.brief base d index) =
        "(" ++ listed ([.displacement (d.signExtend 32)] ++ names (some base) (some index)) ++
          ")" := by
      simp [text, listed, names, Item.text, Hex.signed_signExtend, String.append_assoc]
    exact htext ▸ .memory (.direct rfl rfl .shown)
  | full parts =>
    cases hl
    obtain ⟨s, hs, hspells⟩ := FullIndex.Sound.spells_text hsound
    rw [text, hs]
    exact .memory hspells
  | null | reserved | undefined _ => cases hl

end EffectiveAddress

end Disasm68
