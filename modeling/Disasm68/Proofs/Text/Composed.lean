import Disasm68.Proofs.Text.Printable
import Disasm68.Proofs.Text.Solid

/-!
# Texts composed of spelled ones

A text is *spelled* with some letters if it consists of them and is not empty. Texts are composed by
writing spelled ones next to each other or with a single comma or blank between them. What is
composed has no other characters than these (`Composed.forall_mem`), and if commas and blanks are no
letters, it is solid: it neither begins nor ends with one of them, and no two of them are adjacent
(`Composed.solid`).
-/

namespace Disasm68.Text

variable {isLetter isLetter' : Char → Bool} {s t : String}

/-- A text of the given letters. -/
def Written (isLetter : Char → Bool) (s : String) : Prop :=
  ∀ c ∈ s.toList, isLetter c = true

instance (isLetter : Char → Bool) (s : String) : Decidable (Written isLetter s) :=
  List.decidableBAll (isLetter · = true) s.toList

@[simp] theorem written_append :
    Written isLetter (s ++ t) ↔ Written isLetter s ∧ Written isLetter t := by
  simp only [Written, String.toList_append, List.forall_mem_append]

/-- A number is written with its digits. -/
theorem written_digits {base : Nat} (hbase : 1 < base)
    (h : ∀ d < base, isLetter d.digitChar = true) (n : Nat) :
    Written isLetter (String.ofList (Nat.toDigits base n)) := by
  rw [Written, String.toList_ofList]
  exact forall_mem_toDigits hbase h n

/-- A text that is written with the given letters and not empty. -/
structure Spelled (isLetter : Char → Bool) (s : String) : Prop where
  ne_empty : s ≠ ""
  written : Written isLetter s

instance (isLetter : Char → Bool) (s : String) : Decidable (Spelled isLetter s) :=
  decidable_of_iff (s ≠ "" ∧ Written isLetter s)
    ⟨fun h => ⟨h.1, h.2⟩, fun h => ⟨h.ne_empty, h.written⟩⟩

namespace Spelled

theorem mono (h : Spelled isLetter s) (hsub : ∀ c, isLetter c = true → isLetter' c = true) :
    Spelled isLetter' s :=
  ⟨h.ne_empty, fun c hc => hsub c (h.written c hc)⟩

/-- Further letters may follow. -/
theorem append_written (h : Spelled isLetter s) (ht : Written isLetter t) :
    Spelled isLetter (s ++ t) := by
  refine ⟨fun hempty => h.ne_empty (String.append_eq_empty_iff.mp hempty).1, ?_⟩
  exact written_append.mpr ⟨h.written, ht⟩

theorem append (hs : Spelled isLetter s) (ht : Spelled isLetter t) : Spelled isLetter (s ++ t) :=
  hs.append_written ht.written

/-- Spelled texts in a list are spelled if the separator consists of letters too. -/
theorem intercalate {sep : String} {texts : List String} (hsep : Written isLetter sep)
    (hne : texts ≠ []) (h : ∀ s ∈ texts, Spelled isLetter s) :
    Spelled isLetter (sep.intercalate texts) := by
  have hempty : "" ∉ texts := fun hmem => (h _ hmem).ne_empty rfl
  refine ⟨mt (intercalate_eq_empty_iff hempty).mp hne, ?_⟩
  exact forall_mem_intercalate hsep fun s hs => (h s hs).written

/-- A number has a digit. -/
theorem ofDigits {base : Nat} (hbase : 1 < base) (h : ∀ d < base, isLetter d.digitChar = true)
    (n : Nat) : Spelled isLetter (String.ofList (Nat.toDigits base n)) :=
  ⟨fun hempty => Nat.toDigits_ne_nil (String.ofList_eq_empty_iff.mp hempty),
    written_digits hbase h n⟩

/-- What has no marks among its letters is solid. -/
theorem solid {marks : Marks} (h : Spelled isLetter s)
    (hmarks : (marks.opens ++ marks.closes).any isLetter = false) : Solid marks s := by
  have hletter {m : Char} (hm : m ∈ marks.opens ++ marks.closes) : m ∉ s.toList :=
    fun hmem => List.any_eq_false.mp hmarks m hm (h.written m hmem)
  refine solid_of_forall h.ne_empty fun c hc => ⟨fun hopen => ?_, fun hclose => ?_⟩
  · exact hletter (List.mem_append_left _ hopen) hc
  · exact hletter (List.mem_append_right _ hclose) hc

end Spelled

/-- What is composed of spelled texts. -/
inductive Composed (isLetter : Char → Bool) : String → Prop where
  | spelled {s : String} (h : Spelled isLetter s) : Composed isLetter s
  | append {s t : String} (hs : Composed isLetter s) (ht : Composed isLetter t) :
      Composed isLetter (s ++ t)
  | join {s t : String} (sep : String) (hsep : sep = "," ∨ sep = " ") (hs : Composed isLetter s)
      (ht : Composed isLetter t) : Composed isLetter (s ++ sep ++ t)

namespace Composed

/-- There are no other characters than letters, commas and blanks. -/
theorem forall_mem (h : Composed isLetter s) :
    ∀ c ∈ s.toList, isLetter c = true ∨ c = ',' ∨ c = ' ' := by
  induction h with
  | spelled h => exact fun c hc => .inl (h.written c hc)
  | append _ _ ihs iht =>
    rw [String.toList_append]
    exact List.forall_mem_append.mpr ⟨ihs, iht⟩
  | join sep hsep _ _ ihs iht =>
    have hmark : ∀ c ∈ sep.toList, isLetter c = true ∨ c = ',' ∨ c = ' ' := by
      rcases hsep with rfl | rfl <;> simp
    rw [String.toList_append, String.toList_append]
    exact List.forall_mem_append.mpr ⟨List.forall_mem_append.mpr ⟨ihs, hmark⟩, iht⟩

/-- **A composed text is solid**: nothing is missing before, behind or between its commas and
blanks. -/
theorem solid (h : Composed isLetter s) (hcomma : isLetter ',' = false)
    (hblank : isLetter ' ' = false) : Solid .separators s := by
  induction h with
  | spelled h => exact h.solid (by simp [Marks.separators, hcomma, hblank])
  | append _ _ ihs iht => exact ihs.append iht
  | join sep hsep _ _ ihs iht =>
    refine ihs.join ?_ iht
    rcases hsep with rfl | rfl
    · exact .singleton ','
    · exact .singleton ' '

/-- A composed text may be enclosed by what is spelled. -/
theorem enclose {left right : String} (hleft : Spelled isLetter left)
    (hright : Spelled isLetter right) (h : Composed isLetter s) :
    Composed isLetter (left ++ s ++ right) :=
  .append (.append (.spelled hleft) h) (.spelled hright)

/-- Composed texts between commas are composed. -/
theorem intercalate {texts : List String} (hne : texts ≠ [])
    (h : ∀ s ∈ texts, Composed isLetter s) : Composed isLetter (",".intercalate texts) := by
  induction texts with
  | nil => exact absurd rfl hne
  | cons s rest ih =>
    obtain ⟨hs, hrest⟩ := List.forall_mem_cons.mp h
    by_cases hnil : rest = []
    · rw [hnil, String.intercalate_singleton]
      exact hs
    · rw [String.intercalate_cons_of_ne_nil hnil]
      exact .join "," (.inl rfl) hs (ih hnil hrest)

end Composed

end Disasm68.Text
