import Disasm68.Proofs.Text.Intercalate
import Mathlib.Data.List.Chain

/-!
# Texts in which nothing is missing

Some characters of a text are marks: something has to follow an opening one, and something has to
precede a closing one. A comma between items is both. A text is *tidy* if no closing mark stands
directly behind an opening one, so that no brackets are empty and no comma is doubled, and it is
*solid* if no closing mark begins it and no opening one ends it either.

Solid texts may be put next to each other (`Solid.append`), with a separator between them
(`Solid.join`, `Solid.intercalate`) or in brackets (`Solid.enclose`), and what comes of it is solid
again.
-/

namespace Disasm68.Text

/-- The characters behind which something has to follow, and those in front of which something has
to stand. -/
structure Marks where
  opens : List Char
  closes : List Char

namespace Marks

/-- Parentheses, square brackets and the commas in them. -/
def brackets : Marks := ⟨['(', '[', ','], [')', ']', ',']⟩

/-- The comma and the blank of which the separator of operands consists. -/
def separators : Marks := ⟨[',', ' '], [',', ' ']⟩

end Marks

variable (marks : Marks)

/-- Nothing is missing between two marks. -/
def Tidy (s : String) : Prop :=
  s.toList.IsChain fun c d => ¬ (c ∈ marks.opens ∧ d ∈ marks.closes)

instance (s : String) : Decidable (Tidy marks s) :=
  inferInstanceAs (Decidable (List.IsChain _ _))

/-- Nothing is missing at the ends either. -/
structure Solid (s : String) : Prop where
  tidy : Tidy marks s
  head : ∃ c, s.toList.head? = some c ∧ c ∉ marks.closes
  last : ∃ c, s.toList.getLast? = some c ∧ c ∉ marks.opens

instance (s : String) : Decidable (Solid marks s) :=
  decidable_of_iff (Tidy marks s ∧ s.toList.head?.any (· ∉ marks.closes) = true ∧
      s.toList.getLast?.any (· ∉ marks.opens) = true) <| by
    simp only [Option.any_eq_true, decide_eq_true_eq]
    exact ⟨fun ⟨htidy, hhead, hlast⟩ => ⟨htidy, hhead, hlast⟩, fun h => ⟨h.tidy, h.head, h.last⟩⟩

variable {marks} {s t sep : String} {texts : List String}

/-- What is put together of tidy texts is tidy if it is where they meet. -/
theorem Tidy.append (hs : Tidy marks s) (ht : Tidy marks t)
    (hmeet : ∀ c ∈ s.toList.getLast?, ∀ d ∈ t.toList.head?,
      ¬ (c ∈ marks.opens ∧ d ∈ marks.closes)) :
    Tidy marks (s ++ t) := by
  rw [Tidy, String.toList_append]
  exact List.IsChain.append hs ht hmeet

/-- A text without opening marks is tidy. -/
theorem tidy_of_forall (h : ∀ c ∈ s.toList, c ∉ marks.opens) : Tidy marks s :=
  List.Pairwise.isChain <|
    List.pairwise_of_forall_mem_list fun c hc _ _ hmeet => h c hc hmeet.1

/-- A text without marks is solid. -/
theorem solid_of_forall (hne : s ≠ "") (h : ∀ c ∈ s.toList, c ∉ marks.opens ∧ c ∉ marks.closes) :
    Solid marks s := by
  have hlist : s.toList ≠ [] := mt String.toList_eq_nil_iff.mp hne
  refine ⟨?_, ?_, ?_⟩
  · exact tidy_of_forall fun c hc => (h c hc).1
  · exact ⟨_, List.head?_eq_some_head hlist, (h _ (List.head_mem hlist)).2⟩
  · exact ⟨_, List.getLast?_eq_some_getLast hlist, (h _ (List.getLast_mem hlist)).1⟩

namespace Solid

theorem ne_empty (h : Solid marks s) : s ≠ "" := by
  rintro rfl
  obtain ⟨c, hc, -⟩ := h.head
  cases hc

/-- Nothing is missing where a solid text meets what follows it. -/
theorem not_opens (h : Solid marks s) : ∀ c ∈ s.toList.getLast?, c ∉ marks.opens := by
  intro c hc
  obtain ⟨d, hd, hopen⟩ := h.last
  rw [hd] at hc
  rwa [← Option.some.inj hc]

/-- Nor where it meets what precedes it. -/
theorem not_closes (h : Solid marks s) : ∀ c ∈ s.toList.head?, c ∉ marks.closes := by
  intro c hc
  obtain ⟨d, hd, hclose⟩ := h.head
  rw [hd] at hc
  rwa [← Option.some.inj hc]

theorem head_append (h : Solid marks s) (t : String) :
    ∃ c, (s ++ t).toList.head? = some c ∧ c ∉ marks.closes := by
  obtain ⟨c, hc, hclose⟩ := h.head
  refine ⟨c, ?_, hclose⟩
  rw [String.toList_append, List.head?_append, hc, Option.some_or]

theorem last_append (s : String) (h : Solid marks t) :
    ∃ c, (s ++ t).toList.getLast? = some c ∧ c ∉ marks.opens := by
  obtain ⟨c, hc, hopen⟩ := h.last
  refine ⟨c, ?_, hopen⟩
  rw [String.toList_append, List.getLast?_append, hc, Option.some_or]

/-- What is tidy may stand in front of a solid text. -/
theorem tidy_append (hsep : Tidy marks sep) (h : Solid marks s) : Tidy marks (sep ++ s) :=
  hsep.append h.tidy fun _ _ d hd hmeet => h.not_closes d hd hmeet.2

/-- Between solid texts anything tidy may stand. -/
theorem join (hsep : Tidy marks sep) (hs : Solid marks s) (ht : Solid marks t) :
    Solid marks (s ++ sep ++ t) := by
  rw [String.append_assoc]
  refine ⟨?_, hs.head_append _, ?_⟩
  · exact hs.tidy.append (ht.tidy_append hsep) fun c hc _ _ hmeet => hs.not_opens c hc hmeet.1
  · rw [← String.append_assoc]
    exact ht.last_append _

theorem append (hs : Solid marks s) (ht : Solid marks t) : Solid marks (s ++ t) := by
  have hjoin : Solid marks (s ++ "" ++ t) := hs.join .nil ht
  rwa [String.append_empty] at hjoin

/-- **Solid texts in a list are solid**, whatever tidy text separates them. -/
theorem intercalate (hsep : Tidy marks sep) (hne : texts ≠ [])
    (h : ∀ s ∈ texts, Solid marks s) : Solid marks (sep.intercalate texts) := by
  induction texts with
  | nil => exact absurd rfl hne
  | cons s rest ih =>
    obtain ⟨hs, hrest⟩ := List.forall_mem_cons.mp h
    by_cases hnil : rest = []
    · rw [hnil, String.intercalate_singleton]
      exact hs
    · rw [String.intercalate_cons_of_ne_nil hnil]
      exact hs.join hsep (ih hnil hrest)

/-- **A solid text in brackets is solid.** The first bracket does not close and the last one does
not open. -/
theorem enclose {left right : String} {l r : Char} (hleft : left.toList = [l])
    (hright : right.toList = [r]) (hl : l ∉ marks.closes) (hr : r ∉ marks.opens)
    (h : Solid marks s) : Solid marks (left ++ s ++ right) := by
  have htidy {u : String} {m : Char} (hu : u.toList = [m]) : Tidy marks u := by
    rw [Tidy, hu]
    exact .singleton m
  refine ⟨?_, ⟨l, ?_, hl⟩, ⟨r, ?_, hr⟩⟩
  · refine (h.tidy_append (htidy hleft)).append (htidy hright) fun c hc d _ hmeet => ?_
    obtain ⟨e, he, hopen⟩ := h.last_append left
    rw [he] at hc
    rw [← Option.some.inj hc] at hmeet
    exact hopen hmeet.1
  · simp [hleft]
  · simp [hright]

/-- A solid separator keeps tidy texts apart, so their list is tidy. -/
theorem tidy_intercalate (hsep : Solid marks sep) (h : ∀ s ∈ texts, Tidy marks s) :
    Tidy marks (sep.intercalate texts) := by
  induction texts with
  | nil => exact .nil
  | cons s rest ih =>
    obtain ⟨hs, hrest⟩ := List.forall_mem_cons.mp h
    by_cases hnil : rest = []
    · rw [hnil, String.intercalate_singleton]
      exact hs
    · rw [String.intercalate_cons_of_ne_nil hnil]
      refine (hs.append hsep.tidy ?_).append (ih hrest) fun c hc _ _ hmeet => ?_
      · exact fun _ _ d hd hmeet => hsep.not_closes d hd hmeet.2
      · obtain ⟨e, he, hopen⟩ := hsep.last_append s
        rw [he] at hc
        exact hopen (Option.some.inj hc ▸ hmeet.1)

/-- With fewer marks there is less that could be missing. -/
theorem mono {marks' : Marks} (hopens : marks'.opens ⊆ marks.opens)
    (hcloses : marks'.closes ⊆ marks.closes) (h : Solid marks s) : Solid marks' s := by
  obtain ⟨htidy, ⟨c, hc, hclose⟩, ⟨d, hd, hopen⟩⟩ := h
  refine ⟨?_, ⟨c, hc, mt (hcloses ·) hclose⟩, ⟨d, hd, mt (hopens ·) hopen⟩⟩
  exact htidy.imp fun e f hef hmeet => hef ⟨hopens hmeet.1, hcloses hmeet.2⟩

end Solid

end Disasm68.Text
