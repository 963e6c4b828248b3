/-!
# Lists of texts between separators

Changing one text of a list changes the whole, and so does leaving one out that is not empty. The
first text stands at the beginning of the whole, so what has a length of its own can be read off
whatever follows (`append_inj`). Where no text contains the separator, the whole determines the
list (`intercalate_inj`).
-/

namespace Disasm68.Text

/-- Two wholes are the same exactly if what they begin with, of one length, and the rest are. -/
theorem append_inj {s s' t t' : String} (hlen : s.length = s'.length) :
    s ++ t = s' ++ t' ↔ s = s' ∧ t = t' := by
  refine ⟨fun h => ?_, fun ⟨hs, ht⟩ => hs ▸ ht ▸ rfl⟩
  rw [← String.toList_inj, String.toList_append, String.toList_append] at h
  obtain ⟨hs, ht⟩ := List.append_inj h hlen
  exact ⟨String.toList_inj.mp hs, String.toList_inj.mp ht⟩

/-- The first text of a list begins the whole. -/
theorem exists_intercalate_cons (sep s : String) (rest : List String) :
    ∃ t, sep.intercalate (s :: rest) = s ++ t := by
  cases rest with
  | nil => exact ⟨"", by simp⟩
  | cons r rest => exact ⟨_, String.intercalate_cons_cons.trans (String.append_assoc ..)⟩

/-- The last text of a list ends the whole, and what stands before it does not depend on it. -/
theorem exists_intercalate_concat (sep : String) (init : List String) :
    ∃ t, ∀ s, sep.intercalate (init ++ [s]) = t ++ s := by
  induction init with
  | nil => exact ⟨"", fun s => by simp⟩
  | cons p init ih =>
    obtain ⟨t, ht⟩ := ih
    refine ⟨p ++ sep ++ t, fun s => ?_⟩
    rw [List.cons_append, String.intercalate_cons_of_ne_nil (by simp), ht]
    simp only [String.append_assoc]

/-- Another text in one place makes another whole. -/
theorem intercalate_replace_inj (sep : String) (init rest : List String) {s t : String} :
    sep.intercalate (init ++ s :: rest) = sep.intercalate (init ++ t :: rest) ↔ s = t := by
  induction init with
  | nil =>
    cases rest with
    | nil => simp
    | cons r rest => simp [String.append_left_inj]
  | cons p init ih =>
    rw [List.cons_append, List.cons_append, String.intercalate_cons_of_ne_nil (by simp),
      String.intercalate_cons_of_ne_nil (by simp), String.append_right_inj, ih]

/-- A text that is not empty is missed where it is left out. -/
theorem intercalate_insert_ne (sep : String) (init rest : List String) {s : String} (hs : s ≠ "") :
    sep.intercalate (init ++ s :: rest) ≠ sep.intercalate (init ++ rest) := by
  induction init with
  | nil =>
    cases rest with
    | nil => simpa using hs
    | cons r rest =>
      intro h
      rw [List.nil_append, List.nil_append, String.intercalate_cons_cons,
        String.append_eq_right_iff, String.append_eq_empty_iff] at h
      exact hs h.1
  | cons p init ih =>
    rw [List.cons_append, List.cons_append, String.intercalate_cons_of_ne_nil (by simp)]
    by_cases hrest : init ++ rest = []
    · intro h
      obtain ⟨rfl, rfl⟩ := List.append_eq_nil_iff.mp hrest
      rw [List.nil_append, List.nil_append, String.intercalate_singleton,
        String.intercalate_singleton, String.append_assoc, String.append_eq_left_iff,
        String.append_eq_empty_iff] at h
      exact hs h.2
    · rw [String.intercalate_cons_of_ne_nil hrest]
      intro h
      exact ih ((String.append_right_inj _).mp h)

/-- What holds of the characters of the separator and of every text holds of those of the whole. -/
theorem forall_mem_intercalate {p : Char → Prop} {sep : String} {texts : List String}
    (hsep : ∀ c ∈ sep.toList, p c) (htexts : ∀ s ∈ texts, ∀ c ∈ s.toList, p c) :
    ∀ c ∈ (sep.intercalate texts).toList, p c := by
  induction texts with
  | nil => exact List.forall_mem_nil _
  | cons s rest ih =>
    obtain ⟨hs, hrest⟩ := List.forall_mem_cons.mp htexts
    by_cases hnil : rest = []
    · rw [hnil, String.intercalate_singleton]
      exact hs
    · rw [String.intercalate_cons_of_ne_nil hnil, String.toList_append, String.toList_append,
        List.forall_mem_append, List.forall_mem_append]
      exact ⟨⟨hs, hsep⟩, ih hrest⟩

/-- A character that neither the separator nor a text contains is not in the whole. -/
theorem not_mem_intercalate {c : Char} {sep : String} {texts : List String}
    (hsep : c ∉ sep.toList) (htexts : ∀ s ∈ texts, c ∉ s.toList) :
    c ∉ (sep.intercalate texts).toList := by
  have hall : ∀ d ∈ (sep.intercalate texts).toList, d ≠ c :=
    forall_mem_intercalate (fun d hd heq => hsep (heq ▸ hd))
      (fun s hs d hd heq => htexts s hs (heq ▸ hd))
  exact fun hmem => hall c hmem rfl

/-! ## Texts without the separator -/

variable {sep : String} {c : Char} {texts texts' : List String}

/-- The whole splits into its texts at a separator that none of them contains. -/
theorem splitOn_intercalate (hsep : sep.toList = [c]) (hne : texts ≠ [])
    (h : ∀ s ∈ texts, c ∉ s.toList) :
    (sep.intercalate texts).toList.splitOn c = texts.map String.toList := by
  rw [String.toList_intercalate, hsep]
  refine List.splitOn_intercalate c ?_ (mt List.map_eq_nil_iff.mp hne)
  exact List.forall_mem_map.mpr h

/-- The whole determines a list that is not empty. -/
theorem intercalate_inj (hsep : sep.toList = [c]) (hne : texts ≠ []) (hne' : texts' ≠ [])
    (h : ∀ s ∈ texts, c ∉ s.toList) (h' : ∀ s ∈ texts', c ∉ s.toList) :
    sep.intercalate texts = sep.intercalate texts' ↔ texts = texts' := by
  refine ⟨fun heq => ?_, congrArg _⟩
  have hsplit := congrArg (fun s : String => s.toList.splitOn c) heq
  simp only [splitOn_intercalate hsep hne h, splitOn_intercalate hsep hne' h'] at hsplit
  exact (List.map_inj_right fun _ _ => String.toList_inj.mp).mp hsplit

/-- Only an empty list of texts that are not empty makes an empty whole. -/
theorem intercalate_eq_empty_iff (hempty : "" ∉ texts) :
    sep.intercalate texts = "" ↔ texts = [] := by
  refine ⟨fun h => ?_, fun h => h ▸ String.intercalate_nil⟩
  cases texts with
  | nil => rfl
  | cons s rest =>
    obtain ⟨t, ht⟩ := exists_intercalate_cons sep s rest
    rw [ht, String.append_eq_empty_iff] at h
    exact absurd (h.1 ▸ List.mem_cons_self) hempty

/-- The whole determines a list of texts that are not empty. -/
theorem intercalate_inj_of_ne_empty (hsep : sep.toList = [c]) (hempty : "" ∉ texts)
    (hempty' : "" ∉ texts') (h : ∀ s ∈ texts, c ∉ s.toList) (h' : ∀ s ∈ texts', c ∉ s.toList) :
    sep.intercalate texts = sep.intercalate texts' ↔ texts = texts' := by
  by_cases hnil : texts = []
  · rw [hnil, String.intercalate_nil, eq_comm, intercalate_eq_empty_iff hempty', eq_comm]
  by_cases hnil' : texts' = []
  · rw [hnil', String.intercalate_nil, intercalate_eq_empty_iff hempty]
  · exact intercalate_inj hsep hnil hnil' h h'

end Disasm68.Text
