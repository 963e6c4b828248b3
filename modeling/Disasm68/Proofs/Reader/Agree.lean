import Disasm68.Proofs.Reader.Shows

/-!
# Runs at two cursors

Two cursors *agree* on `k` words when the next `k` words under both are the same, and so are the
longs that lie within them. They may stand at different addresses, in different memories and belong
to different processors.

A reader that consumes every long it looks at cannot tell such cursors apart (`Shows.run_agree`):
either its runs at both are the same and take `k` words at most, or both take more than `k`.
-/

namespace Disasm68

/-- The next `k` words under two cursors are the same, and so are the longs within them. -/
structure Cursor.Agree (c c' : Cursor) (k : Nat) : Prop where
  word : ∀ i < k, (c'.advance i).word = (c.advance i).word
  long : ∀ i, i + 1 < k → (c'.advance i).long = (c.advance i).long

namespace Cursor

/-- A long that does not straddle the top of the bus is the next two words. -/
theorem long_eq_append {c : Cursor} (h : ¬ c.Straddles) : c.long = c.word ++ (c.advance 1).word := by
  unfold long Memory.long
  rw [busAddress_add_two h]
  rfl

namespace Agree

variable {c c' : Cursor}

/-- Where no long straddles the top of a bus, the words decide. -/
theorem of_words {k : Nat} (h : ∀ i < k, (c'.advance i).word = (c.advance i).word)
    (hc : ∀ i, i + 1 < k → ¬ (c.advance i).Straddles)
    (hc' : ∀ i, i + 1 < k → ¬ (c'.advance i).Straddles) : c.Agree c' k := by
  refine ⟨h, fun i hi => ?_⟩
  rw [long_eq_append (hc i hi), long_eq_append (hc' i hi), advance_advance, advance_advance,
    h i (by omega), h (i + 1) hi]

/-- Behind `n` of the words the cursors agree on the others. -/
theorem advance {n k : Nat} (h : c.Agree c' (n + k)) : (c.advance n).Agree (c'.advance n) k := by
  refine ⟨fun i hi => ?_, fun i hi => ?_⟩
  · rw [advance_advance, advance_advance]
    exact h.word (n + i) (by omega)
  · rw [advance_advance, advance_advance]
    exact h.long (n + i) (by omega)

theorem word_zero {k : Nat} (h : c.Agree c' (k + 1)) : c'.word = c.word := by
  have hword := h.word 0 (Nat.succ_pos k)
  rwa [advance_zero, advance_zero] at hword

theorem long_zero {k : Nat} (h : c.Agree c' (k + 2)) : c'.long = c.long := by
  have hlong := h.long 0 (by omega)
  rwa [advance_zero, advance_zero] at hlong

end Agree

end Cursor

/-- **Runs at cursors that agree.** The induction is on the reader: as long as its words lie within
the common ones, both runs go on with the same reader. -/
theorem Reader.Shows.run_agree {α β : Type} {r : Reader α} {f : α → β} (hr : r.Shows f)
    {c c' : Cursor} {k : Nat} (h : c.Agree c' k) :
    (r.run c).2 ≤ k ∧ r.run c' = r.run c ∨ k < (r.run c).2 ∧ k < (r.run c').2 := by
  induction r generalizing c c' k with
  | done a => exact .inl ⟨Nat.zero_le k, rfl⟩
  | word next ih =>
    cases k with
    | zero =>
      right
      simp only [run]
      omega
    | succ k =>
      have hrest : (c.advance 1).Agree (c'.advance 1) k := by
        apply Cursor.Agree.advance
        rwa [Nat.add_comm]
      simp only [run, h.word_zero]
      rcases ih c.word (hr c.word) hrest with ⟨hle, heq⟩ | ⟨hlt, hlt'⟩
      · exact .inl ⟨by omega, by rw [heq]⟩
      · exact .inr ⟨by omega, by omega⟩
  | long next ih =>
    cases k with
    | zero =>
      right
      simp only [run]
      omega
    | succ k =>
      cases k with
      | zero =>
        right
        simp only [run]
        omega
      | succ k =>
        have hrest : (c.advance 2).Agree (c'.advance 2) k := by
          apply Cursor.Agree.advance
          rwa [Nat.add_comm]
        simp only [run, h.long_zero]
        rcases ih c.long (hr.1 c.long) hrest with ⟨hle, heq⟩ | ⟨hlt, hlt'⟩
        · exact .inl ⟨by omega, by rw [heq]⟩
        · exact .inr ⟨by omega, by omega⟩
  | peek next ih => exact hr.elim

end Disasm68
