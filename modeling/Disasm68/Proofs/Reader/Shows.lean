import Disasm68.Proofs.Reader.Ensures
import Disasm68.Proofs.Reader.Fetches

/-!
# Longs that show

Two readers are *alike* when they take the same words in the same pieces and, for the same words,
yield related values. A reader *shows* its longs in a view of its value when it consumes every long
it looks at, when what it reads afterwards does not depend on the long, and when a long that differs
in its lowest bit differs in the view.

The lowest bit of a long is the lowest bit of its second word, the one a long that straddles the top
of the bus takes from outside. `Shows.run_over` says what such a word does to a run: it never
changes how many words are consumed, and where a run fetches off the bus at all it changes the view.
-/

namespace Disasm68.Reader

variable {α β γ δ : Type}

/-- Two readers that take the same words and yield related values for the same words. -/
inductive Alike (R : α → β → Prop) : Reader α → Reader β → Prop
  | done {a : α} {b : β} : R a b → Alike R (.done a) (.done b)
  | word {f : Word → Reader α} {g : Word → Reader β} :
      (∀ w, Alike R (f w) (g w)) → Alike R (.word f) (.word g)
  | long {f : Long → Reader α} {g : Long → Reader β} :
      (∀ l, Alike R (f l) (g l)) → Alike R (.long f) (.long g)
  | peek {f : Long → Reader α} {g : Long → Reader β} :
      (∀ l, Alike R (f l) (g l)) → Alike R (.peek f) (.peek g)

namespace Alike

/-- A weaker relation of the values is enough for a weaker likeness. -/
theorem mono {R S : α → β → Prop} {r : Reader α} {r' : Reader β} (h : Alike R r r')
    (hRS : ∀ a b, R a b → S a b) : Alike S r r' := by
  induction h with
  | done h => exact .done (hRS _ _ h)
  | word _ ih => exact .word ih
  | long _ ih => exact .long ih
  | peek _ ih => exact .peek ih

/-- Likeness goes on behind like readers. -/
theorem bind {R : α → β → Prop} {S : γ → δ → Prop} {r : Reader α} {r' : Reader β}
    {f : α → Reader γ} {g : β → Reader δ} (h : Alike R r r')
    (hfg : ∀ a b, R a b → Alike S (f a) (g b)) : Alike S (r.bind f) (r'.bind g) := by
  induction h with
  | done h => exact hfg _ _ h
  | word _ ih => exact .word ih
  | long _ ih => exact .long ih
  | peek _ ih => exact .peek ih

/-- A reader is like itself. -/
theorem refl (r : Reader α) : Alike Eq r r := by
  induction r with
  | done a => exact .done rfl
  | word _ ih => exact .word ih
  | long _ ih => exact .long ih
  | peek _ ih => exact .peek ih

/-- Behind one reader, likeness is likeness of what follows. -/
theorem bind_left {S : γ → δ → Prop} (r : Reader α) {f : α → Reader γ} {g : α → Reader δ}
    (h : ∀ a, Alike S (f a) (g a)) : Alike S (r.bind f) (r.bind g) :=
  (refl r).bind fun a _ hab => hab ▸ h a

/-- Like readers over memories that agree on what the first one fetches yield related values and
take the same number of words. -/
theorem run_over {R : α → β → Prop} {r : Reader α} {r' : Reader β} (h : Alike R r r') {c : Cursor}
    {m : Memory} (hm : ∀ a ∈ r.fetches c, m.word a = c.memory.word a) :
    R (r.run c).1 (r'.run (c.withMemory m)).1 ∧ (r'.run (c.withMemory m)).2 = (r.run c).2 := by
  induction h generalizing c with
  | done h => exact ⟨h, rfl⟩
  | word _ ih =>
    simp only [fetches, List.forall_mem_cons] at hm
    have hw : (c.withMemory m).word = c.word := hm.1
    have hrest := ih c.word hm.2
    simp only [run, hw, Cursor.withMemory_advance, hrest.2, and_true]
    exact hrest.1
  | long _ ih =>
    simp only [fetches, List.forall_mem_cons] at hm
    have hl : (c.withMemory m).long = c.long := Memory.long_congr hm.1 hm.2.1
    have hrest := ih c.long hm.2.2
    simp only [run, hl, Cursor.withMemory_advance, hrest.2, and_true]
    exact hrest.1
  | peek _ ih =>
    simp only [fetches, List.forall_mem_cons] at hm
    have hl : (c.withMemory m).long = c.long := Memory.long_congr hm.1 hm.2.1
    simp only [run, hl]
    exact ih c.long hm.2.2

end Alike

/-- Every long is consumed, does not decide what is read after it, and differs in the view `f` when
it differs in its lowest bit. -/
def Shows (f : α → β) : Reader α → Prop
  | .done _ => True
  | .word next => ∀ w, (next w).Shows f
  | .long next => (∀ l, (next l).Shows f) ∧ ∀ l l' : Long,
      Alike (fun a a' => l.getLsbD 0 ≠ l'.getLsbD 0 → f a ≠ f a') (next l) (next l')
  | .peek _ => False

namespace Shows

/-- What is read later keeps a long visible if it depends on the value read before only through
what is shown of it. -/
theorem bind {r : Reader α} {g : α → Reader β} {f : α → γ} {h : β → δ} (hr : r.Shows f)
    (hg : ∀ a, (g a).Shows h)
    (hgg : ∀ a a', Alike (fun b b' => f a ≠ f a' → h b ≠ h b') (g a) (g a')) :
    (r.bind g).Shows h := by
  induction r with
  | done a => exact hg a
  | word next ih => exact fun w => ih w (hr w)
  | long next ih =>
    refine ⟨fun l => ih l (hr.1 l), fun l l' => (hr.2 l l').bind fun a a' ha => ?_⟩
    exact (hgg a a').mono fun b b' hb hbit => hb (ha hbit)
  | peek next ih => exact hr.elim

/-- A view that keeps apart what another keeps apart shows as much. -/
theorem mono {r : Reader α} {f : α → β} {g : α → γ} (hr : r.Shows f)
    (hfg : ∀ a a', f a ≠ f a' → g a ≠ g a') : r.Shows g := by
  induction r with
  | done a => exact trivial
  | word next ih => exact fun w => ih w (hr w)
  | long next ih =>
    exact ⟨fun l => ih l (hr.1 l), fun l l' =>
      (hr.2 l l').mono fun a a' h hbit => hfg a a' (h hbit)⟩
  | peek next ih => exact hr.elim

/-- What makes a value of the value read keeps a long visible if it keeps the view apart. -/
theorem bind_done {r : Reader α} {make : α → β} {f : α → γ} {h : β → δ} (hr : r.Shows f)
    (hmake : ∀ a a', f a ≠ f a' → h (make a) ≠ h (make a')) :
    (r.bind fun a => .done (make a)).Shows h :=
  hr.bind (fun _ => trivial) fun a a' => .done (hmake a a')

/-- Of two values read one after the other, each shows if the other one does not hide it. -/
theorem bind_bind_done {r : Reader α} {q : Reader β} {make : α → β → γ} {f : α → δ} {g : β → δ}
    {h : γ → δ} (hr : r.Shows f) (hq : q.Shows g)
    (hf : ∀ a a' b, f a ≠ f a' → h (make a b) ≠ h (make a' b))
    (hg : ∀ a b b', g b ≠ g b' → h (make a b) ≠ h (make a b')) :
    (r.bind fun a => q.bind fun b => .done (make a b)).Shows h :=
  hr.bind (fun a => hq.bind_done (hg a)) fun a a' => .bind_left q fun b => .done (hf a a' b)

/-- A reader that shows its longs fetches exactly the words it consumes, as long as none of its
longs straddles the top of the bus. -/
theorem mem_fetches {r : Reader α} {f : α → β} (hr : r.Shows f) {c : Cursor}
    (hc : ∀ i < (r.run c).2, ¬ (c.advance i).Straddles) {a : Long} (ha : a ∈ r.fetches c) :
    ∃ i < (r.run c).2, a = (c.advance i).busAddress := by
  induction r generalizing c with
  | done => exact absurd ha List.not_mem_nil
  | word next ih =>
    simp only [run] at hc ⊢
    rcases List.mem_cons.mp ha with rfl | ha
    · exact ⟨0, by omega, by rw [Cursor.advance_zero]⟩
    · have hrest : ∀ i < ((next c.word).run (c.advance 1)).2,
          ¬ ((c.advance 1).advance i).Straddles := by
        intro i hi
        rw [Cursor.advance_advance]
        exact hc (1 + i) (by omega)
      obtain ⟨i, hi, rfl⟩ := ih c.word (hr c.word) hrest ha
      exact ⟨1 + i, by omega, by rw [Cursor.advance_advance]⟩
  | long next ih =>
    simp only [run] at hc ⊢
    rcases List.mem_cons.mp ha with rfl | ha
    · exact ⟨0, by omega, by rw [Cursor.advance_zero]⟩
    · rcases List.mem_cons.mp ha with rfl | ha
      · have h0 := hc 0 (by omega)
        rw [Cursor.advance_zero] at h0
        exact ⟨1, by omega, Cursor.busAddress_add_two h0⟩
      · have hrest : ∀ i < ((next c.long).run (c.advance 2)).2,
            ¬ ((c.advance 2).advance i).Straddles := by
          intro i hi
          rw [Cursor.advance_advance]
          exact hc (2 + i) (by omega)
        obtain ⟨i, hi, rfl⟩ := ih c.long (hr.1 c.long) hrest ha
        exact ⟨2 + i, by omega, by rw [Cursor.advance_advance]⟩
  | peek next ih => exact hr.elim

/-- The lowest bit of a long is the lowest bit of its second word. -/
theorem getLsbD_long (m : Memory) (a : Long) :
    (m.long a).getLsbD 0 = (m.word (a + 2)).getLsbD 0 := by
  rw [Memory.long, BitVec.getLsbD_append, if_pos (by decide)]

/-- **Runs over memories that agree on the bus.** They consume the same number of words. Either all
the run fetches is on the bus, or its values are told apart as soon as the memories differ in the
lowest bit of every word outside. A run has one long at most that straddles the top, since behind it
the bus has room for an instruction. -/
theorem run_over {r : Reader α} {f : α → β} (hr : r.Shows f) {c : Cursor} {m : Memory} {k : Nat}
    (hk : r.Ensures fun _ n => n ≤ k) (hk12 : k ≤ 12)
    (hbus : ∀ a ≤ c.cpu.addressMask, m.word a = c.memory.word a) :
    (r.run (c.withMemory m)).2 = (r.run c).2 ∧
      ((∀ a ∈ r.fetches c, a ≤ c.cpu.addressMask) ∨
        ((∀ a, c.cpu.addressMask < a → (m.word a).getLsbD 0 ≠ (c.memory.word a).getLsbD 0) →
          f (r.run (c.withMemory m)).1 ≠ f (r.run c).1)) := by
  induction r generalizing c k with
  | done a => exact ⟨rfl, .inl fun a ha => absurd ha List.not_mem_nil⟩
  | word next ih =>
    have hw : (c.withMemory m).word = c.word := hbus _ c.busAddress_le
    have hle : (next c.word).Ensures fun _ n => n ≤ k - 1 :=
      (hk c.word).mono fun _ n hn => by omega
    obtain ⟨hn, hv⟩ := ih c.word (hr c.word) (c := c.advance 1) hle (by omega) hbus
    simp only [run, fetches, hw, Cursor.withMemory_advance, List.forall_mem_cons]
    exact ⟨by rw [hn], hv.imp_left fun h => ⟨c.busAddress_le, h⟩⟩
  | long next ih =>
    have hle : (next c.long).Ensures fun _ n => n ≤ k - 2 :=
      (hk c.long).mono fun _ n hn => by omega
    simp only [run, fetches, Cursor.withMemory_advance, List.forall_mem_cons]
    by_cases hc : c.Straddles
    · have hroom : ∀ i < ((next c.long).run (c.advance 2)).2,
          ¬ ((c.advance 2).advance i).Straddles := by
        intro i hi
        have hlast := hle.run (c.advance 2)
        rw [Cursor.advance_advance]
        exact Cursor.not_straddles_of_straddles hc (by omega) (by omega)
      have hrest : ∀ a ∈ (next c.long).fetches (c.advance 2), m.word a = c.memory.word a := by
        intro a ha
        obtain ⟨i, -, rfl⟩ := mem_fetches (hr.1 c.long) hroom ha
        exact hbus _ (Cursor.busAddress_le _)
      obtain ⟨hv, hn⟩ := (hr.2 c.long (c.withMemory m).long).run_over (c := c.advance 2) hrest
      refine ⟨by rw [hn], .inr fun hout => (hv ?_).symm⟩
      rw [Cursor.withMemory_long, getLsbD_long, Cursor.long, getLsbD_long]
      exact (hout _ hc).symm
    · have hnext : c.busAddress + 2 ≤ c.cpu.addressMask := by
        rw [Cursor.busAddress_add_two hc]
        exact Cursor.busAddress_le _
      have hl : (c.withMemory m).long = c.long :=
        Memory.long_congr (hbus _ c.busAddress_le) (hbus _ hnext)
      obtain ⟨hn, hv⟩ := ih c.long (hr.1 c.long) (c := c.advance 2) hle (by omega) hbus
      rw [hl]
      exact ⟨by rw [hn], hv.imp_left fun h => ⟨c.busAddress_le, hnext, h⟩⟩
  | peek next ih => exact hr.elim

end Shows

end Disasm68.Reader
