import Disasm68.Memory.Reader

/-!
# What a reader ensures

`r.Ensures Q` says that the value of `r` and the number of words it takes satisfy `Q` whatever the
words are. It is the weakest precondition of the reader, computed along the tree, so a property of
everything an instruction can decode to is shown by going through its reader once
(`ensures_bind`), and `Ensures.run` turns it into a property of every run.
-/

namespace Disasm68.Reader

variable {α β : Type}

/-- Whatever the words are, the value and the number of words taken satisfy `Q`. -/
def Ensures : Reader α → (α → Nat → Prop) → Prop
  | .done a, Q => Q a 0
  | .word next, Q => ∀ w, (next w).Ensures fun a n => Q a (1 + n)
  | .long next, Q => ∀ l, (next l).Ensures fun a n => Q a (2 + n)
  | .peek next, Q => ∀ l, (next l).Ensures Q

@[simp] theorem ensures_done (a : α) (Q : α → Nat → Prop) : (done a).Ensures Q ↔ Q a 0 := Iff.rfl

@[simp] theorem ensures_word (next : Word → Reader α) (Q : α → Nat → Prop) :
    (Reader.word next).Ensures Q ↔ ∀ w, (next w).Ensures fun a n => Q a (1 + n) := Iff.rfl

@[simp] theorem ensures_long (next : Long → Reader α) (Q : α → Nat → Prop) :
    (Reader.long next).Ensures Q ↔ ∀ l, (next l).Ensures fun a n => Q a (2 + n) := Iff.rfl

@[simp] theorem ensures_peek (next : Long → Reader α) (Q : α → Nat → Prop) :
    (peek next).Ensures Q ↔ ∀ l, (next l).Ensures Q := Iff.rfl

/-- Every run meets what its reader ensures. -/
theorem Ensures.run {r : Reader α} {Q : α → Nat → Prop} (h : r.Ensures Q) (c : Cursor) :
    Q (r.run c).1 (r.run c).2 := by
  induction r generalizing Q c with
  | done a => exact h
  | word next ih => exact ih c.word (h c.word) (c.advance 1)
  | long next ih => exact ih c.long (h c.long) (c.advance 2)
  | peek next ih => exact ih c.long (h c.long) c

/-- What is ensured may be weakened. -/
theorem Ensures.mono {r : Reader α} {P Q : α → Nat → Prop} (h : r.Ensures P)
    (hPQ : ∀ a n, P a n → Q a n) : r.Ensures Q := by
  induction r generalizing P Q with
  | done a => exact hPQ a 0 h
  | word next ih => exact fun w => ih w (h w) fun a n => hPQ a (1 + n)
  | long next ih => exact fun l => ih l (h l) fun a n => hPQ a (2 + n)
  | peek next ih => exact fun l => ih l (h l) hPQ

/-- What holds anyway is ensured. -/
theorem Ensures.of_forall {r : Reader α} {Q : α → Nat → Prop} (h : ∀ a n, Q a n) : r.Ensures Q := by
  induction r generalizing Q with
  | done a => exact h a 0
  | word next ih => exact fun w => ih w fun a n => h a (1 + n)
  | long next ih => exact fun l => ih l fun a n => h a (2 + n)
  | peek next ih => exact fun l => ih l h

/-- The second of two readers starts counting where the first one stopped. -/
@[simp] theorem ensures_bind (r : Reader α) (f : α → Reader β) (Q : β → Nat → Prop) :
    (r.bind f).Ensures Q ↔ r.Ensures fun a m => (f a).Ensures fun b n => Q b (m + n) := by
  induction r generalizing Q with
  | done a => simp only [bind, ensures_done, Nat.zero_add]
  | word next ih => simp only [bind, ensures_word, ih, Nat.add_assoc]
  | long next ih => simp only [bind, ensures_long, ih, Nat.add_assoc]
  | peek next ih => simp only [bind, ensures_peek, ih]

/-- What does not depend on the words is ensured exactly if it holds. -/
@[simp] theorem ensures_const (r : Reader α) (p : Prop) : (r.Ensures fun _ _ => p) ↔ p := by
  induction r with
  | done => exact Iff.rfl
  | word next ih => simp only [ensures_word, ih, forall_const]
  | long next ih => simp only [ensures_long, ih, forall_const]
  | peek next ih => simp only [ensures_peek, ih, forall_const]

/-! ## The pieces readers are made of -/

@[simp] theorem ensures_nextWord (Q : Word → Nat → Prop) : nextWord.Ensures Q ↔ ∀ w, Q w 1 :=
  Iff.rfl

@[simp] theorem ensures_nextLong (Q : Long → Nat → Prop) : nextLong.Ensures Q ↔ ∀ l, Q l 2 :=
  Iff.rfl

@[simp] theorem ensures_peekLong (Q : Long → Nat → Prop) : peekLong.Ensures Q ↔ ∀ l, Q l 0 :=
  Iff.rfl

/-- What does not depend on the number of words need not be known of what is read before. -/
theorem ensures_behind (r : Reader α) {f : α → Reader β} {p : β → Prop}
    (h : ∀ a, (f a).Ensures fun b _ => p b) : (r.bind f).Ensures fun b _ => p b := by
  induction r with
  | done a => exact h a
  | word next ih => exact fun w => ih w
  | long next ih => exact fun l => ih l
  | peek next ih => exact fun l => ih l

/-- The bounds of two readers add up. -/
theorem bind_words_le {r : Reader α} {f : α → Reader β} {j k bound : Nat}
    (hr : r.Ensures fun _ n => n ≤ j) (hf : ∀ a, (f a).Ensures fun _ n => n ≤ k)
    (h : j + k ≤ bound) : (r.bind f).Ensures fun _ n => n ≤ bound := by
  rw [ensures_bind]
  refine hr.mono fun a m hm => ?_
  exact (hf a).mono fun _ n hn => by omega

/-- A value of any size takes two words at most. -/
theorem next_words_le (size : Size) : (next size).Ensures fun _ n => n ≤ 2 := by
  cases size <;> simp [next]

end Disasm68.Reader
