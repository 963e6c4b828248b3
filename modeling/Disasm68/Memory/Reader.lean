import Disasm68.Memory.Cursor

/-!
# Readers

A reader describes how a value is built from the words that follow an opcode, without saying where
they come from: it is a tree whose inner nodes ask for a word or a long and whose leaves hold the
value. How many words are consumed may depend on the words themselves, but on nothing else.

`Reader.run` supplies the words from a cursor and returns the value with the number of words
consumed. The main statement is `run_bind`: running one reader after another runs the second where
the first one stopped.
-/

namespace Disasm68

/-- A description of a value in terms of the words that encode it. -/
inductive Reader (α : Type) : Type where
  /-- The value is known. -/
  | done (value : α)
  /-- Consume a word. -/
  | word (next : Word → Reader α)
  /-- Consume a long, fetched in one piece. -/
  | long (next : Long → Reader α)
  /-- Look at the long that comes next and consume nothing. -/
  | peek (next : Long → Reader α)

namespace Reader

variable {α β : Type}

/-- Read on with the value of a first reader. -/
def bind : Reader α → (α → Reader β) → Reader β
  | .done a, f => f a
  | .word next, f => .word fun w => (next w).bind f
  | .long next, f => .long fun l => (next l).bind f
  | .peek next, f => .peek fun l => (next l).bind f

instance : Monad Reader where
  pure := .done
  bind := .bind

@[simp] theorem pure_eq_done (a : α) : (pure a : Reader α) = .done a := rfl

@[simp] theorem bind_eq (r : Reader α) (f : α → Reader β) : r >>= f = r.bind f := rfl

/-- Reading on with nothing to read changes nothing. -/
theorem bind_done (r : Reader α) : r.bind .done = r := by
  induction r with
  | done => rfl
  | word next ih => simp only [bind, ih]
  | long next ih => simp only [bind, ih]
  | peek next ih => simp only [bind, ih]

/-- Readers may be grouped in either way. -/
theorem bind_assoc {γ : Type} (r : Reader α) (f : α → Reader β) (g : β → Reader γ) :
    (r.bind f).bind g = r.bind fun a => (f a).bind g := by
  induction r with
  | done => rfl
  | word next ih => simp only [bind, ih]
  | long next ih => simp only [bind, ih]
  | peek next ih => simp only [bind, ih]

instance : LawfulMonad Reader :=
  LawfulMonad.mk' Reader (fun r => bind_done r) (fun _ _ => rfl) (fun r f g => bind_assoc r f g)

/-- Consume a word. -/
def nextWord : Reader Word := .word .done

/-- Consume a long. -/
def nextLong : Reader Long := .long .done

/-- The long that comes next, left in place. -/
def peekLong : Reader Long := .peek .done

/-- Consume a value of a given size. A byte is the low half of a word of its own. -/
def next : Size → Reader Datum
  | .byte => .word fun w => .done (.byte (w.setWidth 8))
  | .word => .word fun w => .done (.word w)
  | .long => .long fun l => .done (.long l)

/-- The value at a cursor and the number of words it took. -/
def run : Reader α → Cursor → α × Nat
  | .done a, _ => (a, 0)
  | .word next, c =>
    let r := (next c.word).run (c.advance 1)
    (r.1, 1 + r.2)
  | .long next, c =>
    let r := (next c.long).run (c.advance 2)
    (r.1, 2 + r.2)
  | .peek next, c => (next c.long).run c

/-- The second of two readers runs where the first one stopped, and their words add up. -/
theorem run_bind (r : Reader α) (f : α → Reader β) (c : Cursor) :
    (r.bind f).run c =
      let first := r.run c
      let second := (f first.1).run (c.advance first.2)
      (second.1, first.2 + second.2) := by
  induction r generalizing c with
  | done a => simp [bind, run]
  | word next ih => simp [bind, run, ih, Nat.add_assoc]
  | long next ih => simp [bind, run, ih, Nat.add_assoc]
  | peek next ih => simp [bind, run, ih]

end Reader

end Disasm68
