import Disasm68.Proofs.Memory.Bus
import Disasm68.Memory.Reader

/-!
# What a run fetches

`r.fetches c` lists the addresses of the words that memory is asked for when `r` runs at `c`. They
are all a run knows of memory: two memories that agree on them give the same run (`run_over`).
-/

namespace Disasm68.Reader

variable {α β : Type}

/-- The addresses of the words a run asks for, in the order in which it asks. -/
def fetches : Reader α → Cursor → List Long
  | .done _, _ => []
  | .word next, c => c.busAddress :: (next c.word).fetches (c.advance 1)
  | .long next, c => c.busAddress :: (c.busAddress + 2) :: (next c.long).fetches (c.advance 2)
  | .peek next, c => c.busAddress :: (c.busAddress + 2) :: (next c.long).fetches c

/-- What holds of the address of every cursor of a processor, and of the address behind it, holds of
everything that is fetched. -/
theorem forall_mem_fetches {p : Long → Prop} (r : Reader α) {c : Cursor}
    (hp : ∀ d : Cursor, d.cpu = c.cpu → p d.busAddress ∧ p (d.busAddress + 2)) :
    ∀ a ∈ r.fetches c, p a := by
  induction r generalizing c with
  | done => exact List.forall_mem_nil p
  | word next ih =>
    have hrest := ih c.word (c := c.advance 1) hp
    exact List.forall_mem_cons.mpr ⟨(hp c rfl).1, hrest⟩
  | long next ih =>
    obtain ⟨hfirst, hsecond⟩ := hp c rfl
    have hrest := ih c.long (c := c.advance 2) hp
    exact List.forall_mem_cons.mpr ⟨hfirst, List.forall_mem_cons.mpr ⟨hsecond, hrest⟩⟩
  | peek next ih =>
    obtain ⟨hfirst, hsecond⟩ := hp c rfl
    have hrest := ih c.long hp
    exact List.forall_mem_cons.mpr ⟨hfirst, List.forall_mem_cons.mpr ⟨hsecond, hrest⟩⟩

/-- **A run depends on what it fetches only.** The induction is on the reader: what has been
fetched so far is the same, so the same reader goes on. -/
theorem run_over {r : Reader α} {c : Cursor} {m : Memory}
    (h : ∀ a ∈ r.fetches c, m.word a = c.memory.word a) : r.run (c.withMemory m) = r.run c := by
  induction r generalizing c with
  | done a => rfl
  | word next ih =>
    simp only [fetches, List.forall_mem_cons] at h
    have hw : (c.withMemory m).word = c.word := h.1
    simp only [run, hw, Cursor.withMemory_advance, ih c.word h.2]
  | long next ih =>
    simp only [fetches, List.forall_mem_cons] at h
    have hl : (c.withMemory m).long = c.long := Memory.long_congr h.1 h.2.1
    simp only [run, hl, Cursor.withMemory_advance, ih c.long h.2.2]
  | peek next ih =>
    simp only [fetches, List.forall_mem_cons] at h
    have hl : (c.withMemory m).long = c.long := Memory.long_congr h.1 h.2.1
    simp only [run, hl, ih c.long h.2.2]

end Disasm68.Reader
