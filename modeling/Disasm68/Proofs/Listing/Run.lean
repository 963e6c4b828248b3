import Disasm68.Proofs.Listing.Sweep

/-!
# Runs of instructions

A run is a part of a sweep: instructions that follow one another from one offset of a buffer to
another. A sweep without a limit is a run to the place where it stops (`Sweeps.run`), any run to a
place from which a sweep goes on begins a sweep (`Run.sweeps`), and a run may be divided behind each
of its instructions (`Run.divide`). So a sweep that begins at one of the instructions of another
finds the others of them (`Sweeps.drop`).
-/

namespace Disasm68

namespace Image

/-- The instructions from an offset to another, all of them within the buffer. -/
inductive Run (image : Image) (cpu : Cpu) : Nat → List Disassembly → Nat → Prop
  | nil {offset : Nat} : Run image cpu offset [] offset
  | cons {offset last : Nat} {code : List Disassembly} :
      offset + (image.instruction cpu offset).length ≤ image.bytes.size →
      Run image cpu (offset + (image.instruction cpu offset).length) code last →
      Run image cpu offset (image.instruction cpu offset :: code) last

variable {image : Image} {cpu : Cpu} {first last : Nat} {code code' : List Disassembly} {s : Sweep}

namespace Run

/-- A run ends behind the bytes of its instructions. -/
theorem last_eq (h : image.Run cpu first code last) :
    last = first + Sweep.codeSize ⟨code, .empty⟩ := by
  induction h with
  | nil => rfl
  | cons _ _ ih => rw [ih, Sweep.codeSize_cons, Nat.add_assoc]

/-- A run does not leave the buffer. -/
theorem last_le (h : image.Run cpu first code last) : last ≤ max first image.bytes.size := by
  induction h with
  | nil => exact Nat.le_max_left ..
  | cons hfit _ ih => omega

/-- The bytes of a run are even in number. -/
theorem last_mod_two (h : image.Run cpu first code last) : last % 2 = first % 2 := by
  induction h with
  | nil => rfl
  | @cons offset last code _ _ ih =>
    have heven : (image.instruction cpu offset).length % 2 = 0 := Nat.mul_mod_right ..
    omega

/-- The first instructions of a run are a run, and so are those behind them. -/
theorem divide (h : image.Run cpu first (code ++ code') last) :
    ∃ middle, image.Run cpu first code middle ∧ image.Run cpu middle code' last := by
  induction code generalizing first with
  | nil => exact ⟨first, .nil, h⟩
  | cons d code ih =>
    cases h with
    | cons hfit hrest =>
      obtain ⟨middle, hcode, hcode'⟩ := ih hrest
      exact ⟨middle, .cons hfit hcode, hcode'⟩

/-- A sweep that goes on where a run ends begins with the run. -/
theorem sweeps (h : image.Run cpu first code last) (hs : image.Sweeps cpu none last s) :
    image.Sweeps cpu none first ⟨code ++ s.code, s.tail⟩ := by
  induction h with
  | nil => exact hs
  | cons hfit _ ih => exact .next (Option.some_ne_none 0).symm hfit (ih hs)

/-- Instructions of a single word, as many as there are, are a run. -/
theorem exists_of_length_two {m : Nat} (hfit : first + 2 * m ≤ image.bytes.size)
    (h : ∀ i < m, (image.instruction cpu (first + 2 * i)).length = 2) :
    ∃ code, code.length = m ∧ image.Run cpu first code (first + 2 * m) := by
  induction m generalizing first with
  | zero => exact ⟨[], rfl, .nil⟩
  | succ m ih =>
    have hlength : (image.instruction cpu first).length = 2 := h 0 (Nat.succ_pos m)
    have hnext (i : Nat) : first + 2 * (i + 1) = first + 2 + 2 * i := by omega
    have hrest (i : Nat) (hi : i < m) : (image.instruction cpu (first + 2 + 2 * i)).length = 2 :=
      hnext i ▸ h (i + 1) (Nat.succ_lt_succ hi)
    obtain ⟨code, hcount, hrun⟩ := ih (by omega) hrest
    refine ⟨image.instruction cpu first :: code, congrArg (· + 1) hcount, .cons (by omega) ?_⟩
    rwa [hlength, hnext]

end Run

namespace Sweeps

/-- **A sweep is a run and a stop.** Nothing is found where the sweep stops. -/
theorem run (h : image.Sweeps cpu none first s) :
    image.Run cpu first s.code (first + s.codeSize) ∧
      image.Sweeps cpu none (first + s.codeSize) ⟨[], s.tail⟩ := by
  generalize hnone : none = limit at h
  induction h with
  | limit => cases hnone
  | finished hend => exact ⟨.nil, .finished hend⟩
  | stray hlimit hb => exact ⟨.nil, .stray (hnone ▸ hlimit) hb⟩
  | truncated hlimit hleft hlong => exact ⟨.nil, .truncated (hnone ▸ hlimit) hleft hlong⟩
  | next _ hfit _ ih =>
    subst hnone
    obtain ⟨hrun, hstop⟩ := ih rfl
    rw [Sweep.codeSize_cons, ← Nat.add_assoc]
    exact ⟨.cons hfit hrun, hstop⟩

/-- A sweep stops before a word only where the instruction is longer than what is left. -/
theorem truncated_of_left {tail : Tail} (h : image.Sweeps cpu none first ⟨[], tail⟩)
    (hleft : first + 2 ≤ image.bytes.size) :
    tail = .truncated (image.bytes.extract first).toList ∧
      image.bytes.size < first + (image.instruction cpu first).length := by
  cases h with
  | finished hend => omega
  | stray _ hb =>
    have hone : image.bytes.size - first = 1 := by simpa using congrArg List.length hb
    omega
  | truncated _ _ hlong => exact ⟨rfl, hlong⟩

/-- The instructions of a sweep before and behind a place are runs. -/
theorem run_take_drop (h : image.Sweeps cpu none first s) (n : Nat) :
    image.Run cpu first (s.code.take n) (first + s.start n) ∧
      image.Run cpu (first + s.start n) (s.code.drop n) (first + s.codeSize) := by
  have hrun := h.run.1
  rw [← List.take_append_drop n s.code] at hrun
  obtain ⟨middle, htake, hdrop⟩ := hrun.divide
  obtain rfl := htake.last_eq
  exact ⟨htake, hdrop⟩

/-- **A sweep goes on from each of its instructions.** -/
theorem drop (h : image.Sweeps cpu none first s) (n : Nat) :
    image.Sweeps cpu none (first + s.start n) ⟨s.code.drop n, s.tail⟩ := by
  have hrest := (h.run_take_drop n).2.sweeps h.run.2
  rwa [List.append_nil] at hrest

end Sweeps

end Image

end Disasm68
