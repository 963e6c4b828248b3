import Disasm68.Listing

/-!
# Sweeps as a relation

`Image.Sweeps` describes the sweep of a buffer by one rule for each way in which it stops and one
rule for going on, and `Image.sweepFrom_sweeps` says that the sweep follows these rules. What is
proved of sweeps is proved by induction on the rules.
-/

namespace Disasm68

namespace Image

/-- The instruction that a sweep meets at an offset. -/
def instruction (image : Image) (cpu : Cpu) (offset : Nat) : Disassembly :=
  disassemble image.memory (image.addressOf offset) cpu

/-- What is found from an offset on under a limit. -/
inductive Sweeps (image : Image) (cpu : Cpu) : Option Nat → Nat → Sweep → Prop
  /-- The limit is reached. -/
  | limit {offset : Nat} : Sweeps image cpu (some 0) offset ⟨[], .empty⟩
  /-- The buffer is at its end. -/
  | finished {limit : Option Nat} {offset : Nat} :
      image.bytes.size ≤ offset → Sweeps image cpu limit offset ⟨[], .empty⟩
  /-- A single byte is left. -/
  | stray {limit : Option Nat} {offset : Nat} {b : Byte} :
      limit ≠ some 0 → (image.bytes.extract offset).toList = [b] →
      Sweeps image cpu limit offset ⟨[], .stray b⟩
  /-- The next instruction is longer than what is left. -/
  | truncated {limit : Option Nat} {offset : Nat} :
      limit ≠ some 0 → offset + 2 ≤ image.bytes.size →
      image.bytes.size < offset + (image.instruction cpu offset).length →
      Sweeps image cpu limit offset ⟨[], .truncated (image.bytes.extract offset).toList⟩
  /-- The next instruction fits. -/
  | next {limit : Option Nat} {offset : Nat} {rest : Sweep} :
      limit ≠ some 0 → offset + (image.instruction cpu offset).length ≤ image.bytes.size →
      Sweeps image cpu (limit.map (· - 1)) (offset + (image.instruction cpu offset).length) rest →
      Sweeps image cpu limit offset ⟨image.instruction cpu offset :: rest.code, rest.tail⟩

variable {image : Image} {cpu : Cpu}

theorem two_le_length_instruction (image : Image) (cpu : Cpu) (offset : Nat) :
    2 ≤ (image.instruction cpu offset).length :=
  two_le_length image.memory (image.addressOf offset) cpu

/-- One round of the sweep. -/
theorem sweepFrom_nil (image : Image) (cpu : Cpu) (limit : Option Nat) (offset : Nat) :
    image.sweepFrom cpu [] limit offset =
      if limit = some 0 then ⟨[], .empty⟩
      else if h : offset < image.bytes.size then
        if image.bytes.size - offset = 1 then ⟨[], .stray image.bytes[offset]⟩
        else if (image.instruction cpu offset).length ≤ image.bytes.size - offset then
          let rest := image.sweepFrom cpu [] (limit.map (· - 1))
            (offset + (image.instruction cpu offset).length)
          ⟨image.instruction cpu offset :: rest.code, rest.tail⟩
        else ⟨[], .truncated (image.bytes.extract offset).toList⟩
      else ⟨[], .empty⟩ := by
  rw [sweepFrom.eq_def]
  simp only [sweepFrom_eq image cpu [_]]
  rfl

/-- The single byte behind an offset. -/
theorem toList_extract_of_left_one {data : Array Byte} {offset : Nat} (h : offset < data.size)
    (hone : data.size - offset = 1) : (data.extract offset).toList = [data[offset]] := by
  apply List.ext_getElem
  · simp [hone]
  · intro i hi hi'
    obtain rfl : i = 0 := by simpa using hi'
    simp

/-- **The sweep follows the rules.** The induction is on the bytes that are left. -/
theorem sweepFrom_sweeps (image : Image) (cpu : Cpu) (limit : Option Nat) (offset : Nat) :
    image.Sweeps cpu limit offset (image.sweepFrom cpu [] limit offset) := by
  induction hleft : image.bytes.size - offset using Nat.strongRecOn generalizing limit offset with
  | ind left ih =>
    have h2 := image.two_le_length_instruction cpu offset
    rw [sweepFrom_nil]
    by_cases hlimit : limit = some 0
    · rw [if_pos hlimit, hlimit]
      exact .limit
    rw [if_neg hlimit]
    by_cases hend : offset < image.bytes.size
    · rw [dif_pos hend]
      by_cases hone : image.bytes.size - offset = 1
      · rw [if_pos hone]
        exact .stray hlimit (toList_extract_of_left_one hend hone)
      rw [if_neg hone]
      by_cases hfit : (image.instruction cpu offset).length ≤ image.bytes.size - offset
      · rw [if_pos hfit]
        exact .next hlimit (by omega) (ih _ (by omega) _ _ rfl)
      · rw [if_neg hfit]
        exact .truncated hlimit (by omega) (by omega)
    · rw [dif_neg hend]
      exact .finished (by omega)

/-- **Nothing else follows the rules.** The induction is on the rules that were followed. -/
theorem Sweeps.eq_sweepFrom {limit : Option Nat} {offset : Nat} {s : Sweep}
    (h : image.Sweeps cpu limit offset s) : image.sweepFrom cpu [] limit offset = s := by
  induction h with
  | limit => rw [sweepFrom_nil, if_pos rfl]
  | finished hend => rw [sweepFrom_nil, dif_neg (by omega), ite_self]
  | @stray limit offset b hlimit hb =>
    have hone : image.bytes.size - offset = 1 := by simpa using congrArg List.length hb
    have hend : offset < image.bytes.size := by omega
    rw [toList_extract_of_left_one hend hone, List.singleton_inj] at hb
    rw [sweepFrom_nil, if_neg hlimit, dif_pos hend, if_pos hone, hb]
  | truncated hlimit hleft hlong =>
    rw [sweepFrom_nil, if_neg hlimit, dif_pos (by omega), if_neg (by omega), if_neg (by omega)]
  | @next limit offset rest hlimit hfit _ ih =>
    have h2 := image.two_le_length_instruction cpu offset
    rw [sweepFrom_nil, if_neg hlimit, dif_pos (by omega), if_neg (by omega), if_pos (by omega), ih]

end Image

@[simp] theorem Sweep.codeSize_nil (tail : Tail) : Sweep.codeSize ⟨[], tail⟩ = 0 := rfl

@[simp] theorem Sweep.codeSize_cons (d : Disassembly) (code : List Disassembly) (tail : Tail) :
    Sweep.codeSize ⟨d :: code, tail⟩ = d.length + Sweep.codeSize ⟨code, tail⟩ := rfl

/-- The lengths of the instructions decide their size. -/
theorem Sweep.codeSize_congr {s s' : Sweep}
    (h : s'.code.map Disassembly.length = s.code.map Disassembly.length) :
    s'.codeSize = s.codeSize := by
  have hfold (code : List Disassembly) : code.foldr (fun d n => d.length + n) 0 =
      (code.map Disassembly.length).foldr (· + ·) 0 := List.foldr_map.symm
  rw [codeSize, codeSize, hfold, hfold, h]

/-- Where an instruction begins, counted from the first one. -/
def Sweep.start (s : Sweep) (n : Nat) : Nat :=
  Sweep.codeSize ⟨s.code.take n, .empty⟩

@[simp] theorem Sweep.start_succ (d : Disassembly) (code : List Disassembly) (tail : Tail)
    (n : Nat) : Sweep.start ⟨d :: code, tail⟩ (n + 1) = d.length + Sweep.start ⟨code, tail⟩ n := rfl

/-- The instruction of a place is the one that is disassembled there, and it fits. -/
theorem Image.Sweeps.getElem?_code {image : Image} {cpu : Cpu} {limit : Option Nat} {offset : Nat}
    {s : Sweep} (h : image.Sweeps cpu limit offset s) {n : Nat} {d : Disassembly}
    (hd : s.code[n]? = some d) :
    d = image.instruction cpu (offset + s.start n) ∧
      offset + s.start n + d.length ≤ image.bytes.size := by
  induction h generalizing n with
  | limit | finished | stray | truncated => cases hd
  | @next limit offset rest hlimit hfit _ ih =>
    cases n with
    | zero =>
      obtain rfl := Option.some.inj hd
      exact ⟨rfl, hfit⟩
    | succ n =>
      rw [Sweep.start_succ, ← Nat.add_assoc]
      exact ih hd

/-- What holds of every instruction of an image holds of those of a sweep. -/
theorem Image.Sweeps.forall_mem_code {image : Image} {cpu : Cpu} {limit : Option Nat} {offset : Nat}
    {s : Sweep} (h : image.Sweeps cpu limit offset s) {p : Disassembly → Prop}
    (hp : ∀ offset, p (image.instruction cpu offset)) : ∀ d ∈ s.code, p d := by
  intro d hd
  obtain ⟨n, hn⟩ := List.getElem?_of_mem hd
  rw [(h.getElem?_code hn).1]
  exact hp _

namespace Listing

variable {data : Array Byte} {options : ListingOptions}

/-- The sweep of a listing follows the rules. -/
theorem sweep_sweeps (data : Array Byte) (options : ListingOptions) :
    (image data options).Sweeps options.cpu options.limit 0 (sweep data options) :=
  (image data options).sweepFrom_sweeps options.cpu options.limit 0

theorem sweep_sweeps_of_unlimited (data : Array Byte) (hlimit : options.limit = none) :
    (image data options).Sweeps options.cpu none 0 (sweep data options) := by
  have hsweeps := sweep_sweeps data options
  rwa [hlimit] at hsweeps

/-- What follows the rules without a limit is the sweep of the listing. -/
theorem sweep_eq_of_unlimited (hlimit : options.limit = none) {s : Sweep}
    (h : (image data options).Sweeps options.cpu none 0 s) : sweep data options = s := by
  rw [sweep, Image.sweep, hlimit]
  exact h.eq_sweepFrom

end Listing

end Disasm68
