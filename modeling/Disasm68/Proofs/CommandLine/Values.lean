import Disasm68.CommandLine.Options
import Disasm68.Proofs.Numeral.Count

/-!
# The values of settings

What the value of a setting stands for can be told without reading it: a path for itself, the name
of a processor for the processor (`Cpu.Named`), an address or a count for a number. A value that
stands for nothing is not accepted (`Setting.Accepts`).
-/

namespace Disasm68

namespace Cpu

/-- The name of a processor in lower case. -/
def plainName : Cpu → String
  | .m68000 => "68000"
  | .m68008 => "68008"
  | .m68010 => "68010"
  | .m68ec020 => "68ec020"
  | .m68020 => "68020"
  | .m68030 => "68030"
  | .m68040 => "68040"

/-- A text that names a processor, in either case. The letters of the manufacturer may stand in
front. -/
def Named (text : String) (cpu : Cpu) : Prop :=
  ∃ maker ∈ ["", "m", "mc"], text.toLower = maker ++ cpu.plainName

/-- Only letters of the manufacturer are left out. -/
theorem exists_maker (name : List Char) :
    ∃ maker ∈ ["", "m", "mc"], name = maker.toList ++ stripMaker name := by
  unfold stripMaker
  split
  case h_1 rest => exact ⟨"mc", by decide, rfl⟩
  case h_2 rest _ => exact ⟨"m", by decide, rfl⟩
  case h_3 => exact ⟨"", by decide, rfl⟩

/-- No processor has a name that begins like these letters. -/
theorem stripMaker_append {maker : String} (h : maker ∈ ["", "m", "mc"]) (cpu : Cpu) :
    stripMaker (maker.toList ++ cpu.plainName.toList) = cpu.plainName.toList := by
  simp only [List.mem_cons, List.not_mem_nil, or_false] at h
  rcases h with rfl | rfl | rfl <;> cases cpu <;> rfl

theorem map_toLower_name (cpu : Cpu) : cpu.name.toList.map Char.toLower = cpu.plainName.toList := by
  cases cpu <;> rfl

theorem find?_plainName (cpu : Cpu) :
    all.find? (fun c => c.name.toList.map Char.toLower = cpu.plainName.toList) = some cpu := by
  cases cpu <;> decide

/-- **A text is read as the processor that it names.** -/
theorem ofName_eq_ok_iff {text : String} {cpu : Cpu} : ofName text = .ok cpu ↔ Named text cpu := by
  have hlower : text.toLower.toList = text.toList.map Char.toLower := String.toList_map
  have hread : ofName text = .ok cpu ↔ ofName? text = some cpu := by
    rw [ofName]
    cases ofName? text <;> simp
  rw [hread, ofName?, Named]
  constructor
  · intro h
    have hname := List.find?_some h
    obtain ⟨maker, hmaker, htext⟩ := exists_maker (text.toList.map Char.toLower)
    refine ⟨maker, hmaker, ?_⟩
    rw [← String.toList_inj, hlower, htext, String.toList_append, ← of_decide_eq_true hname,
      map_toLower_name]
  · rintro ⟨maker, hmaker, htext⟩
    have hstrip : stripMaker (text.toList.map Char.toLower) = cpu.plainName.toList := by
      rw [← hlower, htext, String.toList_append, stripMaker_append hmaker]
    simp only [hstrip]
    exact find?_plainName cpu

end Cpu

namespace CommandLine

/-- A path stands for itself, unless it is empty. -/
def IsPath (text path : String) : Prop :=
  path = text ∧ text ≠ ""

theorem path_eq_ok_iff {text path : String} : Options.path text = .ok path ↔ IsPath text path := by
  rw [Options.path, IsPath, eq_comm (a := path)]
  split
  case isTrue hempty => simp [String.isEmpty_iff.mp hempty]
  case isFalse hne => simp [show text ≠ "" by simpa using hne]

/-- A setting accepts what stands for something. -/
def Setting.Accepts (text : String) : Setting → Prop
  | .output => ∃ path, IsPath text path
  | .cpu => ∃ cpu, Cpu.Named text cpu
  | .base => ∃ v : Long, Hex.Denotes text v.toNat
  | .offset | .length | .count => ∃ n, Numeral.Counts text n

end CommandLine

end Disasm68
