import Mathlib.Data.List.Range
import Disasm68.Operand.Register

/-!
# Runs of registers

The runs of a list of bits lie within the list (`runs_bounds`), there is a gap between any two of
them (`pairwise_runs`), and they consist of the positions that are set (`flatMap_runs`). So no run
can be extended on either side (`runs_maximal`).

`scan` finds the runs of a bank register by register: at one that is set it looks ahead for the end
of the run, and goes on behind it. These are the same runs (`scan_eq`).
-/

namespace Disasm68.RegisterList

variable {start : Nat} {bits : List Bool} {set : Nat → Bool}

/-! ## The runs of a list of bits -/

/-- A bit that is set extends the run that begins behind it, or it is a run by itself. -/
theorem runs_true_cases (i : Nat) (bits : List Bool) :
    (∃ last later, runs (i + 1) bits = (i + 1, last) :: later ∧
        runs i (true :: bits) = (i, last) :: later) ∨
      (∀ r ∈ (runs (i + 1) bits).head?, r.1 ≠ i + 1) ∧
        runs i (true :: bits) = (i, i) :: runs (i + 1) bits := by
  rw [runs]
  cases runs (i + 1) bits with
  | nil => exact .inr ⟨nofun, rfl⟩
  | cons r later =>
    obtain ⟨first, last⟩ := r
    by_cases hfirst : first = i + 1
    · exact .inl ⟨last, later, by rw [hfirst], if_pos hfirst⟩
    · refine .inr ⟨fun r hr => ?_, if_neg hfirst⟩
      rw [← Option.some.inj hr]
      exact hfirst

/-- Runs are not empty and lie within the bits. -/
theorem runs_bounds : ∀ r ∈ runs start bits,
    start ≤ r.1 ∧ r.1 ≤ r.2 ∧ r.2 < start + bits.length := by
  induction bits generalizing start with
  | nil => exact List.forall_mem_nil _
  | cons bit bits ih =>
    have hbehind : ∀ r ∈ runs (start + 1) bits,
        start ≤ r.1 ∧ r.1 ≤ r.2 ∧ r.2 < start + (bits.length + 1) := by
      intro r hr
      obtain ⟨hfirst, hlast, hend⟩ := ih r hr
      omega
    cases bit with
    | false => exact hbehind
    | true =>
      rcases runs_true_cases start bits with ⟨last, later, hruns, hextended⟩ | ⟨-, halone⟩
      · rw [hruns] at hbehind
        obtain ⟨hhead, hlater⟩ := List.forall_mem_cons.mp hbehind
        rw [hextended]
        exact List.forall_mem_cons.mpr ⟨⟨le_refl _, by omega, hhead.2.2⟩, hlater⟩
      · rw [halone]
        refine List.forall_mem_cons.mpr ⟨⟨le_refl _, le_refl _, ?_⟩, hbehind⟩
        rw [List.length_cons]
        omega

/-- **There is a gap between any two runs.** -/
theorem pairwise_runs (start : Nat) (bits : List Bool) :
    (runs start bits).Pairwise fun r s => r.2 + 1 < s.1 := by
  induction bits generalizing start with
  | nil => exact .nil
  | cons bit bits ih =>
    cases bit with
    | false => exact ih (start + 1)
    | true =>
      have hbehind := ih (start + 1)
      rcases runs_true_cases start bits with ⟨last, later, hruns, hextended⟩ | ⟨hgap, halone⟩
      · rw [hruns] at hbehind
        rw [hextended]
        exact .cons (fun s hs => List.rel_of_pairwise_cons hbehind hs) hbehind.of_cons
      · rw [halone]
        refine .cons ?_ hbehind
        have hbounds := @runs_bounds (start + 1) bits
        cases hruns : runs (start + 1) bits with
        | nil => exact List.forall_mem_nil _
        | cons r later =>
          rw [hruns] at hgap hbounds hbehind
          have hfirst := hgap r rfl
          obtain ⟨hhead, hlater⟩ := List.forall_mem_cons.mp hbounds
          refine List.forall_mem_cons.mpr ⟨by omega, fun s hs => ?_⟩
          have hsep := List.rel_of_pairwise_cons hbehind hs
          show start + 1 < s.1
          omega

/-- Two runs are the same or lie apart. -/
theorem runs_apart {r s : Nat × Nat} (hr : r ∈ runs start bits) (hs : s ∈ runs start bits) :
    r = s ∨ r.2 + 1 < s.1 ∨ s.2 + 1 < r.1 := by
  let Apart (r s : Nat × Nat) : Prop := r.2 + 1 < s.1 ∨ s.2 + 1 < r.1
  have hsymm : Std.Symm Apart := ⟨fun _ _ => Or.symm⟩
  have hpairwise : (runs start bits).Pairwise Apart := (pairwise_runs start bits).imp .inl
  by_cases heq : r = s
  · exact .inl heq
  · exact .inr (hpairwise.forall hr hs heq)

/-! ## The runs of the positions that are set -/

/-- **The runs consist of the positions that are set**, in ascending order. The induction is on the
number of positions. -/
theorem flatMap_runs (set : Nat → Bool) (i n : Nat) :
    (runs i ((List.range' i n).map set)).flatMap (fun r => List.range' r.1 (r.2 + 1 - r.1)) =
      (List.range' i n).filter set := by
  induction n generalizing i with
  | zero => rfl
  | succ n ih =>
    have hbehind := ih (i + 1)
    rw [List.range'_succ, List.map_cons]
    cases hset : set i with
    | false => rw [runs, hbehind, List.filter_cons_of_neg (by simp [hset])]
    | true =>
      rw [List.filter_cons_of_pos hset, ← hbehind]
      rcases runs_true_cases i ((List.range' (i + 1) n).map set) with
        ⟨last, later, hruns, hextended⟩ | ⟨-, halone⟩
      · have hle : i + 1 ≤ last := (runs_bounds _ (hruns ▸ List.mem_cons_self)).2.1
        have hlength : last + 1 - i = last + 1 - (i + 1) + 1 := by omega
        rw [hextended, hruns, List.flatMap_cons, List.flatMap_cons, hlength, List.range'_succ,
          List.cons_append]
      · rw [halone, List.flatMap_cons, Nat.add_sub_cancel_left]
        rfl

/-- A position is set exactly if it is in a run. -/
theorem exists_run_iff {i n k : Nat} :
    (∃ r ∈ runs i ((List.range' i n).map set), r.1 ≤ k ∧ k ≤ r.2) ↔
      i ≤ k ∧ k < i + n ∧ set k = true := by
  have hmem : k ∈ (List.range' i n).filter set ↔ i ≤ k ∧ k < i + n ∧ set k = true := by
    rw [List.mem_filter, List.mem_range'_1, and_assoc]
  rw [← hmem, ← flatMap_runs, List.mem_flatMap]
  refine exists_congr fun r => and_congr_right fun hr => ?_
  have hle : r.1 ≤ r.2 := (runs_bounds r hr).2.1
  rw [List.mem_range'_1]
  omega

/-- **No run can be extended**: it begins at the first position or behind one that is not set, and
it ends at the last position or in front of one that is not set. -/
theorem runs_maximal {i n : Nat} {r : Nat × Nat} (hr : r ∈ runs i ((List.range' i n).map set)) :
    (r.1 = i ∨ set (r.1 - 1) = false) ∧ (r.2 + 1 = i + n ∨ set (r.2 + 1) = false) := by
  obtain ⟨hfirst, hle, hlast⟩ := runs_bounds r hr
  rw [List.length_map, List.length_range'] at hlast
  -- a position next to the run that is set would be in another run, and there is a gap between them
  constructor
  · by_contra hno
    obtain ⟨hne, hset⟩ := not_or.mp hno
    obtain ⟨s, hs, hbefore, hbehind⟩ := exists_run_iff.mpr
      ⟨(by omega : i ≤ r.1 - 1), (by omega : r.1 - 1 < i + n), Bool.of_not_eq_false hset⟩
    rcases runs_apart hr hs with rfl | hapart
    · omega
    · omega
  · by_contra hno
    obtain ⟨hne, hset⟩ := not_or.mp hno
    obtain ⟨s, hs, hbefore, hbehind⟩ := exists_run_iff.mpr
      ⟨(by omega : i ≤ r.2 + 1), (by omega : r.2 + 1 < i + n), Bool.of_not_eq_false hset⟩
    rcases runs_apart hr hs with rfl | hapart
    · omega
    · omega

/-! ## Register by register -/

/-- The last register of the run that a register of a bank is in. -/
def runEnd (set : Nat → Bool) (i : Nat) : Nat :=
  if i < 7 ∧ set (i + 1) then runEnd set (i + 1) else i
termination_by 7 - i

theorem le_runEnd (set : Nat → Bool) (i : Nat) : i ≤ runEnd set i := by
  fun_induction runEnd with
  | case1 i _ ih => omega
  | case2 i => exact le_refl i

/-- The runs of a bank from a register on. -/
def scan (set : Nat → Bool) (i : Nat) : List (Nat × Nat) :=
  if i < 8 then
    if set i then (i, runEnd set i) :: scan set (runEnd set i + 1) else scan set (i + 1)
  else []
termination_by 8 - i
decreasing_by
  · have := le_runEnd set i
    omega
  · omega

/-- The bits of a bank from a register on. -/
def bitsFrom (set : Nat → Bool) (i : Nat) : List Bool :=
  (List.range' i (8 - i)).map set

theorem bitsFrom_of_lt {i : Nat} (h : i < 8) : bitsFrom set i = set i :: bitsFrom set (i + 1) := by
  have hsub : 8 - i = 8 - (i + 1) + 1 := by omega
  rw [bitsFrom, hsub, List.range'_succ, List.map_cons, bitsFrom]

/-- The run that begins at a register ends where looking ahead ends. -/
theorem runs_bitsFrom {i : Nat} (hi : i < 8) (hset : set i = true) :
    runs i (bitsFrom set i) = (i, runEnd set i) ::
      runs (runEnd set i + 1) (bitsFrom set (runEnd set i + 1)) := by
  fun_induction runEnd with
  | case1 i hnext ih =>
    obtain ⟨hlt, hset'⟩ := hnext
    have hbehind := ih (by omega) hset'
    rw [bitsFrom_of_lt hi, hset]
    rcases runs_true_cases i (bitsFrom set (i + 1)) with ⟨last, later, hruns, hextended⟩ | ⟨hgap, -⟩
    · rw [hbehind] at hruns
      obtain ⟨hpair, rfl⟩ := List.cons.inj hruns
      rw [hextended, (Prod.mk.inj hpair).2]
    · rw [hbehind] at hgap
      exact absurd rfl (hgap _ rfl)
  | case2 i hnext =>
    rw [bitsFrom_of_lt hi, hset]
    rcases runs_true_cases i (bitsFrom set (i + 1)) with ⟨last, later, hruns, -⟩ | ⟨-, halone⟩
    · -- the next register would be in the list, and looking ahead would have gone on
      have hle := (runs_bounds _ (hruns ▸ List.mem_cons_self)).2.1
      obtain ⟨-, hlt, hset'⟩ := exists_run_iff.mp
        ⟨(i + 1, last), hruns ▸ List.mem_cons_self, le_refl (i + 1), hle⟩
      exact absurd ⟨by omega, hset'⟩ hnext
    · exact halone

/-- **Going through a bank register by register finds its runs.** -/
theorem scan_eq (set : Nat → Bool) (i : Nat) : scan set i = runs i (bitsFrom set i) := by
  fun_induction scan with
  | case1 i hi hset ih => rw [ih, runs_bitsFrom hi hset]
  | case2 i hi hset ih => rw [ih, bitsFrom_of_lt hi, Bool.eq_false_iff.mpr hset, runs]
  | case3 i hi =>
    have hnone : bitsFrom set i = [] := by
      rw [bitsFrom, Nat.sub_eq_zero_of_le (by omega), List.range'_zero, List.map_nil]
    rw [hnone, runs]

end Disasm68.RegisterList
