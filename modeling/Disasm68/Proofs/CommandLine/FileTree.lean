import Disasm68.CommandLine.FileTree
import Disasm68.Proofs.CommandLine.Options

/-!
# Writing to a tree

A write that succeeds puts the bytes of the text at one place, and the path leads to these bytes
afterwards (`FileTree.wrote_of_write`). There was no directory at the place, so no way through
directories has changed (`FileTree.follow_put`). A path that is a name leads to the directory where
the program runs (`FileTree.put_of_write`).
-/

namespace Disasm68.CommandLine

/-- The bytes a text is stored as. -/
def textBytes (text : String) : Array Byte :=
  text.toUTF8.data.map UInt8.toBitVec

namespace FileTree

variable {t t' : FileTree} {place : Location} {bytes : Array Byte} {text content : String}

/-- A file with the text has been put somewhere, and the path leads to it. -/
structure Wrote (t : FileTree) (text content : String) (t' : FileTree) : Prop where
  put : ∃ place, t' = t.put place (textBytes content)
  read : t'.read text = .ok (textBytes content)

/-- A name that is not too long leads to what it stands for. -/
theorem visit_child_eq_ok {name : String} {next : Location} {node : Option Node} :
    t.visit place (.child name) = .ok (next, node) ↔
      name.utf8ByteSize ≤ nameLimit ∧ next = name :: place ∧ node = t.node? (name :: place) := by
  have hvisit : t.visit place (.child name) =
      if nameLimit < name.utf8ByteSize then .error .nameTooLong
      else .ok (name :: place, t.node? (name :: place)) := rfl
  rw [hvisit]
  split
  · exact iff_of_false nofun fun h => by omega
  · rw [Except.ok.injEq, Prod.mk.injEq, eq_comm, eq_comm (a := t.node? _)]
    exact ⟨fun h => ⟨by omega, h⟩, fun h => h.2⟩

/-- A file that is put where there is no directory does not stand in the way to one. -/
theorem visit_put (bytes : Array Byte) (hplace : t.node? place ≠ some .directory)
    {start next : Location} {c : Component} (h : t.visit start c = .ok (next, some .directory)) :
    (t.put place bytes).visit start c = .ok (next, some .directory) := by
  cases c with
  | same | parent => exact h
  | child name =>
    obtain ⟨hname, rfl, hdirectory⟩ := visit_child_eq_ok.mp h
    have hne : name :: start ≠ place := by
      rintro rfl
      exact hplace hdirectory.symm
    exact visit_child_eq_ok.mpr ⟨hname, rfl, hdirectory.trans (node?_put_of_ne t bytes hne).symm⟩

/-- So all ways through directories stay as they are. -/
theorem follow_put (bytes : Array Byte) (hplace : t.node? place ≠ some .directory)
    {start target : Location} {components : List Component}
    (h : t.follow start components = .ok target) :
    (t.put place bytes).follow start components = .ok target := by
  induction components generalizing start with
  | nil => exact h
  | cons c rest ih =>
    obtain ⟨⟨next, node⟩, hvisit, hrest⟩ := bind_eq_ok h
    have hnode : node = some .directory := by
      cases node with
      | none => cases hrest
      | some node =>
        cases node with
        | file => cases hrest
        | directory => rfl
    subst hnode
    rw [follow, visit_put bytes hplace hvisit]
    exact ih hrest

/-- And so does what a path approaches. -/
theorem approach_put (bytes : Array Byte) (hplace : t.node? place ≠ some .directory) {path : Path}
    {target : Location × Component} (h : t.approach path = .ok target) :
    (t.put place bytes).approach path = .ok target := by
  obtain ⟨directory, hfollow, htarget⟩ := bind_eq_ok h
  have hsame := follow_put bytes hplace hfollow
  show ((t.put place bytes).follow _ _ >>= fun directory => pure (directory, _)) = _
  rw [show (t.put place bytes).here = t.here from rfl, hsame]
  exact htarget

/-- What a write that succeeds has found and done. -/
structure Write (t : FileTree) (text content : String) (t' : FileTree) (way : Path)
    (directory : Location) (name : String) : Prop where
  path : FileTree.path text = .ok way
  closed : way.closed = false
  approach : t.approach way = .ok (directory, .child name)
  size : name.utf8ByteSize ≤ nameLimit
  node : t.node? (name :: directory) ≠ some .directory
  put : t' = t.put (name :: directory) (textBytes content)

/-- Only a name can be written to. -/
theorem exists_write (h : t.write text content = .ok t') :
    ∃ way directory name, Write t text content t' way directory name := by
  obtain ⟨way, hway, h⟩ := bind_eq_ok h
  obtain ⟨⟨directory, last⟩, happroach, h⟩ := bind_eq_ok h
  dsimp only at h
  split at h
  · cases h
  rename_i hopen
  obtain ⟨⟨place, node⟩, hvisit, h⟩ := bind_eq_ok h
  have hput : node ≠ some .directory ∧ t' = t.put place (textBytes content) := by
    cases node with
    | none => exact ⟨nofun, (Except.ok.inj h).symm⟩
    | some node =>
      cases node with
      | file => exact ⟨nofun, (Except.ok.inj h).symm⟩
      | directory => cases h
  cases last with
  | same | parent =>
    obtain ⟨-, rfl⟩ := Prod.mk.inj (Except.ok.inj hvisit)
    exact absurd rfl hput.1
  | child name =>
    obtain ⟨hname, rfl, rfl⟩ := visit_child_eq_ok.mp hvisit
    exact ⟨way, directory, name, hway, Bool.eq_false_iff.mpr hopen, happroach, hname, hput.1, hput.2⟩

/-- **A text that was written is read again.** -/
theorem wrote_of_write (h : t.write text content = .ok t') : t.Wrote text content t' := by
  obtain ⟨way, directory, name, hwrite⟩ := exists_write h
  have hvisit : t'.visit directory (.child name) =
      .ok (name :: directory, some (.file (textBytes content))) := by
    refine visit_child_eq_ok.mpr ⟨hwrite.size, rfl, ?_⟩
    rw [hwrite.put]
    exact (node?_put_self t _ (List.cons_ne_nil _ _)).symm
  have happroach : t'.approach way = .ok (directory, .child name) := by
    rw [hwrite.put]
    exact approach_put _ hwrite.node hwrite.approach
  refine ⟨⟨_, hwrite.put⟩, ?_⟩
  rw [read, hwrite.path]
  show (t'.approach way >>= _) = _
  rw [happroach]
  show (t'.visit directory (.child name) >>= _) = _
  rw [hvisit]
  exact if_neg (Bool.eq_false_iff.mp hwrite.closed)

/-! ## Names in the directory where the program runs -/

/-- A text that is the name of a file. -/
structure IsName (name : String) : Prop where
  path : FileTree.path name = .ok ⟨false, [.child name], false⟩
  size : name.utf8ByteSize ≤ nameLimit

variable {name : String}

/-- A name is looked up in the directory. -/
theorem read_name (h : IsName name) (t : FileTree) :
    t.read name = match t.node? (name :: t.here) with
      | some (.file bytes) => .ok bytes
      | some .directory => .error .isADirectory
      | none => .error .notFound := by
  rw [read, h.path]
  show (t.visit t.here (.child name) >>= _) = _
  rw [visit_child_eq_ok.mpr ⟨h.size, rfl, rfl⟩]
  cases t.node? (name :: t.here) with
  | none => rfl
  | some node => cases node <;> rfl

/-- A file that is written under a name is put into the directory. -/
theorem put_of_write (h : IsName name) (hwrite : t.write name content = .ok t') :
    t' = t.put (name :: t.here) (textBytes content) := by
  obtain ⟨way, directory, last, hwrite⟩ := exists_write hwrite
  obtain rfl := Except.ok.inj (h.path.symm.trans hwrite.path)
  obtain ⟨rfl, hlast⟩ := Prod.mk.inj (Except.ok.inj hwrite.approach)
  rw [Component.child.inj hlast]
  exact hwrite.put

theorem isName_input : IsName "in.bin" := ⟨rfl, by decide⟩

theorem isName_output : IsName "out.txt" := ⟨rfl, by decide⟩

/-- A working directory that holds one file or none. -/
def holding (data : Option (Array Byte)) : FileTree :=
  around (data.toList.map fun bytes => ("in.bin", bytes))

theorem eq_some_of_read_input {data : Option (Array Byte)}
    (h : (holding data).read "in.bin" = .ok bytes) : data = some bytes := by
  rw [read_name isName_input] at h
  cases data with
  | none => cases h
  | some content => exact congrArg some (Except.ok.inj h)

theorem read_output (data : Option (Array Byte)) :
    (holding data).read "out.txt" = .error .notFound := by
  rw [read_name isName_output]
  cases data <;> rfl

end FileTree

end Disasm68.CommandLine
