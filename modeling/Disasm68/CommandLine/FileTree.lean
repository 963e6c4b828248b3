import Disasm68.CommandLine.Path
import Disasm68.CommandLine.Program

/-!
# File trees in memory

A tree of directories and files, as a place to run the program without a disk. A path is followed
one component after the other, and everything on the way to its last component has to be a
directory. What a file is opened for decides only what happens at the end of the path: reading
needs a file that is there, writing a name that is not a directory's.
-/

namespace Disasm68.CommandLine

/-- What a name can stand for. -/
inductive Node where
  | file (bytes : Array Byte)
  | directory
  deriving DecidableEq, Repr

/-- The names on the way down from the root, the last one first. -/
abbrev Location := List String

/-- Where a component of a path leads to. -/
def Location.next (place : Location) : Component → Location
  | .same => place
  | .parent => place.tail
  | .child name => name :: place

/-- Files and directories, and the directory where the program runs. -/
structure FileTree where
  /-- What is where. Of several entries for one place the first counts. -/
  nodes : List (Location × Node)
  /-- The directory where paths start. -/
  here : Location

namespace FileTree

/-- The greatest number of bytes in a name. -/
def nameLimit : Nat := 255

/-- The greatest number of bytes in a path. -/
def pathLimit : Nat := 4095

/-- What is at a place. The root is always a directory. -/
def node? (t : FileTree) : Location → Option Node
  | [] => some .directory
  | place => t.nodes.lookup place

/-- What a component leads to, with its place. A long name stands for nothing and cannot be
given to anything. -/
def visit (t : FileTree) (place : Location) (c : Component) :
    Except FileError (Location × Option Node) :=
  match c with
  | .child name =>
    if nameLimit < name.utf8ByteSize then .error .nameTooLong
    else .ok (place.next c, t.node? (place.next c))
  | .same | .parent => .ok (place.next c, some .directory)

/-- Go from directory to directory. -/
def follow (t : FileTree) : Location → List Component → Except FileError Location
  | place, [] => .ok place
  | place, c :: rest => do
    match ← t.visit place c with
    | (next, some .directory) => t.follow next rest
    | (_, some (.file _)) => .error .notADirectory
    | (_, none) => .error .notFound

/-- The directory that the last component of a path is looked up in, and this component. A path
of slashes alone ends at the root, as if it stayed there. -/
def approach (t : FileTree) (path : Path) : Except FileError (Location × Component) := do
  let start := if path.absolute then [] else t.here
  let place ← t.follow start path.components.dropLast
  return (place, path.components.getLast?.getD .same)

/-- A path that is neither empty nor too long. -/
def path (text : String) : Except FileError Path :=
  if text.isEmpty then .error .notFound
  else if pathLimit < text.utf8ByteSize then .error .nameTooLong
  else .ok (Path.ofText text)

/-- The bytes of a file. -/
def read (t : FileTree) (text : String) : Except FileError (Array Byte) := do
  let path ← path text
  let (place, last) ← t.approach path
  match ← t.visit place last with
  | (_, some (.file bytes)) => if path.closed then .error .notADirectory else .ok bytes
  | (_, some .directory) => .error .isADirectory
  | (_, none) => .error .notFound

/-- The tree with a file at a place. -/
def put (t : FileTree) (place : Location) (bytes : Array Byte) : FileTree :=
  { t with nodes := (place, .file bytes) :: t.nodes }

/-- A file that was put anywhere but at the root is there. -/
theorem node?_put_self (t : FileTree) {place : Location} (bytes : Array Byte) (h : place ≠ []) :
    (t.put place bytes).node? place = some (.file bytes) := by
  cases place with
  | nil => exact absurd rfl h
  | cons name above => simp [node?, put]

/-- Nothing else changes when a file is put at a place. -/
theorem node?_put_of_ne (t : FileTree) {place other : Location} (bytes : Array Byte)
    (h : other ≠ place) : (t.put place bytes).node? other = t.node? other := by
  cases other with
  | nil => rfl
  | cons name above => simp [node?, put, List.lookup_cons, beq_false_of_ne h]

/-- The tree with a file replaced by a text, or with a new file. A path that asks for a directory
is turned down without a look at what is there. -/
def write (t : FileTree) (text content : String) : Except FileError FileTree := do
  let path ← path text
  let (place, last) ← t.approach path
  if path.closed then .error .isADirectory
  else match ← t.visit place last with
    | (_, some .directory) => .error .isADirectory
    | (target, _) => .ok (t.put target (content.toUTF8.data.map UInt8.toBitVec))

/-- Access to the files of a tree. -/
def files : Files (StateM FileTree) where
  read path := do return (← get).read path
  write path text := do
    match (← get).write path text with
    | .ok t => set t; return .ok ()
    | .error e => return .error e

/-- The directories at the root of a usual system. -/
def systemDirectories : List String :=
  ["bin", "boot", "dev", "etc", "home", "lib", "media", "mnt", "opt", "proc", "root", "run",
   "sbin", "srv", "sys", "tmp", "usr", "var"]

/-- Devices that a usual system has: the null device and the standard streams. -/
def systemDevices : List String :=
  ["null", "stdin", "stdout", "stderr"]

/-- A working directory of its own that holds some files, in a system where nothing else matters.
The devices have nothing to read; what is written to one stays there as in a file. -/
def around (present : List (String × Array Byte)) : FileTree :=
  let here := ["work", "tmp"]
  { nodes := present.map (fun (name, bytes) => (name :: here, .file bytes)) ++
      (here, .directory) ::
      systemDevices.map (fun name => ([name, "dev"], .file #[])) ++
      systemDirectories.map (fun name => ([name], .directory))
    here := here }

end FileTree

end Disasm68.CommandLine
