/-!
# Paths

A path is a text that leads through directories, its components separated by slashes. A slash at
the front starts at the root; any other path starts where the program runs. Several slashes count
as one. A slash behind the last component asks for a directory there.
-/

namespace Disasm68.CommandLine

/-- What a component of a path asks for. -/
inductive Component where
  /-- Stay in the directory. -/
  | same
  /-- Go to the directory above; the root is above itself. -/
  | parent
  /-- Go to what a name of the directory stands for. -/
  | child (name : String)
  deriving DecidableEq, Repr

/-- The component that a text between slashes is, if it is one. -/
def Component.ofChars? : List Char → Option Component
  | [] => none
  | ['.'] => some .same
  | ['.', '.'] => some .parent
  | name => some (.child (String.ofList name))

/-- The way a path describes. -/
structure Path where
  /-- Whether the way starts at the root. -/
  absolute : Bool
  components : List Component
  /-- Whether a slash stands behind the last component. -/
  closed : Bool
  deriving DecidableEq, Repr

namespace Path

/-- The texts between slashes: the first one and the others. -/
def split : List Char → List Char × List (List Char)
  | [] => ([], [])
  | c :: cs =>
    let (first, others) := split cs
    if c = '/' then ([], first :: others) else (c :: first, others)

/-- Read a path. -/
def ofText (text : String) : Path :=
  let cs := text.toList
  let (first, others) := split cs
  { absolute := cs.head? = some '/'
    components := (first :: others).filterMap Component.ofChars?
    closed := cs.getLast? = some '/' }

end Path

end Disasm68.CommandLine
