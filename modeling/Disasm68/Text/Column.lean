/-!
# Columns of text

A text that is shorter than its column is filled up with blanks; a longer one is left as it is.
-/

namespace Disasm68.Column

/-- Blanks after a text, up to a width. -/
def left (width : Nat) (s : String) : String :=
  s ++ String.ofList (List.replicate (width - s.length) ' ')

/-- Blanks before a text, up to a width. -/
def right (width : Nat) (s : String) : String :=
  String.ofList (List.replicate (width - s.length) ' ') ++ s

end Disasm68.Column
