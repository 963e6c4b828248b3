import Disasm68.Cpu
import Disasm68.Numeral.Reading

/-!
# Options of the command line

The arguments name one file to disassemble and any number of options. An option is either a switch
or a setting with a value. Each may be given once.

Arguments are read in two steps. `Item.ofArguments` splits them into items without asking what they
mean; `Options.ofItems` takes the items in order. The first fault ends the reading, and so does
asking for the version or for help, which counts only if nothing before it was wrong.
-/

namespace Disasm68.CommandLine

/-- Options without a value. -/
inductive Switch where
  | noHex
  | noAddresses
  | noLineNumbers
  | uppercase
  | stats
  | verbose
  | help
  | version
  deriving DecidableEq, Repr

/-- Options with a value. -/
inductive Setting where
  | output
  | cpu
  | base
  | offset
  | length
  | count
  deriving DecidableEq, Repr

/-- What an option name stands for. -/
inductive OptionKind where
  | switch (s : Switch)
  | setting (s : Setting)
  deriving DecidableEq, Repr

/-- The long names of options, written after two dashes. -/
def longNames : List (String × OptionKind) :=
  [("output", .setting .output),
   ("cpu", .setting .cpu),
   ("base", .setting .base),
   ("offset", .setting .offset),
   ("length", .setting .length),
   ("count", .setting .count),
   ("no-hex", .switch .noHex),
   ("no-addresses", .switch .noAddresses),
   ("no-line-numbers", .switch .noLineNumbers),
   ("uppercase", .switch .uppercase),
   ("stats", .switch .stats),
   ("verbose", .switch .verbose),
   ("help", .switch .help),
   ("version", .switch .version)]

/-- The short names of options, written after one dash. -/
def shortNames : List (Char × OptionKind) :=
  [('o', .setting .output),
   ('c', .setting .cpu),
   ('b', .setting .base),
   ('n', .setting .count),
   ('v', .switch .verbose),
   ('h', .switch .help),
   ('V', .switch .version)]

/-- The name of an option by what it stands for. -/
def OptionKind.name (kind : OptionKind) : String :=
  match longNames.find? fun entry => entry.2 = kind with
  | some (name, _) => "--" ++ name
  | none => ""

/-- The name of a switch. -/
def Switch.name (s : Switch) : String := (OptionKind.switch s).name

/-- The name of a setting. -/
def Setting.name (s : Setting) : String := (OptionKind.setting s).name

/-- What is wrong with the arguments. -/
inductive UsageError where
  | unknownOption (name : String)
  | missingValue (s : Setting)
  | unexpectedValue (s : Switch)
  | invalidValue (s : Setting) (value : String)
  | repeatedSwitch (s : Switch)
  | repeatedSetting (s : Setting)
  | emptyPath
  | secondFile (path : String)
  deriving DecidableEq, Repr

/-- The wording of a usage error. -/
def UsageError.message : UsageError → String
  | .unknownOption name => "error: unknown option " ++ name
  | .missingValue s => "error: no value for " ++ s.name
  | .unexpectedValue s => "error: a value for " ++ s.name
  | .invalidValue s text => "error: invalid value '" ++ text ++ "' for " ++ s.name
  | .repeatedSwitch s => "error: " ++ s.name ++ " is given twice"
  | .repeatedSetting s => "error: " ++ s.name ++ " is given twice"
  | .emptyPath => "error: an empty path"
  | .secondFile path => "error: a second file '" ++ path ++ "'"

/-- A file, a switch or a setting with its value. A faulty item is the last one. -/
inductive Item where
  | file (path : String)
  | switch (s : Switch)
  | setting (s : Setting) (value : String)
  | faulty (e : UsageError)
  deriving DecidableEq, Repr

namespace Item

/-- The options behind one dash. Switches may stand together; the rest behind a setting is its
value, after an equals sign or at once. A setting at the very end still waits for its value. -/
def ofCluster : List Char → List Item × Option Setting
  | [] => ([], none)
  | c :: cs =>
    match shortNames.lookup c with
    | none => ([.faulty (.unknownOption (String.ofList ['-', c]))], none)
    | some (.switch s) =>
      let (items, waiting) := ofCluster cs
      (.switch s :: items, waiting)
    | some (.setting s) =>
      match cs with
      | [] => ([], some s)
      | '=' :: value => ([.setting s (String.ofList value)], none)
      | value => ([.setting s (String.ofList value)], none)

/-- The option behind two dashes. A value may follow behind an equals sign. -/
def ofLong (text : List Char) : List Item × Option Setting :=
  let name := String.ofList (text.takeWhile (· ≠ '='))
  match longNames.lookup name, text.dropWhile (· ≠ '=') with
  | none, _ => ([.faulty (.unknownOption ("--" ++ name))], none)
  | some (.switch s), [] => ([.switch s], none)
  | some (.switch s), _ :: _ => ([.faulty (.unexpectedValue s)], none)
  | some (.setting s), [] => ([], some s)
  | some (.setting s), _ :: value => ([.setting s (String.ofList value)], none)

/-- Whether an argument cannot be the value of the option before it. -/
def looksLikeOption (argument : String) : Bool :=
  match argument.toList with
  | '-' :: _ :: _ => true
  | _ => false

/-- The items of a list of arguments, behind a setting that waits for its value. -/
def ofArguments : (waiting : Option Setting) → List String → List Item
  | none, [] => []
  | some s, [] => [.faulty (.missingValue s)]
  | some s, argument :: rest =>
    if looksLikeOption argument then [.faulty (.missingValue s)]
    else .setting s argument :: ofArguments none rest
  | none, argument :: rest =>
    match argument.toList with
    | ['-', '-'] => rest.map .file
    | '-' :: '-' :: name =>
      let (items, waiting) := ofLong name
      items ++ ofArguments waiting rest
    | '-' :: c :: cs =>
      let (items, waiting) := ofCluster (c :: cs)
      items ++ ofArguments waiting rest
    | _ => .file argument :: ofArguments none rest

end Item

/-- The options that were given. -/
structure Options where
  input : Option String := none
  output : Option String := none
  cpu : Option Cpu := none
  base : Option Long := none
  offset : Option Nat := none
  length : Option Nat := none
  count : Option Nat := none
  switches : List Switch := []
  deriving DecidableEq, Repr

/-- What is asked for. -/
inductive Request where
  | run (options : Options)
  | version
  | help
  deriving DecidableEq, Repr

namespace Options

/-- Whether a switch was given. -/
def has (o : Options) (s : Switch) : Bool :=
  o.switches.contains s

/-- A path, which must not be empty. -/
def path (text : String) : Except UsageError String :=
  if text.isEmpty then .error .emptyPath else .ok text

/-- The first value of a setting. -/
def once {α : Type} (s : Setting) (old : Option α) (new : Except UsageError α) :
    Except UsageError (Option α) :=
  match old with
  | some _ => .error (.repeatedSetting s)
  | none => some <$> new

/-- The value of a setting, or the setting and the text that is no value of it. -/
def value {ε α : Type} (s : Setting) (text : String) (result : Except ε α) :
    Except UsageError α :=
  result.mapError fun _ => .invalidValue s text

/-- Options with one more setting. -/
def set (o : Options) (s : Setting) (text : String) : Except UsageError Options :=
  match s with
  | .output => do return { o with output := ← once s o.output (path text) }
  | .cpu => do return { o with cpu := ← once s o.cpu (value s text (Cpu.ofName text)) }
  | .base => do return { o with base := ← once s o.base (value s text (Hex.readAddress text)) }
  | .offset => do
    return { o with offset := ← once s o.offset (value s text (Numeral.readCount text)) }
  | .length => do
    return { o with length := ← once s o.length (value s text (Numeral.readCount text)) }
  | .count => do
    return { o with count := ← once s o.count (value s text (Numeral.readCount text)) }

/-- Options with one more switch. -/
def add (o : Options) (s : Switch) : Except UsageError Options :=
  if o.has s then .error (.repeatedSwitch s) else .ok { o with switches := s :: o.switches }

/-- Options with the file to disassemble. -/
def setInput (o : Options) (text : String) : Except UsageError Options :=
  match o.input with
  | some _ => .error (.secondFile text)
  | none => do return { o with input := some (← path text) }

/-- What items ask for, on top of the options given before. -/
def ofItems (o : Options) : List Item → Except UsageError Request
  | [] => .ok (.run o)
  | .faulty e :: _ => .error e
  | .switch .help :: _ => .ok .help
  | .switch .version :: _ => .ok .version
  | .switch s :: rest => do (← o.add s).ofItems rest
  | .setting s text :: rest => do (← o.set s text).ofItems rest
  | .file text :: rest => do (← o.setInput text).ofItems rest

end Options

/-- What a list of arguments asks for. -/
def Request.ofArguments (arguments : List String) : Except UsageError Request :=
  Options.ofItems {} (Item.ofArguments none arguments)

end Disasm68.CommandLine
