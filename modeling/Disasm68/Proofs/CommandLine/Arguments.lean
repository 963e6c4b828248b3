import Disasm68.CommandLine.Options
import Mathlib.Data.List.Forall2

/-!
# The grammar of arguments

A list of arguments is made of groups. A group is a file, an argument with the names of options, or
such an argument with a value behind it (`Group`). The groups are taken from left to right, up to two
dashes that end the options or to a setting whose value is missing (`Spelled`).

The grammar builds arguments from names and values and takes none apart, so it says on its own which
options are given. `spelled_iff` says that the items of a list of arguments are those that the
grammar gives it, and no others.
-/

namespace Disasm68.CommandLine

/-! ## Names -/

/-- The name of a switch behind two dashes. -/
def Switch.word : Switch → String
  | .noHex => "no-hex"
  | .noAddresses => "no-addresses"
  | .noLineNumbers => "no-line-numbers"
  | .uppercase => "uppercase"
  | .stats => "stats"
  | .verbose => "verbose"
  | .help => "help"
  | .version => "version"

/-- The letter of a switch behind one dash, if it has one. -/
def Switch.letter? : Switch → Option Char
  | .verbose => some 'v'
  | .help => some 'h'
  | .version => some 'V'
  | .noHex | .noAddresses | .noLineNumbers | .uppercase | .stats => none

/-- The name of a setting behind two dashes. -/
def Setting.word : Setting → String
  | .output => "output"
  | .cpu => "cpu"
  | .base => "base"
  | .offset => "offset"
  | .length => "length"
  | .count => "count"

/-- The letter of a setting behind one dash, if it has one. -/
def Setting.letter? : Setting → Option Char
  | .output => some 'o'
  | .cpu => some 'c'
  | .base => some 'b'
  | .count => some 'n'
  | .offset | .length => none

namespace OptionKind

/-- The name of an option behind two dashes. -/
def word : OptionKind → String
  | .switch s => s.word
  | .setting s => s.word

/-- The letter of an option behind one dash, if it has one. -/
def letter? : OptionKind → Option Char
  | .switch s => s.letter?
  | .setting s => s.letter?

variable (kind : OptionKind) {name : String} {c : Char}

theorem lookup_longNames : longNames.lookup name = some kind ↔ kind.word = name := by
  constructor
  · intro h
    have hall : ∀ entry ∈ longNames, entry.2.word = entry.1 := by decide
    obtain ⟨front, later, hnames, -⟩ := List.lookup_eq_some_iff.mp h
    exact hall (name, kind) (hnames ▸ List.mem_append_right _ List.mem_cons_self)
  · rintro rfl
    cases kind with
    | switch s => cases s <;> decide
    | setting s => cases s <;> decide

theorem lookup_shortNames : shortNames.lookup c = some kind ↔ kind.letter? = some c := by
  constructor
  · intro h
    have hall : ∀ entry ∈ shortNames, entry.2.letter? = some entry.1 := by decide
    obtain ⟨front, later, hnames, -⟩ := List.lookup_eq_some_iff.mp h
    exact hall (c, kind) (hnames ▸ List.mem_append_right _ List.mem_cons_self)
  · intro h
    cases kind with
    | switch s => cases s <;> cases h <;> decide
    | setting s => cases s <;> cases h <;> decide

/-- A dash is no letter. -/
theorem letter?_ne_dash : kind.letter? ≠ some '-' := by
  cases kind with
  | switch s => cases s <;> decide
  | setting s => cases s <;> decide

/-- No name has an equals sign in it. -/
theorem equals_notMem_word : '=' ∉ kind.word.toList := by
  cases kind with
  | switch s => cases s <;> decide
  | setting s => cases s <;> decide

theorem word_ne_nil : kind.word.toList ≠ [] := by
  cases kind with
  | switch s => cases s <;> decide
  | setting s => cases s <;> decide

end OptionKind

/-! ## The grammar -/

/-- An argument that is no file and no value: a dash with something behind it. -/
def NamesOptions (argument : String) : Prop :=
  ∃ rest ≠ "", argument = "-" ++ rest

/-- Letters that stand for switches. -/
def Letters (letters : List Char) (switches : List Switch) : Prop :=
  List.Forall₂ (fun c s => Switch.letter? s = some c) letters switches

/-- An argument that ends in the name of a setting, the items in front of it, and the setting. -/
inductive Waits : String → List Item → Setting → Prop where
  | word (s : Setting) : Waits ("--" ++ s.word) [] s
  | letter {letters : List Char} {switches : List Switch} (h : Letters letters switches) {c : Char}
      {s : Setting} (hc : s.letter? = some c) :
      Waits ("-" ++ String.ofList (letters ++ [c])) (switches.map .switch) s

/-- Arguments that are read as a whole, and their items. -/
inductive Group : List String → List Item → Prop where
  | file {path : String} (h : ¬ NamesOptions path) : Group [path] [.file path]
  | word (s : Switch) : Group ["--" ++ s.word] [.switch s]
  | letters {letters : List Char} {switches : List Switch} (hne : letters ≠ [])
      (h : Letters letters switches) :
      Group ["-" ++ String.ofList letters] (switches.map .switch)
  | separate {argument : String} {items : List Item} {s : Setting} (h : Waits argument items s)
      {value : String} (hvalue : ¬ NamesOptions value) :
      Group [argument, value] (items ++ [.setting s value])
  | joined {argument : String} {items : List Item} {s : Setting} (h : Waits argument items s)
      (value : String) :
      Group [argument ++ "=" ++ value] (items ++ [.setting s value])
  | attached {letters : List Char} {switches : List Switch} (h : Letters letters switches) {c : Char}
      {s : Setting} (hc : s.letter? = some c) {value : String} (hne : value ≠ "")
      (hequals : ∀ rest, value ≠ "=" ++ rest) :
      Group ["-" ++ String.ofList (letters ++ [c]) ++ value]
        (switches.map .switch ++ [.setting s value])
  | unexpectedValue (s : Switch) (value : String) :
      Group ["--" ++ s.word ++ "=" ++ value] [.faulty (.unexpectedValue s)]
  | unknownWord {name tail : String} (hname : ∀ kind : OptionKind, kind.word ≠ name)
      (hequals : '=' ∉ name.toList) (htail : tail = "" ∨ ∃ value, tail = "=" ++ value)
      (hne : name ++ tail ≠ "") :
      Group ["--" ++ name ++ tail] [.faulty (.unknownOption ("--" ++ name))]
  | unknownLetter {letters : List Char} {switches : List Switch} (h : Letters letters switches)
      {c : Char} (hc : ∀ kind : OptionKind, kind.letter? ≠ some c) (hdash : letters = [] → c ≠ '-')
      (rest : String) :
      Group ["-" ++ String.ofList (letters ++ [c]) ++ rest]
        (switches.map .switch ++ [.faulty (.unknownOption (String.ofList ['-', c]))])

/-- A list of arguments and its items. Two dashes end the options, and so does a setting whose value
is missing: nothing behind that is read. -/
inductive Spelled : List String → List Item → Prop where
  | nil : Spelled [] []
  | group {arguments rest : List String} {items later : List Item} (h : Group arguments items)
      (hrest : Spelled rest later) : Spelled (arguments ++ rest) (items ++ later)
  | paths (paths : List String) : Spelled ("--" :: paths) (paths.map .file)
  | missingValue {argument : String} {rest : List String} {items : List Item} {s : Setting}
      (h : Waits argument items s) (hrest : ∀ next ∈ rest.head?, NamesOptions next) :
      Spelled (argument :: rest) (items ++ [.faulty (.missingValue s)])

/-! ## What groups are read as -/

namespace Item

variable {argument : String} {rest : List String}

theorem looksLikeOption_iff : looksLikeOption argument = true ↔ NamesOptions argument := by
  constructor
  · intro h
    unfold looksLikeOption at h
    split at h
    case h_1 c cs hargument =>
      refine ⟨String.ofList (c :: cs), by simp, ?_⟩
      rw [← String.toList_inj, hargument]
      simp
    case h_2 => cases h
  · rintro ⟨text, hne, rfl⟩
    obtain ⟨c, cs, htext⟩ : ∃ c cs, text.toList = c :: cs :=
      List.exists_cons_of_ne_nil fun hnil => hne (String.toList_eq_nil_iff.mp hnil)
    simp [looksLikeOption, htext]

theorem ofArguments_of_file (h : ¬ NamesOptions argument) :
    ofArguments none (argument :: rest) = .file argument :: ofArguments none rest := by
  have hlook : ¬ looksLikeOption argument = true := mt looksLikeOption_iff.mp h
  unfold looksLikeOption at hlook
  rw [ofArguments]
  split
  case h_1 hargument => simp [hargument] at hlook
  case h_2 hargument => simp [hargument] at hlook
  case h_3 hargument => simp [hargument] at hlook
  case h_4 => rfl

theorem ofArguments_of_long (name : List Char) (h : argument.toList = '-' :: '-' :: name)
    (hne : name ≠ []) :
    ofArguments none (argument :: rest) =
      (ofLong name).1 ++ ofArguments (ofLong name).2 rest := by
  obtain ⟨c, cs, rfl⟩ := List.exists_cons_of_ne_nil hne
  rw [ofArguments, h]
  rfl

theorem ofArguments_of_cluster (cs : List Char) (h : argument.toList = '-' :: cs) (hne : cs ≠ [])
    (hdash : cs.head? ≠ some '-') :
    ofArguments none (argument :: rest) =
      (ofCluster cs).1 ++ ofArguments (ofCluster cs).2 rest := by
  obtain ⟨c, cs, rfl⟩ := List.exists_cons_of_ne_nil hne
  have hc : c ≠ '-' := fun heq => hdash (congrArg some heq)
  rw [ofArguments, h]
  split
  case h_1 heq => simp [hc] at heq
  case h_2 heq => simp [hc] at heq
  case h_3 heq =>
    cases heq
    rfl
  case h_4 hnone => exact absurd rfl (hnone c cs)

section Cluster

variable {letters cs : List Char} {switches : List Switch} {c : Char} {s : Setting}

/-- Switches are items, whatever follows them. -/
theorem ofCluster_append (h : Letters letters switches) (cs : List Char) :
    ofCluster (letters ++ cs) = (switches.map .switch ++ (ofCluster cs).1, (ofCluster cs).2) := by
  induction h with
  | nil => rfl
  | @cons c s letters switches hc _ ih =>
    rw [List.cons_append, ofCluster, (OptionKind.lookup_shortNames (.switch s)).mpr hc, ih]
    rfl

theorem ofCluster_letters (h : Letters letters switches) :
    ofCluster letters = (switches.map .switch, none) := by
  have hitems := ofCluster_append h []
  rwa [List.append_nil, show ofCluster [] = ([], none) from rfl, List.append_nil] at hitems

theorem ofCluster_waiting (hc : s.letter? = some c) : ofCluster [c] = ([], some s) := by
  rw [ofCluster, (OptionKind.lookup_shortNames (.setting s)).mpr hc]

theorem ofCluster_joined (hc : s.letter? = some c) :
    ofCluster (c :: '=' :: cs) = ([.setting s (String.ofList cs)], none) := by
  rw [ofCluster, (OptionKind.lookup_shortNames (.setting s)).mpr hc]
  rfl

theorem ofCluster_attached (hc : s.letter? = some c) (hne : cs ≠ [])
    (hequals : cs.head? ≠ some '=') :
    ofCluster (c :: cs) = ([.setting s (String.ofList cs)], none) := by
  rw [ofCluster, (OptionKind.lookup_shortNames (.setting s)).mpr hc]
  dsimp only
  split
  case h_1 => exact absurd rfl hne
  case h_2 => exact absurd rfl hequals
  case h_3 => rfl

theorem ofCluster_of_unknown (hc : ∀ kind : OptionKind, kind.letter? ≠ some c) :
    ofCluster (c :: cs) = ([.faulty (.unknownOption (String.ofList ['-', c]))], none) := by
  have hlookup : shortNames.lookup c = none :=
    Option.eq_none_iff_forall_ne_some.mpr fun kind => mt kind.lookup_shortNames.mp (hc kind)
  rw [ofCluster, hlookup]

end Cluster

section Long

variable {name tail : List Char}

/-- A name ends at the first equals sign. -/
theorem split_name (hname : '=' ∉ name) (htail : tail = [] ∨ ∃ value, tail = '=' :: value) :
    (name ++ tail).takeWhile (· ≠ '=') = name ∧ (name ++ tail).dropWhile (· ≠ '=') = tail := by
  have hall : ∀ c ∈ name, decide (c ≠ '=') = true := fun c hc =>
    decide_eq_true fun heq => hname (heq ▸ hc)
  rw [List.takeWhile_append_of_pos hall, List.dropWhile_append_of_pos hall]
  rcases htail with rfl | ⟨value, rfl⟩ <;> simp

/-- Every text is a name with nothing or a value behind it. -/
theorem exists_name (text : List Char) : ∃ name tail, text = name ++ tail ∧ '=' ∉ name ∧
    (tail = [] ∨ ∃ value, tail = '=' :: value) := by
  by_cases hmem : '=' ∈ text
  · obtain ⟨name, value, htext, hname⟩ := List.eq_append_cons_of_mem hmem
    exact ⟨name, '=' :: value, htext, hname, .inr ⟨value, rfl⟩⟩
  · exact ⟨text, [], (List.append_nil text).symm, hmem, .inl rfl⟩

/-- So the word of an option is looked up, and what is behind it is left. -/
theorem split_word (kind : OptionKind) (word : String) (hword : kind.word = word)
    (htail : tail = [] ∨ ∃ value, tail = '=' :: value) :
    longNames.lookup (String.ofList ((word.toList ++ tail).takeWhile (· ≠ '='))) = some kind ∧
      (word.toList ++ tail).dropWhile (· ≠ '=') = tail := by
  subst hword
  obtain ⟨hname, hdrop⟩ := split_name kind.equals_notMem_word htail
  rw [hname, String.ofList_toList]
  exact ⟨kind.lookup_longNames.mpr rfl, hdrop⟩

theorem ofLong_switch (s : Switch) : ofLong s.word.toList = ([.switch s], none) := by
  obtain ⟨hname, htail⟩ := split_word (.switch s) s.word rfl (.inl rfl)
  rw [List.append_nil] at hname htail
  simp only [ofLong, hname, htail]

theorem ofLong_switch_value (s : Switch) (value : List Char) :
    ofLong (s.word.toList ++ '=' :: value) = ([.faulty (.unexpectedValue s)], none) := by
  obtain ⟨hname, htail⟩ := split_word (.switch s) s.word rfl (.inr ⟨value, rfl⟩)
  simp only [ofLong, hname, htail]

theorem ofLong_waiting (s : Setting) : ofLong s.word.toList = ([], some s) := by
  obtain ⟨hname, htail⟩ := split_word (.setting s) s.word rfl (.inl rfl)
  rw [List.append_nil] at hname htail
  simp only [ofLong, hname, htail]

theorem ofLong_joined (s : Setting) (value : List Char) :
    ofLong (s.word.toList ++ '=' :: value) = ([.setting s (String.ofList value)], none) := by
  obtain ⟨hname, htail⟩ := split_word (.setting s) s.word rfl (.inr ⟨value, rfl⟩)
  simp only [ofLong, hname, htail]

theorem ofLong_unknown (hname : '=' ∉ name) (htail : tail = [] ∨ ∃ value, tail = '=' :: value)
    (hword : ∀ kind : OptionKind, kind.word ≠ String.ofList name) :
    ofLong (name ++ tail) = ([.faulty (.unknownOption ("--" ++ String.ofList name))], none) := by
  have hlookup : longNames.lookup (String.ofList name) = none :=
    Option.eq_none_iff_forall_ne_some.mpr fun kind => mt kind.lookup_longNames.mp (hword kind)
  obtain ⟨hname, htail⟩ := split_name hname htail
  simp only [ofLong, hname, htail, hlookup]

end Long

end Item

/-! ## The grammar and the items -/

section Groups

variable {argument value text : String} {arguments rest : List String} {items : List Item}
  {s : Setting}

theorem toList_eq_equals {cs : List Char} :
    text.toList = '=' :: cs ↔ text = "=" ++ String.ofList cs := by
  rw [← String.toList_inj]
  simp

/-- Letters do not begin with a dash. -/
theorem Letters.head?_ne_dash {letters : List Char} {switches : List Switch}
    (h : Letters letters switches) : letters.head? ≠ some '-' := by
  cases h with
  | nil => exact nofun
  | @cons c s _ _ hc _ =>
    intro hhead
    cases hhead
    exact OptionKind.letter?_ne_dash (.switch s) hc

theorem Letters.head?_append {letters : List Char} {switches : List Switch}
    (h : Letters letters switches) {c : Char} (hdash : letters = [] → c ≠ '-') (cs : List Char) :
    (letters ++ c :: cs).head? ≠ some '-' := by
  cases letters with
  | nil => exact fun hhead => hdash rfl (Option.some.inj hhead)
  | cons => exact h.head?_ne_dash

theorem Setting.letter_ne_dash {c : Char} (hc : s.letter? = some c) : c ≠ '-' := by
  rintro rfl
  exact OptionKind.letter?_ne_dash (.setting s) hc

/-- A setting that waits for its value is what an argument leaves behind. -/
theorem Waits.ofArguments_eq (h : Waits argument items s) (rest : List String) :
    Item.ofArguments none (argument :: rest) = items ++ Item.ofArguments (some s) rest := by
  cases h with
  | word =>
    rw [Item.ofArguments_of_long s.word.toList (by simp) (OptionKind.word_ne_nil (.setting s)),
      Item.ofLong_waiting]
  | @letter letters switches h c _ hc =>
    have hdash := h.head?_append (fun _ => Setting.letter_ne_dash hc) []
    rw [Item.ofArguments_of_cluster (letters ++ [c]) (by simp) (by simp) hdash,
      Item.ofCluster_append h, Item.ofCluster_waiting hc, List.append_nil]

/-- Or the value is joined to it. -/
theorem Waits.ofArguments_joined (h : Waits argument items s) (value : String)
    (rest : List String) :
    Item.ofArguments none ((argument ++ "=" ++ value) :: rest) =
      items ++ [.setting s value] ++ Item.ofArguments none rest := by
  cases h with
  | word =>
    rw [Item.ofArguments_of_long (s.word.toList ++ '=' :: value.toList) (by simp) (by simp),
      Item.ofLong_joined, String.ofList_toList]
    rfl
  | @letter letters switches h c _ hc =>
    have hdash := h.head?_append (fun _ => Setting.letter_ne_dash hc) ('=' :: value.toList)
    rw [Item.ofArguments_of_cluster (letters ++ c :: '=' :: value.toList) (by simp) (by simp) hdash,
      Item.ofCluster_append h, Item.ofCluster_joined hc, String.ofList_toList]

theorem ofArguments_value (hvalue : ¬ NamesOptions value) (rest : List String) :
    Item.ofArguments (some s) (value :: rest) =
      .setting s value :: Item.ofArguments none rest := by
  rw [Item.ofArguments, if_neg (mt Item.looksLikeOption_iff.mp hvalue)]

theorem ofArguments_missing (hrest : ∀ next ∈ rest.head?, NamesOptions next) :
    Item.ofArguments (some s) rest = [.faulty (.missingValue s)] := by
  cases rest with
  | nil => rfl
  | cons next rest =>
    rw [Item.ofArguments, if_pos (Item.looksLikeOption_iff.mpr (hrest next rfl))]

/-- **A group is read as its items**, whatever follows it. -/
theorem Group.ofArguments_append (h : Group arguments items) (rest : List String) :
    Item.ofArguments none (arguments ++ rest) = items ++ Item.ofArguments none rest := by
  cases h with
  | file h => exact Item.ofArguments_of_file h
  | word s =>
    rw [List.singleton_append,
      Item.ofArguments_of_long s.word.toList (by simp) (OptionKind.word_ne_nil (.switch s)),
      Item.ofLong_switch]
  | @letters letters switches hne h =>
    rw [List.singleton_append,
      Item.ofArguments_of_cluster letters (by simp) hne h.head?_ne_dash, Item.ofCluster_letters h]
  | separate h hvalue =>
    rw [List.cons_append, h.ofArguments_eq, List.singleton_append, ofArguments_value hvalue,
      List.append_assoc]
    rfl
  | joined h value => exact h.ofArguments_joined value rest
  | @attached letters switches h c s hc value hne hequals =>
    have hdash := h.head?_append (fun _ => Setting.letter_ne_dash hc) value.toList
    have hne : value.toList ≠ [] := mt String.toList_eq_nil_iff.mp hne
    have hequals : value.toList.head? ≠ some '=' := by
      intro hhead
      obtain ⟨cs, hcs⟩ := List.head?_eq_some_iff.mp hhead
      exact hequals _ (toList_eq_equals.mp hcs)
    rw [List.singleton_append,
      Item.ofArguments_of_cluster (letters ++ c :: value.toList) (by simp) (by simp) hdash,
      Item.ofCluster_append h, Item.ofCluster_attached hc hne hequals, String.ofList_toList]
  | unexpectedValue s value =>
    rw [List.singleton_append,
      Item.ofArguments_of_long (s.word.toList ++ '=' :: value.toList) (by simp) (by simp),
      Item.ofLong_switch_value]
  | @unknownWord name tail hname hequals htail hne =>
    have htail : tail.toList = [] ∨ ∃ value, tail.toList = '=' :: value := by
      rcases htail with rfl | ⟨value, rfl⟩
      · exact .inl rfl
      · exact .inr ⟨value.toList, by simp⟩
    have hne : name.toList ++ tail.toList ≠ [] := by
      rw [← String.toList_append]
      exact mt String.toList_eq_nil_iff.mp hne
    rw [List.singleton_append,
      Item.ofArguments_of_long (name.toList ++ tail.toList) (by simp) hne,
      Item.ofLong_unknown hequals htail (by simpa using hname), String.ofList_toList]
  | @unknownLetter letters switches h c hc hdash text =>
    rw [List.singleton_append,
      Item.ofArguments_of_cluster (letters ++ c :: text.toList) (by simp) (by simp)
        (h.head?_append hdash _),
      Item.ofCluster_append h, Item.ofCluster_of_unknown hc]

/-- **The grammar gives a list of arguments the items that are read.** -/
theorem Spelled.eq_ofArguments (h : Spelled arguments items) :
    items = Item.ofArguments none arguments := by
  induction h with
  | nil => rfl
  | group h _ ih => rw [h.ofArguments_append, ih]
  | paths paths => rfl
  | missingValue h hrest => rw [h.ofArguments_eq, ofArguments_missing hrest]

/-! ## Every list of arguments -/

/-- What an argument comes to on its own: a group, or a setting that waits for its value. -/
def Alone (argument : String) : List Item × Option Setting → Prop
  | (items, none) => Group [argument] items
  | (items, some s) => Waits argument items s

/-- Letters are switches up to the first one that is not. -/
theorem exists_letters (cs : List Char) : ∃ letters switches rest, cs = letters ++ rest ∧
    Letters letters switches ∧ ∀ c ∈ rest.head?, ∀ s : Switch, s.letter? ≠ some c := by
  induction cs with
  | nil => exact ⟨[], [], [], rfl, .nil, nofun⟩
  | cons c cs ih =>
    by_cases hc : ∃ s : Switch, s.letter? = some c
    · obtain ⟨s, hs⟩ := hc
      obtain ⟨letters, switches, rest, rfl, hletters, hrest⟩ := ih
      exact ⟨c :: letters, s :: switches, rest, rfl, .cons hs hletters, hrest⟩
    · refine ⟨[], [], c :: cs, rfl, .nil, ?_⟩
      rintro _ ⟨⟩ s hs
      exact hc ⟨s, hs⟩

/-- Behind one dash there are letters. -/
theorem alone_cluster {cs : List Char} (hne : cs ≠ []) (hdash : cs.head? ≠ some '-') :
    Alone ("-" ++ String.ofList cs) (Item.ofCluster cs) := by
  obtain ⟨letters, switches, rest, rfl, h, hrest⟩ := exists_letters cs
  cases rest with
  | nil =>
    rw [List.append_nil] at hne ⊢
    rw [Item.ofCluster_letters h]
    exact .letters hne h
  | cons c rest =>
    have hsplit : "-" ++ String.ofList (letters ++ c :: rest) =
        "-" ++ String.ofList (letters ++ [c]) ++ String.ofList rest := by
      simp [← String.toList_inj]
    rw [hsplit, Item.ofCluster_append h]
    -- a letter that is no switch is the last: the rest belongs to it, or it is a fault
    by_cases hc : ∃ s : Setting, s.letter? = some c
    case neg =>
      have hunknown : ∀ kind : OptionKind, kind.letter? ≠ some c := by
        intro kind hkind
        cases kind with
        | switch s => exact hrest c rfl s hkind
        | setting s => exact hc ⟨s, hkind⟩
      rw [Item.ofCluster_of_unknown hunknown]
      refine .unknownLetter h hunknown (fun hnil heq => hdash ?_) _
      rw [hnil, heq]
      rfl
    case pos =>
      obtain ⟨s, hs⟩ := hc
      cases rest with
      | nil =>
        rw [Item.ofCluster_waiting hs, List.append_nil, String.ofList_nil, String.append_empty]
        exact .letter h hs
      | cons d value =>
        by_cases hd : d = '='
        · rw [hd, Item.ofCluster_joined hs, toList_eq_equals.mp String.toList_ofList,
            ← String.append_assoc]
          exact .joined (.letter h hs) _
        · rw [Item.ofCluster_attached hs (List.cons_ne_nil d value) (by simpa using hd)]
          refine .attached h hs (by simp) ?_
          intro rest heq
          have hlist : d :: value = '=' :: rest.toList := by
            simpa using congrArg String.toList heq
          exact hd (List.cons.inj hlist).1

/-- Behind two dashes there is a name. -/
theorem alone_long {cs : List Char} (hne : cs ≠ []) :
    Alone ("--" ++ String.ofList cs) (Item.ofLong cs) := by
  obtain ⟨name, tail, rfl, hname, htail⟩ := Item.exists_name cs
  have hsplit : "--" ++ String.ofList (name ++ tail) =
      "--" ++ String.ofList name ++ String.ofList tail := by
    simp [← String.toList_inj]
  rw [hsplit]
  by_cases hword : ∃ kind : OptionKind, kind.word = String.ofList name
  case neg =>
    have hunknown : ∀ kind : OptionKind, kind.word ≠ String.ofList name := not_exists.mp hword
    rw [Item.ofLong_unknown hname htail hunknown]
    refine .unknownWord hunknown (by rwa [String.toList_ofList]) ?_ ?_
    · rcases htail with rfl | ⟨value, rfl⟩
      · exact .inl rfl
      · exact .inr ⟨String.ofList value, toList_eq_equals.mp String.toList_ofList⟩
    · simpa [← String.toList_inj] using hne
  case pos =>
    obtain ⟨kind, hkind⟩ := hword
    obtain rfl : kind.word.toList = name := by rw [hkind, String.toList_ofList]
    rw [String.ofList_toList]
    rcases htail with rfl | ⟨value, rfl⟩
    · rw [List.append_nil, String.ofList_nil, String.append_empty]
      cases kind with
      | switch s => exact Item.ofLong_switch s ▸ .word s
      | setting s => exact Item.ofLong_waiting s ▸ .word s
    · rw [toList_eq_equals.mp String.toList_ofList, ← String.append_assoc]
      cases kind with
      | switch s => exact Item.ofLong_switch_value s value ▸ .unexpectedValue s _
      | setting s => exact Item.ofLong_joined s value ▸ .joined (.word s) _

/-- An argument is a file, the end of the options, or one that names options. -/
theorem argument_cases (argument : String) :
    ¬ NamesOptions argument ∨ argument = "--" ∨
      (∃ cs, cs ≠ [] ∧ argument = "--" ++ String.ofList cs) ∨
      ∃ cs, cs ≠ [] ∧ cs.head? ≠ some '-' ∧ argument = "-" ++ String.ofList cs := by
  by_cases h : NamesOptions argument
  case neg => exact .inl h
  obtain ⟨text, hne, rfl⟩ := h
  obtain ⟨cs, rfl⟩ : ∃ cs, text = String.ofList cs := ⟨text.toList, String.ofList_toList.symm⟩
  refine .inr ?_
  cases cs with
  | nil => exact absurd rfl hne
  | cons c cs =>
    by_cases hc : c = '-'
    case neg => exact .inr (.inr ⟨c :: cs, List.cons_ne_nil c cs, by simpa using hc, rfl⟩)
    have htext : "-" ++ String.ofList (c :: cs) = "--" ++ String.ofList cs := by
      simp [← String.toList_inj, hc]
    cases cs with
    | nil => exact .inl htext
    | cons d cs => exact .inr (.inl ⟨d :: cs, List.cons_ne_nil d cs, htext⟩)

/-- What an argument comes to on its own is read from it, whatever follows. -/
theorem exists_alone {argument : String} (hoption : NamesOptions argument) (hne : argument ≠ "--") :
    ∃ lexed, Alone argument lexed ∧ ∀ rest, Item.ofArguments none (argument :: rest) =
      lexed.1 ++ Item.ofArguments lexed.2 rest := by
  rcases argument_cases argument with h | h | ⟨cs, hcs, rfl⟩ | ⟨cs, hcs, hdash, rfl⟩
  · exact absurd hoption h
  · exact absurd h hne
  · exact ⟨_, alone_long hcs, fun rest => Item.ofArguments_of_long cs (by simp) hcs⟩
  · exact ⟨_, alone_cluster hcs hdash, fun rest => Item.ofArguments_of_cluster cs (by simp) hcs hdash⟩

/-- What has been read is spelled by the grammar. A separate value goes with the argument in front of
it, so the rest may begin one argument later. -/
theorem spelled_ofArguments (arguments : List String) :
    Spelled arguments (Item.ofArguments none arguments) := by
  match arguments with
  | [] => exact .nil
  | argument :: rest =>
    by_cases hoption : NamesOptions argument
    case neg =>
      rw [Item.ofArguments_of_file hoption]
      exact .group (.file hoption) (spelled_ofArguments rest)
    by_cases hend : argument = "--"
    case pos =>
      rw [hend]
      exact .paths rest
    obtain ⟨⟨items, waiting⟩, halone, hitems⟩ := exists_alone hoption hend
    rw [hitems]
    cases waiting with
    | none => exact .group halone (spelled_ofArguments rest)
    | some s =>
      by_cases hmissing : ∀ next ∈ rest.head?, NamesOptions next
      case pos =>
        rw [ofArguments_missing hmissing]
        exact .missingValue halone hmissing
      match rest with
      | [] => exact absurd nofun hmissing
      | value :: rest =>
        have hvalue : ¬ NamesOptions value := by
          intro hvalue
          refine hmissing ?_
          rintro _ ⟨⟩
          exact hvalue
        rw [ofArguments_value hvalue, List.append_cons]
        exact .group (.separate halone hvalue) (spelled_ofArguments rest)
  termination_by arguments.length

/-- **The items of a list of arguments are those that the grammar gives it**, and no others. -/
theorem spelled_iff : Spelled arguments items ↔ items = Item.ofArguments none arguments := by
  refine ⟨Spelled.eq_ofArguments, ?_⟩
  rintro rfl
  exact spelled_ofArguments arguments

example : Spelled ["-vb", "1000", "--output=out.txt", "--", "-in"]
    [.switch .verbose, .setting .base "1000", .setting .output "out.txt", .file "-in"] :=
  spelled_iff.mpr (by decide)

end Groups

end Disasm68.CommandLine
