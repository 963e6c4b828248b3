import Disasm68.Proofs.CommandLine.Values

/-!
# What options record

Options are read from items one after the other. What they record of a setting is determined by the
values that are given for it: none, or a single one and what that stands for (`Once`). The step of a
single item keeps this (`Options.Reads.snoc`), and it is possible exactly if the item fits behind
those in front of it (`Item.Fits`, `Options.Reads.exists_step_iff`). So the recorded options are told
of all items of a command line that asks for a run (`Options.asked_ofItems`), and a command line is
refused exactly if it is misused (`Options.ofItems_eq_error_iff`).
-/

namespace Disasm68.CommandLine

/-- What succeeds has succeeded in both of its steps. -/
theorem bind_eq_ok {ε α β : Type} {x : Except ε α} {f : α → Except ε β} {b : β}
    (h : (x >>= f) = .ok b) : ∃ a, x = .ok a ∧ f a = .ok b := by
  cases x with
  | error e => cases h
  | ok a => exact ⟨a, rfl, h⟩

section Once

variable {α : Type} {Denotes : String → α → Prop} {texts : List String} {text : String}
  {value : Option α}

/-- A value that may be given once: absent without a text, and otherwise what the only text
denotes. -/
inductive Once {α : Type} (Denotes : String → α → Prop) : List String → Option α → Prop where
  | absent : Once Denotes [] none
  | given {text : String} {value : α} (h : Denotes text value) : Once Denotes [text] (some value)

theorem Once.eq_none_iff (h : Once Denotes texts value) : value = none ↔ texts = [] := by
  cases h with
  | absent => exact iff_of_true rfl rfl
  | given => exact iff_of_false nofun (List.cons_ne_nil _ _)

/-- One more value is the only one. -/
theorem exists_once_iff :
    (∃ value, Once Denotes (texts ++ [text]) value) ↔ texts = [] ∧ ∃ v, Denotes text v := by
  constructor
  · rintro ⟨value, h⟩
    generalize htexts : texts ++ [text] = all at h
    cases h with
    | absent => exact absurd htexts (List.append_ne_nil_of_right_ne_nil _ (List.cons_ne_nil _ _))
    | given h =>
      obtain ⟨rfl, hlast⟩ := List.append_eq_singleton_iff.mp htexts |>.resolve_right (by simp)
      cases hlast
      exact ⟨rfl, _, h⟩
  · rintro ⟨rfl, v, h⟩
    exact ⟨some v, .given h⟩

/-- A path stands for itself. -/
theorem Once.eq_singleton {path : String} (h : Once IsPath texts (some path)) : texts = [path] := by
  cases h with
  | given h => rw [h.1]

end Once

namespace Item

/-- The value that an item gives a setting. -/
def value? (s : Setting) : Item → Option String
  | .setting s' text => if s' = s then some text else none
  | _ => none

/-- The path of a file to disassemble. -/
def path? : Item → Option String
  | .file path => some path
  | _ => none

/-- The values given for a setting. -/
def values (s : Setting) (items : List Item) : List String :=
  items.filterMap (value? s)

/-- The files given. -/
def paths (items : List Item) : List String :=
  items.filterMap path?

variable {items : List Item} {s s' : Setting} {item : Item}

theorem values_snoc : values s (items ++ [item]) = values s items ++ (item.value? s).toList := by
  cases h : item.value? s <;> simp [values, h]

theorem paths_snoc : paths (items ++ [item]) = paths items ++ item.path?.toList := by
  cases h : item.path? <;> simp [paths, h]

end Item

namespace Options

variable {o o' : Options} {items rest : List Item} {item : Item} {s : Setting} {text : String}
  {texts : List String}

/-- What is recorded of a setting for which these values were given. -/
def Records (o : Options) (texts : List String) : Setting → Prop
  | .output => Once IsPath texts o.output
  | .cpu => Once Cpu.Named texts o.cpu
  | .base => Once (fun text v => Hex.Denotes text v.toNat) texts o.base
  | .offset => Once Numeral.Counts texts o.offset
  | .length => Once Numeral.Counts texts o.length
  | .count => Once Numeral.Counts texts o.count

/-- Files and switches are recorded elsewhere. -/
@[simp] theorem records_switches (o : Options) (switches : List Switch) (texts : List String) :
    { o with switches }.Records texts s ↔ o.Records texts s := by
  cases s <;> exact Iff.rfl

@[simp] theorem records_input (o : Options) (input : Option String) (texts : List String) :
    { o with input }.Records texts s ↔ o.Records texts s := by
  cases s <;> exact Iff.rfl

/-! ### One setting -/

/-- A first value is recorded as what it denotes. -/
theorem once_eq_ok_iff {α : Type} {Denotes : String → α → Prop} {old new : Option α}
    {result : Except UsageError α} (h : Once Denotes texts old)
    (hread : ∀ v, result = .ok v ↔ Denotes text v) :
    once s old result = .ok new ↔ Once Denotes (texts ++ [text]) new := by
  cases h with
  | given =>
    refine iff_of_false nofun fun h => ?_
    exact List.cons_ne_nil _ _ (exists_once_iff.mp ⟨new, h⟩).1
  | absent =>
    constructor
    · intro honce
      cases hresult : result with
      | error e =>
        rw [hresult] at honce
        cases honce
      | ok v =>
        rw [hresult] at honce
        cases honce
        exact .given ((hread v).mp hresult)
    · intro h
      cases h with
      | given h =>
        rw [once, (hread _).mpr h]
        rfl

/-- The fault of a value is all that changes. -/
theorem value_eq_ok_iff {ε α : Type} {result : Except ε α} {v : α} :
    value s text result = .ok v ↔ result = .ok v := by
  cases result <;> simp [value, Except.mapError]

/-- One more setting is recorded. -/
theorem Records.of_set (h : o.Records texts s) (hset : o.set s text = .ok o') :
    o'.Records (texts ++ [text]) s := by
  cases s <;> obtain ⟨field, honce, hfield⟩ := bind_eq_ok hset <;> cases hfield
  case output => exact (once_eq_ok_iff h fun _ => path_eq_ok_iff).mp honce
  case cpu =>
    exact (once_eq_ok_iff h fun _ => value_eq_ok_iff.trans Cpu.ofName_eq_ok_iff).mp honce
  case base =>
    exact (once_eq_ok_iff h fun _ => value_eq_ok_iff.trans Hex.readAddress_eq_ok_iff).mp honce
  all_goals
    exact (once_eq_ok_iff h fun _ => value_eq_ok_iff.trans Numeral.readCount_eq_ok_iff).mp honce

/-- And no other one. -/
theorem Records.of_set_of_ne {s' : Setting} (h : o.Records texts s') (hne : s' ≠ s)
    (hset : o.set s text = .ok o') : o'.Records texts s' := by
  cases s <;> obtain ⟨field, -, hfield⟩ := bind_eq_ok hset <;> cases hfield <;>
    cases s' <;> first | exact absurd rfl hne | exact h

theorem input_eq_of_set (hset : o.set s text = .ok o') : o'.input = o.input := by
  cases s <;> obtain ⟨field, -, hfield⟩ := bind_eq_ok hset <;> cases hfield <;> rfl

theorem switches_eq_of_set (hset : o.set s text = .ok o') : o'.switches = o.switches := by
  cases s <;> obtain ⟨field, -, hfield⟩ := bind_eq_ok hset <;> cases hfield <;> rfl

/-- A value can be recorded exactly if it is the first and stands for something. -/
theorem exists_once_ok_iff {α : Type} {Denotes : String → α → Prop} {old : Option α}
    {result : Except UsageError α} {record : Option α → Options} (h : Once Denotes texts old)
    (hread : ∀ v, result = .ok v ↔ Denotes text v) :
    (∃ o', (once s old result >>= fun new => pure (record new)) = .ok o') ↔
      texts = [] ∧ ∃ v, Denotes text v := by
  rw [← exists_once_iff]
  constructor
  · rintro ⟨o', hset⟩
    obtain ⟨new, honce, -⟩ := bind_eq_ok hset
    exact ⟨new, (once_eq_ok_iff h hread).mp honce⟩
  · rintro ⟨new, honce⟩
    rw [(once_eq_ok_iff h hread).mpr honce]
    exact ⟨record new, rfl⟩

theorem Records.exists_set_iff (h : o.Records texts s) :
    (∃ o', o.set s text = .ok o') ↔ texts = [] ∧ s.Accepts text := by
  cases s
  case output => exact exists_once_ok_iff h fun _ => path_eq_ok_iff
  case cpu => exact exists_once_ok_iff h fun _ => value_eq_ok_iff.trans Cpu.ofName_eq_ok_iff
  case base => exact exists_once_ok_iff h fun _ => value_eq_ok_iff.trans Hex.readAddress_eq_ok_iff
  all_goals exact exists_once_ok_iff h fun _ => value_eq_ok_iff.trans Numeral.readCount_eq_ok_iff

/-! ### One item -/

/-- Options with one more item. -/
def step (o : Options) : Item → Except UsageError Options
  | .file text => o.setInput text
  | .switch s => o.add s
  | .setting s text => o.set s text
  | .faulty e => .error e

/-- Items are taken one after the other, up to what is asked for on its own. -/
theorem ofItems_cons (hhelp : item ≠ .switch .help) (hversion : item ≠ .switch .version) :
    o.ofItems (item :: rest) = (do (← o.step item).ofItems rest) := by
  cases item with
  | switch s => cases s <;> first | rfl | contradiction
  | file | setting | faulty => rfl

theorem add_eq_ok_iff {switch : Switch} :
    o.add switch = .ok o' ↔
      o.has switch = false ∧ o' = { o with switches := switch :: o.switches } := by
  rw [add]
  split
  case isTrue hhas => simp [hhas]
  case isFalse hhas =>
    rw [Except.ok.injEq, eq_comm]
    exact ⟨fun h => ⟨by simpa using hhas, h⟩, fun h => h.2⟩

theorem setInput_eq_ok_iff :
    o.setInput text = .ok o' ↔
      o.input = none ∧ text ≠ "" ∧ o' = { o with input := some text } := by
  rw [setInput]
  split
  case h_1 hsome => exact iff_of_false nofun fun h => by cases hsome.symm.trans h.1
  case h_2 hnone =>
    constructor
    · intro h
      obtain ⟨path, hpath, hfield⟩ := bind_eq_ok h
      obtain ⟨rfl, hne⟩ := path_eq_ok_iff.mp hpath
      cases hfield
      exact ⟨hnone, hne, rfl⟩
    · rintro ⟨-, hne, rfl⟩
      rw [path_eq_ok_iff.mpr ⟨rfl, hne⟩]
      rfl

/-- Options that record the items they were read from. -/
structure Reads (items : List Item) (o : Options) : Prop where
  input : Once IsPath (Item.paths items) o.input
  settings : ∀ s, o.Records (Item.values s items) s
  switches : ∀ s, o.has s = true ↔ Item.switch s ∈ items

/-- Nothing is recorded before the first item. -/
theorem reads_nil : Reads [] {} where
  input := .absent
  settings s := by cases s <;> exact .absent
  switches s := by simp [has]

namespace Reads

variable {switch : Switch}

theorem snoc_setting (h : o.Reads items) (hset : o.set s text = .ok o') :
    o'.Reads (items ++ [.setting s text]) := by
  refine ⟨?_, fun s' => ?_, fun switch => ?_⟩
  · rw [input_eq_of_set hset, Item.paths_snoc]
    simpa [Item.path?] using h.input
  · rw [Item.values_snoc]
    by_cases hs : s' = s
    · rw [hs]
      simpa [Item.value?] using (h.settings s).of_set hset
    · simpa [Item.value?, Ne.symm hs] using (h.settings s').of_set_of_ne hs hset
  · have hsame : o'.has switch = o.has switch := by rw [has, has, switches_eq_of_set hset]
    rw [hsame]
    simpa using h.switches switch

theorem snoc_switch (h : o.Reads items) (hadd : o.add switch = .ok o') :
    o'.Reads (items ++ [.switch switch]) := by
  obtain ⟨-, rfl⟩ := add_eq_ok_iff.mp hadd
  refine ⟨?_, fun s' => ?_, fun other => ?_⟩
  · simpa [Item.paths_snoc, Item.path?] using h.input
  · simpa [Item.values_snoc, Item.value?] using h.settings s'
  · have hswitches := h.switches other
    simp only [has, List.contains_cons, List.mem_append, List.mem_singleton, Item.switch.injEq,
      ← hswitches, Bool.or_eq_true, beq_iff_eq]
    exact or_comm

theorem snoc_file (h : o.Reads items) (hinput : o.setInput text = .ok o') :
    o'.Reads (items ++ [.file text]) := by
  obtain ⟨hnone, hne, rfl⟩ := setInput_eq_ok_iff.mp hinput
  refine ⟨?_, fun s' => ?_, fun switch => ?_⟩
  · rw [Item.paths_snoc, h.input.eq_none_iff.mp hnone]
    exact .given ⟨rfl, hne⟩
  · simpa [Item.values_snoc, Item.value?] using h.settings s'
  · simpa [has] using h.switches switch

/-- **One more item** is recorded. -/
theorem snoc (h : o.Reads items) (hstep : o.step item = .ok o') : o'.Reads (items ++ [item]) := by
  cases item with
  | file => exact h.snoc_file hstep
  | switch => exact h.snoc_switch hstep
  | setting => exact h.snoc_setting hstep
  | faulty => cases hstep

end Reads

end Options

/-- What may stand behind other items: one file, a switch or a setting that is not among them, a
value that the setting accepts. -/
def Item.Fits (front : List Item) : Item → Prop
  | .file path => paths front = [] ∧ path ≠ ""
  | .switch s => .switch s ∉ front
  | .setting s text => values s front = [] ∧ s.Accepts text
  | .faulty _ => False

/-- Items behind others of which one does not fit. Those behind a question for help or for the
version do not count. -/
inductive Misused : (front items : List Item) → Prop where
  | here {front later : List Item} {item : Item} (h : ¬ item.Fits front) :
      Misused front (item :: later)
  | later {front later : List Item} {item : Item} (hhelp : item ≠ .switch .help)
      (hversion : item ≠ .switch .version) (h : Misused (front ++ [item]) later) :
      Misused front (item :: later)

/-- What items ask for: a run with the options they were read to, or what one of them asks for on its
own. -/
def Request.Asked (items : List Item) : Request → Prop
  | .run o => o.Reads items
  | .version => .switch .version ∈ items
  | .help => .switch .help ∈ items

namespace Options

variable {o : Options} {items rest : List Item} {item : Item} {request : Request}

/-- **An item can be read exactly if it fits** behind those that are recorded. -/
theorem Reads.exists_step_iff (h : o.Reads items) :
    (∃ o', o.step item = .ok o') ↔ item.Fits items := by
  cases item with
  | file text =>
    constructor
    · rintro ⟨o', hinput⟩
      obtain ⟨hnone, hne, -⟩ := setInput_eq_ok_iff.mp hinput
      exact ⟨h.input.eq_none_iff.mp hnone, hne⟩
    · rintro ⟨hnone, hne⟩
      exact ⟨_, setInput_eq_ok_iff.mpr ⟨h.input.eq_none_iff.mpr hnone, hne, rfl⟩⟩
  | switch s =>
    constructor
    · rintro ⟨o', hadd⟩ hmem
      have hhas := (add_eq_ok_iff.mp hadd).1
      rw [(h.switches s).mpr hmem] at hhas
      cases hhas
    · intro hnew
      exact ⟨_, add_eq_ok_iff.mpr ⟨eq_false_of_ne_true (mt (h.switches s).mp hnew), rfl⟩⟩
  | setting s text => exact (h.settings s).exists_set_iff
  | faulty e => exact iff_of_false nofun id

/-- **Items are read one after the other.** The induction is on the items that are still to come. -/
theorem asked_ofItems (h : o.Reads items) (hrequest : o.ofItems rest = .ok request) :
    request.Asked (items ++ rest) := by
  induction rest generalizing o items with
  | nil =>
    cases hrequest
    rwa [List.append_nil]
  | cons item rest ih =>
    by_cases hhelp : item = .switch .help
    · rw [hhelp] at hrequest ⊢
      cases hrequest
      exact List.mem_append_right _ List.mem_cons_self
    by_cases hversion : item = .switch .version
    · rw [hversion] at hrequest ⊢
      cases hrequest
      exact List.mem_append_right _ List.mem_cons_self
    rw [ofItems_cons hhelp hversion] at hrequest
    obtain ⟨o', hstep, hrest⟩ := bind_eq_ok hrequest
    rw [List.append_cons]
    exact ih (h.snoc hstep) hrest

/-- **Items are refused exactly if they are misused.** -/
theorem ofItems_eq_error_iff (h : o.Reads items) (hhelp : .switch .help ∉ items)
    (hversion : .switch .version ∉ items) :
    (∃ e, o.ofItems rest = .error e) ↔ Misused items rest := by
  induction rest generalizing o items with
  | nil => exact iff_of_false nofun nofun
  | cons item rest ih =>
    -- a question ends the reading, and it fits behind anything in which it was not asked before
    by_cases hquestion : item = .switch .help ∨ item = .switch .version
    case pos =>
      refine iff_of_false ?_ ?_
      · rcases hquestion with rfl | rfl <;> exact nofun
      · intro h
        cases h with
        | here h =>
          rcases hquestion with rfl | rfl
          · exact h hhelp
          · exact h hversion
        | later hne hne' => exact hquestion.elim hne hne'
    obtain ⟨hne, hne'⟩ := not_or.mp hquestion
    rw [ofItems_cons hne hne']
    by_cases hfits : item.Fits items
    case pos =>
      obtain ⟨o', hstep⟩ := h.exists_step_iff.mpr hfits
      have hrest := ih (h.snoc hstep) (by simp [hhelp, Ne.symm hne])
        (by simp [hversion, Ne.symm hne'])
      rw [hstep]
      refine hrest.trans ⟨.later hne hne', fun h => ?_⟩
      cases h with
      | here h => exact absurd hfits h
      | later _ _ h => exact h
    case neg =>
      refine iff_of_true ?_ (.here hfits)
      cases hstep : o.step item with
      | ok o' => exact absurd (h.exists_step_iff.mp ⟨o', hstep⟩) hfits
      | error e => exact ⟨e, rfl⟩

end Options

end Disasm68.CommandLine
