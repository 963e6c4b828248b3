import Disasm68.Proofs.CommandLine.Arguments
import Disasm68.Proofs.CommandLine.FileTree

/-!
# How the program ends

Nothing is written before everything else has succeeded, so a run that fails leaves no trace and has
a reason (`Finishes.of_code_ne_zero`), and one that succeeds has sent its text to a single place
(`Ends.of_code_eq_zero`). What that text is, can be told from the items of the command line: the
listing of a range of the file, with the options that the items ask for (`AsksFor`).
`program_outcome` puts this together for a directory that holds one file or none, with the items that
the grammar gives the arguments.
-/

namespace Disasm68.CommandLine

variable {before after : FileTree} {o : Options} {path : String} {outcome : Outcome}

/-- How the disassembly of a file ends: with a failure that leaves everything as it was, with the
listing on standard output, or with the listing in a file. -/
inductive Ends (before : FileTree) (o : Options) (path : String) : Outcome → FileTree → Prop where
  | unreadable {e : FileError} (hread : before.read path = .error e) :
      Ends before o path (.failure (.reading path e)) before
  | pastEnd {data : Array Byte} {e : RangeError} (hread : before.read path = .ok data)
      (htext : o.listingText data = .error e) :
      Ends before o path (.failure (.selecting path e)) before
  | unwritable {text target : String} {e : FileError} (houtput : o.output = some target)
      (hwrite : before.write target text = .error e) :
      Ends before o path (.failure (.writing target e)) before
  | printed {data : Array Byte} {text : String} (hread : before.read path = .ok data)
      (htext : o.listingText data = .ok text) (houtput : o.output = none) :
      Ends before o path (.success text) before
  | written {data : Array Byte} {text target : String} {after : FileTree}
      (hread : before.read path = .ok data) (htext : o.listingText data = .ok text)
      (houtput : o.output = some target) (hwrite : before.write target text = .ok after) :
      Ends before o path (.success "") after

/-- The cases follow the steps of the program. -/
theorem ends_disassembleFile (before : FileTree) (o : Options) (path : String) :
    let r := ((disassembleFile FileTree.files o path).run before).run
    Ends before o path r.1 r.2 := by
  cases hread : before.read path with
  | error e =>
    simpa [disassembleFile, FileTree.files, hread] using Ends.unreadable hread
  | ok data =>
    cases htext : o.listingText data with
    | error e =>
      simpa [disassembleFile, FileTree.files, hread, htext] using Ends.pastEnd hread htext
    | ok text =>
      cases houtput : o.output with
      | none =>
        simpa [disassembleFile, FileTree.files, hread, htext, houtput] using
          Ends.printed hread htext houtput
      | some target =>
        cases hwrite : before.write target text with
        | error e =>
          have hends : Ends before o path _ before := .unwritable houtput hwrite
          simpa [disassembleFile, FileTree.files, hread, htext, houtput, hwrite] using hends
        | ok after =>
          simpa [disassembleFile, FileTree.files, hread, htext, houtput, hwrite] using
            Ends.written hread htext houtput hwrite

namespace Ends

/-- A failure has no effect. -/
theorem of_code_ne_zero (h : Ends before o path outcome after) (hcode : outcome.code ≠ 0) :
    outcome.code = 1 ∧ outcome.stdout = "" ∧ after = before := by
  cases h with
  | unreadable | pastEnd | unwritable => exact ⟨rfl, rfl, rfl⟩
  | printed | written => exact absurd rfl hcode

/-- A success has sent the text to one place. -/
theorem of_code_eq_zero (h : Ends before o path outcome after) (hcode : outcome.code = 0) :
    ∃ data text, before.read path = .ok data ∧ o.listingText data = .ok text ∧
      (o.output = none ∧ outcome.stdout = text ∧ after = before ∨
        ∃ target, o.output = some target ∧ outcome.stdout = "" ∧
          before.write target text = .ok after) := by
  cases h with
  | unreadable | pastEnd | unwritable => cases hcode
  | printed hread htext houtput => exact ⟨_, _, hread, htext, .inl ⟨houtput, rfl, rfl⟩⟩
  | written hread htext houtput hwrite =>
    exact ⟨_, _, hread, htext, .inr ⟨_, houtput, rfl, hwrite⟩⟩

end Ends

/-- How the program ends: the arguments make no sense, something else than a listing was asked for,
no file was given, or the options ask for the disassembly of one. -/
inductive Finishes (before : FileTree) (items : List Item) : Outcome → FileTree → Prop where
  | misused (h : Misused [] items) (e : UsageError) : Finishes before items (.misuse e) before
  | answered (h : ¬ Misused [] items) {s : Switch} (hs : s ∈ [Switch.stats, .version, .help])
      (hitem : .switch s ∈ items) (text : String) : Finishes before items (.success text) before
  | noInput (h : ¬ Misused [] items) (hpaths : Item.paths items = []) :
      Finishes before items (.failure .noInput) before
  | disassembled (h : ¬ Misused [] items) {o : Options} {path : String} {outcome : Outcome}
      {after : FileTree} (hreads : o.Reads items) (hinput : o.input = some path)
      (hends : Ends before o path outcome after) : Finishes before items outcome after

/-- The cases follow what the arguments ask for. -/
theorem finishes_program (arguments : List String) (before : FileTree) :
    let r := ((program FileTree.files arguments).run before).run
    Finishes before (Item.ofArguments none arguments) r.1 r.2 := by
  have hmisused : (∃ e, Request.ofArguments arguments = .error e) ↔
      Misused [] (Item.ofArguments none arguments) :=
    Options.ofItems_eq_error_iff Options.reads_nil List.not_mem_nil List.not_mem_nil
  cases hrequest : Request.ofArguments arguments with
  | error e =>
    simpa [program, hrequest] using Finishes.misused (hmisused.mp ⟨e, hrequest⟩) e
  | ok request =>
    have hwell : ¬ Misused [] (Item.ofArguments none arguments) := by
      intro h
      obtain ⟨e, he⟩ := hmisused.mpr h
      cases hrequest.symm.trans he
    have hasked : request.Asked (Item.ofArguments none arguments) :=
      Options.asked_ofItems Options.reads_nil hrequest
    cases request with
    | version =>
      simpa [program, hrequest] using Finishes.answered hwell (by simp) hasked versionText
    | help => simpa [program, hrequest] using Finishes.answered hwell (by simp) hasked helpText
    | run o =>
      by_cases hstats : o.has .stats = true
      case pos =>
        have hitem := (hasked.switches .stats).mp hstats
        simpa [program, hrequest, hstats] using Finishes.answered hwell (by simp) hitem statsText
      cases hinput : o.input with
      | none =>
        have hpaths := hasked.input.eq_none_iff.mp hinput
        simpa [program, hrequest, hstats, hinput] using Finishes.noInput hwell hpaths
      | some path =>
        simpa [program, hrequest, hstats, hinput] using
          Finishes.disassembled hwell hasked hinput (ends_disassembleFile before o path)

/-! ## The listing that is asked for -/

/-- The options of a listing that items ask for. The columns are there unless they are turned off. -/
structure AsksFor (items : List Item) (options : ListingOptions) : Prop where
  cpu : ∃ cpu, Once Cpu.Named (Item.values .cpu items) cpu ∧ options.cpu = cpu.getD .m68000
  base : ∃ base : Option Long,
    Once (fun text v => Hex.Denotes text v.toNat) (Item.values .base items) base ∧
      options.base = base.getD 0
  limit : Once Numeral.Counts (Item.values .count items) options.limit
  hex : options.hex = true ↔ .switch .noHex ∉ items
  addresses : options.addresses = true ↔ .switch .noAddresses ∉ items
  lineNumbers : options.lineNumbers = true ↔ .switch .noLineNumbers ∉ items
  uppercase : options.uppercase = true ↔ .switch .uppercase ∈ items

/-- What is recorded reaches the listing. -/
theorem Options.Reads.asksFor {items : List Item} (h : o.Reads items) : AsksFor items o.listing where
  cpu := ⟨o.cpu, h.settings .cpu, rfl⟩
  base := ⟨o.base, h.settings .base, rfl⟩
  limit := h.settings .count
  hex := by simp [listing, ← h.switches]
  addresses := by simp [listing, ← h.switches]
  lineNumbers := by simp [listing, ← h.switches]
  uppercase := h.switches .uppercase

/-- A range is within the file, from its start on, and shorter only where the file ends. -/
theorem selectRange_eq_ok {data code : Array Byte} {offset : Nat} {length : Option Nat}
    (h : selectRange data offset length = .ok code) :
    offset ≤ data.size ∧ code.toList = (data.toList.drop offset).take (length.getD data.size) := by
  unfold selectRange at h
  split at h
  case isTrue => cases h
  case isFalse hle =>
    refine ⟨Nat.le_of_not_lt hle, ?_⟩
    cases h
    cases length with
    | none => simp [Array.toList_extract]
    | some n =>
      simp only [Array.take_eq_extract, Array.toList_extract, List.extract_eq_take_drop,
        List.drop_zero, Nat.sub_zero, List.take_take, Option.getD_some, List.take_eq_take_iff,
        List.length_drop, Array.length_toList]
      omega

/-- A range that cannot be selected starts behind the end of the file. -/
theorem lt_of_selectRange_eq_error {data : Array Byte} {offset : Nat} {length : Option Nat}
    {e : RangeError} (h : selectRange data offset length = .error e) : data.size < offset := by
  unfold selectRange at h
  split at h
  case isTrue hlt => exact hlt
  case isFalse => cases h

/-- The text is that of a listing of a range of the file. -/
theorem Options.listingText_eq_ok {data : Array Byte} {text : String}
    (h : o.listingText data = .ok text) :
    ∃ code, selectRange data (o.offset.getD 0) o.length = .ok code ∧
      text = String.join ((Disasm68.listing code o.listing).map fun line => line.text ++ "\n") := by
  obtain ⟨code, hcode, htext⟩ := bind_eq_ok h
  exact ⟨code, hcode, (Except.ok.inj htext).symm⟩

/-- There is no text if the offset that was given lies behind the end. -/
theorem Options.listingText_eq_error {data : Array Byte} {e : RangeError}
    (h : o.listingText data = .error e) : ∃ offset, o.offset = some offset ∧ data.size < offset := by
  have hlt : data.size < o.offset.getD 0 := by
    cases hselect : selectRange data (o.offset.getD 0) o.length with
    | error e => exact lt_of_selectRange_eq_error hselect
    | ok code =>
      rw [listingText, hselect] at h
      cases h
  cases hoffset : o.offset with
  | none =>
    rw [hoffset] at hlt
    cases hlt
  | some offset =>
    rw [hoffset] at hlt
    exact ⟨offset, rfl, hlt⟩

/-- A listing has a header, so there is something to write. -/
theorem listingText_ne_empty (code : Array Byte) (options : ListingOptions) :
    String.join ((listing code options).map fun line => line.text ++ "\n") ≠ "" := by
  have hne : listing code options ≠ [] := by simp [listing, Listing.header]
  obtain ⟨line, rest, hlisting⟩ := List.exists_cons_of_ne_nil hne
  simp [hlisting, String.join_cons]

/-- What can stand in the way of a listing: there is no file, it cannot be read, it ends before the
range, or the output cannot be written. -/
inductive Obstructed (before : FileTree) (items : List Item) : Prop where
  | noFile (h : Item.paths items = [])
  | unreadable {path : String} {e : FileError} (hpath : Item.paths items = [path])
      (hread : before.read path = .error e)
  | pastEnd {path : String} {bytes : Array Byte} {offset : Nat} (hpath : Item.paths items = [path])
      (hread : before.read path = .ok bytes)
      (hoffset : Once Numeral.Counts (Item.values .offset items) (some offset))
      (hpast : bytes.size < offset)
  | unwritable {target text : String} {e : FileError} (houtput : Item.values .output items = [target])
      (hwrite : before.write target text = .error e)

theorem Ends.obstructed {items : List Item} (h : Ends before o path outcome after)
    (hreads : o.Reads items) (hinput : o.input = some path) (hcode : outcome.code ≠ 0) :
    Obstructed before items := by
  have hpaths : Item.paths items = [path] := (hinput ▸ hreads.input).eq_singleton
  cases h with
  | unreadable hread => exact .unreadable hpaths hread
  | pastEnd hread htext =>
    obtain ⟨offset, hoffset, hpast⟩ := Options.listingText_eq_error htext
    have honce : Once Numeral.Counts (Item.values .offset items) o.offset := hreads.settings .offset
    exact .pastEnd hpaths hread (hoffset ▸ honce) hpast
  | unwritable houtput hwrite =>
    have honce : Once IsPath (Item.values .output items) o.output := hreads.settings .output
    exact .unwritable (houtput ▸ honce).eq_singleton hwrite
  | printed | written => exact absurd rfl hcode

namespace Finishes

variable {items : List Item}

theorem code_eq_two_iff (h : Finishes before items outcome after) :
    outcome.code = 2 ↔ Misused [] items := by
  cases h with
  | misused h => exact iff_of_true rfl h
  | answered h | noInput h => exact iff_of_false nofun h
  | disassembled h _ _ hends =>
    refine iff_of_false (fun hcode => ?_) h
    have hone := (hends.of_code_ne_zero (by omega)).1
    omega

/-- A failure has a reason and no effect. -/
theorem of_code_ne_zero (h : Finishes before items outcome after) (hcode : outcome.code ≠ 0) :
    (outcome.code = 2 ∨ outcome.code = 1 ∧ Obstructed before items) ∧
      outcome.stdout = "" ∧ after = before := by
  cases h with
  | misused => exact ⟨.inl rfl, rfl, rfl⟩
  | answered => exact absurd rfl hcode
  | noInput _ hpaths => exact ⟨.inr ⟨rfl, .noFile hpaths⟩, rfl, rfl⟩
  | disassembled _ hreads hinput hends =>
    obtain ⟨hone, hstdout, hafter⟩ := hends.of_code_ne_zero hcode
    exact ⟨.inr ⟨hone, hends.obstructed hreads hinput hcode⟩, hstdout, hafter⟩

/-- A success without an answer is that of a disassembly. -/
theorem exists_ends (h : Finishes before items outcome after) (hcode : outcome.code = 0)
    (hnone : ∀ s ∈ [Switch.stats, .version, .help], .switch s ∉ items) :
    ∃ o path, o.Reads items ∧ o.input = some path ∧ Ends before o path outcome after := by
  cases h with
  | misused | noInput => cases hcode
  | answered _ hs hitem => exact absurd hitem (hnone _ hs)
  | disassembled _ hreads hinput hends => exact ⟨_, _, hreads, hinput, hends⟩

end Finishes

/-- **The command line leaves no partial results**, whatever the arguments are and whether there is a
file or not. The grammar gives the arguments their items. The exit code is 2 exactly if these are
misused; it is 1 only if something stands in the way of a listing. If it is not zero, nothing is on
standard output and no file has changed. If it is zero and a listing was asked for, exactly one place
has received the lines of the listing, each ended by a newline: standard output, or the file that the
arguments name for it. -/
theorem program_outcome (arguments : List String) (data : Option (Array Byte)) :
    let before := FileTree.around (data.toList.map fun bytes => ("in.bin", bytes))
    let r := ((program FileTree.files arguments).run before).run
    let outcome := r.1
    let after := r.2
    ∃ items, (∀ items', Spelled arguments items' ↔ items' = items) ∧
      (outcome.code = 2 ↔ Misused [] items) ∧
      (outcome.code ≠ 0 →
        (outcome.code = 2 ∨ outcome.code = 1 ∧ Obstructed before items) ∧
          outcome.stdout = "" ∧ after = before ∧ after.read "out.txt" = .error .notFound) ∧
      (outcome.code = 0 → (∀ s ∈ [Switch.stats, .version, .help], .switch s ∉ items) →
        ∃ path bytes offset length code options text,
          (Item.paths items = [path] ∧ before.read path = .ok bytes ∧
            (path = "in.bin" → data = some bytes)) ∧
          Once Numeral.Counts (Item.values .offset items) offset ∧
          Once Numeral.Counts (Item.values .length items) length ∧
          (selectRange bytes (offset.getD 0) length = .ok code ∧ offset.getD 0 ≤ bytes.size ∧
            code.toList = (bytes.toList.drop (offset.getD 0)).take (length.getD bytes.size)) ∧
          AsksFor items options ∧
          text = String.join ((listing code options).map fun line => line.text ++ "\n") ∧
          text ≠ "" ∧
          (Item.values .output items = [] ∧ outcome.stdout = text ∧ after = before ∨
            ∃ target, Item.values .output items = [target] ∧ outcome.stdout = "" ∧
              before.Wrote target text after ∧
              (target = "out.txt" →
                after = before.put ("out.txt" :: before.here) (textBytes text)))) := by
  intro before r outcome after
  have hfinishes : Finishes before (Item.ofArguments none arguments) outcome after :=
    finishes_program arguments before
  refine ⟨_, fun items' => spelled_iff, hfinishes.code_eq_two_iff, ?_, ?_⟩
  · intro hcode
    obtain ⟨hreason, hstdout, hafter⟩ := hfinishes.of_code_ne_zero hcode
    refine ⟨hreason, hstdout, hafter, ?_⟩
    rw [hafter]
    exact FileTree.read_output data
  intro hcode hnone
  obtain ⟨o, path, hreads, hinput, hends⟩ := hfinishes.exists_ends hcode hnone
  have hpaths : Once IsPath (Item.paths _) o.input := hreads.input
  have houtput : Once IsPath (Item.values .output _) o.output := hreads.settings .output
  rw [hinput] at hpaths
  obtain ⟨bytes, text, hread, htext, hsink⟩ := hends.of_code_eq_zero hcode
  obtain ⟨code, hselect, rfl⟩ := Options.listingText_eq_ok htext
  refine ⟨path, bytes, o.offset, o.length, code, o.listing, _, ⟨hpaths.eq_singleton, hread, ?_⟩,
    hreads.settings .offset, hreads.settings .length, ⟨hselect, selectRange_eq_ok hselect⟩,
    hreads.asksFor, rfl, listingText_ne_empty code o.listing, ?_⟩
  · rintro rfl
    exact FileTree.eq_some_of_read_input hread
  · rcases hsink with ⟨hnone, hstdout, hafter⟩ | ⟨target, hsome, hstdout, hwrite⟩
    · exact .inl ⟨houtput.eq_none_iff.mp hnone, hstdout, hafter⟩
    · rw [hsome] at houtput
      refine .inr ⟨target, houtput.eq_singleton, hstdout, FileTree.wrote_of_write hwrite, ?_⟩
      rintro rfl
      exact FileTree.put_of_write FileTree.isName_output hwrite

/-- Options before and behind the file, in three spellings. The listing goes to the output. -/
theorem program_outcome_written :
    let arguments := ["-vo", "out.txt", "in.bin", "--base=$1000", "--no-line-numbers"]
    let before := FileTree.around [("in.bin", #[0x4e, 0x71])]
    let r := ((program FileTree.files arguments).run before).run
    Spelled arguments
        [.switch .verbose, .setting .output "out.txt", .file "in.bin", .setting .base "$1000",
          .switch .noLineNumbers] ∧
      r.1.code = 0 ∧ r.1.stdout = "" ∧
      ∃ text ≠ "", r.2 = before.put ("out.txt" :: before.here) (textBytes text) := by
  intro arguments before r
  have hspelled : Spelled arguments _ := spelled_iff.mpr rfl
  have hcode : r.1.code = 0 := by decide +kernel
  obtain ⟨items, hitems, -, -, hzero⟩ := program_outcome arguments (some #[0x4e, 0x71])
  obtain rfl := (hitems _).mp hspelled
  obtain ⟨-, -, -, -, -, -, text, -, -, -, -, -, -, hne, hsink⟩ := hzero hcode (by decide)
  have houtput : Item.values .output (Item.ofArguments none arguments) = ["out.txt"] := by decide
  rw [houtput] at hsink
  obtain ⟨hnone, -⟩ | ⟨target, htarget, hstdout, -, hafter⟩ := hsink
  · cases hnone
  · have htarget : target = "out.txt" := (List.cons.inj htarget).1.symm
    exact ⟨hspelled, hcode, hstdout, text, hne, hafter htarget⟩

end Disasm68.CommandLine
