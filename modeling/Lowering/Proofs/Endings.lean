import Lowering.CommandLine.Run
import Lowering.Proofs.Dumping
import Lowering.Proofs.Loading

/-!
# How the program ends

The program ends with a status if the document loads or fails to load in a way that is reported.
Three failures are not reported: a block whose `nodes` enumerate nothing, wrong fields in a document
of a kind that has no meaning, and a value that is no node and holds an integer that is too long to be
shown. Everything else that is wrong with a document is reported, so that it depends on the first
document that is wrong by itself. After a document has loaded, its result has to be printed: numbers
that are too long cannot be, and neither can a surrogate in a dump, since it has no octets.

* `Document.firstFailing?`: the first document that is wrong by itself, in the order of the checks;
* `Document.escapes`: a document whose own failure is not reported;
* `CommandLine.Printable`: a result that can be printed;
* `settles_iff_first_failing`: when loading ends in a node or in a reported failure, and when the
  program ends with a status.
-/

namespace Lowering

namespace Document

/-- A node, or a failure that is reported. -/
def Settles (result : Except LoadError Node) : Prop :=
  match result with
  | .ok _ => True
  | .error e => CommandLine.isReported e = true

/-- A document whose own failure is not reported: it is no node and holds an integer that is too
long to be shown, its kind has no meaning, or its nodes cannot be enumerated. -/
def escapes (v : Json) : Bool :=
  match typeName? v with
  | none => !v.isWritable
  | some name => (NodeKind.ofName? name).isNone || (unenumerable? v).isSome

/-- The first document that is wrong by itself. -/
def firstFailing? (v : Json) : Option Json :=
  (order v).find? fun w => (ownFailure? w).isSome

theorem isReported_of_ownFailure? {v : Json} {e : LoadError} (h : ownFailure? v = some e) :
    CommandLine.isReported e = !escapes v := by
  unfold ownFailure? at h
  unfold escapes
  cases ht : typeName? v with
  | none =>
    rw [ht] at h
    cases h
    simp [CommandLine.isReported]
  | some name =>
    rw [ht] at h
    cases hk : NodeKind.ofName? name with
    | none =>
      simp only [hk] at h
      obtain ⟨issues, -, rfl⟩ := Option.map_eq_some_iff.mp h
      simp [CommandLine.isReported, hk]
    | some kind =>
      cases hu : unenumerable? v with
      | some nodes =>
        simp only [hk, hu] at h
        cases h
        simp [CommandLine.isReported]
      | none =>
        simp only [hk, hu] at h
        obtain ⟨issues, -, rfl⟩ := Option.map_eq_some_iff.mp h
        simp [CommandLine.isReported, hk]

theorem findSome?_eq_bind_find? {α β : Type} (f : α → Option β) (xs : List α) :
    xs.findSome? f = (xs.find? fun x => (f x).isSome).bind f := by
  induction xs with
  | nil => rfl
  | cons x rest ih =>
    rw [List.findSome?_cons, List.find?_cons]
    cases h : f x with
    | none => simpa using ih
    | some b => simp [h]

/-- Loading fails with what is wrong with the first document that is wrong by itself. -/
theorem failure_load_eq (v : Json) : failureOf (load v) = (firstFailing? v).bind ownFailure? := by
  rw [failure_load, findSome?_eq_bind_find?, firstFailing?]

theorem settles_load_iff (v : Json) :
    Settles (load v) ↔ ∀ w ∈ firstFailing? v, escapes w = false := by
  have hload := failure_load_eq v
  cases hf : firstFailing? v with
  | none =>
    rw [hf] at hload
    cases hl : load v with
    | ok n => simp [Settles]
    | error e =>
      rw [hl] at hload
      cases hload
  | some w =>
    have hfind : (order v).find? (fun w => (ownFailure? w).isSome) = some w := hf
    have hsome := List.find?_some hfind
    obtain ⟨e, he⟩ := Option.isSome_iff_exists.mp hsome
    have hreported := isReported_of_ownFailure? he
    rw [hf, Option.bind_some, he] at hload
    cases hl : load v with
    | ok n =>
      rw [hl] at hload
      cases hload
    | error e' =>
      rw [hl] at hload
      cases hload
      simp [Settles, hreported]

theorem settles_loadText_iff (text : String) :
    Settles (loadText text) ↔
      match Json.parse text with
      | .ok v => ∀ w ∈ firstFailing? v, escapes w = false
      | .error (.malformed _ _) => True
      | .error (.oversized _) => False := by
  unfold loadText readText
  cases Json.parse text with
  | ok v => exact settles_load_iff v
  | error e => cases e <;> simp [Settles, Loading.fail, CommandLine.isReported]

end Document

namespace CommandLine

/-- A result that can be printed: in JSON all its numbers can be written, and in a dump those of its
diagnostics, and no text that is shown holds a surrogate. -/
def Printable (options : Arguments.Options) (report : Report) : Prop :=
  if options.json then report.encode.isWritable = true
  else (∀ d ∈ report.diagnostics, d.position.isWritable = true) ∧
    ∀ t ∈ report.shownTexts, t.IsClean

/-- Whether a result could not be printed: it has a number that is too long, or a text that has no
octets. -/
def Failure.isOfPrinting : Failure → Bool
  | .report (.rendering .oversized) | .printing _ => true
  | _ => false

/-- An end with one of the statuses that the program promises. -/
def EndsWithStatus (result : Except Failure Outcome) : Prop :=
  ∃ outcome, result = .ok outcome ∧ outcome.status ∈ [0, 1, 2]

theorem endsWithStatus_ok {outcome : Outcome} (h : outcome.status ∈ [0, 1, 2]) :
    EndsWithStatus (.ok outcome) :=
  ⟨outcome, rfl, h⟩

theorem not_endsWithStatus_error (failure : Failure) : ¬EndsWithStatus (.error failure) := by
  rintro ⟨outcome, houtcome, -⟩
  cases houtcome

/-- The text that is loaded: the input with unified line ends. -/
def loadedText (text : String) : String :=
  String.ofList (unifyLines text.toList)

theorem output_of_isClean {options : Arguments.Options} {report : Report} {main : Text}
    (h : reportText options report = .ok main) (hclean : main.IsClean) :
    output options report =
      .ok (main ++ "\n" ++ if options.stats then statLines report.stats else []) := by
  obtain ⟨octets, hoctets⟩ := Utf8.exists_encode_iff.mpr hclean
  unfold output
  rw [h]
  simp only [bind, Except.bind, hoctets, Except.mapError, pure, Except.pure]

/-- A text with a surrogate cannot be printed. -/
theorem output_of_not_isClean {options : Arguments.Options} {report : Report} {main : Text}
    (h : reportText options report = .ok main) (hclean : ¬main.IsClean) :
    ∃ e, output options report = .error (.printing e) := by
  unfold output
  rw [h]
  cases hoctets : Utf8.encode main with
  | ok octets => exact absurd (Utf8.exists_encode_iff.mp ⟨octets, hoctets⟩) hclean
  | error e =>
    refine ⟨e, ?_⟩
    simp only [bind, Except.bind, hoctets, Except.mapError]

theorem output_of_error {options : Arguments.Options} {report : Report} {e : Failure}
    (h : reportText options report = .error e) : output options report = .error e := by
  unfold output
  rw [h]
  rfl

/-- In JSON a result is printed exactly if all its numbers can be written. -/
theorem output_json {options : Arguments.Options} (hjson : options.json = true) (report : Report) :
    output options report =
      if report.encode.isWritable then
        .ok (Text.ofString report.encode.pretty ++ "\n" ++
          if options.stats then statLines report.stats else [])
      else .error (.report (.rendering .oversized)) := by
  by_cases hwritable : report.encode.isWritable = true
  · rw [if_pos hwritable]
    refine output_of_isClean ?_ (Text.isClean_ofString _)
    rw [reportText, if_pos hjson, if_pos hwritable]
  · rw [if_neg hwritable]
    refine output_of_error ?_
    rw [reportText, if_pos hjson, if_neg hwritable]

section Printing

variable {options : Arguments.Options} {report : Report}
  (hstatements : Output.WellFormed report.statements) (hrender : Output.WellFormed report.render)
include hstatements hrender

theorem exists_output_of_printable (h : Printable options report) :
    ∃ text, output options report = .ok text := by
  unfold Printable at h
  by_cases hjson : options.json = true
  · rw [if_pos hjson] at h
    rw [output_json hjson, if_pos h]
    exact ⟨_, rfl⟩
  · rw [if_neg hjson] at h
    obtain ⟨main, hmain⟩ := (Report.dump_of_wellFormed hstatements hrender).1.mpr h.1
    have htext : reportText options report = .ok main := by
      rw [reportText, if_neg hjson, hmain]
      rfl
    have hclean := (Report.isClean_dump_iff hstatements hrender hmain).mpr h.2
    exact ⟨_, output_of_isClean htext hclean⟩

/-- A result that cannot be printed ends the program for that. -/
theorem output_of_not_printable (h : ¬Printable options report) :
    ∃ failure, output options report = .error failure ∧ failure.isOfPrinting = true := by
  unfold Printable at h
  by_cases hjson : options.json = true
  · rw [if_pos hjson] at h
    rw [output_json hjson, if_neg h]
    exact ⟨_, rfl, rfl⟩
  · rw [if_neg hjson] at h
    have htext : reportText options report =
        report.dump.mapError fun e => .report (.rendering e) := if_neg hjson
    obtain ⟨hdump, hfails⟩ := Report.dump_of_wellFormed hstatements hrender
    cases hmain : report.dump with
    | error e =>
      rw [hmain, hfails e hmain] at htext
      exact ⟨_, output_of_error htext, rfl⟩
    | ok main =>
      rw [hmain] at htext
      have hclean : ¬main.IsClean := by
        rw [Report.isClean_dump_iff hstatements hrender hmain]
        exact fun hclean => h ⟨hdump.mp ⟨main, hmain⟩, hclean⟩
      obtain ⟨e, he⟩ := output_of_not_isClean htext hclean
      exact ⟨_, he, rfl⟩

theorem exists_output_iff :
    (∃ text, output options report = .ok text) ↔ Printable options report := by
  refine ⟨?_, exists_output_of_printable hstatements hrender⟩
  rintro ⟨text, htext⟩
  by_contra h
  obtain ⟨failure, hfailure, -⟩ := output_of_not_printable hstatements hrender h
  rw [htext] at hfailure
  cases hfailure

end Printing

/-- A run on a document that loads: the status tells whether a fatal diagnostic was met, and nothing
but lowering and printing can fail. -/
theorem execute_of_loaded {reader : ScriptReader} {stdin : String}
    {files : String → Except FileCause String} (options : Arguments.Options) {text : String}
    {root : Node} (hinput : input ⟨stdin, files, reader⟩ options.file = .ok text)
    (hload : Document.loadText (loadedText text) = .ok root) :
    ∃ stderr, execute ⟨stdin, files, reader⟩ options =
      match (lowerDocument (.standard {} reader) root).2 with
      | .error fault => .error (.report fault)
      | .ok report =>
        (output options report).map fun printed =>
          { status := if report.hasFatal then 1 else 0, stdout := printed, stderr := stderr } := by
  have hresult : (Document.readText (loadedText text)).result = .ok root := hload
  have hsetup : ({ reader := reader } : Setup) = .standard {} reader := rfl
  unfold execute
  rw [hinput]
  simp only [bind, Except.bind]
  rw [← loadedText, hresult]
  simp only [hsetup]
  cases (lowerDocument (.standard {} reader) root).2 with
  | error fault => exact ⟨[], rfl⟩
  | ok report =>
    simp only [Except.mapError]
    cases output options report with
    | error failure => exact ⟨[], rfl⟩
    | ok printed => exact ⟨_, rfl⟩

theorem execute_of_report {reader : ScriptReader} {stdin : String}
    {files : String → Except FileCause String} (options : Arguments.Options) {text : String}
    {root : Node} {report : Report}
    (hinput : input ⟨stdin, files, reader⟩ options.file = .ok text)
    (hload : Document.loadText (loadedText text) = .ok root)
    (hreport : (lowerDocument (.standard {} reader) root).2 = .ok report) :
    ∃ stderr, execute ⟨stdin, files, reader⟩ options =
      (output options report).map fun printed =>
        { status := if report.hasFatal then 1 else 0, stdout := printed, stderr := stderr } := by
  obtain ⟨stderr, hexecute⟩ := execute_of_loaded options hinput hload
  rw [hreport] at hexecute
  exact ⟨stderr, hexecute⟩

section Program

variable (grammar : Grammar) (stdin : String) (files : String → Except FileCause String)

/-- After a document has loaded, the program ends with a status exactly if its scripts can be read
and the result can be printed. -/
theorem endsWithStatus_lowered (options : Arguments.Options) {text : String} {root : Node}
    (hinput : input ⟨stdin, files, grammar.reader⟩ options.file = .ok text)
    (hload : Document.loadText (loadedText text) = .ok root) :
    EndsWithStatus (execute ⟨stdin, files, grammar.reader⟩ options) ↔
      ReadableDocument {} grammar root ∧
        Printable options (documentReport (.standard {} grammar.reader) root) := by
  obtain ⟨stderr, hexecute⟩ := execute_of_loaded options hinput hload
  rw [hexecute]
  -- The result is printed only if lowering has one, and it has one if the scripts can be read.
  by_cases hread : ReadableDocument {} grammar root
  · have hok := (lowerDocument_eq_ok_iff_readable {} grammar).mpr ⟨hread, rfl⟩
    obtain ⟨hstatements, hrender⟩ := wellFormed_documentReport hread
    rw [hok, ← exists_output_iff hstatements hrender]
    simp only [hread, true_and]
    cases output options (documentReport (.standard {} grammar.reader) root) with
    | error failure => simpa [Except.map] using not_endsWithStatus_error failure
    | ok printed =>
      refine iff_of_true (endsWithStatus_ok ?_) ⟨printed, rfl⟩
      dsimp only
      split <;> decide
  · refine iff_of_false ?_ fun h => hread h.1
    cases hl : (lowerDocument (.standard {} grammar.reader) root).2 with
    | ok report => exact absurd ((exists_lowerDocument_iff {} grammar).mp ⟨report, hl⟩) hread
    | error e => exact not_endsWithStatus_error _

theorem endsWithStatus_of_error (options : Arguments.Options) {text : String} {e : LoadError}
    (hinput : input ⟨stdin, files, grammar.reader⟩ options.file = .ok text)
    (hload : Document.loadText (loadedText text) = .error e) :
    EndsWithStatus (execute ⟨stdin, files, grammar.reader⟩ options) ↔ isReported e = true := by
  have hresult : (Document.readText (loadedText text)).result = .error e := hload
  unfold execute
  rw [hinput]
  simp only [bind, Except.bind]
  rw [← loadedText, hresult]
  by_cases hr : isReported e = true
  · simp only [if_pos hr]
    exact iff_of_true (endsWithStatus_ok (by simp)) hr
  · simp only [if_neg hr]
    exact iff_of_false (not_endsWithStatus_error _) hr

end Program

end CommandLine

/-! ## Loading and the program -/

open Document CommandLine

/-- Loading fails with what is wrong with the first document that is wrong by itself, and its end is a
node or a reported failure unless that document escapes. The same holds for a text that is JSON; one
that is not is reported, unless an integer in it is too long. With an input that can be read, the
program ends with a status exactly if loading ends so, and if, after it, the scripts of the document
can be read and the result can be printed. -/
theorem settles_iff_first_failing (v : Json) (text : String) (grammar : Grammar) (stdin : String)
    (files : String → Except FileCause String) (arguments : List String) :
    (failureOf (load v) = (firstFailing? v).bind ownFailure? ∧
      (Settles (load v) ↔ ∀ w ∈ firstFailing? v, escapes w = false)) ∧
    (Settles (loadText text) ↔
      match Json.parse text with
      | .ok v => ∀ w ∈ firstFailing? v, escapes w = false
      | .error (.malformed _ _) => True
      | .error (.oversized _) => False) ∧
    match Arguments.parse arguments with
    | .run options =>
      match input ⟨stdin, files, grammar.reader⟩ options.file with
      | .ok text =>
        EndsWithStatus (run ⟨stdin, files, grammar.reader⟩ arguments) ↔
          Settles (loadText (loadedText text)) ∧
            ∀ root, loadText (loadedText text) = .ok root →
              ReadableDocument {} grammar root ∧
                Printable options (documentReport (.standard {} grammar.reader) root)
      | .error failure => run ⟨stdin, files, grammar.reader⟩ arguments = .error failure
    | _ => EndsWithStatus (run ⟨stdin, files, grammar.reader⟩ arguments) := by
  refine ⟨⟨failure_load_eq v, settles_load_iff v⟩, settles_loadText_iff text, ?_⟩
  unfold run
  split
  · rename_i options hparse
    simp only [hparse]
    split
    · rename_i text hinput
      cases hload : loadText (loadedText text) with
      | ok root =>
        rw [endsWithStatus_lowered grammar stdin files options hinput hload]
        simp [Settles]
      | error e =>
        rw [endsWithStatus_of_error grammar stdin files options hinput hload]
        simp [Settles]
    · rename_i failure hinput
      simp [execute, hinput, bind, Except.bind]
  · rename_i hparse
    cases hp : Arguments.parse arguments with
    | run options => exact absurd hp (hparse options)
    | help => exact endsWithStatus_ok (by simp)
    | misuse message => exact endsWithStatus_ok (by simp)

/-- A block with a tag that has no name, and after it a comment whose line is no number. -/
def namelessTag : Json :=
  .obj [("type", .str "Block"), ("nodes", .arr [
    .obj [("type", .str "Tag")],
    .obj [("type", .str "Comment"), ("line", .str "x")]])]

/-- The failure of the tag comes first, and it is reported. -/
theorem settles_namelessTag :
    load namelessTag = .error (.invalid .tag [⟨[.field "name"], .missing⟩]) ∧
      ∀ w ∈ firstFailing? namelessTag, escapes w = false := by
  refine ⟨rfl, ?_⟩
  have hsettles : Settles (load namelessTag) := rfl
  exact (settles_iff_first_failing namelessTag "" (fun _ _ => {}) "" (Files.read fun _ => none)
    []).1.2.mp hsettles

/-- A block whose `nodes` are null. -/
def nullNodes : Json :=
  .obj [("type", .str "Block"), ("nodes", .null)]

/-- A comment whose line is no number. -/
def unnumberedComment : Json :=
  .obj [("type", .str "Comment"), ("line", .str "x")]

/-- Loading these two fails in ways that are not reported, and the program, given the first one, ends
without a status. -/
theorem not_settles_nullNodes :
    ¬Settles (load nullNodes) ∧ ¬Settles (load unnumberedComment) ∧
      ¬EndsWithStatus (run
        { stdin := "\x7b\"type\":\"Block\",\"nodes\":null\x7d"
          reader := Grammar.reader fun _ _ => {} } []) := by
  have hnull : load nullNodes = .error (.notIterable .null) := rfl
  have hcomment : load unnumberedComment =
      .error (.invalidOther [⟨[.field "line"], .badInteger⟩]) := rfl
  have hrun : (run
      { stdin := "\x7b\"type\":\"Block\",\"nodes\":null\x7d"
        reader := Grammar.reader fun _ _ => {} } []).isOk = false := by
    decide +kernel
  rw [hnull, hcomment]
  refine ⟨Bool.false_ne_true, Bool.false_ne_true, ?_⟩
  rintro ⟨outcome, houtcome, -⟩
  rw [houtcome] at hrun
  cases hrun

end Lowering
