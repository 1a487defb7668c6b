import Lowering.Proofs.Endings
import Lowering.Proofs.Surrogates

/-!
# Printed results are read back

The program prints a result as JSON that reading restores: the text it prints is one JSON value, and
the value decodes to the result. The only obstacle is the length of numbers. The line of a tag can
have as many digits as can be written, and then the lines below it have one more.

* `Report.isWritable_encode`: a result can be written as JSON if all its positions can;
* `Json.IsClean`, `Document.isClean_load`: a document without surrogates loads to a tree without
  them;
* `CommandLine.run_json_restores`: what is printed decodes to the result, or some position cannot be
  written;
* `run_json_lastLine`, `run_json_beyondLastLine`: a result that can just be written, and one that
  cannot.
-/

namespace Lowering

/-! ## Results that can be written -/

/-- The positions in a result: those of its nodes, at every depth, and of its diagnostics. -/
def Report.positions (r : Report) : List Position :=
  (Output.walk r.statements).map Output.location ++ (Output.walk r.render).map Output.location ++
    r.diagnostics.map Diagnostic.position

section Writable

open Json

theorem Json.areWritable_map {α : Type} (f : α → Json) (xs : List α) :
    areWritable (xs.map f) = xs.all fun x => (f x).isWritable := by
  induction xs with
  | nil => rfl
  | cons x rest ih => rw [List.map_cons, areWritable, ih, List.all_cons]

theorem Json.isWritable_ofText? (t : Option Text) : (ofText? t).isWritable = true := by
  cases t <;> rfl

theorem Position.isWritable_encode (p : Position) : p.encode.isWritable = p.isWritable := by
  simp [Position.encode, Json.isWritable, areWritableMembers, isWritable_ofText?,
    Position.isWritable]

theorem Diagnostic.isWritable_encode (d : Diagnostic) :
    d.encode.isWritable = d.position.isWritable := by
  simp [Diagnostic.encode, Json.isWritable, areWritableMembers, areWritable_map,
    Position.isWritable_encode]

theorem Attribute.isWritable_encode (a : Attribute) : a.encode.isWritable = true := by
  simp [Attribute.encode, Json.isWritable, areWritableMembers, isWritable_ofText?]

mutual

theorem Output.isWritable_encode : (node : Output) → node.encode.isWritable =
    (Output.walkNode node).all fun n => n.location.isWritable
  | ⟨kind, name, value, attributes, params, children, location⟩ => by
    have hattributes : areWritable (attributes.map Attribute.encode) = true := by
      rw [areWritable_map, List.all_eq_true]
      exact fun a _ => a.isWritable_encode
    have hparams : areWritable (params.map .str) = true := by
      rw [areWritable_map, List.all_eq_true]
      exact fun _ _ => rfl
    simp [Output.encode, Output.walkNode, Json.isWritable, areWritableMembers, isWritable_ofText?,
      hattributes, hparams, Position.isWritable_encode, Output.areWritable_encodeAll children,
      Bool.and_comm]

theorem Output.areWritable_encodeAll : (nodes : List Output) →
    areWritable (Output.encodeAll nodes) = (Output.walk nodes).all fun n => n.location.isWritable
  | [] => rfl
  | node :: rest => by
    rw [Output.encodeAll, areWritable, Output.walk, List.all_append, Output.isWritable_encode node,
      Output.areWritable_encodeAll rest]

end

/-- A result can be written as JSON exactly if the numbers of all its positions can. -/
theorem Report.isWritable_encode (r : Report) :
    r.encode.isWritable = r.positions.all Position.isWritable := by
  simp [Report.encode, Report.positions, Json.isWritable, areWritableMembers, areWritable_map,
    Output.areWritable_encodeAll, Diagnostic.isWritable_encode, List.all_map, Function.comp_def]

end Writable

/-! ## Documents without surrogates -/

namespace Json

mutual

/-- A value none of whose texts, names of members included, holds a surrogate. -/
def IsClean : Json → Prop
  | .str s => s.IsClean
  | .arr items => AreClean items
  | .obj members => AreCleanMembers members
  | _ => True

def AreClean : List Json → Prop
  | [] => True
  | v :: vs => v.IsClean ∧ AreClean vs

def AreCleanMembers : Members → Prop
  | [] => True
  | (name, v) :: ms => name.IsClean ∧ v.IsClean ∧ AreCleanMembers ms

end

theorem areClean_iff {items : List Json} : AreClean items ↔ ∀ v ∈ items, v.IsClean := by
  induction items with
  | nil => simp [AreClean]
  | cons v vs ih => rw [AreClean, ih, List.forall_mem_cons]

theorem areCleanMembers_iff {members : Members} :
    AreCleanMembers members ↔ ∀ m ∈ members, m.1.IsClean ∧ m.2.IsClean := by
  induction members with
  | nil => simp [AreCleanMembers]
  | cons m ms ih =>
    obtain ⟨name, v⟩ := m
    rw [AreCleanMembers, ih, List.forall_mem_cons, and_assoc]

theorem IsClean.member? {v w : Json} {name : Text} (h : v.IsClean)
    (hw : v.member? name = some w) : w.IsClean := by
  cases v with
  | obj members =>
    rw [IsClean, areCleanMembers_iff] at h
    obtain ⟨before, after, hmembers, -⟩ := List.lookup_eq_some_iff.mp hw
    have hmem : (name, w) ∈ members := by simp [hmembers]
    exact (h _ hmem).2
  | _ => cases hw

end Json

namespace Checked

variable {α β : Type} {P : α → Prop}

theorem ensures_map_of {R : β → Prop} {f : α → β} {x : Checked α} (hx : x.Ensures P)
    (h : ∀ a, P a → R (f a)) : (f <$> x).Ensures R := by
  cases x with
  | valid a => exact h a hx
  | invalid issues => trivial

theorem ensures_under {step : Step} {x : Checked α} (hx : x.Ensures P) :
    (x.under step).Ensures P := by
  cases x with
  | valid a => exact hx
  | invalid issues => trivial

theorem ensures_listFrom {check : β → Checked α} {items : List β}
    (h : ∀ item ∈ items, (check item).Ensures P) (start : Nat) :
    (listFrom check start items).Ensures fun values => ∀ a ∈ values, P a := by
  induction items generalizing start with
  | nil => exact List.forall_mem_nil _
  | cons item rest ih =>
    rw [List.forall_mem_cons] at h
    rw [listFrom]
    refine ensures_seq_of (ih h.2 _) (ensures_map_of (ensures_under h.1) ?_)
    intro a ha values hvalues
    exact List.forall_mem_cons.mpr ⟨ha, hvalues⟩

end Checked

namespace Field

variable {α : Type} {P : α → Prop} {read : Json → Checked α} {members : Members}
  (hm : (Json.obj members).IsClean) (hread : ∀ v, v.IsClean → (read v).Ensures P)
include hm hread

theorem ensures_required (name : String) : (required name read members).Ensures P := by
  unfold required
  rw [entry?_eq_member?]
  cases hw : (Json.obj members).member? name with
  | none => trivial
  | some w => exact Checked.ensures_under (hread w (hm.member? hw))

theorem ensures_withDefault (name : String) (default : α) (hd : P default) :
    (withDefault name default read members).Ensures P := by
  unfold withDefault
  rw [entry?_eq_member?]
  cases hw : (Json.obj members).member? name with
  | none => exact hd
  | some w => exact Checked.ensures_under (hread w (hm.member? hw))

theorem ensures_optional (name : String) :
    (optional name read members).Ensures fun value => ∀ a ∈ value, P a := by
  unfold optional
  rw [entry?_eq_member?]
  cases hw : (Json.obj members).member? name with
  | none => exact forall_mem_none
  | some w =>
    cases w with
    | null => exact forall_mem_none
    | _ =>
      refine Checked.ensures_under (Checked.ensures_map_of (hread _ (hm.member? hw)) ?_)
      exact fun a ha => forall_mem_some ha

end Field

theorem Field.ensures_string (v : Json) (h : v.IsClean) :
    (Field.string v).Ensures Text.IsClean := by
  cases v with
  | str s => exact h
  | _ => trivial

namespace Document

theorem ensures_mark {members : Members} (hm : (Json.obj members).IsClean) :
    (mark members).Ensures Mark.IsClean := by
  refine Checked.ensures_seq_of (Field.ensures_optional hm Field.ensures_string "filename")
    (Checked.ensures_seq (Checked.ensures_map ?_ _) _)
  intro line column filename hfilename
  exact hfilename

theorem ensures_attributeValue (v : Json) (h : v.IsClean) :
    (attributeValue v).Ensures AttributeValue.IsClean := by
  cases v with
  | str s => exact h
  | _ =>
    rw [attributeValue]
    · split
      · trivial
      · trivial
    · intro s hs
      cases hs

theorem ensures_tagAttribute (v : Json) (h : v.IsClean) :
    (Field.recordOf "TagAttribute" tagAttribute v).Ensures TagAttribute.IsClean := by
  cases v with
  | obj members =>
    refine Checked.ensures_seq (Checked.ensures_seq_of
      (Field.ensures_withDefault h ensures_attributeValue "val" (.flag true) trivial)
      (Checked.ensures_map_of (Field.ensures_required h Field.ensures_string "name") ?_)) _
    intro name hname value hvalue mustEscape
    exact ⟨hname, hvalue⟩
  | _ => trivial

theorem ensures_tagAttributes (v : Json) (h : v.IsClean) :
    (Field.listOf (Field.recordOf "TagAttribute" tagAttribute) v).Ensures
      fun attributes => ∀ a ∈ attributes, a.IsClean := by
  cases v with
  | arr items =>
    rw [Json.IsClean, Json.areClean_iff] at h
    exact Checked.ensures_listFrom (fun item hitem => ensures_tagAttribute item (h item hitem)) 0
  | _ => trivial

theorem isClean_within {v : Json} (h : v.IsClean) : ∀ w ∈ within v, w.IsClean := by
  intro w hw
  unfold within at hw
  split at hw
  · cases hw
  · cases hn : v.member? "nodes" with
    | none => simp [hn] at hw
    | some nodes =>
      have hnodes := h.member? hn
      cases nodes with
      | arr items =>
        rw [Json.IsClean, Json.areClean_iff] at hnodes
        exact hnodes w (by simpa [hn, elements?] using hw)
      | str s =>
        have hmem : w ∈ s.map fun p => Json.str [p] := by simpa [hn, elements?] using hw
        obtain ⟨p, hp, rfl⟩ := List.mem_map.mp hmem
        intro index hindex
        cases List.mem_singleton.mp hindex
        exact hnodes index hp
      | obj members =>
        rw [Json.IsClean, Json.areCleanMembers_iff] at hnodes
        have hmem : w ∈ members.map fun m => Json.str m.1 := by simpa [hn, elements?] using hw
        obtain ⟨m, hm, rfl⟩ := List.mem_map.mp hmem
        exact (hnodes m hm).1
      | _ => simp [hn, elements?] at hw
  · obtain ⟨field, -, hchild⟩ := List.mem_filterMap.mp hw
    exact h.member? (child?_eq_some_iff.mp hchild).1

theorem isClean_block_iff {b : Block} : (Node.block b).IsClean ↔ b.IsClean := by
  rw [Node.IsClean]

theorem isClean_empty : (Node.block .empty).IsClean := by
  rw [isClean_block_iff, Block.empty, Block.IsClean, NodesAreClean]
  exact ⟨forall_mem_none, trivial⟩

theorem bodyIsClean_of_nodes {body : Option Block} (h : ∀ b ∈ body, (Node.block b).IsClean) :
    BodyIsClean body := by
  rw [bodyIsClean_iff]
  intro b hb
  exact isClean_block_iff.mp (h b (Option.mem_toList.mp hb))

theorem alternateIsClean_of_nodes {alternate : Option Alternate}
    (h : ∀ a ∈ alternate, a.node.IsClean) : AlternateIsClean alternate := by
  cases alternate with
  | none => trivial
  | some a =>
    have ha := h a rfl
    cases a <;> rw [Alternate.node, Node.IsClean] at ha <;> exact ha

/-- A node that is put together from trees without surrogates is one of them. -/
theorem isClean_checkFields {kind : NodeKind} (hne : kind ≠ .block) {members : Members}
    (hm : (Json.obj members).IsClean) {first second : Option Node}
    (hfirst : ∀ n ∈ first, n.IsClean) (hsecond : ∀ n ∈ second, n.IsClean) :
    (checkFields kind members first second).Ensures Node.IsClean := by
  have hmark := ensures_mark hm
  have hrequired := Field.ensures_required hm Field.ensures_string
  have hvalue := Field.ensures_withDefault hm Field.ensures_string "val" [] Text.isClean_nil
  have hblock := ensures_block hfirst isClean_empty
  cases kind with
  | block => exact absurd rfl hne
  | text =>
    refine Checked.ensures_seq_of hvalue (Checked.ensures_map_of hmark ?_)
    intro mark hmark value hvalue
    rw [Node.IsClean]
    exact ⟨hmark, hvalue⟩
  | tag =>
    have hattributes := Field.ensures_withDefault hm ensures_tagAttributes "attrs" []
      (List.forall_mem_nil _)
    refine Checked.ensures_seq (Checked.ensures_seq_of (ensures_block? hfirst "block")
      (Checked.ensures_seq (Checked.ensures_seq_of hattributes (Checked.ensures_seq_of
        (hrequired "name") (Checked.ensures_map_of hmark ?_))) _)) _
    intro mark hmark name hname attributes hattributes attributeBlocks body hb selfClosing
    rw [Node.IsClean]
    exact ⟨hmark, ⟨hname, hattributes⟩, bodyIsClean_of_nodes hb⟩
  | code =>
    refine Checked.ensures_seq_of (ensures_block? hfirst "block") (Checked.ensures_seq
      (Checked.ensures_seq (Checked.ensures_seq (Checked.ensures_seq_of hvalue
        (Checked.ensures_map_of hmark ?_)) _) _) _)
    intro mark hmark value hvalue buffer mustEscape isInline body hb
    rw [Node.IsClean]
    exact ⟨hmark, hvalue, bodyIsClean_of_nodes hb⟩
  | branch =>
    refine Checked.ensures_seq_of (ensures_block? hfirst "block")
      (Checked.ensures_seq_of (hrequired "expr") (Checked.ensures_map_of hmark ?_))
    intro mark hmark test htest body hb
    rw [Node.IsClean]
    exact ⟨hmark, htest, bodyIsClean_of_nodes hb⟩
  | switch =>
    refine Checked.ensures_seq_of (hblock "block" members)
      (Checked.ensures_seq_of (hrequired "expr") (Checked.ensures_map_of hmark ?_))
    intro mark hmark subject hsubject body hb
    rw [Node.IsClean]
    exact ⟨hmark, hsubject, isClean_block_iff.mp hb⟩
  | conditional =>
    refine Checked.ensures_seq_of (ensures_alternate? hsecond "alternate")
      (Checked.ensures_seq_of (hblock "consequent" members)
        (Checked.ensures_seq_of (hrequired "test") (Checked.ensures_map_of hmark ?_)))
    intro mark hmark test htest consequent hc alternate ha
    rw [Node.IsClean, Conditional.IsClean]
    exact ⟨hmark, htest, isClean_block_iff.mp hc, alternateIsClean_of_nodes ha⟩
  | each =>
    have hkey := Field.ensures_optional hm Field.ensures_string "key"
    refine Checked.ensures_seq_of (ensures_block? hsecond "alternate")
      (Checked.ensures_seq_of (hblock "block" members)
        (Checked.ensures_seq_of hkey (Checked.ensures_seq_of (hrequired "val")
          (Checked.ensures_seq_of (hrequired "obj") (Checked.ensures_map_of hmark ?_)))))
    intro mark hmark collection hcollection element helement key hkey body hb alternate ha
    rw [Node.IsClean]
    exact ⟨hmark, ⟨hcollection, helement, hkey⟩, isClean_block_iff.mp hb, bodyIsClean_of_nodes ha⟩

/-- A document without surrogates loads to a tree without them. -/
theorem isClean_load {v : Json} {n : Node} (h : load v = .ok n) : v.IsClean → n.IsClean := by
  have hwithin : ∀ {members : Members} {m : Node}, (Json.obj members).IsClean →
      (∃ w ∈ within (.obj members), w.IsClean → m.IsClean) → m.IsClean := by
    rintro members m hm ⟨w, hw, hclean⟩
    exact hclean (isClean_within hm w hw)
  refine induct_load ?_ ?_ ?_ (P := fun v n => v.IsClean → n.IsClean) h
  · intro members name mark hname _ hmark hm
    have hchecked := ensures_mark hm
    rw [hmark] at hchecked
    rw [Node.IsClean]
    exact ⟨hchecked, hm.member? hname⟩
  · intro members mark nodes hmark hnodes hm
    have hchecked := ensures_mark hm
    rw [hmark] at hchecked
    rw [Node.IsClean, Block.IsClean, nodesAreClean_iff]
    exact ⟨hchecked, fun m hmem => hwithin hm (hnodes m hmem)⟩
  · intro kind members first second n hne hfirst hsecond hfields hm
    have hchecked := isClean_checkFields hne hm (fun m hmem => hwithin hm (hfirst m hmem))
      (fun m hmem => hwithin hm (hsecond m hmem))
    rw [hfields] at hchecked
    exact hchecked

end Document

/-! ## The program -/

namespace CommandLine

variable (grammar : Grammar) (stdin : String) (files : String → Except FileCause String)

/-- With nothing but JSON asked for, the program prints a result that can be written, with a line
feed at the end, and fails on one that cannot. -/
theorem execute_json (options : Arguments.Options) (hjson : options.json = true)
    (hstats : options.stats = false) {text : String} {root : Node} {report : Report}
    (hinput : input ⟨stdin, files, grammar.reader⟩ options.file = .ok text)
    (hload : Document.loadText (loadedText text) = .ok root)
    (hreport : (lowerDocument (.standard {} grammar.reader) root).2 = .ok report) :
    if report.encode.isWritable then
      ∃ outcome, execute ⟨stdin, files, grammar.reader⟩ options = .ok outcome ∧
        outcome.stdout = Text.ofString (report.encode.pretty ++ "\n")
    else
      execute ⟨stdin, files, grammar.reader⟩ options =
        .error (.report (.rendering .oversized)) := by
  obtain ⟨stderr, hexecute⟩ := execute_of_report options hinput hload hreport
  rw [hexecute]
  rw [output_json hjson, hstats]
  by_cases hw : report.encode.isWritable = true
  · rw [if_pos hw, if_pos hw]
    refine ⟨_, rfl, ?_⟩
    simp [Text.ofString]
  · rw [if_neg hw, if_neg hw]
    rfl

theorem loadText_loadedText {text : String} {v : Json} (h : Json.parse text = .ok v) :
    Document.loadText (loadedText text) = Document.load v := by
  rw [Document.loadText, Document.readText, loadedText, Json.parse_unifyLines h]
  rfl

/-- Along trees that fit, a document without surrogates has a result. If all positions in the result
can be written, then what the program prints as JSON is one value, and the value decodes to the
result. If some position cannot, then the program fails. -/
theorem run_json_restores (arguments : List String) {options : Arguments.Options} {text : String}
    {v : Json} {root : Node} (hparse : Arguments.parse arguments = .run options)
    (hjson : options.json = true) (hstats : options.stats = false)
    (hinput : input ⟨stdin, files, grammar.reader⟩ options.file = .ok text)
    (htext : Json.parse text = .ok v) (hclean : v.IsClean) (hload : Document.load v = .ok root)
    (hfits : ∀ source ∈ documentScripts {} root, Text.isBlankText source = false →
      (grammar ({} : Config).language source).Fits source) :
    ∃ report, (lowerDocument (.standard {} grammar.reader) root).2 = .ok report ∧
      if report.positions.all Position.isWritable then
        ∃ outcome printed w, run ⟨stdin, files, grammar.reader⟩ arguments = .ok outcome ∧
          outcome.stdout = Text.ofString printed ∧ Json.parse printed = .ok w ∧
          Report.decode w = .valid report
      else
        run ⟨stdin, files, grammar.reader⟩ arguments =
          .error (.report (.rendering .oversized)) := by
  have hroot := Document.isClean_load hload hclean
  have hread : ReadableDocument {} grammar root :=
    (readableDocument_iff_of_fits hfits).mpr (isClean_documentScripts {} hroot)
  have hreport := (lowerDocument_eq_ok_iff_readable {} grammar).mpr ⟨hread, rfl⟩
  have hexact := Report.isExact_encode (isClean_documentReport Config.isClean_default hroot hread)
  have hloaded := (loadText_loadedText htext).trans hload
  refine ⟨_, hreport, ?_⟩
  have hexecute := execute_json grammar stdin files options hjson hstats hinput hloaded hreport
  have hrun : run ⟨stdin, files, grammar.reader⟩ arguments =
      execute ⟨stdin, files, grammar.reader⟩ options := by
    rw [run, hparse]
  rw [hrun, ← Report.isWritable_encode]
  cases hw : (documentReport (.standard {} grammar.reader) root).encode.isWritable with
  | true =>
    rw [hw, if_pos rfl] at hexecute
    obtain ⟨outcome, hok, hstdout⟩ := hexecute
    exact ⟨outcome, _, _, hok, hstdout, (Json.parse_pretty hexact hw).2, Report.decode_encode _⟩
  | false =>
    rw [hw, if_neg Bool.false_ne_true] at hexecute
    exact hexecute

end CommandLine

/-! ## The last line that can be written -/

/-- The first line whose number is too long to be written. -/
def lineLimit : Nat :=
  Nat.pow 10 maxDigits

theorem isWritable_natCast {n : Nat} : isWritable n = true ↔ n < lineLimit := by
  unfold isWritable lineLimit
  generalize maxDigits = digits
  exact decide_eq_true_iff

theorem one_lt_lineLimit : 1 < lineLimit := by
  have hdigits : maxDigits ≠ 0 := by decide
  unfold lineLimit
  generalize maxDigits = digits at hdigits
  exact Nat.one_lt_pow hdigits (by decide)

/-- A document with a script of one statement, whose tag stands on a line, and a text. -/
def scriptAt (line : Int) : Node :=
  .block (.mk {} [.tag { line := some line } { name := "script" } (some (.mk {} [.text {} "x;"])),
    .text { filename := some "C:\\😀" } "\"\n\""])

/-- What the grammar makes of that statement. -/
def oneStatement : Grammar :=
  fun _ _ => statementTree 2

theorem lowerDocument_scriptAt (line : Int) :
    ∃ report, (lowerDocument (.standard {} oneStatement.reader) (scriptAt line)).2 = .ok report ∧
      report.positions = [{ line := line + 1, column := 1 }, { filename := some "C:\\😀" }] :=
  ⟨_, rfl, rfl⟩

/-- That document as JSON. -/
def scriptJsonAt (line : Int) : Json :=
  (scriptAt line).document .first

theorem load_scriptJsonAt (line : Int) :
    Document.load (scriptJsonAt line) = .ok (scriptAt line) := by
  have hbody : Document.Reloads .first (.block (.mk {} [.text {} "x;"])) := by
    refine Document.reloads_block ?_
    simpa using Document.reloads_text _
  refine Document.reloads_block (List.forall_mem_cons.mpr ⟨?_, ?_⟩)
  · exact Document.reloads_tag (forall_mem_some hbody)
  · simpa using Document.reloads_text _

theorem isClean_scriptJsonAt (line : Int) : (scriptJsonAt line).IsClean := by
  simp [scriptJsonAt, scriptAt, Node.document, Block.document, bodyDocument, documents,
    Mark.document, Mark.members, Json.nullable, Naming.pick, Json.IsClean, Json.AreClean,
    Json.AreCleanMembers, Text.isClean_ofString]

theorem parse_scriptJsonAt {line : Nat} (h : line < lineLimit) :
    Json.parse (scriptJsonAt line).pretty = .ok (scriptJsonAt line) := by
  have hline := isWritable_natCast.mpr h
  refine (Json.parse_pretty ?_ ?_).1
  · simp [scriptJsonAt, scriptAt, Node.document, Block.document, bodyDocument, documents,
      Mark.document, Mark.members, Json.nullable, Naming.pick, Json.IsExact, Json.AreExact,
      Json.AreExactMembers, Text.ofString_inj, Text.isClean_ofString]
  · simp [scriptJsonAt, scriptAt, Node.document, Block.document, bodyDocument, documents,
      Mark.document, Mark.members, Json.nullable, Json.isWritable, Json.areWritable,
      Json.areWritableMembers, hline]

theorem fits_scriptAt (line : Int) :
    ∀ source ∈ documentScripts {} (scriptAt line), Text.isBlankText source = false →
      (oneStatement ({} : Config).language source).Fits source := by
  have hscripts : documentScripts {} (scriptAt line) = [Text.ofString "x;"] := rfl
  rw [hscripts]
  intro source hsource _
  cases List.mem_singleton.mp hsource
  exact fits_statementTree_two

/-- The statement stands one line below the tag, and nothing else is as far down. -/
theorem exists_report_scriptAt (line : Nat) :
    ∃ report, (lowerDocument (.standard {} oneStatement.reader) (scriptAt line)).2 = .ok report ∧
      report.positions.all Position.isWritable = decide (line + 1 < lineLimit) := by
  have hzero : isWritable 0 = true := isWritable_natCast.mpr (Nat.zero_lt_of_lt one_lt_lineLimit)
  have hone : isWritable 1 = true := isWritable_natCast.mpr one_lt_lineLimit
  have hline : isWritable ((line : Int) + 1) = decide (line + 1 < lineLimit) := by
    rw [Bool.eq_iff_iff, decide_eq_true_iff]
    exact isWritable_natCast
  obtain ⟨report, hreport, hpositions⟩ := lowerDocument_scriptAt line
  refine ⟨report, hreport, ?_⟩
  simp [hpositions, Position.isWritable, hzero, hone, hline]

open CommandLine

/-- What the program makes of the text of that document. -/
def runScriptAt (line : Nat) : Except Failure Outcome :=
  run { stdin := (scriptJsonAt line).pretty, reader := oneStatement.reader } ["--json"]

/-- The statement stands on the last line that can be written, and what is printed restores it. -/
theorem run_json_lastLine :
    Json.parse (scriptJsonAt (lineLimit - 2 : Nat)).pretty =
        .ok (scriptJsonAt (lineLimit - 2 : Nat)) ∧
      ∃ report, (lowerDocument (.standard {} oneStatement.reader)
          (scriptAt (lineLimit - 2 : Nat))).2 = .ok report ∧
        ∃ outcome printed w, runScriptAt (lineLimit - 2) = .ok outcome ∧
          outcome.stdout = Text.ofString printed ∧ Json.parse printed = .ok w ∧
          Report.decode w = .valid report := by
  have hlimit := one_lt_lineLimit
  have htext : Json.parse (scriptJsonAt (lineLimit - 2 : Nat)).pretty = _ :=
    parse_scriptJsonAt (by omega)
  obtain ⟨report, hreport, hwritable⟩ := exists_report_scriptAt (lineLimit - 2)
  rw [decide_eq_true (by omega)] at hwritable
  obtain ⟨found, hfound, hrun⟩ := run_json_restores oneStatement
    (scriptJsonAt (lineLimit - 2 : Nat)).pretty (Files.read fun _ => none) ["--json"] rfl rfl rfl
    rfl htext (isClean_scriptJsonAt _) (load_scriptJsonAt _) (fits_scriptAt _)
  cases hreport.symm.trans hfound
  rw [hwritable, if_pos rfl] at hrun
  exact ⟨htext, report, hreport, hrun⟩

/-- The tag stands on the last line that can be written. The document loads and has a result, but
the program cannot print the line of the statement. -/
theorem run_json_beyondLastLine :
    Json.parse (scriptJsonAt (lineLimit - 1 : Nat)).pretty =
        .ok (scriptJsonAt (lineLimit - 1 : Nat)) ∧
      (scriptJsonAt (lineLimit - 1 : Nat)).IsClean ∧
      Document.load (scriptJsonAt (lineLimit - 1 : Nat)) = .ok (scriptAt (lineLimit - 1 : Nat)) ∧
      (∃ report, (lowerDocument (.standard {} oneStatement.reader)
        (scriptAt (lineLimit - 1 : Nat))).2 = .ok report) ∧
      runScriptAt (lineLimit - 1) = .error (.report (.rendering .oversized)) := by
  have hlimit := one_lt_lineLimit
  have htext : Json.parse (scriptJsonAt (lineLimit - 1 : Nat)).pretty = _ :=
    parse_scriptJsonAt (by omega)
  obtain ⟨report, hreport, hwritable⟩ := exists_report_scriptAt (lineLimit - 1)
  rw [decide_eq_false (by omega), ← Report.isWritable_encode] at hwritable
  have hexecute := execute_json oneStatement (scriptJsonAt (lineLimit - 1 : Nat)).pretty
    (Files.read fun _ => none) { json := true } rfl rfl rfl
    ((loadText_loadedText htext).trans (load_scriptJsonAt _)) hreport
  rw [hwritable, if_neg Bool.false_ne_true] at hexecute
  exact ⟨htext, isClean_scriptJsonAt _, load_scriptJsonAt _, ⟨report, hreport⟩, hexecute⟩

end Lowering
