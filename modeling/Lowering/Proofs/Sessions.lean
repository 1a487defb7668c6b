import Lowering.Proofs.Threading
import Lowering.Report
import Lowering.Session.Move

/-!
# Sessions only grow

A session is shared by all that happens in it. A pass could look at what is there and change it, but
no pass does: what it adds comes after what is there, and neither that nor its output depends on it.
So a session holds, in order, what its moves would bring about each by itself.

* `SessionM.AppendOnly`: a computation that adds the same to every session;
* `Pass.appendOnly_transform`: every pass is one, on every node and under all settings;
* `Session.makeAll_eq`: what moves leave in a session;
* `session_append_only`: all this for the passes and moves of a session;
* `lowerDocument_eq_transform`: a document is lowered by a pass in a session of its own.
-/

namespace Lowering

/-! ## Computations that only add -/

/-- A computation that has the same outcome in every session, and adds the same diagnostics and
statements after those that are there. -/
def SessionM.AppendOnly {α : Type} (x : SessionM α) : Prop :=
  ∃ (outcome : Except Fault α) (d : List Diagnostic) (s : List Item), ∀ session : Session,
    x.run.run session = (outcome, ⟨session.diagnostics ++ d, session.statements ++ s⟩)

theorem Emission.run_shared {α : Type} (x : Emission α) (session : Session) :
    x.shared.run.run session = ((session.perform x).2, (session.perform x).1) := rfl

/-- An emission knows nothing of the session that it is shared in. -/
theorem Emission.appendOnly_shared {α : Type} (x : Emission α) : x.shared.AppendOnly :=
  ⟨x.settle.2, Event.diagnostics x.settle.1, Event.statements x.settle.1, fun _ => rfl⟩

/-- A pass adds the same to every session, on every node and under all settings. -/
theorem Pass.appendOnly_transform (pass : Pass) (settings : Settings) (setup : Setup) (n : Node) :
    (pass.transform settings setup n).AppendOnly := by
  rw [transform_eq_shared]
  exact Emission.appendOnly_shared _

namespace Session

/-! ## Growing sessions -/

/-- A session with more diagnostics and statements after those of another one. -/
def Extends (first second : Session) : Prop :=
  first.diagnostics <+: second.diagnostics ∧ first.statements <+: second.statements

theorem Extends.refl (session : Session) : session.Extends session :=
  ⟨List.prefix_rfl, List.prefix_rfl⟩

theorem Extends.trans {first second third : Session} (h : first.Extends second)
    (h' : second.Extends third) : first.Extends third :=
  ⟨h.1.trans h'.1, h.2.trans h'.2⟩

theorem extends_record (session : Session) (events : List Event) :
    session.Extends (session.record events) :=
  ⟨List.prefix_append _ _, List.prefix_append _ _⟩

/-- A fatal diagnostic is not lost in a session that goes on. -/
theorem hasFatal_of_extends {first second : Session} (h : first.Extends second)
    (hf : first.hasFatal = true) : second.hasFatal = true := by
  obtain ⟨d, hd, hfatal⟩ := List.any_eq_true.mp hf
  exact List.any_eq_true.mpr ⟨d, h.1.subset hd, hfatal⟩

/-- The errors and the warnings are the diagnostics, told apart by whether they are fatal and each
in order. -/
structure Parted (session : Session) : Prop where
  errors_sublist : session.errors.Sublist session.diagnostics
  warnings_sublist : session.warnings.Sublist session.diagnostics
  fatal : ∀ d ∈ session.errors, d.isFatal = true
  not_fatal : ∀ d ∈ session.warnings, d.isFatal = false
  perm : (session.errors ++ session.warnings).Perm session.diagnostics

theorem parted (session : Session) : session.Parted where
  errors_sublist := List.filter_sublist
  warnings_sublist := List.filter_sublist
  fatal d hd := (List.mem_filter.mp hd).2
  not_fatal d hd := by simpa using (List.mem_filter.mp hd).2
  perm := List.filter_append_perm Diagnostic.isFatal session.diagnostics

/-! ## Passes and moves -/

/-- A session followed by what another one holds. -/
def append (first second : Session) : Session where
  diagnostics := first.diagnostics ++ second.diagnostics
  statements := first.statements ++ second.statements

/-- A pass has the same answer in every session, and adds the same. -/
theorem runPass_eq_append (session : Session) (setup : Setup) (pass : Pass) (options : Members)
    (n : Node) :
    session.runPass setup pass options n =
      (session.append (runPass {} setup pass options n).1,
        (runPass {} setup pass options n).2) := by
  unfold runPass
  cases pass.configure options with
  | error e => simp [append]
  | ok settings =>
    obtain ⟨outcome, d, s, h⟩ := pass.appendOnly_transform settings setup n
    simp only [h, append, List.nil_append]

/-- A move does in every session what it does in an empty one. -/
theorem make_eq_append (session : Session) (move : Move) :
    session.make move = (session.append (make {} move).1, (make {} move).2) := by
  cases move with
  | push d => simp [make, push, append]
  | remark r n => simp [make, push, append]
  | pass setup pass options n => simp only [make, runPass_eq_append session]

/-- A session holds what each of its moves brings about by itself, one after the other. -/
theorem makeAll_eq (session : Session) (moves : List Move) :
    session.makeAll moves =
      ({ diagnostics := session.diagnostics ++
          moves.flatMap fun move => (make {} move).1.diagnostics
         statements := session.statements ++
          moves.flatMap fun move => (make {} move).1.statements },
        moves.map fun move => (make {} move).2) := by
  induction moves generalizing session with
  | nil => simp [makeAll]
  | cons move rest ih =>
    simp only [makeAll]
    rw [make_eq_append session, ih]
    simp [append]

theorem makeAll_append (session : Session) (moves more : List Move) :
    (session.makeAll (moves ++ more)).1 = ((session.makeAll moves).1.makeAll more).1 := by
  simp [makeAll_eq]

theorem extends_make (session : Session) (move : Move) :
    session.Extends (session.make move).1 := by
  rw [make_eq_append]
  exact ⟨List.prefix_append _ _, List.prefix_append _ _⟩

theorem extends_makeAll (session : Session) (moves : List Move) :
    session.Extends (session.makeAll moves).1 := by
  induction moves generalizing session with
  | nil => exact .refl session
  | cons move rest ih => exact (extends_make session move).trans (ih _)

end Session

/-- Sessions only grow, and what is added does not depend on what is there. A pass on a node, under
all settings, has an outcome, diagnostics and statements of its own, which it has and adds in every
session; they are those that the events of its emission tell. So a pass with options has an answer
of its own, and moves leave what each of them would leave by itself, in order. The errors and
warnings are the diagnostics told apart, and once a fatal diagnostic was met, also halfway through a
pass, this never changes again. -/
theorem session_append_only :
    (∀ (pass : Pass) (settings : Settings) (setup : Setup) (n : Node),
      (pass.transform settings setup n).AppendOnly ∧
        pass.transform settings setup n = (pass.run settings setup n).shared) ∧
    (∀ (setup : Setup) (pass : Pass) (options : Members) (n : Node),
      ∃ (output : Except PassError Json) (d : List Diagnostic) (s : List Item),
        ∀ session : Session, session.runPass setup pass options n =
          (⟨session.diagnostics ++ d, session.statements ++ s⟩, output)) ∧
    (∀ (session : Session) (moves : List Move),
      (session.makeAll moves).1.diagnostics = session.diagnostics ++
          moves.flatMap (fun move => (Session.make {} move).1.diagnostics) ∧
        (session.makeAll moves).1.statements = session.statements ++
          moves.flatMap (fun move => (Session.make {} move).1.statements) ∧
        (session.makeAll moves).2 = moves.map fun move => (Session.make {} move).2) ∧
    (∀ session : Session, session.Parted) ∧
    (∀ (session : Session) (moves more : List Move),
      (session.makeAll moves).1.hasFatal = true →
        (session.makeAll (moves ++ more)).1.hasFatal = true) ∧
    ∀ (session : Session) (events more : List Event),
      (session.record events).hasFatal = true →
        (session.record (events ++ more)).hasFatal = true := by
  refine ⟨?_, ?_, ?_, Session.parted, ?_, ?_⟩
  · intro pass settings setup n
    exact ⟨pass.appendOnly_transform settings setup n, pass.transform_eq_shared setup settings n⟩
  · intro setup pass options n
    exact ⟨_, _, _, fun session => session.runPass_eq_append setup pass options n⟩
  · intro session moves
    rw [Session.makeAll_eq]
    exact ⟨rfl, rfl, rfl⟩
  · intro session moves more h
    rw [Session.makeAll_append]
    exact Session.hasFatal_of_extends (Session.extends_makeAll _ more) h
  · intro session events more h
    rw [← Session.record_record]
    exact Session.hasFatal_of_extends (Session.extends_record _ more) h

/-- A pass on a script tag away from the top level, which is refused. -/
def refusedMove : Move :=
  .pass { reader := Grammar.reader fun _ _ => {} } .node [] (.tag {} { name := "script" } none)

theorem hasFatal_after_refusedMove :
    (Session.makeAll {} [refusedMove]).1.hasFatal = true ∧
      (Session.makeAll {} ([refusedMove] ++ [.push { code := .scriptSyntax }])).1.hasFatal = true :=
  ⟨rfl, session_append_only.2.2.2.2.1 {} [refusedMove] [.push { code := .scriptSyntax }] rfl⟩

/-! ## Documents -/

theorem onlyPlace_documentSettings : documentSettings.OnlyPlace := by
  intro part _ hroot
  simp [Settings.value?, documentSettings, List.lookup_cons, beq_eq_false_iff_ne.mpr hroot]

theorem Emission.settle_map {α β : Type} (f : α → β) (x : Emission α) :
    (f <$> x).settle = (x.settle.1, x.settle.2.map f) := by
  unfold settle
  rw [events_map]
  rcases split x.events with ⟨events, _ | fault⟩ <;> rfl

/-- A document is lowered by the pass for nodes, in a session of its own. What the pass leaves there
are the statements and diagnostics of the result. -/
theorem lowerDocument_eq_transform (setup : Setup) (root : Node) :
    (lowerDocument setup root).2 =
      match (Pass.node.transform documentSettings setup root).run.run {} with
      | (.error fault, _) => .error (.fault fault)
      | (.ok output, session) =>
        ((output.getD .nothing).render.mapError ReportError.fault).bind fun render =>
          Report.ofItems session.statements render session.diagnostics := by
  have hplace : documentSettings.place = { documentRoot := true } := rfl
  rw [Pass.transform_eq_shared, Pass.run_of_onlyPlace onlyPlace_documentSettings rfl, hplace,
    Emission.run_shared]
  unfold lowerDocument Session.perform
  rw [Emission.settle_map]
  rcases (lowerNode setup { documentRoot := true } root).settle with ⟨events, fault | y⟩
  · rfl
  · simp only [Except.map, Pass.getD_kept, Session.record, List.nil_append]
    rfl

end Lowering
