import Lowering.Proofs.Settling
import Lowering.Session.Pass

/-!
# Passes in a session and their emissions

A pass in a session does what its emission tells: the events up to the first fault change the
session, one after the other, and the value or the fault is the outcome.

* `Emission.shared`: an emission as a computation in a session;
* `Emission.shared_bind`: emissions one after the other share the session;
* `SessionM.lowerNode_eq`: the pass for nodes of any kind, with all passes that it starts, does what
  the emission of its node tells;
* `Pass.transform_eq_shared`: so does every pass, on every node and under all settings.
-/

namespace Lowering

/-! ## Emissions one after the other -/

namespace Emission

/-- The first fault of two lists is that of the first one, if it has a fault. -/
theorem split_append (xs ys : List Event) :
    split (xs ++ ys) =
      match split xs with
      | (events, none) => (events ++ (split ys).1, (split ys).2)
      | (events, some fault) => (events, some fault) := by
  induction xs with
  | nil => rfl
  | cons e rest ih =>
    cases e with
    | faulted fault => rfl
    | _ =>
      simp only [List.cons_append, split, ih]
      rcases split rest with ⟨events, _ | fault⟩ <;> rfl

variable {α β : Type}

/-- An emission that goes on after another one settles where the first settles with a fault, and
else after it. -/
theorem settle_bind (x : Emission α) (f : α → Emission β) :
    (x >>= f).settle =
      match x.settle with
      | (events, .ok a) => (events ++ (f a).settle.1, (f a).settle.2)
      | (events, .error fault) => (events, .error fault) := by
  unfold settle
  rw [events_bind, split_append]
  rcases split x.events with ⟨events, _ | fault⟩
  · simp only [value_bind]
    rcases split (f x.value).events with ⟨more, _ | fault⟩ <;> rfl
  · rfl

/-- An emission as a computation in a session: its events are added as they come about, until a
fault ends it. -/
def shared (x : Emission α) : SessionM α :=
  fun session => ((session.perform x).2, (session.perform x).1)

/-- An emission that does the same to every session is told by that alone. -/
theorem shared_of_perform {x : Emission α} {outcome : Except Fault α} {next : Session → Session}
    (h : ∀ session : Session, session.perform x = (next session, outcome)) :
    x.shared = fun session => (outcome, next session) := by
  funext session
  rw [shared, h]

@[simp] theorem shared_pure (a : α) : (pure a : Emission α).shared = pure a := by
  have hperform (session : Session) : session.perform (pure a) = (session, .ok a) := by
    simp [Session.perform, settle, split, Session.record]
  exact shared_of_perform hperform

/-- Emissions one after the other share the session: the second goes on with what the first has
left, and does not start if a fault has ended the first. -/
@[simp] theorem shared_bind (x : Emission α) (f : α → Emission β) :
    (x >>= f).shared = x.shared >>= fun a => (f a).shared := by
  funext session
  have hbind : (x.shared >>= fun a => (f a).shared) session =
      match session.perform x with
      | (next, .ok a) => (f a).shared next
      | (next, .error fault) => (.error fault, next) := by
    change (ExceptT.bindCont (fun a => (f a).shared) (session.perform x).2 :
      StateM Session (Except Fault β)) (session.perform x).1 = _
    rcases session.perform x with ⟨next, fault | a⟩ <;> rfl
  rw [hbind]
  simp only [shared, Session.perform, settle_bind]
  -- Without a fault in the first run the events of both are recorded, one list after the other.
  rcases x.settle with ⟨events, fault | a⟩
  · rfl
  · simp only [Session.record_record]

@[simp] theorem shared_map (f : α → β) (x : Emission α) : (f <$> x).shared = f <$> x.shared := by
  have hmap : f <$> x = x >>= fun a => pure (f a) := rfl
  rw [hmap, shared_bind, map_eq_pure_bind]
  simp only [shared_pure]

@[simp] theorem shared_fault (fault : Fault) (a : α) :
    (Emission.fault fault a).shared = throw fault := by
  have hperform (session : Session) :
      session.perform (Emission.fault fault a) = (session, .error fault) := by
    simp [Session.perform, settle, split, Emission.fault, Session.record]
  exact shared_of_perform hperform

/-- That a script was read is an event without a trace in the session. -/
@[simp] theorem shared_parsed (count : Nat) : (emit (.parsed count)).shared = pure () := by
  have hperform (session : Session) :
      session.perform (emit (.parsed count)) = (session, .ok ()) := by
    simp [Session.perform, settle, split, emit, Session.record, Event.diagnostics,
      Event.statements]
  exact shared_of_perform hperform

@[simp] theorem shared_report (problem : Problem) (position : Position) :
    (report problem position).shared =
      modify fun session => session.push (problem.diagnosticAt position) := by
  have hperform (session : Session) : session.perform (report problem position) =
      (session.push (problem.diagnosticAt position), .ok ()) := by
    simp [Session.perform, settle, split, report, emit, Session.record, Session.push,
      Event.statements]
  exact shared_of_perform hperform

/-- The dialect of what is hoisted leaves no trace in the session either. -/
@[simp] theorem shared_hoist (dialect : Text) (items : List Item) :
    (hoist dialect items).shared = SessionM.hoist items := by
  have hperform (session : Session) :
      session.perform (hoist dialect items) = (session.hoist items, .ok ()) := by
    simp [Session.perform, settle, split, hoist, emit, Session.record, Session.hoist,
      Event.diagnostics]
  exact shared_of_perform hperform

@[simp] theorem shared_solid (items : List Item) : (solid items).shared = SessionM.solid items := by
  unfold solid SessionM.solid
  split
  · exact shared_pure _
  · exact shared_fault _ _

@[simp] theorem shared_unlessFixed (fixed : Option α) (lowered : Emission α) :
    (unlessFixed fixed lowered).shared = unlessFixed fixed lowered.shared := by
  cases fixed with
  | none => rfl
  | some output => exact shared_pure output

@[simp] theorem shared_ite (c : Prop) [Decidable c] (x y : Emission α) :
    (if c then x else y).shared = if c then x.shared else y.shared :=
  apply_ite shared c x y

theorem pure_bind (a : α) (f : α → Emission β) : (pure a >>= f : Emission β) = f a := rfl

end Emission

/-! ## Steps -/

namespace Settings

variable (settings : Settings)

@[simp] theorem shared_use (step : Text) : (settings.use step).shared = settings.perform step := by
  unfold use perform
  cases settings.value? step with
  | none => exact Emission.shared_pure _
  | some v => exact Emission.shared_fault _ _

@[simp] theorem shared_usePass (part : Text) :
    (settings.usePass part).shared = settings.lookUp part := by
  unfold usePass lookUp
  cases settings.value? part with
  | none => exact Emission.shared_pure _
  | some v => exact Emission.shared_fault _ _

@[simp] theorem shared_useNested (part : Text) :
    (settings.useNested part).shared = settings.performNested part := by
  simp [useNested, performNested]

@[simp] theorem shared_useBlock (present : Bool) :
    (settings.useBlock present).shared =
      if present then settings.performBlock else settings.perform "lower_block" := by
  cases present with
  | false => simp [useBlock]
  | true =>
    simp only [useBlock, performBlock, Emission.shared_bind, shared_use, if_true]
    cases settings.value? "node_pass" with
    | none => simp only [Emission.shared_pure]
    | some v => cases v <;> simp only [Emission.shared_pure, Emission.shared_fault]

@[simp] theorem shared_useReport : settings.useReport.shared = settings.perform "push_error" :=
  settings.shared_use _

@[simp] theorem perform_empty (step : Text) : perform {} step = pure () := rfl

@[simp] theorem performBlock_empty : performBlock {} = pure () := rfl

/-- A step ends the pass, or it does nothing. -/
theorem perform_cases (step : Text) :
    settings.perform step = pure () ∨ ∃ fault, settings.perform step = throw fault := by
  unfold perform
  cases settings.value? step with
  | none => exact .inl rfl
  | some v => exact .inr ⟨_, rfl⟩

/-- The same of the steps that hand over a block. -/
theorem performBlock_cases :
    settings.performBlock = pure () ∨ ∃ fault, settings.performBlock = throw fault := by
  unfold performBlock
  rcases settings.perform_cases "lower_block" with h | ⟨fault, h⟩
  · rcases settings.perform_cases "delegate_to" with h' | ⟨fault, h'⟩
    · rw [h, h', pure_bind, pure_bind]
      split
      · exact .inl rfl
      · exact .inl rfl
      · exact .inr ⟨_, rfl⟩
    · exact .inr ⟨fault, by simp [h, h']⟩
  · exact .inr ⟨fault, by simp [h]⟩

/-- Settings that tell at most the place of a node. -/
def OnlyPlace : Prop :=
  ∀ part, part ≠ Text.ofString "is_top_level" → part ≠ Text.ofString "is_document_root" →
    settings.value? part = none

theorem onlyPlace_forNodes : settings.forNodes.OnlyPlace := by
  intro part htop _
  simp [value?, forNodes, List.lookup_cons, beq_eq_false_iff_ne.mpr htop]

/-- The nodes of a block stand directly in the document if the block is the document. -/
theorem place_forNodes :
    settings.forNodes.place = { topLevel := settings.place.documentRoot } := by
  have htop : settings.forNodes.flag "is_top_level" = settings.place.documentRoot := by
    simp [flag, value?, forNodes, Json.isTruthy]
  have hroot : settings.forNodes.flag "is_document_root" = false := by
    have hne : (Text.ofString "is_document_root" == Text.ofString "is_top_level") = false := by
      decide
    simp [flag, value?, forNodes, List.lookup_cons, hne]
  rw [place, htop, hroot]

section OnlyPlace

variable {settings} (h : settings.OnlyPlace) {part : Text}
  (htop : part ≠ Text.ofString "is_top_level") (hroot : part ≠ Text.ofString "is_document_root")
include h htop hroot

/-- Where only a place is told, no step is set to a value. -/
theorem OnlyPlace.use : settings.use part = pure () := by
  rw [Settings.use, h part htop hroot]

theorem OnlyPlace.usePass : settings.usePass part = pure () := by
  rw [Settings.usePass, h part htop hroot]

theorem OnlyPlace.useNested : settings.useNested part = pure () := by
  rw [Settings.useNested, h.usePass htop hroot, h.use (by decide) (by decide),
    h.use (by decide) (by decide)]
  rfl

end OnlyPlace

end Settings

namespace Pass

/-- What is kept of a yield is the yield: where nothing is kept, nothing was yielded. -/
theorem getD_kept (setup : Setup) (n : Node) (y : Yield) : (kept setup n y).getD .nothing = y := by
  cases y with
  | nothing =>
    simp only [kept]
    cases leavesOutput setup n <;> rfl
  | _ => rfl

theorem items_kept (setup : Setup) (n : Node) (y : Yield) :
    (kept setup n y).elim [] Yield.items = y.items := by
  have helim : ∀ output : Option Yield,
      output.elim [] Yield.items = (output.getD .nothing).items := by
    rintro (_ | y) <;> rfl
  rw [helim, getD_kept]

variable {settings : Settings} (h : settings.OnlyPlace)
include h

/-- Where only a place is told, the kind of a node decides whether it is lowered. -/
theorem isHandled_of_onlyPlace (n : Node) : isHandled settings n = (handler? n).isSome := by
  unfold isHandled
  cases n <;> simp (disch := decide) only [handler?, h _, Option.isSome_some, Option.isSome_none]

theorem rehearseScript_of_onlyPlace (setup : Setup) (mark : Mark) (tag : Tag)
    (body : Option Block) : rehearseScript settings setup mark tag body = pure () := by
  simp (disch := decide) only [rehearseScript, Settings.useReport, h.use, Emission.pure_bind, h _,
    Option.isSome_none, Bool.or_self, Bool.false_eq_true, if_false, ite_self]
  cases scriptDialect setup.config tag.attributes <;> rfl

/-- Where only a place is told, no step is in the way. -/
theorem rehearseNode_of_onlyPlace (setup : Setup) (n : Node) :
    rehearseNode settings setup n = pure () := by
  unfold rehearseNode
  rw [isHandled_of_onlyPlace h]
  cases n <;> simp (disch := decide) only [handler?, Settings.useReport, h.use, h.useNested,
    rehearseTag, rehearseScript_of_onlyPlace h, Emission.pure_bind, ite_self,
    Option.isSome_some, Option.isSome_none, Bool.false_eq_true]

theorem lowerAny_of_onlyPlace (setup : Setup) (n : Node) :
    lowerAny settings setup n = kept setup n <$> lowerNode setup settings.place n := by
  rw [lowerAny, isHandled_of_onlyPlace h]
  cases n with
  | branch mark test body => simp [handler?, lowerNode]; rfl
  | other mark kind => simp [handler?, lowerNode]; rfl
  | _ => rfl

/-- A run under settings that tell only a place lowers its node there. -/
theorem run_of_onlyPlace (hreplaced : settings.replaced = false) (setup : Setup) (n : Node) :
    Pass.node.run settings setup n = kept setup n <$> lowerNode setup settings.place n := by
  have hrehearse : Pass.node.rehearse settings setup n = pure () := by
    rw [rehearse, h.use (by decide) (by decide), Emission.pure_bind, hreplaced]
    exact rehearseNode_of_onlyPlace h setup n
  rw [run, hrehearse, Emission.pure_bind]
  exact lowerAny_of_onlyPlace h setup n

end Pass

/-! ## Constructs -/

namespace SessionM

/-- An emission in a session after steps of a pass. -/
def after {α : Type} (steps : SessionM Unit) (x : Emission α) : SessionM α :=
  steps >>= fun _ => x.shared

@[simp] theorem after_pure {α : Type} (x : Emission α) : after (pure ()) x = x.shared :=
  pure_bind _ _

@[simp] theorem after_throw {α : Type} (fault : Fault) (x : Emission α) :
    after (throw fault) x = throw fault := rfl

variable (setup : Setup) (settings : Settings) (mark : Mark)

theorem refuse_eq {α : Type} (problem : Problem) (position : Position) :
    (settings.refuse problem position : SessionM (Option α)) =
      after (settings.perform "push_error") (reject problem position) := by
  simp [after, reject, Settings.refuse, Settings.pushError]

/-- A tag as an element; the steps for its contents come after its own. -/
theorem lowerElement_eq (tag : Tag) (steps : SessionM Unit) (x : Emission (List Item)) :
    lowerElement setup settings mark tag (after steps x) =
      after
        (if tag.attributeBlocks.isEmpty then
          settings.perform "_lower_attributes" >>= fun _ => steps
        else settings.perform "push_error")
        (Lowering.lowerElement setup mark tag x) := by
  unfold lowerElement Lowering.lowerElement
  split
  · simp [after]
  · exact refuse_eq settings _ _

theorem lowerCode_eq (code : Code) (body : Option Block) :
    lowerCode settings mark code body =
      after (if body.isSome then settings.perform "push_error" else pure ())
        (Lowering.lowerCode (settings.flag "is_expression") mark code body) := by
  cases body with
  | none => simp [lowerCode, Lowering.lowerCode]
  | some b => exact refuse_eq settings _ _

/-- A case distinction; its branches are looked at only if none of its nodes is a stray one. -/
theorem lowerSwitch_eq (subject : Text) (nodes : List Node) (steps : SessionM Unit)
    (x : Emission (List Output)) {cases : SessionM (List Output)}
    (h : firstStray nodes = none → cases = after steps x) :
    lowerSwitch settings mark subject nodes cases =
      after
        (if (firstStray nodes).isSome || 1 < (defaultBranches nodes).length then
          settings.perform "push_error"
        else steps)
        (Lowering.lowerSwitch mark subject nodes x) := by
  unfold lowerSwitch Lowering.lowerSwitch
  cases hstray : firstStray nodes with
  | some stray => exact refuse_eq settings _ _
  | none =>
    rw [h hstray]
    rcases defaultBranches nodes with _ | ⟨first, _ | ⟨second, rest⟩⟩
    · simp [after]
    · simp [after]
    · simp [refuse_eq]

theorem lowerEach_eq (loop : Loop) (steps : SessionM Unit) (x : Emission (List Output))
    (y : Emission (Option (List Output))) :
    lowerEach mark loop (after steps x) y.shared =
      after steps (Lowering.lowerEach mark loop x y) := by
  simp [after, lowerEach, Lowering.lowerEach]

/-! ## Scripts -/

theorem placeStatements_eq (origins : Origins) (statements : List Statement) :
    placeStatements origins statements =
      (Lowering.placeStatements origins statements).shared := by
  induction statements with
  | nil => simp [placeStatements, Lowering.placeStatements]
  | cons s rest ih =>
    rw [placeStatements, Lowering.placeStatements]
    cases origins.locate s.row s.column with
    | none => simp
    | some position => simp [ih]

theorem diagnostics_placeStatements (origins : Origins) (statements : List Statement) :
    Event.diagnostics (Lowering.placeStatements origins statements).events = [] := by
  induction statements with
  | nil => rfl
  | cons s rest ih =>
    rw [Lowering.placeStatements]
    cases origins.locate s.row s.column with
    | none => rfl
    | some position => simp [ih]

/-- The text of a tag is refused, or it is lowered without a diagnostic. -/
theorem lowerScriptText_cases (body : Option Block) :
    (Event.diagnostics (Lowering.lowerScriptText setup mark body).events = [] ∧
        lowerScriptText setup settings mark body =
          (Lowering.lowerScriptText setup mark body).shared) ∨
      ∃ problem position, Lowering.lowerScriptText setup mark body = reject problem position ∧
        lowerScriptText setup settings mark body = settings.refuse problem position := by
  unfold lowerScriptText Lowering.lowerScriptText
  dsimp only
  split
  · exact .inl ⟨rfl, by simp⟩
  · cases setup.reader setup.config.language ((bodyTexts body).map Prod.snd).flatten with
    | error e => exact .inl ⟨rfl, by simp⟩
    | ok answer =>
      cases answer with
      | broken row column =>
        dsimp only
        cases (Origins.ofTexts (bodyTexts body) mark.position).locate row column with
        | none => exact .inl ⟨rfl, by simp⟩
        | some position => exact .inr ⟨_, _, rfl, rfl⟩
      | statements statements =>
        have hparsed : Event.diagnostics (Emission.emit (.parsed statements.length)).events = [] :=
          rfl
        exact .inl ⟨by simp [hparsed, diagnostics_placeStatements], by simp [placeStatements_eq]⟩

/-- The text of a tag, which has a step only if it is refused. -/
theorem lowerScriptText_eq (body : Option Block) :
    lowerScriptText setup settings mark body =
      after
        (if (Event.diagnostics (Lowering.lowerScriptText setup mark body).events).isEmpty then
          pure ()
        else settings.perform "push_error")
        (Lowering.lowerScriptText setup mark body) := by
  rcases lowerScriptText_cases setup settings mark body with
    ⟨hquiet, hshared⟩ | ⟨problem, position, hreject, hrefuse⟩
  · rw [hquiet, hshared]
    exact (after_pure _).symm
  · rw [hreject, hrefuse]
    exact refuse_eq settings problem position

theorem shared_primaryStatements (body : Option Block) :
    (primaryStatements setup mark body).shared =
      Yield.items <$> unlessFixed setup.fixed.script
        (Yield.ofNodes? <$> lowerScriptText setup {} mark body) := by
  have hitems : ∀ statements : Option (List Output),
      (Yield.ofNodes? statements).items = (statements.getD []).map .node := by
    rintro (_ | statements) <;> rfl
  unfold primaryStatements
  cases setup.fixed.script with
  | some yield => simp [unlessFixed]
  | none => simp [unlessFixed, lowerScriptText_eq, hitems]

/-- A script tag, with its contents as template after one step. -/
theorem lowerScript_eq (tag : Tag) (body : Option Block) (x : Emission (List Item)) :
    lowerScript setup settings mark tag body
        (after (if body.isSome then settings.perform "delegate_to" else pure ()) x) =
      after (Pass.rehearseScript settings setup mark tag body).shared
        (Option.map Yield.ofNodes <$>
          Lowering.lowerScript setup settings.place mark tag body x) := by
  unfold after lowerScript Pass.rehearseScript Lowering.lowerScript
  cases scriptDialect setup.config tag.attributes with
  | error problem => simp [reject, Settings.refuse, Settings.pushError]
  | ok dialect =>
    cases settings.place.topLevel with
    | false => simp [reject, Settings.refuse, Settings.pushError]
    | true =>
      by_cases hd : dialect = setup.config.primaryDialect
      · -- Markup is reported before the two steps that may end the pass, in both forms.
        simp only [hd, Settings.pushError, Emission.shared_bind, Emission.shared_ite,
          Emission.shared_map, Settings.shared_use, Settings.shared_useReport,
          Emission.shared_report, shared_primaryStatements, Emission.shared_hoist,
          Emission.shared_pure]
        cases hdelegate : settings.value? "delegate_to" with
        | some v => cases hasMarkup body <;> simp [Settings.perform, hdelegate]
        | none =>
          cases hpass : settings.value? "SCRIPT_PASS" with
          | some v => cases hasMarkup body <;> simp [Settings.perform, hdelegate, hpass]
          | none =>
            cases hasMarkup body <;> simp [Settings.perform, hdelegate, hpass, Yield.ofNodes]
      · cases body <;> simp [hd, Yield.ofNodes]

/-! ## Nodes -/

/-- A tag of any name. The contents of an element are lowered without settings. -/
theorem lowerTag_eq (tag : Tag) (body : Option Block) (x : Emission (List Item)) :
    lowerTag setup settings mark tag body
        (after (if body.isSome then settings.perform "delegate_to" else pure ()) x) x.shared =
      after (Pass.rehearseTag settings setup mark tag body).shared
        (Pass.kept setup (.tag mark tag body) <$>
          Lowering.lowerTag setup settings.place mark tag body x) := by
  have hscript (hleaves : Pass.leavesOutput setup (.tag mark tag body) = true)
      (y : Option (List Output)) :
      Pass.kept setup (.tag mark tag body) (Yield.ofNodes? y) = y.map Yield.ofNodes := by
    cases y with
    | none => simp [Pass.kept, Yield.ofNodes?, hleaves]
    | some outputs => rfl
  unfold lowerTag Pass.rehearseTag Lowering.lowerTag
  by_cases hdisallowed : setup.config.disallowedTags.contains tag.name = true
  · rw [if_pos hdisallowed, if_pos hdisallowed, if_pos hdisallowed]
    have hleaves : Pass.leavesOutput setup (.tag mark tag body) = true := by
      rw [Pass.leavesOutput, hdisallowed, Bool.true_or]
    simp [after, reject, Settings.refuse, Settings.pushError, hscript hleaves]
  · rw [if_neg hdisallowed, if_neg hdisallowed, if_neg hdisallowed]
    by_cases hname : tag.name = setup.config.scriptTag
    · have hleaves : Pass.leavesOutput setup (.tag mark tag body) = true := by
        simp [Pass.leavesOutput, hname]
      rw [if_pos hname, if_pos hname, if_pos hname, lowerScript_eq]
      simp [after, hscript hleaves]
    · have hkept (y : Yield) : Pass.kept setup (.tag mark tag body) y = some y := by
        have hleaves : Pass.leavesOutput setup (.tag mark tag body) = false := by
          simpa [Pass.leavesOutput, hname] using hdisallowed
        cases y <;> simp [Pass.kept, hleaves]
      have helement := lowerElement_eq setup {} mark tag (pure ()) x
      rw [after_pure] at helement
      rw [if_neg hname, if_neg hname, if_neg hname, helement]
      simp [after, hkept]

/-- Control flow, which leaves the output as it was if it yields nothing. -/
theorem lowerControlFlow_eq (part : Text) (n : Node) (hn : Pass.leavesOutput setup n = true)
    (fixed : Option Yield) (x : Emission Yield) :
    lowerControlFlow settings part fixed x.shared =
      after (settings.useNested part).shared
        (Pass.kept setup n <$> Yield.boxed <$> unlessFixed fixed x) := by
  have hkept : (fun y : Yield => Pass.kept setup n y.boxed) = controlFlowOutput := by
    funext y
    cases y <;> simp [Pass.kept, controlFlowOutput, Yield.boxed, hn]
  unfold lowerControlFlow after
  rw [Settings.shared_useNested, Emission.shared_map, Emission.shared_map,
    Emission.shared_unlessFixed, Functor.map_map, hkept]

/-- A node is handed to the step for its kind as its rehearsal tells. -/
theorem dispatch_eq (n : Node) {step : Text} (hstep : Pass.handler? n = some step)
    (steps : Emission Unit)
    (hsteps : Pass.rehearseNode settings setup n =
      if Pass.isHandled settings n then (do settings.use step; steps) else settings.useReport)
    {lowered : SessionM (Option Yield)}
    (h : lowered = after steps.shared
      (Pass.kept setup n <$> Lowering.lowerNode setup settings.place n)) :
    settings.dispatch step n lowered =
      after (Pass.rehearseNode settings setup n).shared (Pass.lowerAny settings setup n) := by
  rw [hsteps, h]
  unfold Settings.dispatch Pass.lowerAny Pass.isHandled
  rw [hstep]
  cases hv : settings.value? step with
  | none => simp [after, Settings.perform, hv]
  | some v =>
    cases v with
    | null => simp [after, reject, Settings.refuse, Settings.pushError, hv]
    | _ => simp [after, Settings.perform, hv]

/-- A node without a step for its kind is refused. -/
theorem unhandled_eq (n : Node) (hstep : Pass.handler? n = none) :
    settings.refuse (.unknownKind n.kind) n.position =
      after (Pass.rehearseNode settings setup n).shared (Pass.lowerAny settings setup n) := by
  have hunhandled : Pass.isHandled settings n = false := by rw [Pass.isHandled, hstep]
  unfold Pass.rehearseNode Pass.lowerAny
  rw [refuse_eq, hunhandled, if_neg Bool.false_ne_true, if_neg Bool.false_ne_true,
    Settings.shared_useReport]

/-- A block without settings adds what its nodes add. -/
theorem lowerBlockNode_bind {α : Type} (b : Block) (nodes : SessionM (List Item))
    (f : List Item → SessionM α) :
    (lowerBlockNode {} b nodes >>= fun output => f (items output)) = nodes >>= f := by
  have hdispatch (lowered : SessionM (Option Yield)) :
      Settings.dispatch {} "_lower_block_node" (.block b) lowered = lowered := rfl
  rw [lowerBlockNode, hdispatch]
  simp [items, Yield.items]

/-- A node under settings that tell only its place adds what its emission yields there. -/
theorem lowerNode_bind {settings : Settings} (h : settings.OnlyPlace) {n : Node}
    (hn : lowerNode setup settings n =
      after (Pass.rehearseNode settings setup n).shared (Pass.lowerAny settings setup n))
    {α : Type} (f : List Item → SessionM α) :
    (lowerNode setup settings n >>= fun output => f (items output)) =
      (Lowering.lowerNode setup settings.place n).shared >>= fun y => f y.items := by
  rw [hn, Pass.rehearseNode_of_onlyPlace h, Emission.shared_pure, after_pure,
    Pass.lowerAny_of_onlyPlace h]
  simp [items, Pass.items_kept]

mutual

/-- The pass for nodes of any kind does what the emission of its node tells. -/
theorem lowerNode_eq (setup : Setup) (settings : Settings) : (n : Node) →
    lowerNode setup settings n =
      after (Pass.rehearseNode settings setup n).shared (Pass.lowerAny settings setup n)
  | .block (.mk mark nodes) => by
    rw [lowerNode]
    refine dispatch_eq setup settings (.block (.mk mark nodes)) rfl _ rfl ?_
    rw [lowerNodes_eq setup settings nodes]
    simp [after, Lowering.lowerNode, Pass.kept, Block.nodes]
  | .tag mark tag body => by
    rw [lowerNode]
    refine dispatch_eq setup settings (.tag mark tag body) rfl _ rfl ?_
    have hbody : lowerBody setup {} body = (Lowering.lowerBody setup body).shared := by
      simpa using lowerBody_eq setup {} body
    rw [lowerTemplate_eq setup settings body, hbody, lowerTag_eq, Lowering.lowerNode]
  | .code mark code body => by
    rw [lowerNode]
    refine dispatch_eq setup settings (.code mark code body) rfl _ rfl ?_
    have hflag : Settings.flag (.forCode code) "is_expression" = code.buffer := by
      simp [Settings.flag, Settings.value?, Settings.forCode, Json.isTruthy]
    have hreport : Settings.perform (.forCode code) "push_error" = pure () := rfl
    have hkept : Pass.kept setup (.code mark code body) = some := by
      funext y
      cases y <;> rfl
    rw [lowerCode_eq, hflag, hreport, ite_self, after_pure]
    simp [after, Lowering.lowerNode, hkept]
  | .text mark value => by
    rw [lowerNode]
    refine dispatch_eq setup settings (.text mark value) rfl _ rfl ?_
    simp [after, Lowering.lowerNode, Pass.kept, Yield.ofNodes]
  | .branch mark test body => by
    rw [lowerNode]
    exact unhandled_eq setup settings (.branch mark test body) rfl
  | .switch mark subject (.mk blockMark nodes) => by
    rw [lowerNode]
    refine dispatch_eq setup settings (.switch mark subject (.mk blockMark nodes)) rfl _ rfl ?_
    have hcases : lowerCases setup {} nodes =
        after (pure ()) (Lowering.lowerCases setup nodes) := by
      rw [lowerCases_eq setup rfl rfl nodes, after_pure]
    rw [lowerSwitch_eq {} mark subject nodes _ _ fun _ => hcases, Settings.perform_empty, ite_self,
      after_pure, Lowering.lowerNode, ← Emission.shared_map]
    exact lowerControlFlow_eq setup settings _ _ rfl _ _
  | .conditional chain => by
    rw [lowerNode]
    refine dispatch_eq setup settings (.conditional chain) rfl _ rfl ?_
    rw [lowerConditional_eq setup rfl rfl rfl chain, Lowering.lowerNode, ← Emission.shared_map]
    exact lowerControlFlow_eq setup settings _ _ rfl _ _
  | .each mark loop body alternate => by
    rw [lowerNode]
    refine dispatch_eq setup settings (.each mark loop body alternate) rfl _ rfl ?_
    have heach := lowerEach_eq mark loop (pure ()) (Lowering.lowerBlock setup body)
      (Lowering.lowerAlternative setup alternate)
    rw [after_pure, after_pure] at heach
    rw [lowerBlock_eq setup {} body, lowerAlternative_eq setup {} alternate,
      Settings.performBlock_empty, ite_self, after_pure, after_pure, heach, Lowering.lowerNode,
      ← Emission.shared_map]
    exact lowerControlFlow_eq setup settings _ _ rfl _ _
  | .other mark kind => by
    rw [lowerNode]
    exact unhandled_eq setup settings (.other mark kind) rfl

/-- The nodes of a block: all are started by the same step, so only the first can fail in it. -/
theorem lowerNodes_eq (setup : Setup) (settings : Settings) : (nodes : List Node) →
    lowerNodes setup settings nodes =
      after (if nodes.isEmpty then pure () else settings.perform "delegate_to")
        (Lowering.lowerNodes setup { topLevel := settings.place.documentRoot } nodes)
  | [] => by simp [lowerNodes, Lowering.lowerNodes]
  | n :: rest => by
    have hfirst := lowerNode_eq setup settings.forNodes n
    rw [lowerNodes, lowerNode_bind setup settings.onlyPlace_forNodes hfirst fun first => do
      let others ← lowerNodes setup settings rest
      pure (first ++ others)]
    rw [lowerNodes_eq setup settings rest, settings.place_forNodes, Lowering.lowerNodes]
    rcases settings.perform_cases "delegate_to" with h | ⟨fault, h⟩
    · simp [after, h]
    · simp [after, h]

theorem lowerTemplate_eq (setup : Setup) (settings : Settings) : (body : Option Block) →
    lowerTemplate setup settings body =
      after (if body.isSome then settings.perform "delegate_to" else pure ())
        (Lowering.lowerBody setup body)
  | none => by simp [lowerTemplate, Lowering.lowerBody]
  | some (.mk mark nodes) => by
    rw [lowerTemplate, lowerBlockNode_bind _ _ pure, lowerNodes_eq setup {} nodes,
      Settings.perform_empty, ite_self, after_pure, bind_pure]
    rfl

theorem lowerBody_eq (setup : Setup) (settings : Settings) : (body : Option Block) →
    lowerBody setup settings body =
      after (if body.isSome then settings.performBlock else settings.perform "lower_block")
        (Lowering.lowerBody setup body)
  | none => by simp [after, lowerBody, Lowering.lowerBody]
  | some (.mk mark nodes) => by
    rw [lowerBody, lowerBlockNode_bind _ _ pure, lowerNodes_eq setup {} nodes,
      Settings.perform_empty, ite_self, after_pure, bind_pure]
    rfl

theorem lowerBlock_eq (setup : Setup) (settings : Settings) : (b : Block) →
    lowerBlock setup settings b = after settings.performBlock (Lowering.lowerBlock setup b)
  | .mk mark nodes => by
    rw [lowerBlock, lowerBlockNode_bind, lowerNodes_eq setup {} nodes, Settings.perform_empty,
      ite_self, after_pure, after, Lowering.lowerBlock, Emission.shared_bind]
    simp only [Emission.shared_solid]
    rfl

theorem lowerAlternative_eq (setup : Setup) (settings : Settings) : (body : Option Block) →
    lowerAlternative setup settings body =
      after (if body.isSome then settings.performBlock else pure ())
        (Lowering.lowerAlternative setup body)
  | none => by simp [lowerAlternative, Lowering.lowerAlternative]
  | some b => by
    rw [lowerAlternative, lowerBlock_eq setup settings b, Lowering.lowerAlternative]
    simp [after]

theorem lowerCases_eq (setup : Setup) {settings : Settings}
    (hwhen : settings.perform "_lower_when" = pure ()) (hblock : settings.performBlock = pure ()) :
    (nodes : List Node) →
      lowerCases setup settings nodes = (Lowering.lowerCases setup nodes).shared
  | [] => by simp [lowerCases, Lowering.lowerCases]
  | n :: rest => by
    have hrest := lowerCases_eq setup hwhen hblock rest
    cases n with
    | branch mark test body =>
      rw [lowerCases, lowerAlternative_eq setup settings body, hwhen, hblock, ite_self, after_pure,
        hrest, Lowering.lowerCases]
      simp
    | _ => simpa only [lowerCases, Lowering.lowerCases] using hrest

theorem lowerConditional_eq (setup : Setup) {settings : Settings}
    (hlink : settings.perform "_lower_conditional" = pure ())
    (hnext : settings.perform "_lower_alternate" = pure ())
    (hblock : settings.performBlock = pure ()) : (chain : Conditional) →
      lowerConditional setup settings chain = (Lowering.lowerConditional setup chain).shared
  | .mk mark test consequent alternate => by
    rw [lowerConditional, lowerBlock_eq setup settings consequent,
      lowerAlternate_eq setup hlink hnext hblock alternate, hlink, hnext, hblock, after_pure,
      Lowering.lowerConditional]
    simp

theorem lowerAlternate_eq (setup : Setup) {settings : Settings}
    (hlink : settings.perform "_lower_conditional" = pure ())
    (hnext : settings.perform "_lower_alternate" = pure ())
    (hblock : settings.performBlock = pure ()) : (alternate : Option Alternate) →
      lowerAlternate setup settings alternate = (Lowering.lowerAlternate setup alternate).shared
  | none => by simp [lowerAlternate, Lowering.lowerAlternate]
  | some (.block b) => by
    rw [lowerAlternate, lowerBlock_eq setup settings b, hblock, after_pure, Lowering.lowerAlternate,
      Emission.shared_map]
  | some (.chain chain) => by
    rw [lowerAlternate, lowerConditional_eq setup hlink hnext hblock chain, Lowering.lowerAlternate]

end

/-- The branches of a case distinction, under any settings. -/
theorem lowerCases_eq_after {nodes : List Node} (hstray : firstStray nodes = none) :
    lowerCases setup settings nodes =
      after
        (if nodes.isEmpty then pure ()
        else settings.perform "_lower_when" >>= fun _ =>
          if nodes.any fun branch => (branch.body?.bind id).isSome then settings.performBlock
          else pure ())
        (Lowering.lowerCases setup nodes) := by
  rcases settings.perform_cases "_lower_when" with hwhen | ⟨fault, hwhen⟩
  · rcases settings.performBlock_cases with hblock | ⟨fault, hblock⟩
    · rw [lowerCases_eq setup hwhen hblock, hwhen, hblock]
      simp
    · -- The first branch with a body ends the pass, and the branches in front of it do nothing.
      have hsteps : (if nodes.isEmpty then pure ()
          else settings.perform "_lower_when" >>= fun _ =>
            if nodes.any fun branch => (branch.body?.bind id).isSome then settings.performBlock
            else pure ()) =
          if nodes.any fun branch => (branch.body?.bind id).isSome then throw fault
          else pure () := by
        rw [hwhen, hblock]
        cases nodes <;> simp
      rw [hsteps]
      clear hsteps
      induction nodes with
      | nil => simp [lowerCases, Lowering.lowerCases]
      | cons n rest ih =>
        cases n with
        | branch mark test body =>
          have hbody : ((Node.branch mark test body).body?.bind id).isSome = body.isSome := rfl
          rw [lowerCases, lowerAlternative_eq, ih hstray, hwhen, hblock, Lowering.lowerCases,
            List.any_cons, hbody]
          cases body with
          | some b => simp
          | none =>
            cases rest.any fun branch => (branch.body?.bind id).isSome <;>
              simp [Lowering.lowerAlternative]
        | _ => cases hstray
  · cases nodes with
    | nil => simp [lowerCases, Lowering.lowerCases]
    | cons n rest =>
      cases n with
      | branch mark test body =>
        rw [lowerCases, hwhen]
        simp
      | _ => cases hstray

end SessionM

/-! ## Passes -/

namespace Pass

open SessionM (after after_pure)

variable (setup : Setup) (settings : Settings) (n : Node)

theorem missing_eq {α : Type} (name : String) :
    (missing n name : SessionM (Option α)) = (lacks n name : Emission (Option α)).shared :=
  (Emission.shared_fault _ _).symm

theorem transformElement_eq : transformElement setup settings n =
    after (Pass.element.rehearseOn settings setup n).shared (lowerAsElement setup n) := by
  cases n with
  | tag mark tag body =>
    rw [transformElement, SessionM.lowerBody_eq, SessionM.lowerElement_eq]
    simp [after, rehearseOn, lowerAsElement]
  | _ => simp [transformElement, rehearseOn, lowerAsElement, missing_eq]

theorem transformScript_eq : transformScript setup settings n =
    after (Pass.script.rehearseOn settings setup n).shared (lowerAsScript setup n) := by
  unfold transformScript lowerAsScript
  cases hbody : n.body? with
  | none => simp [rehearseOn, hbody, missing_eq]
  | some body => simp [rehearseOn, hbody, SessionM.lowerScriptText_eq, after]

theorem transformCode_eq : transformCode settings n =
    after (Pass.code.rehearseOn settings setup n).shared (lowerAsCode settings n) := by
  cases n with
  | code mark code body =>
    rw [transformCode, SessionM.lowerCode_eq]
    cases body <;> simp [rehearseOn, lowerAsCode, Node.body?, after]
  | tag mark tag body | branch mark test body =>
    cases body <;>
      simp [transformCode, rehearseOn, lowerAsCode, Node.body?, missing_eq, SessionM.refuse_eq]
  | switch mark subject body | each mark loop body alternate =>
    simp [transformCode, rehearseOn, lowerAsCode, Node.body?, SessionM.refuse_eq]
  | _ => simp [transformCode, rehearseOn, lowerAsCode, Node.body?, missing_eq]

/-- The pass for case distinctions, which can be started on a node without a subject. -/
theorem transformSwitch_eq : transformSwitch setup settings n =
    after (Pass.switch.rehearseOn settings setup n).shared (lowerAsSwitch setup n) := by
  unfold transformSwitch lowerAsSwitch
  cases hbody : n.body? with
  | none => simp [rehearseOn, hbody, missing_eq]
  | some body =>
    cases body with
    | none => simp [rehearseOn, hbody]
    | some b =>
      simp only [rehearseOn, hbody, rehearseSwitch, Emission.shared_ite]
      cases hsubject : n.subject? with
      | none =>
        rw [SessionM.lowerSwitch_eq settings n.mark [] b.nodes (pure ())
          (.fault (.noAttribute n.recordName "expr") [])]
        · simp [after]
        · intro _
          simp
      | some subject =>
        dsimp only
        rw [SessionM.lowerSwitch_eq settings n.mark subject b.nodes _ _
          fun hstray => SessionM.lowerCases_eq_after setup settings hstray]
        simp [after]

/-- The pass for conditionals. The step for the alternate comes after the block of the first link,
so that this block is lowered even if the step is a fault. -/
theorem transformConditional_eq : transformConditional setup settings n =
    after (Pass.conditional.rehearseOn settings setup n).shared (lowerAsConditional setup n) := by
  cases n with
  | conditional chain =>
    obtain ⟨mark, test, consequent, alternate⟩ := chain
    rw [transformConditional, SessionM.lowerConditional, SessionM.lowerBlock_eq]
    rcases settings.perform_cases "_lower_conditional" with hlink | ⟨fault, hlink⟩
    · rcases settings.performBlock_cases with hblock | ⟨fault, hblock⟩
      · cases hnext : settings.value? "_lower_alternate" with
        | none =>
          have hperform : settings.perform "_lower_alternate" = pure () := by
            rw [Settings.perform, hnext]
          rw [SessionM.lowerAlternate_eq setup hlink hperform hblock]
          simp [after, rehearseOn, rehearseConditional, lowerAsConditional, lowerConditional, hlink,
            hblock, hnext, hperform]
        | some v =>
          simp [after, rehearseOn, rehearseConditional, lowerAsConditional, hblock, hnext,
            Settings.perform]
      · simp [after, rehearseOn, rehearseConditional, hlink, hblock]
    · simp [after, rehearseOn, rehearseConditional, hlink]
  | _ =>
    simp [transformConditional, rehearseOn, rehearseConditional, lowerAsConditional, missing_eq,
      after]

theorem transformEach_eq : transformEach setup settings n =
    after (Pass.each.rehearseOn settings setup n).shared (lowerAsEach setup n) := by
  cases n with
  | each mark loop body alternate =>
    rw [transformEach, SessionM.lowerBlock_eq, SessionM.lowerAlternative_eq]
    simp only [rehearseOn, lowerAsEach, Settings.shared_useBlock, if_true]
    rcases settings.performBlock_cases with h | ⟨fault, h⟩
    · rw [h, ite_self, after_pure, after_pure, after_pure, Emission.shared_map]
      simp [SessionM.lowerEach, lowerEach]
    · rw [h]
      simp [SessionM.lowerEach]
  | _ => simp [transformEach, rehearseOn, lowerAsEach, missing_eq]

/-- A pass whose node is gone ends before anything else would happen. -/
theorem transformReplaced_eq (pass : Pass) (x : SessionM (Option Yield)) :
    pass.transformReplaced settings =
      (pass.rehearseReplaced settings).shared >>= fun _ => x := by
  unfold transformReplaced rehearseReplaced
  cases settings.value? "input" with
  | none => simp
  | some v => by_cases hpass : pass = .conditional <;> simp [hpass]

theorem transformOn_eq (pass : Pass) : pass.transformOn settings setup n =
    after (pass.rehearseOn settings setup n).shared (pass.lower settings setup n) := by
  cases pass with
  | node => exact SessionM.lowerNode_eq setup settings n
  | element => exact transformElement_eq setup settings n
  | script => exact transformScript_eq setup settings n
  | code => exact transformCode_eq setup settings n
  | switch => exact transformSwitch_eq setup settings n
  | conditional => exact transformConditional_eq setup settings n
  | each => exact transformEach_eq setup settings n

/-- A pass in a session does what its emission tells, on every node and under all settings. -/
theorem transform_eq_shared (pass : Pass) :
    pass.transform settings setup n = (pass.run settings setup n).shared := by
  unfold transform run rehearse
  rw [transformOn_eq]
  cases settings.replaced with
  | true =>
    rw [if_pos rfl, transformReplaced_eq settings pass (after
      (pass.rehearseOn settings setup n).shared (pass.lower settings setup n))]
    simp [after]
  | false => simp [after]

end Pass

end Lowering
