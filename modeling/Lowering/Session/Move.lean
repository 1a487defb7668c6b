import Lowering.Session.Pass

/-!
# Moves in a session

What can be done in a session: a diagnostic is pushed, a remark is made about a node, or a pass is
run on a node. A pass whose options are refused does not run, and one that a fault ends keeps what
it has brought about until then.

* `Session.runPass` runs a pass under options;
* `Remark.diagnostic` is the diagnostic of a remark about a node;
* `Session.make`, `Session.makeAll` make one move, and several one after the other.
-/

namespace Lowering

/-- Why a pass has no output: its options are refused, or a fault ended it. -/
inductive PassError where
  | options (error : OptionError)
  | fault (fault : Fault)
deriving DecidableEq, Repr

/-- Runs a pass on a node in a session. -/
def Session.runPass (session : Session) (setup : Setup) (pass : Pass) (options : Members)
    (n : Node) : Session × Except PassError Json :=
  match pass.configure options with
  | .error e => (session, .error (.options e))
  | .ok settings =>
    let (outcome, next) := (pass.transform settings setup n).run.run session
    (next, (outcome >>= Pass.result settings).mapError .fault)

/-- A problem that a pass is told to report. It is fatal unless said otherwise, and it is about the
pass's own node unless another node or a position is given. -/
structure Remark where
  reason : Text
  code : ErrorCode := .unsupportedSyntax
  maybeBug : Bool := false
  isFatal : Bool := true
  subject : Option Node := none
  position : Option Position := none

/-- The diagnostic of a remark about a node. -/
def Remark.diagnostic (r : Remark) (n : Node) : Diagnostic where
  code := r.code
  reasons := [r.reason]
  maybeBug := r.maybeBug
  isFatal := r.isFatal
  position := r.position.getD (r.subject.getD n).position

/-- Something that is done in a session. -/
inductive Move where
  | push (diagnostic : Diagnostic)
  | remark (remark : Remark) (node : Node)
  | pass (setup : Setup) (pass : Pass) (options : Members) (node : Node)

namespace Session

/-- Makes a move; only passes have an answer. -/
def make (session : Session) : Move → Session × Option (Except PassError Json)
  | .push d => (session.push d, none)
  | .remark r n => (session.push (r.diagnostic n), none)
  | .pass setup pass options n =>
    let (next, answer) := session.runPass setup pass options n
    (next, some answer)

/-- Makes moves one after the other. -/
def makeAll (session : Session) : List Move → Session × List (Option (Except PassError Json))
  | [] => (session, [])
  | move :: rest =>
    let (next, answer) := session.make move
    let (last, answers) := next.makeAll rest
    (last, answer :: answers)

end Session

end Lowering
