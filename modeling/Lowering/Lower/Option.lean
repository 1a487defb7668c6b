import Lowering.Json.Basic
import Lowering.Lower.Emission
import Lowering.Text.Quoted

/-!
# Options of passes

A pass lowers one node by one construct's rules. It is made of named parts: values that the run
looks at, and steps that it performs. An option sets a part to a JSON value; a name that is no part
of the pass is refused. A step that is set to a value can no longer be performed, which is a fault
when the run comes to it.

* `Pass.parts` are the parts of a pass;
* `Pass.configure` reads options into settings;
* `Settings.flag` is a value, `Settings.use` a step under settings.
-/

namespace Lowering

/-- The passes: for any node, or for one construct. -/
inductive Pass where
  | node
  | element
  | script
  | code
  | switch
  | conditional
  | each
deriving DecidableEq, Repr

namespace Pass

/-- The name of a pass in messages. -/
def title : Pass → String
  | .node => "NodeLoweringPass"
  | .element => "ElementTransformer"
  | .script => "ScriptTransformer"
  | .code => "CodeTransformer"
  | .switch => "CaseTransformer"
  | .conditional => "ConditionalTransformer"
  | .each => "EachTransformer"

/-- The pass whose arguments are named when one is given twice. -/
def builder : Pass → String
  | .node => "NodeLoweringPass"
  | _ => "Transformer"

/-- What every pass is built from; none of it is an option. -/
def arguments : List Text :=
  ["self", "input", "context"]

/-- The parts that every pass has. -/
def commonParts : List Text :=
  ["transform", "delegate_to", "push_error"]

/-- The parts of every pass that no run looks at. -/
def reservedParts : List Text :=
  ["__abstractmethods__", "__class_getitem__", "__delattr__", "__dir__", "__doc__", "__eq__",
    "__format__", "__ge__", "__getattribute__", "__getstate__", "__gt__", "__hash__", "__init__",
    "__init_subclass__", "__le__", "__lt__", "__module__", "__ne__", "__new__", "__orig_bases__",
    "__parameters__", "__reduce__", "__reduce_ex__", "__repr__", "__setattr__", "__sizeof__",
    "__slots__", "__str__", "__subclasshook__", "_abc_impl", "_is_protocol"]

/-- The parts of the passes that lower nodes inside their own. -/
def nestedParts : List Text :=
  ["node_pass", "lower_block", "__annotations__"]

/-- The parts of a pass besides those that every pass has. -/
def ownParts : Pass → List Text
  | .node =>
    ["ELEMENT_PASS", "SCRIPT_PASS", "CODE_PASS", "CASE_PASS", "CONDITIONAL_PASS", "EACH_PASS",
      "is_top_level", "is_document_root", "_nested", "_lower_tag", "_lower_block_node",
      "_lower_code", "_lower_text", "_lower_control_flow", "_lower_script", "__annotations__"]
  | .element => "_lower_attributes" :: nestedParts
  | .script => []
  | .code => ["is_expression", "__annotations__"]
  | .switch => "_lower_when" :: nestedParts
  | .conditional => "_lower_conditional" :: "_lower_alternate" :: nestedParts
  | .each => nestedParts

/-- The parts of a pass, whatever was set. -/
def parts (pass : Pass) : List Text :=
  commonParts ++ reservedParts ++ pass.ownParts

/-- The part that holds the output. -/
def outputPart : Text := "output"

end Pass

/-- Why options are refused. -/
inductive OptionError where
  | unknown (pass : Pass) (name : Text)
  | repeated (pass : Pass) (argument : Text)
  | notClass (typeName : String)
  | notMembers (typeName : String)
  | notWritable
deriving DecidableEq, Repr

/-- A refusal in words. -/
def OptionError.message : OptionError → String
  | .unknown pass name => pass.title ++ " has no option " ++ Text.quote name
  | .repeated pass argument =>
    pass.builder ++ ".__init__() got multiple values for argument " ++ Text.quote argument
  | .notClass typeName => "__class__ must be set to a class, not '" ++ typeName ++ "' object"
  | .notMembers typeName => "__dict__ must be set to a dictionary, not a '" ++ typeName ++ "'"
  | .notWritable => "attribute '__weakref__' of 'Transformer' objects is not writable"

/-- The parts of a pass that are set, with their values. All values together may be replaced; the
pass is then without its output and its node, unless these are among the new values. -/
structure Settings where
  values : Members := []
  replaced : Bool := false

namespace Settings

/-- The value that a part is set to. -/
def value? (settings : Settings) (part : Text) : Option Json :=
  settings.values.lookup part

/-- A part as a truth value; it is false unless it is set. -/
def flag (settings : Settings) (part : Text) : Bool :=
  match settings.value? part with
  | none => false
  | some v => v.isTruthy

/-- Performs a step; a step that is set is a fault. -/
def use (settings : Settings) (step : Text) : Emission Unit :=
  match settings.value? step with
  | none => pure ()
  | some v => .fault (.notCallable v.typeName) ()

/-- Looks up the pass for a construct; one that is set is a fault. -/
def usePass (settings : Settings) (part : Text) : Emission Unit :=
  match settings.value? part with
  | none => pure ()
  | some _ => .fault .notClass ()

@[simp] theorem flag_empty (part : Text) : flag {} part = false := rfl

@[simp] theorem use_empty (step : Text) : use {} step = pure () := rfl

@[simp] theorem usePass_empty (part : Text) : usePass {} part = pure () := rfl

end Settings

namespace Pass

/-- Whether a pass has a part: one of its own, or one that is set. -/
def hasPart (pass : Pass) (settings : Settings) (name : Text) : Bool :=
  pass.parts.contains name || (settings.value? name).isSome ||
    (!settings.replaced && name == outputPart)

/-- Sets one option. -/
def setOption (pass : Pass) (settings : Settings) (name : Text) (value : Json) :
    Except OptionError Settings :=
  if name = Text.ofString "__class__" then .error (.notClass value.typeName)
  else if name = Text.ofString "__weakref__" then .error .notWritable
  else if name = Text.ofString "__dict__" then
    match value with
    | .obj members => .ok { values := members, replaced := true }
    | v => .error (.notMembers v.typeName)
  else if pass.hasPart settings name then
    .ok { settings with values := Json.put name value settings.values }
  else .error (.unknown pass name)

/-- Sets options in order, up to the first one that is refused. -/
def configureFrom (pass : Pass) (settings : Settings) : Members → Except OptionError Settings
  | [] => .ok settings
  | (name, value) :: rest => do
    let settings ← pass.setOption settings name value
    configureFrom pass settings rest

/-- Reads the options of a pass. An argument among them is refused before all others. -/
def configure (pass : Pass) (given : Members) : Except OptionError Settings :=
  match given.find? fun m => arguments.contains m.1 with
  | some (argument, _) => .error (.repeated pass argument)
  | none => configureFrom pass {} given

end Pass

end Lowering
