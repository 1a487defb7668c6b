import Lowering.Output.Item
import Lowering.Script.Statement

/-!
# Setups

A setup is all that lowering depends on besides the document: the configuration, the reader for
script sources, and the constructs whose output is fixed in advance. The configuration says which
tags are not allowed, which tag holds script, the two dialects that script may be written in, its
language, and the attribute names that are replaced.

A construct with a fixed output yields it wherever it stands: its contents are not looked at, and no
event comes about on the way to the output.
-/

namespace Lowering

/-- The choices of a run. -/
structure Config where
  disallowedTags : List Text := ["html", "body", "link", "meta", "style"]
  scriptTag : Text := "script"
  primaryDialect : Text := "text/typescript"
  templateDialect : Text := "text/molosser"
  renames : List (Text × Text) := [("class", "className"), ("for", "htmlFor")]
  language : Text := "typescript"
deriving DecidableEq, Repr

/-- The name that an attribute gets; of two replacements for a name the later one counts. -/
def Config.rename (config : Config) (name : Text) : Text :=
  (config.renames.reverse.lookup name).getD name

/-- The fixed outputs of constructs. Each is one output for all nodes of its construct, whatever is
in them, and comes about without an event. -/
structure FixedOutputs where
  element : Option Yield := none
  script : Option Yield := none
  code : Option Yield := none
  switch : Option Yield := none
  conditional : Option Yield := none
  each : Option Yield := none

/-- All that lowering depends on besides the document. -/
structure Setup where
  config : Config := {}
  reader : ScriptReader
  fixed : FixedOutputs := {}

/-- Where a node stands: directly in the document, and whether it is the document. -/
structure Place where
  topLevel : Bool := false
  documentRoot : Bool := false
deriving DecidableEq, Repr

end Lowering
