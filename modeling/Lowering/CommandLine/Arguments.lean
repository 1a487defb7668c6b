import Lowering.Numeric.Numeral
import Lowering.Text.Quoted

/-!
# Command line arguments

The program takes flags and at most one file. A long flag may be shortened to any start that no
other flag has; short flags may be written together after one dash; `--` ends the flags.

* `Arguments.Word.classify` says what an argument is, by itself;
* `Arguments.parse` reads all arguments: what to do, a request for help, or what is wrong with
  them.
-/

namespace Lowering.Arguments

/-- The flags. -/
inductive Flag where
  | help
  | json
  | stats
  | verbose
deriving DecidableEq, Repr

/-- The spellings of the flags. -/
def spellings : List (String × Flag) :=
  [("-h", .help), ("--help", .help), ("--json", .json), ("--stats", .stats),
    ("--verbose", .verbose), ("-v", .verbose)]

/-- A flag as messages name it. -/
def Flag.title (flag : Flag) : String :=
  String.intercalate "/" ((spellings.filter fun s => s.2 = flag).map Prod.fst)

/-- What an argument is: a file, a flag with the text given to it, a flag that is not known, or the
end of the flags. -/
inductive Word where
  | operand (s : String)
  | flag (flag : Flag) (short : Bool) (given : Option String)
  | unknown (s : String)
  | separator
deriving DecidableEq, Repr

/-- The parts before and after the first equals sign. -/
def splitEquals (cs : List Char) : Option (List Char × List Char) :=
  match cs.dropWhile (· ≠ '=') with
  | [] => none
  | _ :: after => some (cs.takeWhile (· ≠ '='), after)

/-- A spelling with one dash. -/
def isShort (spelling : String) : Bool :=
  match spelling.toList with
  | '-' :: '-' :: _ => false
  | _ => true

/-- The flags that an argument with two dashes can mean, with their spellings. -/
def longMatches (cs : List Char) : List (String × Word) :=
  let (start, given) := match splitEquals cs with
    | some (before, after) => (before, some (String.ofList after))
    | none => (cs, none)
  (spellings.filter fun s => start.isPrefixOf s.1.toList).map fun s =>
    (s.1, .flag s.2 (isShort s.1) given)

/-- The flags that an argument with one dash can mean, with their spellings. -/
def shortMatches (cs : List Char) : List (String × Word) :=
  spellings.filterMap fun s =>
    if s.1.toList = cs.take 2 then
      some (s.1, .flag s.2 (isShort s.1) (some (String.ofList (cs.drop 2))))
    else if cs.isPrefixOf s.1.toList then some (s.1, .flag s.2 (isShort s.1) none)
    else none

/-- A row of digits of any script, at least one. -/
def isDigits (cs : List Char) : Bool :=
  !cs.isEmpty && cs.all Text.isDecimalDigit

/-- A number: digits, or a point with digits after it. -/
def isNumber (cs : List Char) : Bool :=
  isDigits cs ||
    match cs.dropWhile Text.isDecimalDigit with
    | '.' :: fraction => isDigits fraction
    | _ => false

/-- A dash and a number; a line feed may follow. -/
def isNegativeNumber (cs : List Char) : Bool :=
  match cs with
  | '-' :: rest => isNumber (if rest.getLast? = some '\n' then rest.dropLast else rest)
  | _ => false

/-- What an argument in front of the separator is. -/
def Word.classify (s : String) : Except String Word :=
  match s.toList with
  | '-' :: second :: rest =>
    let cs := '-' :: second :: rest
    match spellings.lookup s with
    | some found => .ok (.flag found (isShort s) none)
    | none =>
      let exact := (splitEquals cs).bind fun (before, after) =>
        let spelling := String.ofList before
        (spellings.lookup spelling).map fun found =>
          Word.flag found (isShort spelling) (some (String.ofList after))
      match exact with
      | some word => .ok word
      | none =>
        match if second = '-' then longMatches cs else shortMatches cs with
        | [only] => .ok only.2
        | [] =>
          if isNegativeNumber cs || cs.contains ' ' then .ok (.operand s) else .ok (.unknown s)
        | several =>
          .error ("ambiguous option: " ++ s ++ " could match " ++
            String.intercalate ", " (several.map Prod.fst))
  | _ => .ok (.operand s)

/-- What all arguments are. After the separator there are only files. -/
def classifyAll : List String → Except String (List Word)
  | [] => .ok []
  | s :: rest =>
    if s = "--" then .ok (.separator :: rest.map .operand)
    else do
      let word ← Word.classify s
      let words ← classifyAll rest
      .ok (word :: words)

/-- A text was given to a flag that takes none. -/
def ignored (flag : Flag) (given : String) : String :=
  "argument " ++ flag.title ++ ": ignored explicit argument " ++ Text.quote given

/-- The flags written together in one argument: after a short flag each character is a further
short flag. -/
def together (flag : Flag) : List Char → Except String (List Flag)
  | [] => .ok [flag]
  | c :: rest =>
    match spellings.lookup (String.ofList ['-', c]) with
    | none => .error (ignored flag (String.ofList (c :: rest)))
    | some next => (together next rest).map (flag :: ·)

/-- The flags that an argument sets. -/
def flagsOf (flag : Flag) (short : Bool) : Option String → Except String (List Flag)
  | none => .ok [flag]
  | some given =>
    if short && !given.isEmpty then together flag given.toList else .error (ignored flag given)

/-- What the arguments ask for. -/
structure Options where
  file : Option String := none
  json : Bool := false
  stats : Bool := false
  verbose : Bool := false
deriving DecidableEq, Repr

/-- Sets a flag; help is no setting. -/
def Options.set (options : Options) : Flag → Options
  | .help => options
  | .json => { options with json := true }
  | .stats => { options with stats := true }
  | .verbose => { options with verbose := true }

/-- What the arguments come to. -/
inductive Request where
  | run (options : Options)
  | help
  | misuse (message : String)
deriving DecidableEq, Repr

/-- Reading the arguments one after the other: the options so far, the arguments that are left
over, and whether the file was read just before. -/
structure Progress where
  options : Options := {}
  extras : List String := []
  justRead : Bool := false

/-- Reads classified arguments. The separator belongs to the file next to it; away from it, and
once there is a file, it is left over. -/
def readWords (p : Progress) : List Word → Request
  | [] =>
    match p.extras with
    | [] => .run p.options
    | extras => .misuse ("unrecognized arguments: " ++ String.intercalate " " extras)
  | .operand s :: rest =>
    match p.options.file with
    | none =>
      readWords { p with options := { p.options with file := some s }, justRead := true } rest
    | some _ => readWords { p with extras := p.extras ++ [s], justRead := false } rest
  | .unknown s :: rest => readWords { p with extras := p.extras ++ [s], justRead := false } rest
  | .separator :: rest =>
    if p.options.file.isNone || p.justRead then readWords { p with justRead := false } rest
    else readWords { p with extras := p.extras ++ ["--"], justRead := false } rest
  | .flag flag short given :: rest =>
    match flagsOf flag short given with
    | .error message => .misuse message
    | .ok flags =>
      if flags.contains .help then .help
      else readWords { p with options := flags.foldl Options.set p.options, justRead := false } rest

/-- Reads all arguments. -/
def parse (arguments : List String) : Request :=
  match classifyAll arguments with
  | .error message => .misuse message
  | .ok words => readWords {} words

end Lowering.Arguments
