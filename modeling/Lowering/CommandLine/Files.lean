import Lowering.Text.Quoted

/-!
# Files

A file is opened by a path from the working directory, which holds files and no directories. The
directories above it are there, but nothing in them is known.

* `Files.components` splits a path at its slashes;
* `Files.walk` follows the components of a path;
* `Files.read` is the content of a file, or the cause for which it cannot be opened.
-/

namespace Lowering

/-- Why a file cannot be opened. -/
inductive FileCause where
  | nullByte
  | notFound
  | notDirectory
  | isDirectory
  | nameTooLong
deriving DecidableEq, Repr

/-- The words for a cause, and the path it is about. -/
def FileCause.message (path : String) : FileCause → String
  | .nullByte => "embedded null byte"
  | .notFound => "[Errno 2] No such file or directory: " ++ Text.quote path
  | .notDirectory => "[Errno 20] Not a directory: " ++ Text.quote path
  | .isDirectory => "[Errno 21] Is a directory: " ++ Text.quote path
  | .nameTooLong => "[Errno 36] File name too long: " ++ Text.quote path

namespace Files

/-- The most octets in a name. -/
def maxName : Nat := 255

/-- The least number of octets that is too many for a path. -/
def pathLimit : Nat := 4096

/-- A path split at its slashes. -/
def components : List Char → List (List Char)
  | [] => [[]]
  | c :: rest =>
    match components rest with
    | [] => [[c]]
    | first :: others => if c = '/' then [] :: first :: others else (c :: first) :: others

/-- Where a path leads: to the working directory, to another directory, or to a file. -/
inductive Spot where
  | here
  | elsewhere
  | file (content : String)
deriving DecidableEq, Repr

/-- Goes on from a spot by one component. -/
def step (files : String → Option String) (spot : Spot) (component : List Char) :
    Except FileCause Spot :=
  match spot with
  | .file _ => .error .notDirectory
  | spot =>
    if component = [] ∨ component = ['.'] then .ok spot
    else if component = ['.', '.'] then .ok .elsewhere
    else if maxName < (String.ofList component).utf8ByteSize then .error .nameTooLong
    else
      match spot, files (String.ofList component) with
      | .here, some content => .ok (.file content)
      | _, _ => .error .notFound

/-- Goes on from a spot by several components. -/
def walk (files : String → Option String) (spot : Spot) : List (List Char) → Except FileCause Spot
  | [] => .ok spot
  | component :: rest => do
    let next ← step files spot component
    walk files next rest

/-- The content of the file at a path, in a working directory with the given files. -/
def read (files : String → Option String) (path : String) : Except FileCause String :=
  let cs := path.toList
  if cs.contains (Char.ofNat 0) then .error .nullByte
  else if pathLimit ≤ path.utf8ByteSize then .error .nameTooLong
  else do
    let start := if cs.head? = some '/' then .elsewhere else .here
    match ← walk files start (components cs) with
    | .file content => .ok content
    | _ => .error .isDirectory

end Files

end Lowering
