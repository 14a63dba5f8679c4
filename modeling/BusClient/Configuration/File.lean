import BusClient.Configuration.Shape
import BusClient.Failure
import BusClient.Text.Bytes

/-!
# Configuration texts and files

A configuration comes from a text, or from a file that holds one. A text that writes no table at
all has no message of its own; any other fault is named with its place in the text. What a path
leads to is given: there may be nothing, or something that cannot be read as a file.
-/

namespace BusClient

open Toml

namespace Configuration

/-- Why a text is not a configuration. -/
inductive TextError
  /-- It writes no table. -/
  | malformed
  /-- It writes a table of another shape. -/
  | misfit (place : Place) (misfit : Misfit)
  deriving DecidableEq, Repr

/-- The configuration that a text writes. -/
def ofText (runtimeDirectory : Option String) (text : String) : Except TextError Configuration :=
  match Entries.ofText? text.toList with
  | none => .error .malformed
  | some entries =>
    match ofEntries runtimeDirectory entries with
    | .error fault => .error (.misfit (fault.mark.place text.toList) fault.misfit)
    | .ok config => .ok config

/-- The message for a table of another shape. -/
def misfitMessage (place : Place) (misfit : Misfit) : String :=
  "invalid client configuration: TOML parse error at line " ++ toString place.line ++
    ", column " ++ toString place.column ++ "\n" ++ misfit.words

/-- Why a file is not a configuration. -/
inductive FileError
  | unreadable (path : String) (error : IoError)
  | invalid (path : String) (error : TextError)
  deriving DecidableEq, Repr

/-- What a path leads to. -/
inductive Target
  /-- There is nothing under the path. -/
  | missing
  /-- The path leads through something that is not a directory. -/
  | blocked
  | directory
  | file (content : Bytes)
  deriving DecidableEq, Repr

namespace Target

/-- What comes of reading a file there. -/
def read : Target → Except IoError Bytes
  | missing => .error .noSuchFile
  | blocked => .error .notDirectory
  | directory => .error .directoryRead
  | file content => .ok content

/-- Whether anything is there, a file or not. -/
def isThere : Target → Bool
  | missing | blocked => false
  | directory | file _ => true

end Target

/-- Bytes that are not a text. -/
def notText : IoError := ⟨.invalidData, "stream did not contain valid UTF-8"⟩

/-- The configuration in a file, given what came of reading the file. -/
def load (runtimeDirectory : Option String) (path : String) (content : Except IoError Bytes) :
    Except FileError Configuration :=
  match content with
  | .error error => .error (.unreadable path error)
  | .ok bytes =>
    match bytes.text? with
    | none => .error (.unreadable path notText)
    | some text =>
      match ofText runtimeDirectory text with
      | .error error => .error (.invalid path error)
      | .ok config => .ok config

/-- The message for a text, unless it writes no table at all. -/
def TextError.message? : TextError → Option String
  | malformed => none
  | misfit place why => some (misfitMessage place why)

/-- The message for a file, unless its text writes no table at all. -/
def FileError.message? : FileError → Option String
  | unreadable path error => some ("failed to read " ++ path ++ ": " ++ error.text)
  | invalid path error => error.message?.map fun message => path ++ ": " ++ message

/-- The configuration of the default file, or the default one if there is no such file. -/
def ofStandardFile (runtimeDirectory : Option String)
    (content : Option (Except IoError Bytes)) : Except FileError Configuration :=
  match content with
  | none => .ok (default runtimeDirectory)
  | some content => load runtimeDirectory defaultPath content

/-- The configuration of the file under a path. -/
def ofTarget (runtimeDirectory : Option String) (path : String) (target : Target) :
    Except FileError Configuration :=
  load runtimeDirectory path target.read

/-- The configuration that a process starts with: what is under the default path is read as soon as
anything is there, even if it turns out not to be a file. -/
def ofStandardTarget (runtimeDirectory : Option String) (target : Target) :
    Except FileError Configuration :=
  ofStandardFile runtimeDirectory (if target.isThere then some target.read else none)

end Configuration

end BusClient
