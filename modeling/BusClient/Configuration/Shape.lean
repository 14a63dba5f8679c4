import BusClient.Configuration
import BusClient.Finding
import BusClient.Toml.Reader

/-!
# The shape of a configuration

A configuration is written as a table. Its keys are known and none other is allowed; a socket is
a text, the package a table of its own, and the directories of resource types a table of texts.
Entries are checked in the order in which they are written, and the first one that does not fit
is the fault. What is not given keeps its default, whatever else is given.
-/

namespace BusClient

open Toml

namespace Configuration

/-- Why an entry does not fit. -/
inductive Misfit
  | unknownKey (name : String) (known : String)
  | wrongType (found : Finding) (wanted : String)
  | wrongLength (length : Nat) (wanted : String)
  deriving DecidableEq, Repr

/-- The words for a misfit. -/
def Misfit.words : Misfit → String
  | unknownKey name known => "unknown field `" ++ name ++ "`, expected " ++ known
  | wrongType found wanted => "invalid type: " ++ found.words ++ ", expected " ++ wanted
  | wrongLength length wanted =>
    "invalid length " ++ toString length ++ ", expected " ++ wanted

/-- A misfit, and the spot of the key or the value that does not fit. -/
structure Fault where
  mark : Mark
  misfit : Misfit
  deriving DecidableEq, Repr

/-- The keys of a configuration, for a message. -/
def knownKeys : String := "one of `system_socket`, `session_socket`, `package`"

/-- The keys of a package, for a message. -/
def knownPackageKeys : String := "`app_id` or `resource_paths`"

/-- The shape of a package. -/
def packageShape : String := "struct PackageConfig"

/-- The shape of a path. -/
def pathShape : String := "path string"

/-- What a value is, where another one is wanted. A moment counts as a table. -/
def finding : Value → Finding
  | .string text => .string text
  | .integer n => .integer n
  | .float x => .floating (x.text .positional)
  | .boolean b => .bool b
  | .moment _ => .map
  | .list .. => .sequence
  | .table .. => .map

/-- The key under which a moment shows its text where a table is read. -/
def momentKey : String := "$__toml_private_datetime"

/-- Reads a text. -/
def readText (wanted : String) (mark : Mark) : Value → Except Fault String
  | .string text => .ok text
  | value => .error ⟨mark, .wrongType (finding value) wanted⟩

/-- Puts a directory in its place in the order of the resource types. -/
def addPath (path : String × String) : List (String × String) → List (String × String)
  | [] => [path]
  | other :: more =>
    if path.1 < other.1 then path :: other :: more else other :: addPath path more

/-- Reads the directories of resource types. -/
def readPaths (done : List (String × String)) : Entries → Except Fault (List (String × String))
  | [] => .ok done
  | (key, mark, value) :: more =>
    match readText pathShape mark value with
    | .error fault => .error fault
    | .ok path => readPaths (addPath (key.name, path) done) more

/-- Reads the table of directories. -/
def readResourcePaths (mark : Mark) : Value → Except Fault (List (String × String))
  | .table _ entries => readPaths [] entries
  | .moment m => .ok [(momentKey, m.text)]
  | value => .error ⟨mark, .wrongType (finding value) "a map"⟩

/-- Reads the application of a package. -/
def readAppId (mark : Mark) (value : Value) : Except Fault String :=
  readText "a string" mark value

/-- Reads the entries of a package; what is not given is left as it is. -/
def readPackageEntries (package : Package) : Entries → Except Fault Package
  | [] => .ok package
  | (key, mark, value) :: more =>
    if key.name = "app_id" then
      match readAppId mark value with
      | .error fault => .error fault
      | .ok appId => readPackageEntries { package with appId := some appId } more
    else if key.name = "resource_paths" then
      match readResourcePaths mark value with
      | .error fault => .error fault
      | .ok paths => readPackageEntries { package with resourcePaths := paths } more
    else .error ⟨key.mark, .unknownKey key.name knownPackageKeys⟩

/-- Reads a package that is given by its parts in order: the application must be there, and
items after the directories are passed over. -/
def readPackageItems (mark : Mark) : Items → Except Fault Package
  | [] => .error ⟨mark, .wrongLength 0 (packageShape ++ " with 2 elements")⟩
  | (appMark, app) :: more =>
    match readAppId appMark app with
    | .error fault => .error fault
    | .ok appId =>
      match more with
      | [] => .ok ⟨some appId, []⟩
      | (pathsMark, paths) :: _ =>
        match readResourcePaths pathsMark paths with
        | .error fault => .error fault
        | .ok paths => .ok ⟨some appId, paths⟩

/-- Reads a package. -/
def readPackage (mark : Mark) : Value → Except Fault Package
  | .table _ entries => readPackageEntries ⟨none, []⟩ entries
  | .list _ items => readPackageItems mark items
  | .moment _ => .error ⟨mark, .unknownKey momentKey knownPackageKeys⟩
  | value => .error ⟨mark, .wrongType (finding value) packageShape⟩

/-- Reads the entries of a configuration; what is not given is left as it is. -/
def readEntries (config : Configuration) : Entries → Except Fault Configuration
  | [] => .ok config
  | (key, mark, value) :: more =>
    if key.name = "system_socket" then
      match readText pathShape mark value with
      | .error fault => .error fault
      | .ok path => readEntries { config with systemSocket := path } more
    else if key.name = "session_socket" then
      match readText pathShape mark value with
      | .error fault => .error fault
      | .ok path => readEntries { config with sessionSocket := some path } more
    else if key.name = "package" then
      match readPackage mark value with
      | .error fault => .error fault
      | .ok package => readEntries { config with package := some package } more
    else .error ⟨key.mark, .unknownKey key.name knownKeys⟩

/-- The configuration that a table writes. -/
def ofEntries (runtimeDirectory : Option String) (entries : Entries) : Except Fault Configuration :=
  readEntries (default runtimeDirectory) entries

end Configuration

end BusClient
