import BusClient.Json.Printer
import BusClient.Json.Reader

/-!
# Payloads of packaged applications

A packaged application finds its resources below directories that the platform manages, while the
daemon stores paths relative to them. A payload is one record or a list of records. Each record
has an `app_info` text that is a document of its own; where that marks the record as packaged,
the `path` of the record is completed with the directory of its resource type. Nothing else of
the payload changes, and one faulty record fails the whole payload.
-/

namespace BusClient

open Json

/-- What is known of the packaged application that the client runs in. -/
structure Package where
  /-- The application, if the client runs as a packaged one at all. -/
  appId : Option String
  /-- The directory of each resource type, as a text: a configuration writes no other paths. -/
  resourcePaths : List (String × String)
  deriving DecidableEq, Repr

namespace Package

/-- The directory of a resource type. -/
def directory? (package : Package) (resourceType : String) : Option String :=
  (package.resourcePaths.find? (·.1 == resourceType)).map (·.2)

/-- Why the paths of a payload cannot be completed. -/
inductive Fault
  | notJson (defect : Defect)
  | notRecords
  | elementNotRecord
  | empty
  | missingInfo
  | invalidInfo (defect : Defect)
  | infoNotObject
  | missingType
  | unmappedType (resourceType : String)
  | missingPath
  deriving DecidableEq, Repr

/-- The message of a fault. -/
def Fault.message : Fault → String
  | notJson defect => "payload is not JSON: " ++ defect.message
  | notRecords => "payload is neither an object nor an array"
  | elementNotRecord => "array element is not an object"
  | empty => "no data found in payload"
  | missingInfo => "missing `app_info`"
  | invalidInfo defect => "failed to parse `app_info`: " ++ defect.message
  | infoNotObject => "`app_info` is not an object"
  | missingType => "packaged resource without `res_type`"
  | unmappedType resourceType => "no global resource path for `" ++ resourceType ++ "`"
  | missingPath => "packaged resource without `path`"

/-- The text of a member that is a string. -/
def textMember? (members : Members) (name : String) : Option String :=
  (members.get? name).bind Value.text?

/-- The value of `is_rpk` that marks a packaged resource. -/
def marker : String := "T"

/-- Reads the description that a record gives of its application. -/
def info (record : Members) : Except Fault Members :=
  match textMember? record "app_info" with
  | none => .error .missingInfo
  | some text =>
    match Value.ofText text with
    | .error defect => .error (.invalidInfo defect)
    | .ok document =>
      match document.members? with
      | none => .error .infoNotObject
      | some info => .ok info

/-- Whether the description of an application marks a packaged resource. -/
def isPackaged (info : Members) : Bool := textMember? info "is_rpk" == some marker

/-- The complete path of a packaged record. -/
def resolvedPath (package : Package) (info record : Members) : Except Fault String :=
  match textMember? info "res_type" with
  | none => .error .missingType
  | some resourceType =>
    match package.directory? resourceType with
    | none => .error (.unmappedType resourceType)
    | some directory =>
      match textMember? record "path" with
      | none => .error .missingPath
      | some path => .ok (directory ++ "/" ++ path)

/-- Completes the path of a record, if the record is packaged. -/
def resolve (package : Package) (record : Members) : Except Fault Members :=
  match info record with
  | .error fault => .error fault
  | .ok info =>
    if isPackaged info then
      match package.resolvedPath info record with
      | .error fault => .error fault
      | .ok path => .ok (record.put "path" (.string path))
    else .ok record

/-- Completes the paths of records, in order, up to the first fault; `done` holds the records so
far, the last one first. -/
def resolveAll (package : Package) (done : List Members) :
    List Members → Except Fault (List Members)
  | [] => .ok done.reverse
  | record :: rest =>
    match package.resolve record with
    | .error fault => .error fault
    | .ok record' => resolveAll package (record' :: done) rest

/-- The records of a list, which must all be objects; `done` holds those so far, the last one
first. -/
def records (done : List Members) : List Value → Except Fault (List Members)
  | [] => .ok done.reverse
  | value :: rest =>
    match value.members? with
    | none => .error .elementNotRecord
    | some record => records (record :: done) rest

/-- Completes the paths of a document. That all elements are objects is checked before any of
them is looked at. -/
def resolveDocument (package : Package) : Value → Except Fault Value
  | .array items =>
    match records [] items with
    | .error fault => .error fault
    | .ok [] => .error .empty
    | .ok (first :: more) =>
      match package.resolveAll [] (first :: more) with
      | .error fault => .error fault
      | .ok resolved => .ok (.array (resolved.map .object))
  | .object record =>
    match package.resolve record with
    | .error fault => .error fault
    | .ok record' => .ok (.object record')
  | _ => .error .notRecords

/-- Completes the paths of a payload and writes it anew. -/
def completePayload (package : Package) (payload : String) : Except Fault String :=
  match Value.ofText payload with
  | .error defect => .error (.notJson defect)
  | .ok document =>
    match package.resolveDocument document with
    | .error fault => .error fault
    | .ok resolved => .ok resolved.indented

end Package

/-- What becomes of a payload on its way to the caller. Outside a packaged application it is
handed on as it came. -/
def completePaths (package : Option Package) (payload : String) : Except Package.Fault String :=
  match package with
  | none => .ok payload
  | some package =>
    match package.appId with
    | none => .ok payload
    | some _ => package.completePayload payload

end BusClient
