import BusClient.Failure
import BusClient.Json.Value

/-!
# Requests

There are eighteen requests. Each belongs to one service and is sent as a call of one member,
with its arguments in a fixed order. Before anything is sent a request is checked: some of its
texts must not be empty, and some of its versions must not be zero. What is sent of an absent
optional text is the empty text.
-/

namespace BusClient

open Json

/-- Something that a service can be asked for. -/
inductive Request
  /-- Store a description under a name, in place of any previous one. -/
  | setPipelineDescription (name description : String)
  /-- The description stored under a name. -/
  | getPipelineDescription (name : String)
  | deletePipeline (name : String)
  /-- Launch the pipeline stored under a name; the result is its identifier. -/
  | launchPipeline (name : String)
  | startPipeline (id : Int64)
  | stopPipeline (id : Int64)
  /-- Tear a launched pipeline down. Its description stays. -/
  | destroyPipeline (id : Int64)
  /-- The state of a launched pipeline, as the daemon numbers it. -/
  | getPipelineState (id : Int64)
  /-- Register a model file; the result is the version that the daemon assigns. -/
  | registerModel (name path : String) (activate : Bool) (description appInfo : Option String)
  | updateModelDescription (name : String) (version : UInt32) (description : String)
  /-- Make a version of a model the active one. -/
  | activateModel (name : String) (version : UInt32)
  | getModel (name : String) (version : UInt32)
  | getActivatedModel (name : String)
  | getAllModels (name : String)
  /-- Remove a version of a model, by force even the active one. -/
  | deleteModel (name : String) (version : UInt32) (force : Bool)
  | addResource (name path : String) (description appInfo : Option String)
  | deleteResource (name : String)
  | getResource (name : String)
  deriving DecidableEq, Repr

/-- A parameter that is checked before anything is sent. -/
inductive Parameter
  | name
  | path
  | description
  | version
  deriving DecidableEq, Repr

/-- The word for a parameter. -/
def Parameter.word : Parameter → String
  | name => "name"
  | path => "path"
  | description => "description"
  | version => "version"

/-- What a successful request hands back. -/
inductive ResultKind
  | nothing
  | text
  /-- The records of a payload, whose paths may have to be completed. -/
  | records
  | int64
  | int32
  | uint32
  deriving DecidableEq, Repr

namespace Request

/-- The service that a request is for. -/
def service : Request → Service
  | setPipelineDescription .. | getPipelineDescription .. | deletePipeline ..
  | launchPipeline .. | startPipeline .. | stopPipeline .. | destroyPipeline ..
  | getPipelineState .. => .pipeline
  | registerModel .. | updateModelDescription .. | activateModel .. | getModel ..
  | getActivatedModel .. | getAllModels .. | deleteModel .. => .model
  | addResource .. | deleteResource .. | getResource .. => .resource

/-- The member that a request calls. -/
def member : Request → String
  | setPipelineDescription .. => "set_pipeline"
  | getPipelineDescription .. => "get_pipeline"
  | deletePipeline .. => "delete_pipeline"
  | launchPipeline .. => "launch_pipeline"
  | startPipeline .. => "start_pipeline"
  | stopPipeline .. => "stop_pipeline"
  | destroyPipeline .. => "destroy_pipeline"
  | getPipelineState .. => "get_state"
  | registerModel .. => "register"
  | updateModelDescription .. => "update_description"
  | activateModel .. => "activate"
  | getModel .. => "get"
  | getActivatedModel .. => "get_activated"
  | getAllModels .. => "get_all"
  | deleteModel .. => "delete"
  | addResource .. => "add"
  | deleteResource .. => "delete"
  | getResource .. => "get"

/-- An identifier as an argument. -/
def idArg (id : Int64) : Value := .number (.ofInt id.toInt)

/-- A version as an argument. -/
def versionArg (version : UInt32) : Value := .number (.ofNat version.toNat)

/-- An optional text as an argument. -/
def optionalArg (text : Option String) : Value := .string (text.getD "")

/-- The arguments of a request, in the order in which they are sent. -/
def args : Request → List Value
  | setPipelineDescription name description => [.string name, .string description]
  | getPipelineDescription name => [.string name]
  | deletePipeline name => [.string name]
  | launchPipeline name => [.string name]
  | startPipeline id => [idArg id]
  | stopPipeline id => [idArg id]
  | destroyPipeline id => [idArg id]
  | getPipelineState id => [idArg id]
  | registerModel name path activate description appInfo =>
    [.string name, .string path, .bool activate, optionalArg description, optionalArg appInfo]
  | updateModelDescription name version description =>
    [.string name, versionArg version, .string description]
  | activateModel name version => [.string name, versionArg version]
  | getModel name version => [.string name, versionArg version]
  | getActivatedModel name => [.string name]
  | getAllModels name => [.string name]
  | deleteModel name version force => [.string name, versionArg version, .bool force]
  | addResource name path description appInfo =>
    [.string name, .string path, optionalArg description, optionalArg appInfo]
  | deleteResource name => [.string name]
  | getResource name => [.string name]

/-- What a request hands back when it succeeds. -/
def resultKind : Request → ResultKind
  | getPipelineDescription .. => .text
  | launchPipeline .. => .int64
  | getPipelineState .. => .int32
  | registerModel .. => .uint32
  | getModel .. | getActivatedModel .. | getAllModels .. | getResource .. => .records
  | _ => .nothing

/-- A text that must not be empty. -/
def checkText (parameter : Parameter) (text : String) : Except Parameter Unit :=
  if text = "" then .error parameter else .ok ()

/-- A version that must not be zero, since the daemon never assigns zero. -/
def checkVersion (version : UInt32) : Except Parameter Unit :=
  if version = 0 then .error .version else .ok ()

/-- Checks a request: the first parameter that is not as it must be is the fault. -/
def check : Request → Except Parameter Unit
  | setPipelineDescription name description => do
    checkText .name name
    checkText .description description
  | getPipelineDescription name => checkText .name name
  | deletePipeline name => checkText .name name
  | launchPipeline name => checkText .name name
  | startPipeline _ => .ok ()
  | stopPipeline _ => .ok ()
  | destroyPipeline _ => .ok ()
  | getPipelineState _ => .ok ()
  | registerModel name path _ _ _ => do
    checkText .name name
    checkText .path path
  | updateModelDescription name version description => do
    checkText .name name
    checkText .description description
    checkVersion version
  | activateModel name version => do
    checkText .name name
    checkVersion version
  | getModel name version => do
    checkText .name name
    checkVersion version
  | getActivatedModel name => checkText .name name
  | getAllModels name => checkText .name name
  | deleteModel name _ _ => checkText .name name
  | addResource name path _ _ => do
    checkText .name name
    checkText .path path
  | deleteResource name => checkText .name name
  | getResource name => checkText .name name

end Request

end BusClient
