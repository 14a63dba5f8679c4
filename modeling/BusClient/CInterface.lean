import BusClient.Client

/-!
# The C interface

Callers in C pass a text as bytes up to the first zero byte, or pass null, and get a status: zero
or a negative code. A result is written to a slot that the caller provides, and only if the
status is zero. The arguments are checked before the client is asked, in the order of the
parameters. There is one client for the whole process, unless its configuration cannot be used.
-/

namespace BusClient.CInterface

/-- A text argument: null, or bytes. -/
abbrev TextArg := Option Bytes

/-- The slot for a result: null, or given. -/
inductive Slot
  | null
  | given
  deriving DecidableEq, Repr

/-- The bytes in front of the first zero byte. -/
def beforeZero (bytes : Bytes) : Bytes := bytes.takeWhile (· != 0)

/-- A call of one of the C functions. -/
inductive Invocation
  | setPipelineDescription (name description : TextArg)
  | getPipelineDescription (name : TextArg) (slot : Slot)
  | deletePipeline (name : TextArg)
  | launchPipeline (name : TextArg) (slot : Slot)
  | startPipeline (id : Int64)
  | stopPipeline (id : Int64)
  | destroyPipeline (id : Int64)
  | getPipelineState (id : Int64) (slot : Slot)
  | registerModel (name path : TextArg) (activate : Int32)
      (description appInfo : TextArg) (slot : Slot)
  | updateModelDescription (name : TextArg) (version : UInt32) (description : TextArg)
  | activateModel (name : TextArg) (version : UInt32)
  | getModel (name : TextArg) (version : UInt32) (slot : Slot)
  | getActivatedModel (name : TextArg) (slot : Slot)
  | getAllModels (name : TextArg) (slot : Slot)
  | deleteModel (name : TextArg) (version : UInt32) (force : Int32)
  | addResource (name path description appInfo : TextArg)
  | deleteResource (name : TextArg)
  | getResource (name : TextArg) (slot : Slot)

/-- A text that must be there, be UTF-8 and not be empty. -/
def mandatoryText (what : String) (arg : TextArg) : Outcome String :=
  match arg with
  | none => .error (.invalidArgument what)
  | some bytes =>
    match (beforeZero bytes).text? with
    | none => .error (.invalidArgument what)
    | some text => if text = "" then .error (.invalidArgument what) else .ok text

/-- A text that may be absent, but must be UTF-8. -/
def optionalText (what : String) (arg : TextArg) : Outcome (Option String) :=
  match arg with
  | none => .ok none
  | some bytes =>
    match (beforeZero bytes).text? with
    | none => .error (.invalidArgument what)
    | some text => .ok (some text)

/-- A slot that must be there. -/
def writable (what : String) : Slot → Outcome Unit
  | .null => .error (.invalidArgument what)
  | .given => .ok ()

/-- A version that the daemon may have assigned. -/
def assigned (version : UInt32) : Outcome Unit :=
  if version = 0 then .error (.invalidArgument "version") else .ok ()

/-- Checks the arguments of an invocation and decodes the request that it makes. -/
def request : Invocation → Outcome Request
  | .setPipelineDescription name description => do
    let name ← mandatoryText "name" name
    let description ← mandatoryText "pipeline_desc" description
    .ok (.setPipelineDescription name description)
  | .getPipelineDescription name slot => do
    let name ← mandatoryText "name" name
    writable "pipeline_desc" slot
    .ok (.getPipelineDescription name)
  | .deletePipeline name => do
    let name ← mandatoryText "name" name
    .ok (.deletePipeline name)
  | .launchPipeline name slot => do
    let name ← mandatoryText "name" name
    writable "id" slot
    .ok (.launchPipeline name)
  | .startPipeline id => .ok (.startPipeline id)
  | .stopPipeline id => .ok (.stopPipeline id)
  | .destroyPipeline id => .ok (.destroyPipeline id)
  | .getPipelineState id slot => do
    writable "state" slot
    .ok (.getPipelineState id)
  | .registerModel name path activate description appInfo slot => do
    let name ← mandatoryText "name" name
    let path ← mandatoryText "path" path
    let description ← optionalText "description" description
    let appInfo ← optionalText "app_info" appInfo
    writable "version" slot
    .ok (.registerModel name path (activate != 0) description appInfo)
  | .updateModelDescription name version description => do
    let name ← mandatoryText "name" name
    let description ← mandatoryText "description" description
    assigned version
    .ok (.updateModelDescription name version description)
  | .activateModel name version => do
    let name ← mandatoryText "name" name
    assigned version
    .ok (.activateModel name version)
  | .getModel name version slot => do
    let name ← mandatoryText "name" name
    writable "model_info" slot
    assigned version
    .ok (.getModel name version)
  | .getActivatedModel name slot => do
    let name ← mandatoryText "name" name
    writable "model_info" slot
    .ok (.getActivatedModel name)
  | .getAllModels name slot => do
    let name ← mandatoryText "name" name
    writable "model_info" slot
    .ok (.getAllModels name)
  | .deleteModel name version force => do
    let name ← mandatoryText "name" name
    .ok (.deleteModel name version (force != 0))
  | .addResource name path description appInfo => do
    let name ← mandatoryText "name" name
    let path ← mandatoryText "path" path
    let description ← optionalText "description" description
    let appInfo ← optionalText "app_info" appInfo
    .ok (.addResource name path description appInfo)
  | .deleteResource name => do
    let name ← mandatoryText "name" name
    .ok (.deleteResource name)
  | .getResource name slot => do
    let name ← mandatoryText "name" name
    writable "res_info" slot
    .ok (.getResource name)

/-- What a C function leaves behind: its status, what it wrote to the slot, and what happened to
connections. -/
structure Effect where
  status : Int32
  written : Option Output
  events : List Event

/-- Hands a result to the caller. A text that contains a zero byte cannot be handed over whole. -/
def handOver : Output → Outcome (Option Output)
  | .nothing => .ok none
  | .text text =>
    if '\x00' ∈ text.toList then .error (.payload "payload contains an interior NUL")
    else .ok (some (.text text))
  | output => .ok (some output)

/-- The effect of the functions that do not ask the client: releasing a text that was handed over,
and preparing the log. -/
def housekeeping : Effect := ⟨0, none, []⟩

/-- The client that the functions ask, one for the whole process, or the reason why the
configuration that should set it up cannot be used. -/
abbrev Setup := Except String Client

/-- The failure of every request where the configuration cannot be used. -/
def unusable (reason : String) : CallError := .transport ⟨.other, "configuration: " ++ reason⟩

/-- Asks the client of the process, if there is one. -/
def ask (setup : Setup) (request : Request) : Outcome Output × List Event :=
  match setup with
  | .error reason => (.error (unusable reason), [])
  | .ok client => client.perform request

/-- Runs a C function in a process. Its arguments are checked before the client is asked for, so
that a faulty one is reported even where the configuration cannot be used. -/
def runUnder (setup : Setup) (invocation : Invocation) : Effect :=
  match request invocation with
  | .error error => ⟨error.status, none, []⟩
  | .ok request =>
    match ask setup request with
    | (.error error, events) => ⟨error.status, none, events⟩
    | (.ok output, events) =>
      match handOver output with
      | .error error => ⟨error.status, none, events⟩
      | .ok written => ⟨0, written, events⟩

/-- Runs a C function against a client. -/
def run (client : Client) (invocation : Invocation) : Effect := runUnder (.ok client) invocation

end BusClient.CInterface
