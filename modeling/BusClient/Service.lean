/-!
# The services of the daemon and the buses that carry them

One daemon owns one bus name. It offers three services, each at its own object path and under
its own interface, and it may be registered on either of two buses, which are tried in a fixed
order.
-/

namespace BusClient

/-- The name that the daemon owns on every bus. -/
def busName : String := "org.tizen.machinelearning.service"

/-- A service of the daemon. -/
inductive Service
  | pipeline
  | model
  | resource
  deriving DecidableEq, Repr

namespace Service

/-- The word for a service, in messages and at the end of its interface. -/
def name : Service → String
  | pipeline => "pipeline"
  | model => "model"
  | resource => "resource"

/-- The object that answers the calls of a service. -/
def objectPath : Service → String
  | pipeline => "/Org/Tizen/MachineLearning/Service/Pipeline"
  | model => "/Org/Tizen/MachineLearning/Service/Model"
  | resource => "/Org/Tizen/MachineLearning/Service/Resource"

/-- The interface that the members of a service belong to: it lies under the bus name. -/
def interface (service : Service) : String :=
  busName ++ "." ++ service.name

end Service

/-- A bus that the daemon may be registered on. -/
inductive Scope
  | system
  | session
  deriving DecidableEq, Repr

namespace Scope

/-- The word for a scope. -/
def name : Scope → String
  | system => "system"
  | session => "session"

/-- The scope as a proper noun, as it opens a sentence of a message. -/
def title : Scope → String
  | system => "System"
  | session => "Session"

/-- Scopes in the order in which they are tried. -/
def order : List Scope := [system, session]

/-- Both scopes are searched. -/
theorem mem_order (scope : Scope) : scope ∈ order := by
  cases scope <;> simp [order]

end Scope

end BusClient
