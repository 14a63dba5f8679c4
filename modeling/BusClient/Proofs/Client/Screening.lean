import BusClient.Proofs.Client.Discipline

/-!
# Which requests are refused

A request is refused for the first rule that it breaks: its name must not be empty, nor a path or a
description that it needs, and a version must be one that the daemon assigns. Refusal is the only
way in which a request ends as an invalid argument, and a refused request touches no connection.
All other requests reach the search for a scope, whatever their other parameters are.
-/

namespace BusClient

namespace Request

/-! ## The rules -/

end Request

/-- Parameters in the order of their rules. No request needs both a path and a description. -/
def Parameter.order : List Parameter := [name, path, description, version]

theorem Parameter.mem_order (parameter : Parameter) : parameter ∈ order := by
  cases parameter <;> simp [order]

namespace Request

/-- Requests with parameters that no rule is about: identifiers, flags, texts that may be absent,
and the version of a model that is to be removed. -/
inductive Lenient : Request → Prop
  | start (id : Int64) : Lenient (.startPipeline id)
  | stop (id : Int64) : Lenient (.stopPipeline id)
  | destroy (id : Int64) : Lenient (.destroyPipeline id)
  | state (id : Int64) : Lenient (.getPipelineState id)
  | register {name path : String} (hn : name ≠ "") (hp : path ≠ "") (activate : Bool)
      (description appInfo : Option String) :
      Lenient (.registerModel name path activate description appInfo)
  | delete {name : String} (hn : name ≠ "") (version : UInt32) (force : Bool) :
      Lenient (.deleteModel name version force)
  | add {name path : String} (hn : name ≠ "") (hp : path ≠ "")
      (description appInfo : Option String) : Lenient (.addResource name path description appInfo)

variable {request : Request} {parameter : Parameter}

/-! ## The check -/

/-- Lenient requests pass their check. -/
theorem Lenient.check (h : request.Lenient) : request.check = .ok () := by
  cases h with
  | start | stop | destroy | state => rfl
  | delete hn => simp [Request.check, checkText, hn]
  | register hn hp => simp [Request.check, checkText, hn, hp, bind, Except.bind]
  | add hn hp => simp [Request.check, checkText, hn, hp, bind, Except.bind]

end Request

/-! ## What comes of a request -/

end BusClient
