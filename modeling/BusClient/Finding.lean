import BusClient.Text.Quoted

/-!
# What stands in the wrong place

A message about a document of the wrong shape says what was found. The words are the same for
messages and for configurations.
-/

namespace BusClient

/-- What stands in a document where something else was expected. -/
inductive Finding
  | null
  | bool (b : Bool)
  | integer (n : Int)
  /-- A number that is not spelled as an integer of sixty-four bits. -/
  | number
  /-- A number where only machine integers are of use, by the text of its approximation. -/
  | floating (text : String)
  | string (text : String)
  | sequence
  | map
  /-- A bare name where a name with a body was expected. -/
  | bareVariant
  deriving DecidableEq, Repr

/-- The words for a finding. -/
def Finding.words : Finding → String
  | null => "null"
  | bool b => "boolean `" ++ (if b then "true" else "false") ++ "`"
  | integer n => "integer `" ++ toString n ++ "`"
  | number => "number"
  | floating text => "floating point `" ++ text ++ "`"
  | string text => "string " ++ Quoted.quote text
  | sequence => "sequence"
  | map => "map"
  | bareVariant => "unit variant"

end BusClient
