import BusClient.Decimal.Shortest

/-!
# Tables

A configuration text is a table: entries with different names, in the order in which they were
written. Every value knows where it starts. How a table or a list of tables came about is part
of it, because that decides whether later statements may add to it.
-/

namespace BusClient.Toml

/-- A spot in a text, given by the number of characters from there to the end. -/
abbrev Mark := Nat

/-- A key, and where it was written. -/
structure Key where
  name : String
  mark : Mark
  deriving DecidableEq, Repr

/-- How a table, or a list of tables, came about. -/
inductive Origin
  /-- Written as a value; it is complete. -/
  | inline
  /-- By its own header. -/
  | header
  /-- By a longer header; its own header may still come. -/
  | implied
  /-- By a key with dots. -/
  | dotted
  deriving DecidableEq, Repr

/-- A day, a time of day, or both, and perhaps an offset; kept by its normal text. -/
structure Moment where
  text : String
  deriving DecidableEq, Repr

/-- A value. A list of tables that headers make has the origin `header`. -/
inductive Value
  | string (text : String)
  | integer (n : Int)
  | float (x : Decimal.Real)
  | boolean (b : Bool)
  | moment (m : Moment)
  | list (origin : Origin) (items : List (Mark × Value))
  | table (origin : Origin) (entries : List (Key × Mark × Value))

/-- The entries of a table: a key, where the value starts, and the value. -/
abbrev Entries := List (Key × Mark × Value)

/-- The items of a list, each with the spot where it starts. -/
abbrev Items := List (Mark × Value)

namespace Entries

/-- The names of the entries, in order. -/
def names (entries : Entries) : List String := entries.map (·.1.name)

/-- The value under a name, and where it starts. -/
def get? (entries : Entries) (name : String) : Option (Mark × Value) :=
  (entries.find? (·.1.name == name)).map (·.2)

/-- Changes the value under a name, in its place. -/
def set (entries : Entries) (name : String) (value : Value) : Entries :=
  entries.map fun entry =>
    if entry.1.name == name then (entry.1, entry.2.1, value) else entry

/-- Removes the entry under a name. -/
def erase (entries : Entries) (name : String) : Entries :=
  entries.filter (!·.1.name == name)

end Entries

end BusClient.Toml
