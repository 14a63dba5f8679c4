import BusClient.Toml.Value

/-!
# Building tables

A key with dots leads through tables and makes the missing ones; so does a header. A dotted key
may only add to tables that dotted keys have made, and only pass through those and the implied
ones; a header may pass through all tables that are not complete. Where a list of tables stands
in the way, both go on in its last table. No name is given twice.
-/

namespace BusClient.Toml

/-- The keys of a path: those in front, and the last one. -/
structure Path where
  parents : List Key
  last : Key
  deriving DecidableEq, Repr

/-- What leads through tables. -/
inductive Route
  | dottedKey
  | header
  deriving DecidableEq, Repr

/-- The origin of the tables that a route makes on its way. -/
def Route.makes : Route → Origin
  | dottedKey => .dotted
  | header => .implied

/-- Whether a route may pass through a table. -/
def Route.passes : Route → Origin → Bool
  | _, .inline => false
  | dottedKey, .header => false
  | header, .header => true
  | _, .implied => true
  | _, .dotted => true

/-- A change of a table, which depends on how the table came about and may be refused. -/
abbrev Change := Origin → Entries → Option Entries

/-- Changes the last table of a list. -/
def changeLast (change : Change) : Items → Option Items
  | [] => none
  | [(mark, .table origin entries)] =>
    (change origin entries).map fun entries => [(mark, .table origin entries)]
  | [_] => none
  | item :: more => (changeLast change more).map (item :: ·)

/-- Changes the table that a path leads to. -/
def follow (route : Route) (change : Change) : List Key → Change
  | [] => change
  | key :: more => fun _ entries =>
    match entries.get? key.name with
    | none =>
      (follow route change more route.makes []).map fun inner =>
        entries ++ [(key, key.mark, .table route.makes inner)]
    | some (_, .table origin inner) =>
      if route.passes origin then
        (follow route change more origin inner).map fun inner =>
          entries.set key.name (.table origin inner)
      else none
    | some (_, .list .header items) =>
      (changeLast (follow route change more) items).map fun items =>
        entries.set key.name (.list .header items)
    | some _ => none

/-- Adds an entry. What a dotted key leads to must have been made by dotted keys, and what a
plain key adds to must not. -/
def insertEntry (dotted : Bool) (key : Key) (mark : Mark) (value : Value) : Change :=
  fun origin entries =>
    if (origin == .dotted) == dotted && (entries.get? key.name).isNone then
      some (entries ++ [(key, mark, value)])
    else none

/-- A statement that gives a value to a path. -/
structure Assignment where
  path : Path
  mark : Mark
  value : Value

/-- Adds the entry of an assignment to a table. -/
def Assignment.addTo (assignment : Assignment) : Change :=
  let ⟨path, mark, value⟩ := assignment
  follow .dottedKey (insertEntry (!path.parents.isEmpty) path.last mark value) path.parents

/-- Adds the entries of assignments in order. -/
def addAll (assignments : List Assignment) : Change := fun origin entries =>
  assignments.foldlM (fun entries assignment => assignment.addTo origin entries) entries

/-- What a header opens. -/
inductive Opening
  | table
  /-- The next table of a list. -/
  | item
  deriving DecidableEq, Repr

/-- A header, where it starts, and the assignments below it. -/
structure Section where
  opening : Opening
  path : Path
  mark : Mark
  own : List Assignment

/-- Adds the table of a section to the table that its header leads to. A table may have been
implied before, and then moves to the end. -/
def Section.insert (sec : Section) : Change := fun _ entries =>
  let key := sec.path.last
  match sec.opening, entries.get? key.name with
  | .table, none =>
    (addAll sec.own .header []).map fun own => entries ++ [(key, sec.mark, .table .header own)]
  | .table, some (_, .table .implied inner) =>
    (addAll sec.own .header inner).map fun own =>
      entries.erase key.name ++ [(key, sec.mark, .table .header own)]
  | .item, none =>
    (addAll sec.own .header []).map fun own =>
      entries ++ [(key, sec.mark, .list .header [(sec.mark, .table .header own)])]
  | .item, some (_, .list .header items) =>
    (addAll sec.own .header []).map fun own =>
      entries.set key.name (.list .header (items ++ [(sec.mark, .table .header own)]))
  | _, some _ => none

/-- Adds a section to a table, through the tables that its header leads through. -/
def Section.addTo (sec : Section) : Change := follow .header sec.insert sec.path.parents

/-- The table of a text: its first assignments, and then the sections in order. -/
def assemble (first : List Assignment) (sections : List Section) : Option Entries :=
  match addAll first .header [] with
  | none => none
  | some entries =>
    sections.foldlM (fun entries sec => sec.addTo .header entries) entries

end BusClient.Toml
