/-!
# TOML values

A settings file is a table of keys and values. Whether a table may still be added to depends on how
it came about, so every table remembers that.
-/

namespace ZMachine.Toml

/-- How a table came about. -/
inductive Origin where
  /-- Written under a header of its own. -/
  | header
  /-- Named on the way to a longer header. -/
  | implied
  /-- Named on the way to the last part of a dotted key. -/
  | dotted
  /-- Written between braces; nothing can be added to it. -/
  | inlined
deriving Repr, DecidableEq

/-- A value of a settings file. No setting is a floating point number or a point in time, so of
these only the kind is kept. -/
inductive Value where
  | string (text : String)
  | integer (number : Int)
  | float
  | boolean (flag : Bool)
  | moment
  | array (items : List Value)
  | table (origin : Origin) (entries : List (String × Value))
  /-- An array of tables, the latest first. -/
  | tables (latestFirst : List (List (String × Value)))
deriving Repr

/-- The entries of a table, the latest first. -/
abbrev Entries := List (String × Value)

namespace Entries

/-- The value of a key. -/
def get? (entries : Entries) (key : String) : Option Value :=
  List.lookup key entries

/-- The entries without a key. -/
def erase (entries : Entries) (key : String) : Entries :=
  entries.filter (·.1 != key)

/-- The entries with a new value for a key. -/
def put (entries : Entries) (key : String) (value : Value) : Entries :=
  (key, value) :: entries.erase key

/-- The entries of the table to which a path of keys leads, none if there is no such table. -/
def below (entries : Entries) : (path : List String) → Entries
  | [] => entries
  | key :: path =>
    match entries.get? key with
    | some (.table _ next) => below next path
    | some (.tables (latest :: _)) => below latest path
    | _ => []

/-- Changes the table at the end of a path of keys, making the tables that are missing. A path of a
dotted key (`dotted`) may not pass through a table with a header of its own; no path may pass
through anything but tables. -/
def changeAt (dotted : Bool) (change : Origin → Entries → Option Entries) :
    (path : List String) → Origin → Entries → Option Entries
  | [], origin, entries => change origin entries
  | key :: path, _, entries =>
    match entries.get? key with
    | none => do
      let made := if dotted then Origin.dotted else Origin.implied
      let below ← changeAt dotted change path made []
      return entries.put key (.table made below)
    | some (.table .inlined _) => none
    | some (.table origin below) =>
      if dotted && origin = .header then none
      else do
        let below ← changeAt dotted change path origin below
        return entries.put key (.table origin below)
    | some (.tables (latest :: earlier)) => do
      let latest ← changeAt dotted change path .header latest
      return entries.put key (.tables (latest :: earlier))
    | some _ => none

/-- Adds a value under a new key. -/
def define (key : String) (value : Value) (entries : Entries) : Option Entries :=
  match entries.get? key with
  | some _ => none
  | none => some (entries.put key value)

/-- Adds a value under a dotted key, whose parts before the last are `path`. The last table on the
way must have come about by dotted keys alone. -/
def defineDotted (path : List String) (key : String) (value : Value) (origin : Origin)
    (entries : Entries) : Option Entries :=
  changeAt true (fun last below =>
    if path.isEmpty || last = .dotted then below.define key value else none) path origin entries

end Entries

end ZMachine.Toml
