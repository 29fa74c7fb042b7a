/-!
# TOML values

A TOML document is a sequence of statements: headers of tables, headers of tables in a list, and
pairs of a key and a value. `Table.ofStatements?` runs them in order and builds a table.

Keys are paths. The tables along a path come into being as they are needed, and `Origin`
remembers how: a header may complete a table that only came about on the way to another header,
but nothing else may be defined twice.
-/

namespace TrafficSchema.Toml

/-- How a table came about. -/
inductive Origin
  /-- By a header of its own, or as the whole document. -/
  | header
  /-- On the way to the table of a header. -/
  | passed
  /-- On the way to the key of a pair. -/
  | dotted
  /-- As a value in braces. -/
  | inline
  deriving DecidableEq

/-- A value. Of a floating-point number nothing is kept; a date or time is kept as its normal
text. -/
inductive Value
  | string (s : String)
  | integer (n : Int)
  | float
  | bool (b : Bool)
  | moment (text : String)
  | array (items : List Value)
  | table (origin : Origin) (members : List (String × Value))
  /-- The tables with one header in double brackets, the last one first. -/
  | tables (items : List (List (String × Value)))
  deriving Inhabited

/-- The members of a table. -/
abbrev Members := List (String × Value)

/-- A statement of a document. -/
inductive Statement
  /-- `[path]` -/
  | header (path : List String)
  /-- `[[path]]` -/
  | listHeader (path : List String)
  /-- `path = value` -/
  | pair (path : List String) (value : Value)

namespace Members

/-- The value of a key. -/
def get? (members : Members) (key : String) : Option Value := members.lookup key

/-- Lets a key have a value, in its old place if it has one. -/
def set (key : String) (value : Value) : Members → Members
  | [] => [(key, value)]
  | (k, v) :: rest => if k = key then (key, value) :: rest else (k, v) :: set key value rest

/-- Changes the table at the end of a path. `along` is the origin of tables that have to be made
on the way. -/
def update? (along : Origin) (change : Origin → Members → Option Members) :
    (path : List String) → Origin → Members → Option Members
  | [], origin, members => change origin members
  | key :: path, _, members =>
    match members.get? key with
    | none => do
      let inner ← update? along change path along []
      return members.set key (.table along inner)
    | some (.table origin inner) =>
      if origin = .inline ∨ (origin = .header ∧ along = .dotted) then none
      else do
        let inner ← update? along change path origin inner
        return members.set key (.table origin inner)
    | some (.tables (last :: before)) => do
      let last ← update? along change path .header last
      return members.set key (.tables (last :: before))
    | some _ => none

/-- Lets a key that has no value yet have one. The table is either the one that the pair stands
in, or one that came about by pairs. -/
def setNew? (direct : Bool) (key : String) (value : Value) (origin : Origin) (members : Members) :
    Option Members :=
  if !direct && origin ≠ .dotted then none
  else if (members.get? key).isSome then none
  else some (members.set key value)

/-- Sets the value at a path within a table. -/
def insert? (members : Members) (path : List String) (value : Value) : Option Members :=
  match path.getLast? with
  | none => none
  | some key =>
    update? .dotted (setNew? (path.length = 1) key value) path.dropLast .header members

/-- Opens the table of a header. -/
def openTable? (key : String) (_ : Origin) (members : Members) : Option Members :=
  match members.get? key with
  | none => some (members.set key (.table .header []))
  | some (.table .passed inner) => some (members.set key (.table .header inner))
  | some _ => none

/-- Opens another table in a list of tables. -/
def openListTable? (key : String) (_ : Origin) (members : Members) : Option Members :=
  match members.get? key with
  | none => some (members.set key (.tables [[]]))
  | some (.tables items) => some (members.set key (.tables ([] :: items)))
  | some _ => none

/-- Changes the table that a header has opened. -/
def inTable? (change : Members → Option Members) : (path : List String) → Members → Option Members
  | [], members => change members
  | key :: path, members =>
    match members.get? key with
    | some (.table origin inner) => do
      return members.set key (.table origin (← inTable? change path inner))
    | some (.tables (last :: before)) => do
      return members.set key (.tables ((← inTable? change path last) :: before))
    | _ => none

/-- Runs a statement; `current` is the path of the table that was opened last. -/
def run? (root : Members) (current : List String) : Statement → Option (Members × List String)
  | .header path =>
    match path.getLast? with
    | none => none
    | some key => do
      return (← update? .passed (openTable? key) path.dropLast .header root, path)
  | .listHeader path =>
    match path.getLast? with
    | none => none
    | some key => do
      return (← update? .passed (openListTable? key) path.dropLast .header root, path)
  | .pair path value => do
    return (← inTable? (·.insert? path value) current root, current)

/-- The table that a document describes. -/
def ofStatements? (statements : List Statement) : Option Members := do
  let (root, _) ← statements.foldlM (fun (root, current) s => run? root current s) ([], [])
  return root

/-- The table that pairs in braces describe. -/
def ofPairs? (pairs : List (List String × Value)) : Option Members :=
  pairs.foldlM (fun members (path, value) => members.insert? path value) []

end Members

end TrafficSchema.Toml
