import Lox.Toml.Value

/-! Tables under construction. A path of keys leads from a table to one nested in it, and
marks keep what has been written from being opened or changed again. -/

namespace Lox.Toml

abbrev Path := List String

namespace Table

def get? (table : Table) (key : String) : Option Value := table.lookup key

/-- The table with a value under a key, in the place of the old one if there is one. -/
def put (table : Table) (key : String) (value : Value) : Table :=
  match table with
  | [] => [(key, value)]
  | (k, old) :: rest => if k = key then (k, value) :: rest else (k, old) :: put rest key value

/-- Adds a new key. -/
def insert? (table : Table) (key : String) (value : Value) : Option Table :=
  if (table.get? key).isSome then none else some (table ++ [(key, value)])

/-- Changes the table at a path, making empty tables on the way. With `throughArrays`, an
array stands for its last table; any other value in the way is an obstacle. -/
def update? (throughArrays : Bool) (path : Path) (change : Table → Option Table)
    (table : Table) : Option Table :=
  match path with
  | [] => change table
  | key :: path =>
    match table.get? key with
    | none => do return table ++ [(key, .table (← update? throughArrays path change []))]
    | some (.table inner) => do
      return table.put key (.table (← update? throughArrays path change inner))
    | some (.array items) =>
      match throughArrays, items.getLast? with
      | true, some (.table inner) => do
        let changed ← update? throughArrays path change inner
        return table.put key (.array (items.dropLast ++ [.table changed]))
      | _, _ => none
    | some _ => none

/-- Adds a value under a key of the table at a path. -/
def insertAt? (throughArrays : Bool) (path : Path) (key : String) (value : Value)
    (table : Table) : Option Table :=
  table.update? throughArrays path (·.insert? key value)

/-- Adds an empty table to the array of tables at a path. -/
def appendAt? (path : Path) (table : Table) : Option Table :=
  match path.getLast? with
  | none => none
  | some key =>
    table.update? true path.dropLast fun parent =>
      match parent.get? key with
      | none => some (parent ++ [(key, .array [.table []])])
      | some (.array items) => some (parent.put key (.array (items ++ [.table []])))
      | some _ => none

end Table

/-- What may no longer be opened by a header (`closed`), and what may no longer be changed at
all, with everything below it (`frozen`). -/
structure Marks where
  closed : List Path := []
  frozen : List Path := []

namespace Marks

def isClosed (marks : Marks) (path : Path) : Bool := marks.closed.contains path

def isFrozen (marks : Marks) (path : Path) : Bool := marks.frozen.any (·.isPrefixOf path)

def close (marks : Marks) (path : Path) : Marks := { marks with closed := path :: marks.closed }

def freeze (marks : Marks) (path : Path) : Marks := { marks with frozen := path :: marks.frozen }

/-- Forgets all marks at a path and below it. -/
def free (marks : Marks) (path : Path) : Marks :=
  { closed := marks.closed.filter (!path.isPrefixOf ·)
    frozen := marks.frozen.filter (!path.isPrefixOf ·) }

end Marks

end Lox.Toml
