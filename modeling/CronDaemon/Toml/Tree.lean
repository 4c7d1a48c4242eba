import CronDaemon.Toml.Value

/-!
# The tree of a TOML document

A document names the same table in several places. The tree keeps, for each table, whether it was
opened by a header of its own, is implied by the header of a table inside it, or was made by a
dotted key; from this follows what may still be added to it. A header opens a table once, a key
is assigned once, and a table opened by a header is not extended by dotted keys.
-/

namespace CronDaemon.Toml

/-- How a table came into being. -/
inductive Origin where
  /-- Opened by its own header. -/
  | header
  /-- Implied by the header of a table inside it. -/
  | implied
  /-- Made by a dotted key. -/
  | dotted
  deriving DecidableEq, Repr

/-- A node of the tree. -/
inductive Node where
  /-- A value that is complete. -/
  | leaf (value : Value)
  /-- A table. -/
  | branch (origin : Origin) (children : List (String × Node))
  /-- A series of tables under one name, the last one first. -/
  | series (last : List (String × Node)) (earlier : List (List (String × Node)))
  deriving Repr

namespace Node

/-- The named nodes of a table. -/
abbrev Children := List (String × Node)

/-- The node of a name. -/
def child? (key : String) (children : Children) : Option Node :=
  (children.find? fun e => e.1 == key).map (·.2)

/-- Give a name another node. -/
def replace (key : String) (node : Node) (children : Children) : Children :=
  children.map fun e => if e.1 == key then (key, node) else e

/-- Change the table at the end of a path of headers. Missing tables are implied; of a series the
last table is meant. -/
def within (change : Children → Option Children) : List String → Children → Option Children
  | [], children => change children
  | key :: path, children =>
    match child? key children with
    | none => (within change path []).map fun inner => children ++ [(key, .branch .implied inner)]
    | some (.branch origin inner) =>
      (within change path inner).map fun inner => replace key (.branch origin inner) children
    | some (.series last earlier) =>
      (within change path last).map fun last => replace key (.series last earlier) children
    | some (.leaf _) => none

/-- Open a table by its header. -/
def openTable (key : String) (children : Children) : Option Children :=
  match child? key children with
  | none => some (children ++ [(key, .branch .header [])])
  | some (.branch .implied inner) => some (replace key (.branch .header inner) children)
  | some _ => none

/-- Add a table to a series by its header. -/
def openNext (key : String) (children : Children) : Option Children :=
  match child? key children with
  | none => some (children ++ [(key, .series [] [])])
  | some (.series last earlier) => some (replace key (.series [] (last :: earlier)) children)
  | some _ => none

/-- Assign a value to a dotted key. The flag tells whether the table may take the value itself, and
not only tables inside it. -/
def assign (value : Value) : Bool → List String → Children → Option Children
  | _, [], _ => none
  | takes, [key], children =>
    if takes && (child? key children).isNone then some (children ++ [(key, .leaf value)]) else none
  | _, key :: path, children =>
    match child? key children with
    | none => (assign value true path []).map fun inner =>
        children ++ [(key, .branch .dotted inner)]
    | some (.branch .dotted inner) =>
      (assign value true path inner).map fun inner => replace key (.branch .dotted inner) children
    | some (.branch .implied inner) =>
      (assign value false path inner).map fun inner => replace key (.branch .implied inner) children
    | some (.series last earlier) =>
      (assign value false path last).map fun last => replace key (.series last earlier) children
    | some (.branch .header _) => none
    | some (.leaf _) => none

mutual

/-- The value of a node. -/
def toValue : Node → Value
  | .leaf value => value
  | .branch _ children => .table (toEntries children)
  | .series last earlier => .array ((toTables earlier).reverse ++ [.table (toEntries last)])

/-- The values of the nodes of a table. -/
def toEntries : List (String × Node) → List (String × Value)
  | [] => []
  | (key, node) :: rest => (key, toValue node) :: toEntries rest

/-- The values of tables. -/
def toTables : List (List (String × Node)) → List Value
  | [] => []
  | children :: rest => .table (toEntries children) :: toTables rest

end

end Node

end CronDaemon.Toml
