import Shortlist.Json.Basic

/-!
# Tables of a TOML document

A document is a sequence of statements: headers that say which table comes next, and pairs of a key
and a value for the table of the last header.  A key may be a path, and then the tables on its way
come about by themselves.  Every table is written in one place only: a header may come after its
subtables, but not after its own pairs or another header of the same name, and a dotted key may only
add to tables that dotted keys of the same place made.
-/

namespace Shortlist.Toml

open Json (Value)

/-! ## 1. The tree -/

/-- How a table came about. -/
inductive Origin where
  /-- It lies on the way to the table of a header. -/
  | implied
  /-- It lies on the way of a dotted key. -/
  | dotted
  /-- It has a header of its own. -/
  | headed
deriving Repr, DecidableEq

/-- What a key stands for. -/
inductive Node where
  /-- A value, complete as it is. -/
  | value (v : Value)
  /-- A table. -/
  | table (origin : Origin) (members : List (String × Node))
  /-- A list of tables, each with a header of its own; only the last one is still being written. -/
  | tables (earlier : List (List (String × Node))) (last : List (String × Node))

mutual

/-- The value of a node. -/
def Node.toValue : Node → Value
  | .value v => v
  | .table _ members => .object (memberValues members)
  | .tables earlier last => .array (tableValues earlier ++ [.object (memberValues last)])

/-- The members of a table with their values. -/
def memberValues : List (String × Node) → List (String × Value)
  | [] => []
  | (key, node) :: rest => (key, node.toValue) :: memberValues rest

/-- The values of tables. -/
def tableValues : List (List (String × Node)) → List Value
  | [] => []
  | members :: rest => .object (memberValues members) :: tableValues rest

end

/-! ## 2. Paths -/

/-- Changes the members of the table at the end of a path.  Tables that are missing on the way come
about as `made`; a dotted key may not enter a table that has a header, and nothing enters a value.
`origin` is how the table came about in which the path begins. -/
def within (made : Origin)
    (change : Origin → List (String × Node) → Option (List (String × Node))) :
    Origin → List String → List (String × Node) → Option (List (String × Node))
  | origin, [], members => change origin members
  | _, key :: path, members =>
    match Keyed.find? key members with
    | none =>
      (within made change made path []).map fun inner =>
        Keyed.insert key (.table made inner) members
    | some (.table origin inner) =>
      if made = .dotted ∧ origin = .headed then none
      else (within made change origin path inner).map fun inner =>
        Keyed.insert key (.table origin inner) members
    | some (.tables earlier last) =>
      (within made change .headed path last).map fun last =>
        Keyed.insert key (.tables earlier last) members
    | some (.value _) => none

/-- Puts a value into a table under a path.  A key is not written twice, and the table it ends in
has to be the one where the path begins or one that dotted keys made. -/
def putPair (path : List String) (v : Value) (members : List (String × Node)) :
    Option (List (String × Node)) :=
  match path.reverse with
  | [] => none
  | key :: before =>
    within .dotted
      (fun origin inner =>
        if origin = .dotted ∧ (Keyed.find? key inner).isNone then
          some (Keyed.insert key (.value v) inner)
        else none)
      .dotted before.reverse members

/-- The table of pairs, as it is written in a single value. -/
def ofPairs (pairs : List (List String × Value)) : Option Value :=
  (pairs.foldlM (fun members pair => putPair pair.1 pair.2 members) []).map fun members =>
    .object (memberValues members)

/-! ## 3. Documents -/

/-- A statement of a document. -/
inductive Statement where
  /-- The header of a table. -/
  | table (path : List String)
  /-- The header of the next table of a list. -/
  | item (path : List String)
  /-- A key and its value. -/
  | pair (path : List String) (v : Value)
deriving Repr

/-- Opens the table of a header.  It must not have been opened before. -/
def openTable (key : String) (members : List (String × Node)) : Option (List (String × Node)) :=
  match Keyed.find? key members with
  | none => some (Keyed.insert key (.table .headed []) members)
  | some (.table .implied inner) => some (Keyed.insert key (.table .headed inner) members)
  | some _ => none

/-- Opens the next table of a list of tables. -/
def openItem (key : String) (members : List (String × Node)) : Option (List (String × Node)) :=
  match Keyed.find? key members with
  | none => some (Keyed.insert key (.tables [] []) members)
  | some (.tables earlier last) =>
    some (Keyed.insert key (.tables (earlier ++ [last]) []) members)
  | some _ => none

/-- A document that is being written: its table and the path of the last header. -/
structure Draft where
  root : List (String × Node) := []
  place : List String := []

/-- Opens a table by its header. -/
def Draft.goTo (d : Draft) (path : List String)
    (enter : String → List (String × Node) → Option (List (String × Node))) : Option Draft :=
  match path.reverse with
  | [] => none
  | key :: before =>
    (within .implied (fun _ => enter key) .headed before.reverse d.root).map fun root =>
      { root, place := path }

/-- Takes one more statement, if it may stand where it does. -/
def Draft.take (d : Draft) : Statement → Option Draft
  | .table path => d.goTo path openTable
  | .item path => d.goTo path openItem
  | .pair path v =>
    (within .implied (fun _ => putPair path v) .headed d.place d.root).map fun root =>
      { d with root }

/-- The members of the document that statements write. -/
def ofStatements (statements : List Statement) : Option (Keyed Value) :=
  (statements.foldlM Draft.take {}).map fun d => memberValues d.root

end Shortlist.Toml
