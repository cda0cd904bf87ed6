import Shortlist.Json.Basic
import Shortlist.Number.Decimal
import Shortlist.Text.Search

/-!
# Paths into a tree of values

A path leads from the root of a tree through members of tables and items of lists.  `assign` puts a
value at the end of a path; whatever is missing on the way, or is of another kind, is made anew.  Tables
are put over each other key by key, and everything else is replaced.
-/

namespace Shortlist.Settings

open Json (Value)

/-! ## 1. Putting one value over another -/

/-- The members of a table; other values have none. -/
def membersOf : Value → Keyed Value
  | .object members => members
  | _ => []

/-- The items of a list; other values have none. -/
def itemsOf : Value → List Value
  | .array items => items
  | _ => []

mutual

/-- The value `v` over the value `below`: tables are put over each other key by key. -/
def overlay (below : Value) (v : Value) : Value :=
  match v with
  | .object members => .object (overlayMembers (membersOf below) members)
  | .null => .null
  | .bool b => .bool b
  | .number n => .number n
  | .string s => .string s
  | .array vs => .array vs
termination_by structural v

/-- Members put over the members `below`. -/
def overlayMembers (below : Keyed Value) (members : List (String × Value)) : Keyed Value :=
  match members with
  | [] => below
  | (key, v) :: rest =>
    overlayMembers (Keyed.insert key (overlay ((Keyed.find? key below).getD .null) v) below) rest
termination_by structural members

end

/-! ## 2. Following a path -/

/-- A step of a path. -/
inductive Step where
  | member (key : String)
  /-- An item of a list; a negative number counts from the end of the list. -/
  | item (index : Int)
deriving Repr, DecidableEq

/-- A list that has an item with a number, and the place of the item.  Missing items are null; if
they are missing in front of the list, they are added there. -/
def withItem (items : List Value) (index : Int) : List Value × Nat :=
  let place := if index < 0 then index + items.length else index
  if place < 0 then (List.replicate place.natAbs .null ++ items, 0)
  else (items ++ List.replicate (place.toNat + 1 - items.length) .null, place.toNat)

/-- Puts a value over the one at the end of a path. -/
def assign : List Step → Value → Value → Value
  | [], v, below => overlay below v
  | .member key :: path, v, below =>
    let members := membersOf below
    .object (Keyed.insert key (assign path v ((Keyed.find? key members).getD .null)) members)
  | .item index :: path, v, below =>
    let (items, place) := withItem (itemsOf below) index
    .array (items.set place (assign path v (items.getD place .null)))

/-! ## 3. Reading paths -/

/-- Whether a character may stand in a key of a path. -/
def isPathChar (c : Char) : Bool := c.isAlphanum || c == '_' || c == '-'

/-- Reads a key. -/
def keyStep? (cs : List Char) : Option (String × List Char) :=
  let key := cs.takeWhile isPathChar
  if key.isEmpty then none else some (String.ofList key, cs.dropWhile isPathChar)

/-- Reads the number of an item and the bracket behind it. -/
def itemStep? (cs : List Char) : Option (Int × List Char) :=
  let isSpace := fun c => c == ' ' || c == '\t'
  let cs := cs.dropWhile isSpace
  let (negative, cs) := match cs with
    | '-' :: rest => (true, rest)
    | rest => (false, rest)
  let digits := cs.takeWhile Char.isDigit
  let n := Number.natOfDigits digits
  match (cs.dropWhile Char.isDigit).dropWhile isSpace with
  | ']' :: rest =>
    if digits.isEmpty || Number.twoTo 63 ≤ n then none
    else some (if negative then -(n : Int) else n, rest)
  | _ => none

/-- Reads the steps behind the first key.  Every step takes at least one character, so `steps` may be
the length of the text. -/
def stepsWithin : (steps : Nat) → List Char → Option (List Step)
  | _, [] => some []
  | 0, _ => none
  | steps + 1, '.' :: rest =>
    (keyStep? rest).bind fun (key, rest) => (stepsWithin steps rest).map (.member key :: ·)
  | steps + 1, '[' :: rest =>
    (itemStep? rest).bind fun (index, rest) => (stepsWithin steps rest).map (.item index :: ·)
  | _, _ => none

/-- The path that a text stands for: a key, and behind it further keys after points and numbers of
items between brackets. -/
def path? (text : List Char) : Option (List Step) :=
  (keyStep? text).bind fun (key, rest) => (stepsWithin rest.length rest).map (.member key :: ·)

/-- The path that the key of an entry stands for.  A key that is no path stands for itself. -/
def pathOf (key : String) : List Step := (path? key.toList).getD [.member key]

end Shortlist.Settings
