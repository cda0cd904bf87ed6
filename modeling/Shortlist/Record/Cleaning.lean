import Shortlist.Record.Basic
import Shortlist.Text.Blank

/-!
# Cleaning

Cleaning trims every text of a record: the fixed fields, and every string inside the extras at any
depth.  Keys, numbers, flags and the shape of arrays and objects stay as they are.
-/

namespace Shortlist

namespace Json.Value

mutual

/-- Changes every string of a value; keys are left alone. -/
def mapStrings (f : String → String) : Value → Value
  | .string s => .string (f s)
  | .array items => .array (mapItemStrings f items)
  | .object members => .object (mapMemberStrings f members)
  | v => v

/-- Changes every string of the items. -/
def mapItemStrings (f : String → String) : List Value → List Value
  | [] => []
  | v :: vs => mapStrings f v :: mapItemStrings f vs

/-- Changes every string of the members' values. -/
def mapMemberStrings (f : String → String) : List (String × Value) → List (String × Value)
  | [] => []
  | (k, v) :: ms => (k, mapStrings f v) :: mapMemberStrings f ms

end

end Json.Value

/-- The record with all its texts trimmed. -/
def Record.clean (r : Record) : Record :=
  { r.mapTexts Text.trim with
    extras := Json.Value.mapMemberStrings Text.trim r.extras }

end Shortlist
