import Shortlist.Json.Reader
import Shortlist.Record.Codec

/-!
# Record files

A record file is a sequence of JSON arrays, one behind the other with or without blanks between
them, as it comes about when batches are appended to a file.  Items that do not describe a record
are left out; the first value that is not an array, and the first fault of the JSON text, make the
whole file unreadable.
-/

namespace Shortlist.Record

open Json (Value)

/-! ## 1. Errors -/

/-- Why the records of a file could not be read. -/
inductive LoadError where
  /-- There is no such file, or it is not text. -/
  | unreadable
  /-- The text is not JSON. -/
  | invalidJson (fault : Json.Fault)
  /-- A value of the sequence is not an array. -/
  | notAnArray
deriving Repr, DecidableEq

/-- The wording of an error in the content. -/
def LoadError.message : LoadError → String
  | .unreadable => "无法读取记录文件"
  | .invalidJson fault => "记录数据不是有效的JSON: " ++ fault.message
  | .notAnArray => "记录数据的顶层必须是数组"

/-! ## 2. The sequence of values -/

/-- The brackets and quotes that show where their value ends. -/
def delimitsItself (c : Char) : Bool := c == '[' || c == '{' || c == '"'

/-- Whether a number or a word may be followed by this text. -/
def mayFollow : List Char → Bool
  | [] => true
  | c :: _ => Json.isSpace c || ['"', '[', ']', '{', '}', ',', ':'].contains c

/-- Reads the next value of a sequence, from a text without blanks in front.  A number or a word has
to end where it is seen to end. -/
def nextValue (cs : List Char) : Json.Reading Value :=
  Json.Reading.andThen (Json.value cs) fun v rest =>
    if (cs.head?.any delimitsItself) || mayFollow rest then .ok (v, rest)
    else .error .trailingCharacters

/-- The records of all arrays of a sequence.  Every value takes at least one character, so `steps`
may be the length of the text. -/
def parseWithin : (steps : Nat) → List Char → Except LoadError (List Record)
  | 0, _ => .ok []
  | steps + 1, cs =>
    match Json.skipSpace cs with
    | [] => .ok []
    | text =>
      match nextValue text with
      | .error fault => .error (.invalidJson fault)
      | .ok (.array items, rest) =>
        (parseWithin steps rest).map fun records => items.filterMap ofJson? ++ records
      | .ok _ => .error .notAnArray

/-- The records that a text describes. -/
def parse (text : String) : Except LoadError (List Record) :=
  parseWithin text.toList.length text.toList

/-! ## 3. Files -/

/-- The records of a file, given its content if there is such a file. -/
def load (content : Option ByteArray) : Except LoadError (List Record) :=
  match content.bind String.fromUTF8? with
  | none => .error .unreadable
  | some text => parse text

/-- The records of a file, none if it cannot be read. -/
def loadOrEmpty (content : Option ByteArray) : List Record :=
  match load content with
  | .ok records => records
  | .error _ => []

end Shortlist.Record
