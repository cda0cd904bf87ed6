import Shortlist.Json.Reader
import Shortlist.Settings.Entry
import Shortlist.Settings.Path
import Shortlist.Text.Search
import Shortlist.Toml.Reader

/-!
# Layers of the settings

The settings are a tree of tables, put together in layers: the built-in values, the file `default`,
the file of the environment that the program runs in, and variables of the process.  A later layer
adds to the tables of an earlier one and replaces everything else.
-/

namespace Shortlist.Settings

open Json (Value)

/-! ## 1. Layers -/

/-- Puts the entries of a layer over a tree. -/
def addLayer (entries : List (String × Value)) (tree : Value) : Value :=
  entries.foldl (fun tree entry => assign (pathOf entry.1) entry.2 tree) tree

/-! ## 2. Built-in values -/

/-- A decimal with one place. -/
def tenths (n : Nat) : Value := .number (.real (Number.Binary64.ofDecimal false n (-1)))

/-- A whole number. -/
def whole (n : Nat) : Value := .number (.integer n)

/-- The values of all that has to be set. -/
def builtIn : List (String × Value) :=
  [("fetch.random_delay_min", tenths 10), ("fetch.random_delay_max", tenths 30),
    ("fetch.timeout", tenths 300), ("fetch.concurrency", whole 4),
    ("retry.max_attempts", whole 3), ("retry.base_delay", tenths 10),
    ("retry.max_delay", tenths 600), ("retry.jitter_fraction", tenths 5),
    ("retry.retryable_status_codes", .array ([403, 429, 500, 502, 503, 504].map whole)),
    ("proxy.failure_threshold", whole 3), ("proxy.strategy", .string "random")]

/-! ## 3. Files -/

/-- Files by their names. -/
abbrev Files := String → Option ByteArray

/-- The formats of settings files. -/
inductive Format where
  | toml
  | json
deriving Repr, DecidableEq

namespace Format

/-- All formats, the preferred one first. -/
def all : List Format := [.toml, .json]

/-- The ending of the names of such files. -/
def extension : Format → String
  | .toml => "toml"
  | .json => "json"

/-- The format that the ending of a name tells; a name that begins with its only point has no
ending. -/
def ofName? (name : String) : Option Format :=
  match (Text.splitAt '.' name.toList).reverse with
  | ending :: stem :: more =>
    if more.isEmpty && stem.isEmpty then none
    else all.find? (·.extension.toList == ending)
  | _ => none

/-- The entries that a text in this format holds. -/
def entries? (text : List Char) : Format → Option (Keyed Value)
  | .toml => Toml.ofText text
  | .json =>
    match Json.ofText text with
    | .ok (.object members) => some members
    | _ => none

end Format

/-- A name with the ending of a format. -/
def Format.fileName (name : String) (format : Format) : String := name ++ "." ++ format.extension

/-- The file of a layer: the one with exactly its name if there is one, which must then tell its
format, else the one with an ending, where TOML comes first. -/
def fileOf? (files : Files) (name : String) : Option (Format × ByteArray) :=
  match files name with
  | some content => (Format.ofName? name).map (·, content)
  | none => Format.all.findSome? fun format => (files (format.fileName name)).map (format, ·)

/-- The names of all files that a layer looks for. -/
def fileNames (name : String) : List String := name :: Format.all.map (·.fileName name)

/-- The text of a file without the mark that some editors put in front of it. -/
def textOfFile? (content : ByteArray) : Option (List Char) :=
  (String.fromUTF8? content).map fun s =>
    match s.toList with
    | '\ufeff' :: rest => rest
    | cs => cs

/-- The entries of a file layer.  There need not be a file, but one that is there has to be
readable. -/
def fileEntries? (files : Files) (name : String) : Option (Keyed Value) :=
  match fileOf? files name with
  | none => some []
  | some (format, content) => (textOfFile? content).bind fun text => format.entries? text

/-! ## 4. Variables -/

/-- The variables of a process: names and values. -/
abbrev Variables := List (String × String)

/-- The beginning of the names of the variables that set something. -/
def variableMark : List Char := "jobsieve__".toList

/-- The keys whose variables hold lists. -/
def listKeys : List String := ["run.seed_urls", "retry.retryable_status_codes"]

/-- A text with a point in place of every two underscores. -/
def pointed : List Char → List Char
  | '_' :: '_' :: rest => '.' :: pointed rest
  | c :: rest => c :: pointed rest
  | [] => []

/-- What the value of a variable stands for: yes or no, a number, a list of texts between commas for
some keys, or a text. -/
def variableValue (key value : String) : Value :=
  match Text.lower value with
  | "true" => .bool true
  | "false" => .bool false
  | _ =>
    match Number.integer? value.toList, Number.real? value.toList with
    | some n, _ => .number (.integer n)
    | none, some x => .number (.real x)
    | none, none =>
      if listKeys.contains key then
        .array ((Text.splitAt ',' value.toList).map fun part => .string (String.ofList part))
      else .string value

/-- The entry that a variable sets.  The case of its name does not count. -/
def entryOfVariable? : String × String → Option (String × Value)
  | (name, value) =>
    let lowered := Text.lowerChars name.toList
    if variableMark.isPrefixOf lowered then
      let key := String.ofList (pointed (lowered.drop variableMark.length))
      some (key, variableValue key value)
    else none

/-- The variables that a system lists as `name=value`, with a zero byte behind each. -/
def variablesOfList (text : List Char) : Variables :=
  (Text.splitAt '\x00' text).filterMap fun entry =>
    match entry.dropWhile (· != '=') with
    | _ :: value => some (String.ofList (entry.takeWhile (· != '=')), String.ofList value)
    | [] => none

/-- The name of the file for the environment that the program runs in. -/
def environmentName (vars : Variables) : String :=
  ((vars.find? (·.1 == "APP_ENVIRONMENT")).map Prod.snd).getD "default"

/-! ## 5. All layers -/

/-- The tree of all settings, or the name of the file that cannot be read. -/
def treeOf (files : Files) (vars : Variables) : Except String Value :=
  let environment := environmentName vars
  match fileEntries? files "default", fileEntries? files environment with
  | none, _ => .error "default"
  | some _, none => .error environment
  | some base, some special =>
    .ok (addLayer (vars.filterMap entryOfVariable?)
      (addLayer special (addLayer base (addLayer builtIn .null))))

end Shortlist.Settings
