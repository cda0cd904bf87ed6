import Shortlist.Number.Hexadecimal
import Shortlist.Number.Written

/-!
# Socket addresses

The address of a socket is that of a host and a port.  `ofText?` reads the usual notations,
`192.0.2.1:80` and `[2001:db8::1]:80`, and `text` writes the canonical one: lower case, no needless
zeros, and the longest run of zero groups left out.
-/

namespace Shortlist

/-- The address of a host. -/
inductive HostAddress where
  /-- Four bytes. -/
  | v4 (bytes : List UInt8)
  /-- Eight groups of two bytes, and a zone among those of the machine. -/
  | v6 (groups : List UInt16) (zone : UInt32)
deriving Repr, DecidableEq

/-- The address of a socket. -/
structure SocketAddress where
  host : HostAddress
  port : UInt16
deriving Repr, DecidableEq

namespace SocketAddress

/-! ## 1. Parts of an address -/

/-- What a reader returns: a value and the rest of the text. -/
abbrev Reading (α : Type) := Option (α × List Char)

/-- The text behind a character, if that stands in front. -/
def behind? (c : Char) : List Char → Option (List Char)
  | d :: rest => if d == c then some rest else none
  | [] => none

/-- Reads a decimal number of at most `limit`. -/
def decimal (limit : Nat) (cs : List Char) : Reading Nat :=
  (Number.digits? (cs.takeWhile Char.isDigit)).bind fun n =>
    if n ≤ limit then some (n, cs.dropWhile Char.isDigit) else none

/-- Reads a byte: no needless zeros. -/
def byte (cs : List Char) : Reading UInt8 :=
  let digits := cs.takeWhile Char.isDigit
  if digits.head? == some '0' && digits.length != 1 then none
  else (decimal 255 cs).map fun (n, rest) => (UInt8.ofNat n, rest)

/-- Reads `more` bytes behind points, each with its point. -/
def pointedBytes : (more : Nat) → List Char → Reading (List UInt8)
  | 0, cs => some ([], cs)
  | more + 1, cs =>
    (behind? '.' cs).bind fun rest =>
      (byte rest).bind fun (b, rest) =>
        (pointedBytes more rest).map fun (bs, rest) => (b :: bs, rest)

/-- Reads four bytes with points between them. -/
def fourBytes (cs : List Char) : Reading (List UInt8) :=
  (byte cs).bind fun (b, rest) => (pointedBytes 3 rest).map fun (bs, rest) => (b :: bs, rest)

/-- Whether a character is a digit of base sixteen. -/
def isHex (c : Char) : Bool := (Number.hexValue? c).isSome

/-- Reads a group: one to four digits of base sixteen. -/
def group (cs : List Char) : Reading UInt16 :=
  let digits := cs.takeWhile isHex
  if digits.isEmpty || 4 < digits.length then none
  else (Number.hexNumber? digits).map fun n => (UInt16.ofNat n, cs.dropWhile isHex)

/-- The groups of a list of bytes. -/
def groupsOfBytes : List UInt8 → List UInt16
  | a :: b :: rest => UInt16.ofNat (256 * a.toNat + b.toNat) :: groupsOfBytes rest
  | _ => []

/-- Reads groups with colons between them for as long as there are any and there is room for them.
Four bytes may stand in place of the last two groups; the answer tells whether they did. -/
def groups (first : Bool) : (room : Nat) → List Char → (List UInt16 × Bool) × List Char
  | 0, cs => (([], false), cs)
  | room + 1, cs =>
    match if first then some cs else behind? ':' cs with
    | none => (([], false), cs)
    | some text =>
      match if 0 < room then fourBytes text else none with
      | some (bytes, rest) => ((groupsOfBytes bytes, true), rest)
      | none =>
        match group text with
        | none => (([], false), cs)
        | some (g, rest) =>
          let ((gs, bytes), rest) := groups false room rest
          ((g :: gs, bytes), rest)

/-- Reads eight groups; in one place two colons may stand for one or more groups of zero, but not
behind four bytes. -/
def eightGroups (cs : List Char) : Reading (List UInt16) :=
  let ((front, bytes), rest) := groups true 8 cs
  if front.length = 8 then some (front, rest)
  else if bytes then none
  else (behind? ':' rest).bind fun rest =>
    (behind? ':' rest).map fun rest =>
      let ((back, _), rest) := groups true (7 - front.length) rest
      (front ++ List.replicate (8 - front.length - back.length) 0 ++ back, rest)

/-- Reads a zone behind its sign; none at all means zone 0. -/
def zone (cs : List Char) : UInt32 × List Char :=
  match (behind? '%' cs).bind (decimal (Number.twoTo 32 - 1)) with
  | some (n, rest) => (UInt32.ofNat n, rest)
  | none => (0, cs)

/-! ## 2. Reading -/

/-- The port that is the rest of a text, behind its colon. -/
def port? (cs : List Char) : Option UInt16 :=
  (behind? ':' cs).bind fun rest =>
    (decimal 65535 rest).bind fun (n, rest) =>
      if rest.isEmpty then some (UInt16.ofNat n) else none

/-- The address that a text gives in its four byte form. -/
def ofBytesText? (cs : List Char) : Option SocketAddress :=
  (fourBytes cs).bind fun (bytes, rest) =>
    (port? rest).map fun port => ⟨.v4 bytes, port⟩

/-- The address that a text gives in its bracketed form. -/
def ofGroupsText? (cs : List Char) : Option SocketAddress :=
  (behind? '[' cs).bind fun rest =>
    (eightGroups rest).bind fun (gs, rest) =>
      let (zone, rest) := zone rest
      (behind? ']' rest).bind fun rest =>
        (port? rest).map fun port => ⟨.v6 gs zone, port⟩

/-- The address that a text gives. -/
def ofText? (s : String) : Option SocketAddress :=
  match ofBytesText? s.toList with
  | some a => some a
  | none => ofGroupsText? s.toList

/-! ## 3. Writing -/

/-- A number in decimal. -/
def decimalText (n : Nat) : String := String.ofList (Number.decimalDigits n)

/-- Four bytes with points between them. -/
def bytesText (bytes : List UInt8) : String :=
  String.intercalate "." (bytes.map fun b => decimalText b.toNat)

/-- Groups with colons between them. -/
def groupsText (gs : List UInt16) : String :=
  String.intercalate ":" (gs.map fun g => String.ofList (Nat.toDigits 16 g.toNat))

/-- The place and length of the longest run of zero groups; of several the first one. -/
def longestZeros (place : Nat) : List UInt16 → Nat × Nat
  | [] => (place, 0)
  | g :: gs =>
    let here := ((g :: gs).takeWhile (· == 0)).length
    let later := longestZeros (place + 1) gs
    if later.2 ≤ here then (place, here) else later

/-- The canonical text of eight groups.  A group of zero that stands alone is written, and four
bytes are when the groups before them say that this is what the address is. -/
def eightGroupsText (gs : List UInt16) : String :=
  match gs with
  | [0, 0, 0, 0, 0, 0xFFFF, g, h] =>
    "::ffff:" ++ bytesText [UInt8.ofNat (g.toNat / 256), UInt8.ofNat (g.toNat % 256),
      UInt8.ofNat (h.toNat / 256), UInt8.ofNat (h.toNat % 256)]
  | _ =>
    let (place, count) := longestZeros 0 gs
    if 1 < count then
      groupsText (gs.take place) ++ "::" ++ groupsText (gs.drop (place + count))
    else groupsText gs

/-- The canonical text of an address. -/
def text (a : SocketAddress) : String :=
  let host := match a.host with
    | .v4 bytes => bytesText bytes
    | .v6 gs zone =>
      "[" ++ eightGroupsText gs ++ (if zone = 0 then "" else "%" ++ decimalText zone.toNat) ++ "]"
  host ++ ":" ++ decimalText a.port.toNat

end SocketAddress

end Shortlist
