import Conformance.Number.Sum
import Conformance.Text.Quoted

/-!
# UTF-8

The encoding of a text as bytes, and the strict reading of bytes as a text. A
refused reading says what is wrong and where, in the words of a byte and its
position, so that a message can name both.
-/

namespace Conformance.Text

/-- The bytes of one character. -/
def encodeChar (c : Char) : List UInt8 :=
  let code := c.toNat
  let byte (n : Nat) : UInt8 := UInt8.ofNat n
  if code < 0x80 then [byte code]
  else if code < 0x800 then [byte (0xC0 + code / 0x40), byte (0x80 + code % 0x40)]
  else if code < 0x10000 then
    [byte (0xE0 + code / 0x1000), byte (0x80 + code / 0x40 % 0x40), byte (0x80 + code % 0x40)]
  else
    [byte (0xF0 + code / 0x40000), byte (0x80 + code / 0x1000 % 0x40),
      byte (0x80 + code / 0x40 % 0x40), byte (0x80 + code % 0x40)]

/-- The bytes of a text. -/
def encode (text : List Char) : List UInt8 := text.flatMap encodeChar

/-- Why bytes are no text. -/
inductive Utf8Fault
  /-- No character begins with this byte. -/
  | invalidStart
  /-- A character is broken off by a byte that does not continue it. -/
  | invalidContinuation
  /-- The bytes end inside a character. -/
  | unexpectedEnd
  deriving Repr, DecidableEq

/-- A refused reading: the fault, the first byte of the character at fault with its
position, and how many bytes belong to the broken character. -/
structure Utf8Error where
  fault : Utf8Fault
  byte : UInt8
  position : Nat
  width : Nat
  deriving Repr, DecidableEq

/-- The words for a fault. -/
def Utf8Fault.message : Utf8Fault → String
  | .invalidStart => "invalid start byte"
  | .invalidContinuation => "invalid continuation byte"
  | .unexpectedEnd => "unexpected end of data"

/-- What is said about bytes that are no text. A broken character of several bytes is
named by its first and last position. -/
def Utf8Error.message (error : Utf8Error) : String :=
  "'utf-8' codec can't decode " ++
    (if error.width = 1 then
      "byte 0x" ++ String.ofList (hexDigits 2 error.byte.toNat) ++ " in position " ++
        toString error.position
    else
      "bytes in position " ++ toString error.position ++ "-" ++
        toString (error.position + error.width - 1)) ++
    ": " ++ error.fault.message

/-- A byte that continues a character, within the bounds given for its place. -/
def continues (low high : Nat) (byte : UInt8) : Bool := low ≤ byte.toNat && byte.toNat ≤ high

/-- The places behind a first byte: the bounds of the bytes that must follow. The
bounds of the second byte exclude overlong forms, surrogates and code points
beyond the last plane. -/
def continuationBounds? (first : UInt8) : Option (List (Nat × Nat)) :=
  let b := first.toNat
  if b < 0x80 then some []
  else if b < 0xC2 then none
  else if b < 0xE0 then some [(0x80, 0xBF)]
  else if b = 0xE0 then some [(0xA0, 0xBF), (0x80, 0xBF)]
  else if b = 0xED then some [(0x80, 0x9F), (0x80, 0xBF)]
  else if b < 0xF0 then some [(0x80, 0xBF), (0x80, 0xBF)]
  else if b = 0xF0 then some [(0x90, 0xBF), (0x80, 0xBF), (0x80, 0xBF)]
  else if b < 0xF4 then some [(0x80, 0xBF), (0x80, 0xBF), (0x80, 0xBF)]
  else if b = 0xF4 then some [(0x80, 0x8F), (0x80, 0xBF), (0x80, 0xBF)]
  else none

/-- The bits that a first byte contributes to its code point. -/
def leadingBits (first : UInt8) : Nat :=
  let b := first.toNat
  if b < 0x80 then b else if b < 0xE0 then b % 0x20 else if b < 0xF0 then b % 0x10 else b % 0x08

/-- Reading in progress: the characters so far, and the open character, if any, with its
first byte and position, its value so far, how many bytes it has, and the bounds still due. -/
structure Decoding where
  opened : Option (UInt8 × Nat × Nat × Nat × List (Nat × Nat))
  position : Nat

/-- Strict reading. The state holds the character that is still open; each byte
either continues it or begins the next one. -/
def decodeFrom : Decoding → List UInt8 → Except Utf8Error (List Char)
  | state, [] =>
    match state.opened with
    | none => .ok []
    | some (first, start, _, width, _) => .error ⟨.unexpectedEnd, first, start, width⟩
  | state, byte :: rest =>
    match state.opened with
    | some (first, start, value, width, (low, high) :: due) =>
      if continues low high byte then
        let value := value * 0x40 + byte.toNat % 0x40
        match due with
        | [] => (decodeFrom ⟨none, state.position + 1⟩ rest).map (Char.ofNat value :: ·)
        | due => decodeFrom ⟨some (first, start, value, width + 1, due), state.position + 1⟩ rest
      else .error ⟨.invalidContinuation, first, start, width⟩
    | _ =>
      match continuationBounds? byte with
      | none => .error ⟨.invalidStart, byte, state.position, 1⟩
      | some [] =>
        (decodeFrom ⟨none, state.position + 1⟩ rest).map (Char.ofNat (leadingBits byte) :: ·)
      | some due =>
        decodeFrom ⟨some (byte, state.position, leadingBits byte, 1, due), state.position + 1⟩ rest

/-- The text that the bytes stand for. -/
def decode (bytes : List UInt8) : Except Utf8Error (List Char) := decodeFrom ⟨none, 0⟩ bytes

/-- How many bytes a character takes. -/
def charWidth (c : Char) : Nat :=
  if c.toNat < 0x80 then 1 else if c.toNat < 0x800 then 2 else if c.toNat < 0x10000 then 3 else 4

/-- How many bytes a text takes. -/
def byteLength (text : List Char) : Nat := Number.total (text.map charWidth)

/-- The rest of a text from a byte position on. -/
def dropBytes : Nat → List Char → List Char
  | 0, text => text
  | _, [] => []
  | count, c :: text => dropBytes (count - charWidth c) text

/-- The part of a text within its first bytes. -/
def takeBytes : Nat → List Char → List Char
  | 0, _ => []
  | _, [] => []
  | count, c :: text => c :: takeBytes (count - charWidth c) text

end Conformance.Text
