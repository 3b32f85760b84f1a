-- SUMMARY: Base64 of byte strings: the writer, a strict and a lenient reader, and their faults.
import ShardNet.Text.Utf8

/-!
# Base64

Four symbols of the standard alphabet for each three bytes; the last group is filled up with `=`.

The strict reader accepts exactly what the writer produces: padding is required, and the bits that a
short last group leaves over must be zero. The lenient reader takes any number of padding symbols at
the end of the last group, and none as well. Both work on the bytes of a text and report the first
fault with its byte position.
-/

namespace ShardNet.Text.Base64

/-- The symbol of a number below 64. -/
def symbol (value : Nat) : Char :=
  if value < 26 then Char.ofNat (0x41 + value)
  else if value < 52 then Char.ofNat (0x61 + (value - 26))
  else if value < 62 then Char.ofNat (0x30 + (value - 52))
  else if value = 62 then '+' else '/'

def encode : Bytes → List Char
  | [] => []
  | [a] => [symbol (a.toNat / 4), symbol (a.toNat % 4 * 16), '=', '=']
  | [a, b] =>
    [symbol (a.toNat / 4), symbol (a.toNat % 4 * 16 + b.toNat / 16), symbol (b.toNat % 16 * 4), '=']
  | a :: b :: c :: rest =>
    symbol (a.toNat / 4) :: symbol (a.toNat % 4 * 16 + b.toNat / 16)
      :: symbol (b.toNat % 16 * 4 + c.toNat / 64) :: symbol (c.toNat % 64) :: encode rest

def text (bytes : Bytes) : String := String.ofList (encode bytes)

/-- Value of a symbol. -/
def value? (byte : UInt8) : Option Nat :=
  if 0x41 ≤ byte ∧ byte ≤ 0x5A then some (byte.toNat - 0x41)
  else if 0x61 ≤ byte ∧ byte ≤ 0x7A then some (byte.toNat - 0x61 + 26)
  else if 0x30 ≤ byte ∧ byte ≤ 0x39 then some (byte.toNat - 0x30 + 52)
  else if byte = 0x2B then some 62
  else if byte = 0x2F then some 63
  else none

/-- How the last group is to be filled up. -/
inductive Padding where
  | required
  | optional
  deriving DecidableEq, Repr

/-- The byte of the padding symbol `=`. -/
def pad : UInt8 := 0x3D

/-- What keeps a text from being base64. -/
inductive Fault where
  | invalidSymbol (byte : UInt8) (index : Nat)
  | invalidLength (length : Nat)
  | invalidPadding
  /-- The last symbol leaves bits over that are not zero. -/
  | invalidLastSymbol (byte : UInt8) (index : Nat)
  deriving DecidableEq, Repr

def Fault.message : Fault → String
  | .invalidSymbol byte index => s!"Invalid symbol {byte.toNat}, offset {index}."
  | .invalidLength length => s!"Invalid input length: {length}"
  | .invalidPadding => "Invalid padding"
  | .invalidLastSymbol byte index => s!"Invalid last symbol {byte.toNat}, offset {index}."

/-- The value of the symbol at byte `index`. -/
def valueAt (index : Nat) (byte : UInt8) : Except Fault Nat :=
  match value? byte with
  | some value => .ok value
  | none => .error (.invalidSymbol byte index)

/-- The last group, taken apart: its symbols with their values, and the number of padding symbols.
`index` is the position of the group and `seen` counts the bytes of it already read. -/
def lastGroup (index seen : Nat) (padded : Nat) : Bytes → Except Fault (List (UInt8 × Nat) × Nat)
  | [] => .ok ([], padded)
  | byte :: rest =>
    if byte = pad then
      -- A group has at least two symbols, so an earlier padding symbol is a bad symbol.
      if seen < 2 then .error (.invalidSymbol byte (index + seen))
      else lastGroup index (seen + 1) (padded + 1) rest
    else if 0 < padded then .error (.invalidSymbol pad (index + (seen - padded)))
    else do
      let value ← valueAt (index + seen) byte
      let (symbols, padded) ← lastGroup index (seen + 1) padded rest
      return ((byte, value) :: symbols, padded)

/-- The bytes of the last group, at position `index`. -/
def decodeLast (padding : Padding) (index : Nat) (group : Bytes) : Except Fault Bytes := do
  let (symbols, padded) ← lastGroup index 0 0 group
  if symbols.length < 2 then throw (.invalidLength (index + symbols.length))
  if padding = .required ∧ (symbols.length + padded) % 4 ≠ 0 then throw .invalidPadding
  match symbols with
  | [(_, a), (last, b)] =>
    if b % 16 ≠ 0 then throw (.invalidLastSymbol last (index + 1))
    return [UInt8.ofNat (a * 4 + b / 16)]
  | [(_, a), (_, b), (last, c)] =>
    if c % 4 ≠ 0 then throw (.invalidLastSymbol last (index + 2))
    return [UInt8.ofNat (a * 4 + b / 16), UInt8.ofNat (b * 16 + c / 4)]
  | (_, a) :: (_, b) :: (_, c) :: (_, d) :: _ =>
    return [UInt8.ofNat (a * 4 + b / 16), UInt8.ofNat (b * 16 + c / 4), UInt8.ofNat (c * 64 + d)]
  | _ => return []

/-- Reads groups of four, the first of them at byte `index`. -/
def decodeGroups (padding : Padding) (index : Nat) : Bytes → Except Fault Bytes
  | a :: b :: c :: d :: next :: rest => do
    let a ← valueAt index a
    let b ← valueAt (index + 1) b
    let c ← valueAt (index + 2) c
    let d ← valueAt (index + 3) d
    let bytes ← decodeGroups padding (index + 4) (next :: rest)
    return UInt8.ofNat (a * 4 + b / 16) :: UInt8.ofNat (b * 16 + c / 4)
      :: UInt8.ofNat (c * 64 + d) :: bytes
  | [] => .ok []
  | group => decodeLast padding index group

/-- The bytes that a text stands for. A bad symbol that makes the last group one byte too long is
reported before anything else. -/
def decode (padding : Padding) (input : List Char) : Except Fault Bytes :=
  let bytes := Utf8.encode input
  match bytes.getLast? with
  | some last =>
    if bytes.length % 4 = 1 ∧ last ≠ pad ∧ (value? last).isNone then
      .error (.invalidSymbol last (bytes.length - 1))
    else decodeGroups padding 0 bytes
  | none => .ok []

end ShardNet.Text.Base64
