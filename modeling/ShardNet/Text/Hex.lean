-- SUMMARY: Hexadecimal text of byte strings: lowercase writer, reader for either case.
import ShardNet.Bytes
import ShardNet.Text.Quoted
import ShardNet.Text.Utf8

/-!
# Hexadecimal

Two digits for each byte, the high half first. The writer uses lowercase digits; the reader takes
either case. The reader works on the bytes of a text, so an odd number of bytes is refused before
any digit is looked at, and a bad digit is reported by its byte.
-/

namespace ShardNet.Text.Hex

/-- The lowercase digit of a number below sixteen. -/
def digit (value : Nat) : Char := Nat.digitChar value

def encode (bytes : Bytes) : List Char :=
  bytes.flatMap fun byte => [digit (byte.toNat / 16), digit (byte.toNat % 16)]

def text (bytes : Bytes) : String := String.ofList (encode bytes)

/-- Value of a digit of either case. -/
def digitValue? (byte : UInt8) : Option Nat :=
  if 0x30 ≤ byte ∧ byte ≤ 0x39 then some (byte.toNat - 0x30)
  else if 0x61 ≤ byte ∧ byte ≤ 0x66 then some (byte.toNat - 0x61 + 10)
  else if 0x41 ≤ byte ∧ byte ≤ 0x46 then some (byte.toNat - 0x41 + 10)
  else none

/-- What keeps a text from being hexadecimal. -/
inductive Fault where
  | oddLength
  | invalidDigit (byte : UInt8) (index : Nat)
  deriving DecidableEq, Repr

def Fault.message : Fault → String
  | .oddLength => "Odd number of digits"
  | .invalidDigit byte index =>
    s!"Invalid character {Quoted.char (Char.ofNat byte.toNat)} at position {index}"

/-- Reads pairs of digits, the first of them at byte `index`. -/
def decodePairs (index : Nat) : Bytes → Except Fault Bytes
  | [] => .ok []
  | [_] => .error .oddLength
  | high :: low :: rest =>
    match digitValue? high, digitValue? low with
    | none, _ => .error (.invalidDigit high index)
    | some _, none => .error (.invalidDigit low (index + 1))
    | some h, some l => (decodePairs (index + 2) rest).map (UInt8.ofNat (16 * h + l) :: ·)

/-- The bytes that a text stands for. -/
def decode (input : List Char) : Except Fault Bytes :=
  let digits := Utf8.encode input
  if digits.length % 2 = 1 then .error .oddLength else decodePairs 0 digits

end ShardNet.Text.Hex
