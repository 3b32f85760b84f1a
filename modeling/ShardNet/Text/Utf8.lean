-- SUMMARY: UTF-8 between characters and bytes, with the place and extent of malformed sequences.
import ShardNet.Bytes

/-!
# UTF-8

`scan` splits a byte string into pieces: well-formed characters, and malformed stretches. A
malformed stretch is as long as a character could have been up to the first byte that rules it
out, and at least one byte; a stretch that the end of the input cuts short is `truncated`.

A byte string is text when every piece is a character: `decode` gives the text, or the first fault.
`decodeLossy` puts one replacement character for each malformed stretch, and `symbols` leaves a hole
there.
-/

namespace ShardNet.Text.Utf8

/-- The bytes of a text. -/
def encode (text : List Char) : Bytes := text.flatMap String.utf8EncodeChar

/-- A stretch of bytes at the front of an input. -/
inductive Piece where
  /-- A well-formed character of `size` bytes. -/
  | char (c : Char) (size : Nat)
  /-- The first `size` bytes begin no character, whatever follows. -/
  | malformed (size : Nat)
  /-- All `size` bytes left are the beginning of a character. -/
  | truncated (size : Nat)
  deriving DecidableEq, Repr

def Piece.size : Piece → Nat
  | .char _ size | .malformed size | .truncated size => size

/-- What the first byte of a longer character announces. -/
structure Lead where
  /-- Number of bytes that follow. -/
  following : Nat
  /-- Bounds of the second byte, narrower than those of the others where the character would be
  overlong, a surrogate or out of range. -/
  low : UInt8
  high : UInt8
  /-- Bits of the first byte. -/
  bits : Nat

def lead? (byte : UInt8) : Option Lead :=
  if 0xC2 ≤ byte ∧ byte ≤ 0xDF then some ⟨1, 0x80, 0xBF, byte.toNat - 0xC0⟩
  else if byte = 0xE0 then some ⟨2, 0xA0, 0xBF, 0⟩
  else if byte = 0xED then some ⟨2, 0x80, 0x9F, 0xD⟩
  else if 0xE1 ≤ byte ∧ byte ≤ 0xEF then some ⟨2, 0x80, 0xBF, byte.toNat - 0xE0⟩
  else if byte = 0xF0 then some ⟨3, 0x90, 0xBF, 0⟩
  else if 0xF1 ≤ byte ∧ byte ≤ 0xF3 then some ⟨3, 0x80, 0xBF, byte.toNat - 0xF0⟩
  else if byte = 0xF4 then some ⟨3, 0x80, 0x8F, 4⟩
  else none

/-- Reads the bytes after the first one. `seen` counts the bytes already read and `bits` holds
their bits. -/
def follow : (following : Nat) → (low high : UInt8) → (seen bits : Nat) → Bytes → Piece
  | 0, _, _, seen, bits, _ => .char (Char.ofNat bits) seen
  | _ + 1, _, _, seen, _, [] => .truncated seen
  | following + 1, low, high, seen, bits, byte :: rest =>
    if low ≤ byte ∧ byte ≤ high then
      follow following 0x80 0xBF (seen + 1) (bits * 64 + (byte.toNat - 0x80)) rest
    else .malformed seen

/-- The piece that begins with `byte`. -/
def piece (byte : UInt8) (rest : Bytes) : Piece :=
  if byte < 0x80 then .char (Char.ofNat byte.toNat) 1
  else match lead? byte with
    | none => .malformed 1
    | some lead => follow lead.following lead.low lead.high 1 lead.bits rest

/-- Splits a byte string into pieces, after skipping `skip` bytes that belong to the piece before.
-/
def scanFrom : (skip : Nat) → Bytes → List Piece
  | _, [] => []
  | skip + 1, _ :: rest => scanFrom skip rest
  | 0, byte :: rest =>
    let head := piece byte rest
    head :: scanFrom (head.size - 1) rest

def scan (bytes : Bytes) : List Piece := scanFrom 0 bytes

/-- The characters of a byte string, with a hole for each malformed stretch. -/
def symbols (bytes : Bytes) : List (Option Char) :=
  (scan bytes).map fun
    | .char c _ => some c
    | .malformed _ | .truncated _ => none

/-- The text of a byte string, with U+FFFD in place of each malformed stretch. -/
def decodeLossy (bytes : Bytes) : List Char :=
  (symbols bytes).map fun symbol => symbol.getD '\uFFFD'

/-- The first malformed stretch of a byte string. -/
structure Fault where
  index : Nat
  /-- Length of the stretch, or `none` where the input ends inside a character. -/
  size : Option Nat
  deriving DecidableEq, Repr

def Fault.message (fault : Fault) : String :=
  match fault.size with
  | some size => s!"invalid utf-8 sequence of {size} bytes from index {fault.index}"
  | none => s!"incomplete utf-8 byte sequence from index {fault.index}"

/-- The characters of pieces, the first of which is at byte `index`, unless one is malformed. -/
def collect (index : Nat) : List Piece → Except Fault (List Char)
  | [] => .ok []
  | .char c size :: rest => (collect (index + size) rest).map (c :: ·)
  | .malformed size :: _ => .error ⟨index, some size⟩
  | .truncated _ :: _ => .error ⟨index, none⟩

/-- The text of a well-formed byte string. -/
def decode (bytes : Bytes) : Except Fault (List Char) := collect 0 (scan bytes)

end ShardNet.Text.Utf8
