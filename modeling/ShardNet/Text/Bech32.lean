-- SUMMARY: Bech32 text of a byte string under a prefix: writer, and reader for both checksum variants.
import ShardNet.Bytes

/-!
# Bech32

A prefix, the separator `1`, the bytes regrouped to five bits per symbol, and six checksum symbols.
The writer makes bech32 checksums in lowercase and fills the last group up with zero bits. The
reader takes bech32 and bech32m checksums, in lowercase or in uppercase, and drops the bits that
are left over after the last byte, whatever they are.
-/

namespace ShardNet.Text.Bech32

/-- The 32 symbols, in the order of their values. -/
def alphabet : List Char := "qpzry9x8gf2tvdw0s3jn54khce6mua7l".toList

def symbol (value : Nat) : Char := alphabet.getD value 'q'

/-- Value of a symbol, in either case. -/
def value? (c : Char) : Option Nat := alphabet.findIdx? (· == c.toLower)

/-- Greatest number of characters of a bech32 text. -/
def maxLength : Nat := 1023

/-! ## Regrouping bits -/

/-- The lowest `width` bits of a number, most significant first. -/
def bits : (width : Nat) → Nat → List Bool
  | 0, _ => []
  | width + 1, value => value.testBit width :: bits width value

/-- The number whose bits are given, most significant first. -/
def ofBits (bs : List Bool) : Nat := bs.foldl (fun value bit => 2 * value + bit.toNat) 0

/-- Cuts bits into groups of five, the last one filled up with zeros. -/
def quintets : List Bool → List Nat
  | a :: b :: c :: d :: e :: rest => ofBits [a, b, c, d, e] :: quintets rest
  | [] => []
  | short => [ofBits ((short ++ List.replicate 4 false).take 5)]

/-- Cuts bits into bytes and drops what is left over. -/
def octets : List Bool → Bytes
  | a :: b :: c :: d :: e :: f :: g :: h :: rest =>
    UInt8.ofNat (ofBits [a, b, c, d, e, f, g, h]) :: octets rest
  | _ => []

def toQuintets (bytes : Bytes) : List Nat := quintets (bytes.flatMap fun byte => bits 8 byte.toNat)

def ofQuintets (values : List Nat) : Bytes := octets (values.flatMap (bits 5))

/-! ## Checksum -/

/-- The coefficients that the five high bits of the residue bring in. -/
def generator : List Nat := [0x3b6a57b2, 0x26508e6d, 0x1ea119fa, 0x3d4233dd, 0x2a1462b3]

/-- The residue after one more value. -/
def residueStep (residue value : Nat) : Nat :=
  let top := residue >>> 25
  let shifted := ((residue &&& 0x1ffffff) <<< 5) ^^^ value
  (generator.zipIdx).foldl (fun acc (g, i) => if top.testBit i then acc ^^^ g else acc) shifted

def residue (values : List Nat) : Nat := values.foldl residueStep 1

/-- The prefix as values: the high bits of its characters, a zero, and their low bits. -/
def expandPrefix (human : List Char) : List Nat :=
  human.map (fun c => c.toNat >>> 5) ++ 0 :: human.map (fun c => c.toNat &&& 31)

/-- The residue that a bech32 text has. -/
def bech32Residue : Nat := 1

/-- The residue that a bech32m text has. -/
def bech32mResidue : Nat := 0x2bc830a3

/-- The six checksum values of a bech32 text. -/
def checksum (human : List Char) (values : List Nat) : List Nat :=
  let total := residue (expandPrefix human ++ values ++ List.replicate 6 0) ^^^ bech32Residue
  [25, 20, 15, 10, 5, 0].map fun shift => (total >>> shift) &&& 31

/-! ## Text -/

/-- What keeps a text from being bech32, or bytes from having a text. -/
inductive Fault where
  | malformed
  | badChecksum
  | tooLong
  deriving DecidableEq, Repr

def Fault.message : Fault → String
  | .malformed => "parsing failed"
  | .badChecksum => "no valid bech32 or bech32m checksum"
  | .tooLong => "encode error"

/-- The text of bytes under a lowercase prefix. -/
def encode (human : List Char) (bytes : Bytes) : Except Fault (List Char) :=
  let values := toQuintets bytes
  let text := human ++ '1' :: (values ++ checksum human values).map symbol
  if maxLength < text.length then .error .tooLong else .ok text

/-- Splits a text at its last `1`. -/
def split? (text : List Char) : Option (List Char × List Char) :=
  match text.reverse.span (· != '1') with
  | (data, '1' :: human) => some (human.reverse, data.reverse)
  | _ => none

/-- Whether a text has letters of one case only. -/
def isSingleCase (text : List Char) : Bool := !(text.any Char.isUpper && text.any Char.isLower)

/-- Whether a text can stand in front of the separator. -/
def isPrefix (human : List Char) : Bool :=
  !human.isEmpty && human.length ≤ 83 && human.all fun c => 33 ≤ c.toNat && c.toNat ≤ 126

/-- The prefix and the five-bit values of a text, the checksum included. -/
def parse? (text : List Char) : Option (List Char × List Nat) := do
  let (human, data) ← split? text
  let values ← data.mapM value?
  if isPrefix human && isSingleCase text then some (human, values) else none

/-- The prefix of a text, in lowercase, and its bytes. -/
def decode (text : List Char) : Except Fault (List Char × Bytes) :=
  match parse? text with
  | none => .error .malformed
  | some (human, values) =>
    let human := human.map Char.toLower
    let total := residue (expandPrefix human ++ values)
    if values.length < 6 ∨ maxLength < text.length
        ∨ (total ≠ bech32Residue ∧ total ≠ bech32mResidue) then .error .badChecksum
    else .ok (human, ofQuintets (values.take (values.length - 6)))

end ShardNet.Text.Bech32
