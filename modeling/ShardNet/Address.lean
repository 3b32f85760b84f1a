-- SUMMARY: Account addresses: their bech32 text, their order, and the kinds of account their bytes tell apart.
import ShardNet.Text.Bech32
import ShardNet.Text.Decimal
import ShardNet.Text.Hex

/-!
# Addresses

An address is a byte string, valid when it has 32 bytes. Its text is bech32 under the prefix `erd`.

The layout of the bytes tells what lives at an address: a contract begins with eight zeros, and a
contract on the metachain has fifteen more of them in its middle and ends in the mark of the
metachain.
-/

namespace ShardNet

structure Address where
  bytes : Bytes
  deriving DecidableEq, Repr, Inhabited

namespace Address

/-- Number of bytes of a valid address. -/
def size : Nat := 32

/-- The prefix of every address text. -/
def humanPart : String := "erd"

def isValid (address : Address) : Bool := address.bytes.length = size

/-! ## Text -/

/-- What keeps a text from being an address, or an address from having a text. -/
inductive Fault where
  | invalidBech32 (cause : Text.Bech32.Fault)
  | invalidPrefix (actual : String)
  | invalidLength (length : Nat)
  deriving DecidableEq, Repr

def Fault.message : Fault → String
  | .invalidBech32 cause => s!"Invalid bech32 address: {cause.message}"
  | .invalidPrefix actual => s!"Invalid address prefix: expected '{humanPart}', got '{actual}'"
  | .invalidLength length => s!"Invalid address length: expected {size} bytes, got {length}"

/-- Reads the text of a valid address. -/
def ofBech32 (text : String) : Except Fault Address :=
  match Text.Bech32.decode text.toList with
  | .error cause => .error (.invalidBech32 cause)
  | .ok (human, bytes) =>
    if human ≠ humanPart.toList then .error (.invalidPrefix (String.ofList human))
    else if bytes.length ≠ size then .error (.invalidLength bytes.length)
    else .ok ⟨bytes⟩

/-- The text of an address of any length, unless it is too long for bech32. -/
def bech32 (address : Address) : Except Fault String :=
  match Text.Bech32.encode humanPart.toList address.bytes with
  | .error cause => .error (.invalidBech32 cause)
  | .ok text => .ok (String.ofList text)

/-- The text of an address: bech32 where it can be written, hexadecimal otherwise. -/
def text (address : Address) : String :=
  match address.bech32 with
  | .ok text => text
  | .error _ => "0x" ++ Text.Hex.text address.bytes

def description (address : Address) : String := s!"Address({address.text})"

/-! ## Order -/

/-- Addresses compare by their first differing byte, a shorter one before its continuations. -/
def order (a b : Address) : Ordering := List.compareLex compare a.bytes b.bytes

/-- The distinct addresses of a list, in their order. -/
def sortDistinct (addresses : List Address) : List Address :=
  (addresses.mergeSort fun a b => (a.order b).isLE).eraseReps

end Address

/-! ## Layout -/

namespace Address

/-- Bytes at the front of a contract address: zeros, and two that name its machine. -/
def contractHead : Nat := 10

/-- How many bytes of the head name the machine. -/
def machineSize : Nat := 2

/-- Zeros behind the head of a contract on the metachain. -/
def metachainZeros : Nat := 15

/-- Leading bytes that mark the system account. -/
def systemHead : Nat := 30

/-- Whether all bytes are zero. -/
def isZero (bytes : Bytes) : Bool := bytes.all (· = 0)

/-- Whether bytes have the layout of a contract address. -/
def isContract (bytes : Bytes) : Bool :=
  contractHead < bytes.length && (isZero bytes || isZero (bytes.take (contractHead - machineSize)))

/-- Whether bytes are those of the system account. -/
def isSystemAccount (bytes : Bytes) : Bool :=
  systemHead ≤ bytes.length && (bytes.take systemHead).all (· = 0xFF)

/-- Whether an identifier, the end of an address, is the mark of the metachain. -/
def isMetachainMark (identifier : Bytes) : Bool :=
  !identifier.isEmpty && identifier.all (· = 0xFF)

/-- Whether bytes that end in `identifier` have the layout of a contract on the metachain. -/
def isMetachainContract (identifier bytes : Bytes) : Bool :=
  contractHead + metachainZeros < bytes.length && isMetachainMark identifier && isContract bytes
    && isZero ((bytes.drop contractHead).take metachainZeros)

end Address

end ShardNet
