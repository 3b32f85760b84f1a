-- SUMMARY: Secret keys: reading them, their address, and signing bytes and transactions.
import ShardNet.Address
import ShardNet.Crypto.Ed25519
import ShardNet.Text.Blank
import ShardNet.Transaction

/-!
# Secret keys

A secret key is a seed of 32 bytes. Some files keep the public key behind the seed; of such 64 bytes
only the seed counts. The address of a key is its public key.

A key signs a transaction only if the sender is its own address.
-/

namespace ShardNet

open Crypto

structure SecretKey where
  seed : Bytes
  length_seed : seed.length = Ed25519.seedLength

namespace SecretKey

/-- What keeps bytes or a text from being a secret key. -/
inductive Fault where
  | invalidHex (cause : Text.Hex.Fault)
  | invalidLength (length : Nat)
  deriving DecidableEq, Repr

def Fault.message : Fault → String
  | .invalidHex cause => s!"Invalid hex encoding: {cause.message}"
  | .invalidLength length => s!"Invalid key length: expected 32 or 64 bytes, got {length}"

/-- The key of a seed, or of a seed and its public key. -/
def ofBytes (bytes : Bytes) : Except Fault SecretKey :=
  if h : bytes.length = Ed25519.seedLength ∨ bytes.length = 2 * Ed25519.seedLength then
    .ok ⟨bytes.take Ed25519.seedLength, by rw [List.length_take]; omega⟩
  else .error (.invalidLength bytes.length)

/-- Reads a key in hexadecimal, possibly between blanks. -/
def ofHex (text : String) : Except Fault SecretKey :=
  match Text.Hex.decode (Text.trim text.toList) with
  | .error cause => .error (.invalidHex cause)
  | .ok bytes => ofBytes bytes

def publicKey (key : SecretKey) : Bytes := Ed25519.publicKey key.seed

def address (key : SecretKey) : Address := ⟨key.publicKey⟩

def sign (key : SecretKey) (message : Bytes) : Bytes := Ed25519.sign key.seed message

/-- Shows a key by its public half. -/
def description (key : SecretKey) : String := s!"SecretKey(public: {Text.Hex.text key.publicKey})"

/-- Shows a key in its role of a signer of messages. -/
def signingDescription (key : SecretKey) : String :=
  "SigningKey \x7b public_key: " ++ Text.Quoted.text (Text.Hex.text key.publicKey) ++ " \x7d"

end SecretKey

/-! ## Signing transactions -/

/-- What keeps a key from signing a transaction. -/
inductive SigningFault where
  | senderMismatch (signer sender : String)
  | failed (cause : Address.Fault)
  deriving DecidableEq, Repr

def SigningFault.message : SigningFault → String
  | .senderMismatch signer sender =>
    s!"Signer address {signer} does not match transaction sender {sender}"
  | .failed cause => s!"Signing failed: {cause.message}"

/-- The transaction with the signature of a key, whatever signature it had. -/
def SecretKey.signTransaction (key : SecretKey) (tx : Transaction) :
    Except SigningFault Transaction :=
  match key.address.bech32 with
  | .error cause => .error (.failed cause)
  | .ok own =>
    if tx.sender ≠ own then .error (.senderMismatch own tx.sender)
    else .ok { tx with signature := Text.Hex.text (key.sign tx.signingPayload) }

/-- A key, and the address it is used for. -/
structure Signer where
  address : Address
  key : SecretKey

namespace Signer

/-- A key with its own address. -/
def ofKey (key : SecretKey) : Signer := ⟨key.address, key⟩

def description (signer : Signer) : String :=
  "InMemorySigner \x7b address: " ++ signer.address.description ++ " \x7d"

end Signer

end ShardNet
