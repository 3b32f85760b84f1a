-- SUMMARY: Ed25519 signatures: public keys, signing and verification.
import ShardNet.Crypto.Edwards
import ShardNet.Crypto.Sha512

/-!
# Ed25519

A seed of 32 bytes gives a secret scalar and a secret tag; the public key is the multiple of the
base point by the scalar. Signing is deterministic: the tag and the message give the scalar `r`, the
signature is the point `R = r·B` followed by the scalar `S = r + k·s`, where `k` is a hash of `R`,
of the public key and of the message.

Verification computes `S·B - k·A` and compares its bytes with those of `R`. It takes any public key
that is a point, one of small order included, and refuses an `S` that is not below the group order.
-/

namespace ShardNet.Crypto.Ed25519

-- A power is that of the core library, whatever is imported beside it.
attribute [local instance (2000)] instPowNat

open Edwards (Point)

/-- The order of the base point. -/
def order : Nat := 2 ^ (252 : Nat) + 27742317777372353535851937790883648493

def seedLength : Nat := 32

def signatureLength : Nat := 64

/-- The scalar that a hash stands for. -/
def hashScalar (bytes : Bytes) : Nat := Bytes.toNatLE (Sha512.hash bytes) % order

/-- Makes a scalar of 32 bytes: a multiple of eight with its top bit at place 254. -/
def clamp (bytes : Bytes) : Nat := bytes.toNatLE % 2 ^ (254 : Nat) / 8 * 8 + 2 ^ (254 : Nat)

/-- The secret scalar of a seed. -/
def secretScalar (seed : Bytes) : Nat := clamp ((Sha512.hash seed).take 32)

/-- The secret tag of a seed. -/
def secretTag (seed : Bytes) : Bytes := (Sha512.hash seed).drop 32

/-- A multiple of the base point. -/
def baseMultiple (scalar : Nat) : Point := Point.base.multiple 255 scalar

def publicKey (seed : Bytes) : Bytes := (baseMultiple (secretScalar seed)).compress

/-- The scalar that ties a signature to its key and message. -/
def challenge (point key message : Bytes) : Nat := hashScalar (point ++ key ++ message)

def sign (seed message : Bytes) : Bytes :=
  let nonce := hashScalar (secretTag seed ++ message)
  let point := (baseMultiple nonce).compress
  let scalar := (nonce + challenge point (publicKey seed) message * secretScalar seed) % order
  point ++ Bytes.ofNatLE 32 scalar

def verify (key message signature : Bytes) : Bool :=
  let point := signature.take 32
  let scalar := Bytes.toNatLE (signature.drop 32)
  match Point.decompress? key with
  | none => false
  | some keyPoint =>
    signature.length = signatureLength && scalar < order &&
      (baseMultiple scalar + -(keyPoint.multiple 253 (challenge point key message))).compress =
        point

end ShardNet.Crypto.Ed25519
