-- SUMMARY: A transaction is read back from the text it travels in, and the bytes that are signed determine it.
import ShardNet.Proofs.Json.Record
import ShardNet.Transaction

/-!
# Transactions and their signed bytes

Five fields of a transaction may be left out of its text. Each is left out exactly when it has the
value that stands in for it, so nothing is lost: the text determines the transaction, and the signed
bytes determine all of it but its signature.
-/

namespace ShardNet.Transaction

open Json (Codec Record)

theorem lawful_codec {depth : Nat} : codec.Lawful (depth + 1) :=
  Record.Builds.lawful
    (Record.builds_of Transaction.mk
      |>.required (by decide) Codec.lawful_uint64
      |>.required (by decide) Codec.lawful_text
      |>.required (by decide) Codec.lawful_text
      |>.required (by decide) Codec.lawful_text
      |>.omitted (by decide) Codec.lawful_uint64
      |>.omitted (by decide) Codec.lawful_uint64
      |>.omitted (by decide) Codec.lawful_bytes
      |>.omitted (by decide) Codec.lawful_text
      |>.required (by decide) Codec.lawful_text
      |>.required (by decide) Codec.lawful_uint32
      |>.omitted (by decide) Codec.lawful_uint32)
    (fun _ => rfl) fun _ => by simp

/-- A transaction is read back from its text. -/
theorem parse_wire (tx : Transaction) : (Json.parse? tx.wire).bind codec.read? = some tx :=
  Codec.Lawful.parse lawful_codec tx

theorem wire_injective {tx other : Transaction} (hsame : tx.wire = other.wire) : tx = other :=
  Codec.Lawful.write_injective lawful_codec hsame

/-- The signed bytes determine the transaction without its signature. -/
theorem unsigned_eq_of_signingPayload {tx other : Transaction}
    (hsame : tx.signingPayload = other.signingPayload) :
    { tx with signature := "" } = { other with signature := "" } :=
  wire_injective (Text.Utf8.encode_injective hsame)

/-- A transaction is what its text is read back as; its signature has no part in the signed bytes,
and every other field has. -/
theorem signingPayload_binds :
    (∀ tx : Transaction, (Json.parse? tx.wire).bind codec.read? = some tx) ∧
    (∀ (tx : Transaction) (signature : String), { tx with signature }.signingPayload =
      Text.Utf8.encode { tx with signature := "" }.wire) ∧
    ∀ tx other : Transaction, tx.signingPayload = other.signingPayload ↔
      tx.nonce = other.nonce ∧ tx.value = other.value ∧ tx.receiver = other.receiver ∧
      tx.sender = other.sender ∧ tx.gasPrice = other.gasPrice ∧ tx.gasLimit = other.gasLimit ∧
      tx.data = other.data ∧ tx.chainId = other.chainId ∧ tx.version = other.version ∧
      tx.options = other.options := by
  refine ⟨parse_wire, fun _ _ => rfl, fun tx other => ⟨fun hsame => ?_, ?_⟩⟩
  · have hunsigned := unsigned_eq_of_signingPayload hsame
    simp only [Transaction.mk.injEq, true_and] at hunsigned
    exact hunsigned
  · rintro ⟨hnonce, hvalue, hreceiver, hsender, hprice, hlimit, hdata, hchain, hversion, hoptions⟩
    simp only [signingPayload, signingText, hnonce, hvalue, hreceiver, hsender, hprice,
      hlimit, hdata, hchain, hversion, hoptions]

end ShardNet.Transaction
