-- SUMMARY: What a key signs, what it refuses, and what the signature of a transaction is.
import ShardNet.Key
import ShardNet.Proofs.Address
import ShardNet.Proofs.Text.Hex
import ShardNet.Proofs.Transaction

/-!
# Signed transactions

A key signs the transactions whose sender is its own address, and changes nothing but the signature.
The bytes that are signed leave the signature out, so they are the same before and after, and a
transaction that is signed once more gets the signature that it has.
-/

namespace ShardNet

open Crypto

variable {key : SecretKey} {tx signed : Transaction} {own : String}

/-- The signature is no part of the bytes that are signed. -/
theorem Transaction.signingPayload_of_signature (tx : Transaction) (signature : String) :
    { tx with signature }.signingPayload = tx.signingPayload := rfl

namespace SecretKey

theorem isValid_address : key.address.isValid :=
  decide_eq_true (Bytes.length_ofNatLE 32 _)

theorem signTransaction_eq_ok_iff : key.signTransaction tx = .ok signed ↔
    key.address.bech32 = .ok tx.sender ∧
      signed = { tx with signature := Text.Hex.text (key.sign tx.signingPayload) } := by
  unfold signTransaction
  cases key.address.bech32 with
  | error cause => exact iff_of_false nofun (nomatch ·.1)
  | ok own =>
      by_cases hsender : tx.sender = own
      · subst hsender
        simp only [ne_eq, not_true_eq_false, if_false, Except.ok.injEq, true_and]
        exact eq_comm
      · simp only [ne_eq, hsender, not_false_eq_true, if_true, Except.ok.injEq]
        exact iff_of_false nofun fun h => hsender h.1.symm

theorem signingPayload_of_signed (hsigned : key.signTransaction tx = .ok signed) :
    signed.signingPayload = tx.signingPayload := by
  obtain ⟨-, hsame⟩ := signTransaction_eq_ok_iff.1 hsigned
  exact (congrArg Transaction.signingPayload hsame).trans (tx.signingPayload_of_signature _)

theorem decode_signature (hsigned : key.signTransaction tx = .ok signed) :
    Text.Hex.decode signed.signature.toList = .ok (key.sign signed.signingPayload) := by
  obtain ⟨-, hsame⟩ := signTransaction_eq_ok_iff.1 hsigned
  have hsignature : signed.signature = Text.Hex.text (key.sign tx.signingPayload) :=
    congrArg Transaction.signature hsame
  rw [signingPayload_of_signed hsigned, hsignature, Text.Hex.decode_text]

theorem signTransaction_mismatch (hown : key.address.bech32 = .ok own) (hother : tx.sender ≠ own) :
    key.signTransaction tx = .error (.senderMismatch own tx.sender) := by
  simp only [signTransaction, hown, if_pos hother]

/-- What is signed does not depend on the signature that is there already. -/
theorem signTransaction_of_signature (key : SecretKey) (tx : Transaction) (signature : String) :
    key.signTransaction { tx with signature } = key.signTransaction tx := rfl

/-- Signing once more changes nothing. -/
theorem signTransaction_signed (hsigned : key.signTransaction tx = .ok signed) :
    key.signTransaction signed = .ok signed := by
  obtain ⟨-, hsame⟩ := signTransaction_eq_ok_iff.1 hsigned
  calc
    key.signTransaction signed = key.signTransaction tx := by
      rw [hsame, signTransaction_of_signature]
    _ = .ok signed := hsigned

theorem length_sign (key : SecretKey) (message : Bytes) :
    (key.sign message).length = Ed25519.signatureLength := by
  show (Edwards.Point.compress _ ++ Bytes.ofNatLE 32 _).length = 64
  rw [List.length_append, Edwards.Point.compress, Bytes.length_ofNatLE, Bytes.length_ofNatLE]

/-- A key signs a transaction exactly if the sender is its own address, and refuses it with both
addresses otherwise; a refusal makes no transaction. What is signed differs in the signature only,
which has 128 lowercase digits and is accepted for the bytes that are signed, as far as verification
accepts what the key signs. The signature that was there before makes no difference, so signing once
more changes nothing. -/
theorem signTransaction_signs (key : SecretKey) (tx : Transaction) :
    ∃ own, Address.bech32 ⟨key.publicKey⟩ = .ok own ∧
      ((∃ signed, key.signTransaction tx = .ok signed) ↔ tx.sender = own) ∧
      (tx.sender ≠ own → key.signTransaction tx = .error (.senderMismatch own tx.sender)) ∧
      (∀ signed, key.signTransaction tx = .ok signed →
        signed = { tx with signature := signed.signature } ∧
        signed.signature.length = 128 ∧
        (∀ c ∈ signed.signature.toList, c ∈ "0123456789abcdef".toList) ∧
        (∃ signature, Text.Hex.decode signed.signature.toList = .ok signature ∧
          (Ed25519.verify key.publicKey tx.signingPayload (key.sign tx.signingPayload) →
            Ed25519.verify key.publicKey tx.signingPayload signature ∧
            Ed25519.verify key.publicKey signed.signingPayload signature)) ∧
        key.signTransaction signed = .ok signed) ∧
      ∀ signature, key.signTransaction { tx with signature } = key.signTransaction tx := by
  obtain ⟨own, hown⟩ := Address.exists_bech32 key.isValid_address
  refine ⟨own, hown, ⟨?_, ?_⟩, signTransaction_mismatch hown, fun signed hsigned => ?_,
    key.signTransaction_of_signature tx⟩
  · rintro ⟨signed, hsigned⟩
    have hsender := (signTransaction_eq_ok_iff.1 hsigned).1
    exact Except.ok.inj (hsender.symm.trans hown)
  · rintro rfl
    exact ⟨_, signTransaction_eq_ok_iff.2 ⟨hown, rfl⟩⟩
  · have hpayload := signingPayload_of_signed hsigned
    have hdecode := decode_signature hsigned
    have hsame := (signTransaction_eq_ok_iff.1 hsigned).2
    have hsignature : signed.signature = Text.Hex.text (key.sign tx.signingPayload) :=
      congrArg Transaction.signature hsame
    refine ⟨?_, ?_, ?_, ⟨_, hdecode, fun haccepts => ?_⟩, signTransaction_signed hsigned⟩
    · rw [hsignature]
      exact hsame
    · rw [hsignature, Text.Hex.length_text, length_sign]
      rfl
    · rw [hsignature]
      exact fun c => Text.Hex.mem_of_mem_text
    · rw [hpayload]
      exact ⟨haccepts, haccepts⟩

namespace Payment

def payer : SecretKey := ⟨List.replicate 32 5, rfl⟩

def payerText : String := "erd1deapehffkzmcl5f67nz4nrl07nhj49ckdc72duhyl07vmqzst0cs737aem"

/-- A payment that has a signature of someone else. -/
def payment (sender : String) : Transaction :=
  { nonce := 5, value := "1", receiver := payerText, sender, gasPrice := 1,
    gasLimit := 50000, data := [], signature := "00", chainId := "D", version := 1, options := 0 }

end Payment

open Payment in
/-- A payment of the holder of a key is signed, and another one is refused. -/
theorem signTransaction_signs_own :
    (∃ signed signature, payer.signTransaction (payment payerText) = .ok signed ∧
      Text.Hex.decode signed.signature.toList = .ok signature ∧
      Ed25519.verify payer.publicKey signed.signingPayload signature) ∧
    payer.signTransaction (payment "") = .error (.senderMismatch payerText "") := by
  have hown : Address.bech32 ⟨payer.publicKey⟩ = .ok payerText := by decide +kernel
  constructor
  · obtain ⟨found, hfound, hsigns, -, hsigned, -⟩ := signTransaction_signs payer (payment payerText)
    obtain rfl : found = payerText := Except.ok.inj (hfound.symm.trans hown)
    obtain ⟨signed, hsign⟩ := hsigns.2 rfl
    obtain ⟨-, -, -, ⟨signature, hdecode, hverifies⟩, -⟩ := hsigned signed hsign
    have haccepts : Ed25519.verify payer.publicKey (payment payerText).signingPayload
        (payer.sign (payment payerText).signingPayload) := by decide +kernel
    exact ⟨signed, signature, hsign, hdecode, (hverifies haccepts).2⟩
  · obtain ⟨found, hfound, -, hrefused, -⟩ := signTransaction_signs payer (payment "")
    obtain rfl : found = payerText := Except.ok.inj (hfound.symm.trans hown)
    exact hrefused (by decide)

end SecretKey

end ShardNet
