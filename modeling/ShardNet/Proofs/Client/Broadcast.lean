-- SUMMARY: What a transfer posts: one transaction of its own, read back from its text and signed by its key.
import ShardNet.Proofs.Client.Guarded
import ShardNet.Proofs.Key

/-!
# What a transfer posts

A transfer posts one transaction at most. The bytes that are posted are read back as it, and
`Broadcast` says what it is: every field comes from what the transfer was given, or from what it has
obtained by then, and the signature is that of the key on the bytes of this very transaction.

A key that is not the one of the address signs nothing, so nothing is posted for it.
`transfer_broadcasts` says both of every client, whatever is answered to it and whatever the memory
holds.
-/

namespace ShardNet

/-! ## Reserved nonces -/

section Nonces

variable {Query Answer : Type} {trace : Trace Query Answer} {sender : Address} {nonce : UInt64}

/-- A nonce of a sender was reserved in a trace, out of the book or after a fetch. -/
def Reserves (trace : Trace Query Answer) (sender : Address) (nonce : UInt64) : Prop :=
  .did (.takeNonce sender) (some nonce) ∈ trace ∨ .did (.startNonces sender nonce) () ∈ trace

@[simp] theorem reserves_append {front back : Trace Query Answer} :
    Reserves (front ++ back) sender nonce ↔
      Reserves front sender nonce ∨ Reserves back sender nonce := by
  simp only [Reserves, List.mem_append]
  exact or_or_or_comm

theorem Call.SparesNonces.not_reserves {α : Type} {call : Call Query Answer α}
    (hspares : call.SparesNonces) {result : Except Error α} (h : call.Ends trace result) :
    ¬ Reserves trace sender nonce :=
  not_or.2 ⟨hspares.notMem_of_ends h Bool.false_ne_true,
    hspares.notMem_of_ends h Bool.false_ne_true⟩

theorem Call.SparesNonces.not_reserves_of_sends {α : Type} {call : Call Query Answer α}
    (hspares : call.SparesNonces) {sent : Query} (h : call.Sends trace sent) :
    ¬ Reserves trace sender nonce :=
  not_or.2 ⟨hspares.notMem_of_sends h Bool.false_ne_true,
    hspares.notMem_of_sends h Bool.false_ne_true⟩

/-- The nonce that a call is given is the only one that was reserved. -/
theorem NonceReserved.reserves_iff {fetch : Call Query Answer UInt64} (hspares : fetch.SparesNonces)
    {result : Except Error UInt64} (h : NonceReserved sender fetch trace result) :
    Reserves trace sender nonce ↔ result = .ok nonce := by
  cases h with
  | taken => simp [Reserves, slotOpened, eq_comm]
  | @fetched inside _ hfetch =>
      have hinside : ¬ Reserves inside sender nonce := hspares.not_reserves hfetch
      simp only [reserves_append, hinside]
      simp [Reserves, slotOpened, eq_comm]
  | @failed inside _ hfetch =>
      have hinside : ¬ Reserves inside sender nonce := hspares.not_reserves hfetch
      simp only [reserves_append, hinside]
      simp [Reserves, slotOpened]

end Nonces

/-! ## What is posted -/

/-- The signature of a transaction is accepted under a public key, for the bytes that are signed. -/
def Transaction.VerifiesUnder (tx : Transaction) (publicKey : Bytes) : Prop :=
  ∃ signature, Text.Hex.decode tx.signature.toList = .ok signature ∧
    Crypto.Ed25519.verify publicKey tx.signingPayload signature

namespace Client

open Crypto

variable {client : Client} {signer : Signer} {receiver : Address} {value : String}
  {tx : Transaction} {trace : Trace Request Answer} {request : Request}

/-- The transaction that a transfer posts after a trace. -/
structure Broadcast (client : Client) (signer : Signer) (receiver : Address) (value : String)
    (trace : Trace Request Answer) (tx : Transaction) : Prop where
  sender : signer.address.bech32 = .ok tx.sender
  receiver : receiver.bech32 = .ok tx.receiver
  value : tx.value = value
  /-- The nonce is the one that was reserved, and no other was. -/
  nonce : ∀ nonce, Reserves trace signer.address nonce ↔ nonce = tx.nonce
  /-- The transfer began by reading the parameters of the network. -/
  network : ∃ config front back, trace = front ++ back ∧ ConfigRead client front (.ok config) ∧
    tx.gasPrice = config.minGasPrice ∧ tx.gasLimit = config.minGasLimit ∧
      tx.chainId = config.chainId ∧
    tx.version = config.minTransactionVersion
  data : tx.data = []
  options : tx.options = 0
  signature : Text.Hex.decode tx.signature.toList = .ok (signer.key.sign tx.signingPayload)
  /-- Nothing was posted before. -/
  first : ∀ {earlier answer}, .asked earlier answer ∈ trace → earlier.method = .get

/-- The signature is accepted, as far as verification accepts what the key signs. -/
theorem Broadcast.verifiesUnder (h : Broadcast client signer receiver value trace tx)
    (haccepts : Ed25519.verify signer.key.publicKey tx.signingPayload
      (signer.key.sign tx.signingPayload)) :
    tx.VerifiesUnder signer.key.publicKey :=
  ⟨_, h.signature, haccepts⟩

/-- The bytes in which a transaction is posted are read back as it. -/
theorem read?_symbols_wire :
    (Json.read? (Text.Utf8.symbols (Text.Utf8.encode tx.wire))).bind
      Transaction.codec.read? = some tx := by
  rw [Text.Utf8.symbols_encode]
  exact tx.parse_wire

theorem ConfigRead.not_reserves {result : Except Error NetworkConfig}
    (h : ConfigRead client trace result) {sender : Address}
    {nonce : UInt64} : ¬ Reserves trace sender nonce :=
  networkConfig_sparesNonces.not_reserves (ends_networkConfig.2 h)

/-- While its transaction is drafted, a transfer posts nothing. -/
theorem method_of_sends_draft (h : (client.draft signer receiver value).Sends trace request) :
    request.method = .get := by
  obtain hconfig | ⟨_, _, _, rfl, -, haccount⟩ := sends_draft h
  · rw [(sends_networkConfig.1 hconfig).2]
    rfl
  · obtain hnetwork | haccount := sends_account haccount
    · exact hnetwork.method
    · exact haccount.method

/-- Once its nonce is reserved, a draft asks nothing. -/
theorem not_reserves_of_sends_draft {nonce : UInt64}
    (h : (client.draft signer receiver value).Sends trace request) :
    ¬ Reserves trace signer.address nonce := by
  obtain hconfig | ⟨front, inside, config, rfl, hconfig, haccount⟩ := sends_draft h
  · exact networkConfig_sparesNonces.not_reserves_of_sends hconfig
  · have hinside : ¬ Reserves inside signer.address nonce :=
      account_sparesNonces.not_reserves_of_sends haccount
    have hopened : ¬ Reserves (slotOpened signer.address none : Trace Request Answer)
        signer.address nonce := by simp [Reserves, slotOpened]
    simp only [reserves_append, hconfig.not_reserves, hopened, hinside, or_self, not_false_eq_true]

/-- What is posted was drafted, signed and is then sent. -/
theorem posts_transfer_iff :
    (client.transfer signer receiver value).Sends trace request ∧ request.method = .post ↔
      ∃ tx signed, (client.draft signer receiver value).Ends trace (.ok tx) ∧
        signer.key.signTransaction tx = .ok signed ∧ request = client.sendRequest signed := by
  rw [transfer_eq, Call.sends_bind]
  constructor
  · rintro ⟨hdraft | ⟨front, back, tx, rfl, hdraft, hdispatch⟩, hpost⟩
    · cases hpost.symm.trans (method_of_sends_draft hdraft)
    · obtain ⟨signed, hsigned, rfl, rfl⟩ := sends_dispatch.1 hdispatch
      rw [List.append_nil]
      exact ⟨tx, signed, hdraft, hsigned, rfl⟩
  · rintro ⟨tx, signed, hdraft, hsigned, rfl⟩
    exact ⟨.inr ⟨trace, [], tx, (List.append_nil trace).symm, hdraft,
      sends_dispatch.2 ⟨signed, hsigned, rfl, rfl⟩⟩, rfl⟩

theorem broadcast_of_drafted {signed : Transaction}
    (hdraft : (client.draft signer receiver value).Ends trace (.ok tx))
    (hsigned : signer.key.signTransaction tx = .ok signed) :
    Broadcast client signer receiver value trace signed := by
  have hsignature := SecretKey.decode_signature hsigned
  obtain ⟨-, hsigned⟩ := SecretKey.signTransaction_eq_ok_iff.1 hsigned
  -- No field but the signature depends on what signing computes, so it need not be opened below.
  generalize Text.Hex.text (signer.key.sign tx.signingPayload) = signature at hsigned
  subst hsigned
  have hfirst : ∀ {earlier answer}, .asked earlier answer ∈ trace → earlier.method = .get := by
    intro earlier answer hmem
    obtain ⟨before, after, rfl⟩ := List.append_of_mem hmem
    exact method_of_sends_draft hdraft.sends
  cases ends_draft.1 hdraft with
  | @drafted front back config _ _ nonce _ hconfig hsender htext hreserved =>
      exact {
        sender := hsender
        receiver := htext
        value := rfl
        nonce := fun other => by
          rw [reserves_append, or_iff_right hconfig.not_reserves,
            hreserved.reserves_iff accountNonce_sparesNonces,
            Except.ok.injEq]
          exact eq_comm
        network := ⟨config, front, back, rfl, hconfig, rfl, rfl, rfl, rfl⟩
        data := rfl
        options := rfl
        signature := hsignature
        first := hfirst }

/-- The key of another address signs no draft. -/
theorem signTransaction_of_drafted (hother : signer.key.publicKey ≠ signer.address.bytes)
    (hdraft : (client.draft signer receiver value).Ends trace (.ok tx)) :
    ∃ own given, signer.key.address.bech32 = .ok own ∧ signer.address.bech32 = .ok given ∧
      signer.key.signTransaction tx = .error (.senderMismatch own given) := by
  obtain ⟨own, hown⟩ := Address.exists_bech32 signer.key.isValid_address
  cases ends_draft.1 hdraft with
  | @drafted _ _ _ given _ _ _ _ hsender _ _ =>
      refine ⟨own, given, hown, hsender, SecretKey.signTransaction_mismatch hown ?_⟩
      rintro rfl
      exact hother (congrArg Address.bytes (Address.bech32_injective hown hsender))

/-- A nonce is reserved by the draft only. -/
theorem drafted_of_reserves {result : Except Error String} {nonce : UInt64}
    (h : (client.transfer signer receiver value).Ends trace result)
    (hreserves : Reserves trace signer.address nonce) : ∃ front back tx, trace = front ++ back ∧
      (client.draft signer receiver value).Ends front (.ok tx) ∧
      (client.dispatch signer.address tx.nonce (signer.key.signTransaction tx)).Ends
        back result := by
  rw [transfer_eq] at h
  obtain ⟨cause, hdraft, rfl⟩ | ⟨front, back, tx, rfl, hdraft, hdispatch⟩ := Call.ends_bind.1 h
  · -- A draft that fails has not reserved a nonce.
    exfalso
    cases ends_draft.1 hdraft with
    | refused => simp [Reserves] at hreserves
    | unconfigured _ hconfig | unaddressed _ hconfig => exact hconfig.not_reserves hreserves
    | unreserved _ hconfig _ hfailed =>
        rw [reserves_append, or_iff_right hconfig.not_reserves,
          hfailed.reserves_iff accountNonce_sparesNonces] at hreserves
        cases hreserves
  · exact ⟨front, back, tx, rfl, hdraft, hdispatch⟩

/-- What a transfer posts is read back as one transaction of its own, signed by its key. Nothing is
posted for the key of another address: once a nonce is reserved, nothing more is asked, and the
transfer fails. -/
theorem transfer_broadcasts (client : Client) (signer : Signer) (receiver : Address)
    (value : String) :
    (∀ trace request, (client.transfer signer receiver value).Sends trace request →
      request.method = .post → ∃ body tx, request = ⟨.post, "transaction/send", some body⟩ ∧
        (Json.read? (Text.Utf8.symbols body)).bind Transaction.codec.read? = some tx ∧
        Broadcast client signer receiver value trace tx ∧
        (Ed25519.verify signer.key.publicKey tx.signingPayload (signer.key.sign tx.signingPayload) →
          tx.VerifiesUnder signer.key.publicKey)) ∧
    (signer.key.publicKey ≠ signer.address.bytes →
      (∀ trace request, (client.transfer signer receiver value).Sends trace request →
        request.method = .get ∧ ∀ nonce, ¬ Reserves trace signer.address nonce) ∧
      ∀ trace result nonce, (client.transfer signer receiver value).Ends trace result →
        Reserves trace signer.address nonce →
        ∃ own given, signer.key.address.bech32 = .ok own ∧ signer.address.bech32 = .ok given ∧
          result = .error (.signing (.senderMismatch own given))) := by
  refine ⟨fun trace request hsends hpost => ?_, fun hother => ⟨fun trace request hsends => ?_,
    fun trace result nonce hends hreserves => ?_⟩⟩
  · obtain ⟨tx, signed, hdraft, hsigned, rfl⟩ := posts_transfer_iff.1 ⟨hsends, hpost⟩
    have hbroadcast := broadcast_of_drafted hdraft hsigned
    exact ⟨_, signed, rfl, read?_symbols_wire, hbroadcast, hbroadcast.verifiesUnder⟩
  · rw [transfer_eq] at hsends
    obtain hdraft | ⟨front, back, tx, rfl, hdraft, hdispatch⟩ := Call.sends_bind.1 hsends
    · exact ⟨method_of_sends_draft hdraft, fun _ => not_reserves_of_sends_draft hdraft⟩
    · obtain ⟨signed, hsigned, -, -⟩ := sends_dispatch.1 hdispatch
      obtain ⟨own, given, -, -, hrefused⟩ := signTransaction_of_drafted hother hdraft
      cases hsigned.symm.trans hrefused
  · obtain ⟨front, back, tx, rfl, hdraft, hdispatch⟩ := drafted_of_reserves hends hreserves
    obtain ⟨own, given, hown, hgiven, hrefused⟩ := signTransaction_of_drafted hother hdraft
    rw [hrefused] at hdispatch
    cases ends_dispatch.1 hdispatch with
    | unsigned => exact ⟨own, given, hown, hgiven, rfl⟩

namespace Posting

def poster : Client := ⟨"", .proxy, .disabled, 0, 0, ⟨false, false⟩⟩

def holder : Signer := .ofKey ⟨List.replicate 32 7, rfl⟩

def payee : Address := ⟨List.replicate 32 1⟩

/-- The key of the holder, used for another address. -/
def impostor : Signer := { holder with address := payee }

def own : String := "erd1af9xcclzn3fq40h42pa3xtk9lx25wa4wh6l8hyjzrm4xj9zx6gkq38dn52"

def other : String := "erd1qyqszqgpqyqszqgpqyqszqgpqyqszqgpqyqszqgpqyqszqgpqyqsl6e0p7"

/-- The parameters of the network are at hand, and the book has the nonce five for the sender. -/
def drafted (sender : Address) : Trace Request Answer :=
  [.did .freshConfig (some default)] ++
    (slotOpened sender (some 5) ++ [.did (.release (.sender sender)) ()])

def unsigned (sender : String) : Transaction := draftOf default sender other "1" 5

theorem ends_drafted {signer : Signer} {sender : String}
    (hsender : signer.address.bech32 = .ok sender) :
    (poster.draft signer payee "1").Ends (drafted signer.address) (.ok (unsigned sender)) :=
  ends_draft.2 (.drafted (by decide +kernel) .fresh hsender (by decide +kernel) .taken)

end Posting

open Posting in
/-- A transfer posts a transaction that verifies. With the key for another address, it fails. -/
theorem transfer_broadcasts_own :
    (∃ request tx, (poster.transfer holder payee "1").Sends (drafted holder.address) request ∧
      Broadcast poster holder payee "1" (drafted holder.address) tx ∧ tx.nonce = 5 ∧
      tx.VerifiesUnder holder.key.publicKey) ∧
    ∃ trace result, (poster.transfer impostor payee "1").Ends trace result ∧
      ∃ own given, impostor.key.address.bech32 = .ok own ∧ impostor.address.bech32 = .ok given ∧
        result = .error (.signing (.senderMismatch own given)) := by
  have hholder : holder.address.bech32 = .ok own := by decide +kernel
  have hreserves : ∀ sender, Reserves (drafted sender) sender 5 := fun _ => .inl (by
    simp [drafted, slotOpened])
  constructor
  · obtain ⟨signed, hsigned⟩ : ∃ signed, holder.key.signTransaction (unsigned own) = .ok signed :=
      ⟨_, SecretKey.signTransaction_eq_ok_iff.2 ⟨hholder, rfl⟩⟩
    obtain ⟨hsends, hpost⟩ := posts_transfer_iff.2 ⟨_, signed, ends_drafted hholder, hsigned, rfl⟩
    obtain ⟨body, tx, hrequest, hread, hbroadcast, hverifies⟩ :=
      (transfer_broadcasts poster holder payee "1").1 _ _ hsends hpost
    obtain rfl : Text.Utf8.encode signed.wire = body :=
      Option.some.inj (congrArg Request.body hrequest)
    obtain rfl : signed = tx := Option.some.inj (read?_symbols_wire.symm.trans hread)
    have hnonce : 5 = signed.nonce := (hbroadcast.nonce 5).1 (hreserves _)
    have haccepts : Ed25519.verify holder.key.publicKey (unsigned own).signingPayload
        (holder.key.sign (unsigned own).signingPayload) := by decide +kernel
    rw [← SecretKey.signingPayload_of_signed hsigned] at haccepts
    exact ⟨_, signed, hsends, hbroadcast, hnonce.symm, hverifies haccepts⟩
  · have hrefused :
        impostor.key.signTransaction (unsigned other) = .error (.senderMismatch own other) :=
      SecretKey.signTransaction_mismatch hholder (by decide +kernel)
    have hends : (poster.transfer impostor payee "1").Ends
        (drafted impostor.address ++ [.did (.invalidateIfSole impostor.address 5) true])
        (.error (.signing (.senderMismatch own other))) := by
      rw [transfer_eq]
      refine Call.ends_bind.2 (.inr ⟨_, _, unsigned other, rfl,
        ends_drafted (by decide +kernel), ?_⟩)
      rw [hrefused]
      exact ends_dispatch.2 (.unsigned .forgotten)
    have hmismatch :=
      (transfer_broadcasts poster impostor payee "1").2 (by decide +kernel) |>.2 _ _ 5 hends
      (reserves_append.2 (.inl (hreserves _)))
    exact ⟨_, _, hends, hmismatch⟩

end Client

end ShardNet
