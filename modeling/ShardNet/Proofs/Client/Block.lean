-- SUMMARY: Stored blocks are taken out of standard base64, and every other text is refused.
import ShardNet.Client.Block
import ShardNet.Proofs.Client.Status
import ShardNet.Proofs.Envelope.Outcome
import ShardNet.Proofs.Text.Base64.Standard

/-!
# Stored blocks

Blocks and miniblocks come as texts in base64. All operations that get them ask one question and
read the text under one key of the answer, so one lemma, `fetches_stored`, says what comes of each
of them.
-/

namespace ShardNet.Client

open Json (Codec)

variable {client : Client} {route : Route} {field text : String} {bytes : Bytes}
  {response : Response} {trace : Trace Request Answer}

/-! ## Texts -/

/-- What a text under a key is taken for. -/
def storedBytes (field text : String) : Except Error Bytes :=
  match Text.Base64.decode .required text.toList with
  | .ok bytes => .ok bytes
  | .error cause =>
      .error (.exchange (.invalidResponse s!"invalid base64 in '{field}': {cause.message}"))

theorem storedBytes_eq_ok_iff :
    storedBytes field text = .ok bytes ↔ Text.Base64.Standard text bytes := by
  rw [← Text.Base64.decode_eq_ok_iff_standard, storedBytes]
  cases Text.Base64.decode .required text.toList <;> simp

theorem storedBytes_eq_error {cause : Text.Base64.Fault}
    (hdecode : Text.Base64.decode .required text.toList = .error cause) : storedBytes field text =
      .error (.exchange (.invalidResponse s!"invalid base64 in '{field}': {cause.message}")) := by
  rw [storedBytes, hdecode]

theorem stored_exchanges : (client.stored route field).Exchanges (client.getRequest route)
    fun answer => told Codec.text (some field) answer >>= storedBytes field := by
  refine get_exchanges.bind fun text => ?_
  rw [storedBytes]
  cases Text.Base64.decode .required text.toList <;> rfl

theorem told_text_eq_ok_iff {answer : Answer} : told Codec.text (some field) answer = .ok text ↔
    ∃ response, answer = .ok response ∧
      Envelope.contents? (some field) response = some (.str text) := by
  rw [told_eq_ok_iff]
  constructor
  · rintro ⟨response, json, rfl, hcontents, hread⟩
    obtain rfl := Codec.text_read?_iff.1 hread
    exact ⟨response, rfl, hcontents⟩
  · rintro ⟨response, rfl, hcontents⟩
    exact ⟨response, .str text, rfl, hcontents, Codec.text_read?_iff.2 rfl⟩

theorem ends_stored : (client.stored route field).Ends trace (.ok bytes) ↔ ∃ response text,
    trace = [.asked (client.getRequest route) (.ok response)] ∧
      Envelope.contents? (some field) response = some (.str text) ∧
        Text.Base64.Standard text bytes := by
  rw [stored_exchanges.ends]
  constructor
  · rintro ⟨answer, rfl, hbytes⟩
    obtain ⟨text, htold, htext⟩ := bind_eq_ok_iff.1 hbytes.symm
    obtain ⟨response, rfl, hcontents⟩ := told_text_eq_ok_iff.1 htold
    exact ⟨response, text, rfl, hcontents, storedBytes_eq_ok_iff.1 htext⟩
  · rintro ⟨response, text, rfl, hcontents, hstandard⟩
    have htold := told_text_eq_ok_iff.2 ⟨response, rfl, hcontents⟩
    exact ⟨_, rfl, (bind_eq_ok_iff.2 ⟨text, htold, storedBytes_eq_ok_iff.2 hstandard⟩).symm⟩

/-- What comes of a text that was answered. -/
theorem ends_stored_iff (hcontents : Envelope.contents? (some field) response = some (.str text))
    {result : Except Error Bytes} :
    (client.stored route field).Ends [.asked (client.getRequest route) (.ok response)] result ↔
      result = storedBytes field text := by
  have htold : told Codec.text (some field) (.ok response) = .ok text :=
    told_text_eq_ok_iff.2 ⟨response, rfl, hcontents⟩
  rw [stored_exchanges.ends]
  constructor
  · rintro ⟨_, ⟨⟩, rfl⟩
    rw [htold]
    rfl
  · rintro rfl
    refine ⟨_, rfl, ?_⟩
    rw [htold]
    rfl

/-! ## Operations -/

/-- An operation that asks one question, and takes bytes out of the base64 under a key of the
answer. -/
structure FetchesBase64 (operation : Operation Bytes) (request : Request) (field : String) :
    Prop where
  sends : ∀ trace sent, operation.Sends trace sent ↔ trace = [] ∧ sent = request
  ends : ∀ trace bytes, operation.Ends trace (.ok bytes) ↔ ∃ response text,
    trace = [.asked request (.ok response)] ∧
      Envelope.contents? (some field) response = some (.str text) ∧ Text.Base64.Standard text bytes
  takes : ∀ response text, Envelope.contents? (some field) response = some (.str text) → ∀ bytes,
    operation.Ends [.asked request (.ok response)] (.ok bytes) ↔ Text.Base64.Standard text bytes
  refuses : ∀ response text, Envelope.contents? (some field) response = some (.str text) →
    (∀ bytes, ¬ Text.Base64.Standard text bytes) → ∃ cause,
      Text.Base64.decode .required text.toList = .error cause ∧
      operation.Ends [.asked request (.ok response)]
        (.error (.exchange (.invalidResponse s!"invalid base64 in '{field}': {cause.message}")))

theorem fetches_stored (client : Client) (route : Route) (field : String) :
    FetchesBase64 (client.stored route field) (client.getRequest route) field where
  sends _ _ := stored_exchanges.sends
  ends _ _ := ends_stored
  takes response text hcontents bytes := by
    rw [ends_stored_iff hcontents, eq_comm, storedBytes_eq_ok_iff]
  refuses response text hcontents hnone := by
    obtain ⟨cause, hcause⟩ := Text.Base64.exists_fault hnone
    exact ⟨cause, hcause, (ends_stored_iff hcontents).2 (storedBytes_eq_error hcause).symm⟩

/-- A response with a text under a key of its data. -/
def textResponse (field text : String) : Response :=
  Envelope.response ⟨.obj [(field, .str text)], "", "successful"⟩

theorem contents?_textResponse (field text : String) :
    Envelope.contents? (some field) (textResponse field text) = some (.str text) :=
  Envelope.contents?_response ⟨trivial, trivial⟩ rfl ⟨nofun, _, rfl, by simp [Json.lookup]⟩

/-- What is answered for a block or a miniblock is taken for certain bytes exactly if it is the
standard base64 of these bytes, and is refused as invalid if it is that of no bytes. Any text can be
answered, and one of them is the base64 of given bytes. -/
theorem blocks_canonical (client : Client) :
    (∀ shard hash, FetchesBase64 (client.blockByHash shard hash)
      (client.getRequest (.blockByHash shard hash)) "block") ∧
    (∀ shard nonce, FetchesBase64 (client.blockByNonce shard nonce)
      (client.getRequest (.blockByNonce shard nonce)) "block") ∧
    (∀ epoch, FetchesBase64 (client.startOfEpochBlock epoch)
      (client.getRequest (.startOfEpochBlock epoch)) "block") ∧
    (∀ shard hash epoch, FetchesBase64 (client.miniblockByHash shard hash epoch)
      (client.getRequest (.miniblockByHash shard hash epoch)) "miniblock") ∧
    (∀ field text, ∃ response, Envelope.contents? (some field) response = some (.str text)) ∧
    ∀ bytes, ∃! text, Text.Base64.Standard text bytes := by
  refine ⟨fun shard hash => fetches_stored client (.blockByHash shard hash) "block",
    fun shard nonce => fetches_stored client (.blockByNonce shard nonce) "block",
    fun epoch => fetches_stored client (.startOfEpochBlock epoch) "block",
    fun shard hash epoch => fetches_stored client (.miniblockByHash shard hash epoch) "miniblock",
    fun field text => ?_, Text.Base64.existsUnique_standard⟩
  exact ⟨textResponse field text, contents?_textResponse field text⟩

open Unreported (proxy) in
/-- Two bytes are taken with one padding symbol, and not with a bit left over in the last symbol. -/
theorem blocks_canonical_bits :
    (proxy.blockByNonce 1 7).Ends
      [.asked ⟨.get, "internal/1/raw/block/by-nonce/7", none⟩ (.ok (textResponse "block" "AQI="))]
      (.ok [1, 2]) ∧
    (proxy.startOfEpochBlock 3).Ends
      [.asked ⟨.get, "internal/raw/startofepoch/metablock/by-epoch/3", none⟩
        (.ok (textResponse "block" "AQJ="))]
      (.error (.exchange
        (.invalidResponse "invalid base64 in 'block': Invalid last symbol 74, offset 2."))) := by
  obtain ⟨-, hnonce, hepoch, -, -, -⟩ := blocks_canonical proxy
  have htwo : Text.Base64.decode .required "AQI=".toList = .ok [1, 2] := by decide +kernel
  have hbits : Text.Base64.decode .required "AQJ=".toList = .error (.invalidLastSymbol 74 2) := by
    decide +kernel
  have hstandard := Text.Base64.decode_eq_ok_iff_standard.1 htwo
  have hnone : ∀ bytes, ¬ Text.Base64.Standard "AQJ=" bytes := by
    intro bytes hsame
    cases hbits.symm.trans (Text.Base64.decode_eq_ok_iff_standard.2 hsame)
  have htaken := ((hnonce 1 7).takes _ _ (contents?_textResponse "block" "AQI=") [1, 2]).2 hstandard
  obtain ⟨cause, hcause, hrefused⟩ :=
    (hepoch 3).refuses _ _ (contents?_textResponse "block" "AQJ=") hnone
  obtain rfl := Except.error.inj (hcause.symm.trans hbits)
  have hnoncePath :
      proxy.getRequest (.blockByNonce 1 7) = ⟨.get, "internal/1/raw/block/by-nonce/7", none⟩ := by
    decide +kernel
  have hepochPath : proxy.getRequest (.startOfEpochBlock 3) =
      ⟨.get, "internal/raw/startofepoch/metablock/by-epoch/3", none⟩ := by
    decide +kernel
  have hmessage :
      Text.Base64.Fault.message (.invalidLastSymbol 74 2) =
      "Invalid last symbol 74, offset 2." := by
    decide +kernel
  rw [hnoncePath] at htaken
  rw [hepochPath, hmessage] at hrefused
  exact ⟨htaken, hrefused⟩

end ShardNet.Client
