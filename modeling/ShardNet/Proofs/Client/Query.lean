-- SUMMARY: What a query posts: an object that is read back as the query, with its two flags and nothing else beside it.
import ShardNet.Proofs.Client.Guarded
import ShardNet.Proofs.Records
import ShardNet.Proofs.Text.Utf8
import ShardNet.Proofs.Transaction.Reported

/-!
# Posted queries

The flags of a client stand in the same object as the fields of a query. Their keys are not those of
fields, so a reader of queries passes over them, and finds the query itself.
-/

namespace ShardNet

open Json (Codec)

namespace VmQuery

/-- The members that go out beside the fields of a query. -/
def flagMembers (flags : Flags) : List (String × Json) :=
  [("sameScState", .bool flags.sameState), ("shouldBeSynced", .bool flags.synced)]

/-- The text of a posted query is read as an object. A query is read from it, and the flags are its
other members. -/
theorem parse_body (query : VmQuery) (flags : Flags) : ∃ members,
    Json.parse? (query.body flags).write = some (.obj members) ∧
      codec.read? (.obj members) = some query ∧
      members.filter (·.1 ∉ keys) = flagMembers flags := by
  have hbuilds : record.Builds (Json.maxDepth - 1) keys (fun query => query) fun _ => True :=
    builds_record
  obtain ⟨written, hwritten⟩ := hbuilds.kept query trivial
  have hkeyed : ∀ member ∈ written, member.1 ∈ keys := fun member hmember => by
    obtain ⟨value, hwrote⟩ := Json.mem_of_mem_rereadMembers? hwritten hmember
    exact hbuilds.keyed query (member.1, value) hwrote
  refine ⟨written ++ flagMembers flags, ?_, ?_, ?_⟩
  · have hplain : Json.Plain Json.maxDepth (query.body flags) :=
      Json.plainMembers_append (hbuilds.plain query) ⟨trivial, trivial, trivial⟩
    have hmembers : Json.rereadMembers? (record.write query ++ flagMembers flags) =
        some (written ++ flagMembers flags) :=
      Json.rereadMembers?_append.2 ⟨written, flagMembers flags, hwritten, rfl, rfl⟩
    rw [Json.parse?_write hplain]
    exact congrArg (Option.map Json.obj) hmembers
  · have hagree : ∀ key ∈ keys,
        Json.lookup key (written ++ flagMembers flags) = Json.lookup key written := by
      intro key hkey
      have hflags : ∀ member ∈ flagMembers flags, member.1 ∉ keys := by
        simp [flagMembers, keys]
      rw [Json.lookup_append, Json.lookup_eq_none
        fun member hmember heq => hflags member hmember (heq ▸ hkey),
        Option.none_or]
    have hread := (hbuilds.reads hwritten hagree query _).2 ⟨rfl, rfl, trivial⟩
    exact congrArg (Option.map Prod.fst) hread
  · have hnone : written.filter (·.1 ∉ keys) = [] := by
      simpa [List.filter_eq_nil_iff] using hkeyed
    rw [List.filter_append, hnone]
    rfl

end VmQuery

namespace Client

variable {client : Client} {query : VmQuery} {trace : Trace Request Answer} {request : Request}

/-- A query posts nothing else, and nothing before its contract has passed the gate. -/
theorem sends_runQuery_post : (client.runQuery query).Sends trace request ∧ request.method = .post ↔
    ∃ contract, Address.ofBech32 query.contract = .ok contract ∧
      (client.checkAddressFinality contract).Ends trace (.ok ()) ∧
      request = client.postRequest .vmQuery (query.body client.flags) := by
  cases hcontract : Address.ofBech32 query.contract with
  | error cause =>
      rw [runQuery_invalid hcontract]
      simp
  | ok contract =>
      simp only [runQuery_eq hcontract, Call.sends_bind, post_exchanges.sends, Except.ok.injEq,
        exists_eq_left']
      constructor
      · rintro ⟨hgate | ⟨front, _, ⟨⟩, rfl, hends, rfl, rfl⟩, hpost⟩
        · cases (sends_checkAddressFinality hgate).method.symm.trans hpost
        · rw [List.append_nil]
          exact ⟨hends, rfl⟩
      · rintro ⟨hends, rfl⟩
        exact ⟨.inr ⟨trace, [], (), (List.append_nil trace).symm, hends, rfl, rfl⟩, rfl⟩

end Client

/-- Records without real numbers are read back from their texts. What a client posts for a query is
an object that is read as this query, and whose other members are the flags of the client. -/
theorem records_read_back :
    (∀ account : Account,
      (Json.parse? (Account.codec.write account).write).bind Account.codec.read? = some account) ∧
    (∀ economics : NetworkEconomics,
      (Json.parse? (NetworkEconomics.codec.write economics).write).bind
        NetworkEconomics.codec.read? = some economics) ∧
    (∀ epochs : EnableEpochs,
      (Json.parse? (EnableEpochs.codec.write epochs).write).bind EnableEpochs.codec.read? =
        some epochs) ∧
    (∀ nodes : GenesisNodes,
      (Json.parse? (GenesisNodes.codec.write nodes).write).bind
        GenesisNodes.codec.read? = some nodes) ∧
    (∀ status : NetworkStatus,
      (Json.parse? (NetworkStatus.codec.write status).write).bind NetworkStatus.codec.read? =
        some status) ∧
    (∀ cost : TransactionCost,
      (Json.parse? (TransactionCost.codec.write cost).write).bind
        TransactionCost.codec.read? = some cost) ∧
    (∀ block : ShardBlock,
      (Json.parse? (ShardBlock.codec.write block).write).bind ShardBlock.codec.read? = some block) ∧
    (∀ query : VmQuery,
      (Json.parse? (VmQuery.codec.write query).write).bind VmQuery.codec.read? = some query) ∧
    ∀ (client : Client) (query : VmQuery), ∃ body members,
      (∀ trace request, (client.runQuery query).Sends trace request ∧ request.method = .post ↔
        ∃ contract, Address.ofBech32 query.contract = .ok contract ∧
          (client.checkAddressFinality contract).Ends trace (.ok ()) ∧
          request = ⟨.post, "vm-values/query", some body⟩) ∧
      Json.read? (Text.Utf8.symbols body) = some (.obj members) ∧
      VmQuery.codec.read? (.obj members) = some query ∧
      members.filter (·.1 ∉ VmQuery.keys) =
        [("sameScState", .bool client.flags.sameState),
          ("shouldBeSynced", .bool client.flags.synced)] := by
  refine ⟨Codec.Lawful.parse Account.lawful_codec, Codec.Lawful.parse NetworkEconomics.lawful_codec,
    Codec.Lawful.parse EnableEpochs.lawful_codec, Codec.Lawful.parse GenesisNodes.lawful_codec,
    Codec.Lawful.parse NetworkStatus.lawful_codec, Codec.Lawful.parse TransactionCost.lawful_codec,
    Codec.Lawful.parse ShardBlock.lawful_codec, Codec.Lawful.parse VmQuery.lawful_codec,
    fun client query => ?_⟩
  obtain ⟨members, hparse, hread, hflags⟩ := query.parse_body client.flags
  refine ⟨Text.Utf8.encode (query.body client.flags).write, members, fun _ _ => ?_, ?_,
    hread, hflags⟩
  · exact Client.sends_runQuery_post
  · rw [Text.Utf8.symbols_encode]
    exact hparse

end ShardNet
