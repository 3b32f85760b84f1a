-- SUMMARY: Batches of transactions: what is posted, and how the hashes in the answer are arranged.
import ShardNet.Proofs.Client.Status
import ShardNet.Proofs.Envelope.Outcome
import ShardNet.Proofs.Json.Table
import ShardNet.Proofs.Transaction

/-!
# Batches

A batch is posted as an array. The answer has the hashes in an object, under the places of their
transactions in the batch. Sorted as texts, 10 comes before 9; the hashes are arranged by the
numbers.
-/

namespace ShardNet

open Json (Codec Record)

variable {members others : List (String × Json)} {entries : List (UInt64 × String)}

/-! ## Answers -/

theorem SentBatch.takes_record : record.Takes 2 fun part? sent =>
    Record.Supplied Codec.uint64 (some 0) (part? "numOfSentTxs" 0) sent.count ∧
    Record.Supplied (Codec.table UInt64 Codec.text) none (part? "txsHashes" 1) sent.hashes := by
  refine Record.Takes.mono (Record.takes_of SentBatch.mk |>.withDefault |>.required)
    fun part? sent => ?_
  obtain ⟨⟩ := sent
  simp

namespace SentBatch

/-- The hashes of an object by the numbers that are its keys, in ascending order. Where a key occurs
more than once, the last hash counts. -/
structure Arranged (members : List (String × Json)) (entries : List (UInt64 × String)) : Prop where
  ascending : entries.Pairwise fun a b => a.1.toNat < b.1.toNat
  keys : ∀ key, key ∈ members.map Prod.fst ↔
    ∃ entry ∈ entries, key = Text.Decimal.text entry.1.toNat
  told : ∀ entry ∈ entries, Json.lookup (Text.Decimal.text entry.1.toNat) members =
    some (.str entry.2)

theorem arranged_iff : Arranged members entries ↔
    ∃ hashes, (Codec.table UInt64 Codec.text).read? (.obj members) = some hashes ∧
      hashes.entries = entries := by
  simp only [Codec.table_read?_iff, Codec.text_read?_iff, exists_eq_right]
  constructor
  · rintro ⟨hascending, hkeys, htold⟩
    exact ⟨⟨entries, hascending⟩, ⟨hkeys, htold⟩, rfl⟩
  · rintro ⟨hashes, ⟨hkeys, htold⟩, rfl⟩
    exact ⟨hashes.ascending, hkeys, htold⟩

/-- Hashes under the places of a whole batch are arranged by these places. -/
theorem Arranged.places {size : Nat} (h : Arranged members entries)
    (hkeys : ∀ key, key ∈ members.map Prod.fst ↔ ∃ index < size, key = Text.Decimal.text index) :
    entries.map (·.1.toNat) = List.range size := by
  have hmem : ∀ index, index ∈ entries.map (·.1.toNat) ↔ index ∈ List.range size := by
    intro index
    rw [List.mem_range, List.mem_map]
    constructor
    · rintro ⟨entry, hentry, rfl⟩
      obtain ⟨index, hlt, hsame⟩ := (hkeys _).1 ((h.keys _).2 ⟨entry, hentry, rfl⟩)
      exact Text.Decimal.text_inj hsame ▸ hlt
    · intro hlt
      obtain ⟨entry, hentry, hsame⟩ := (h.keys _).1 ((hkeys _).2 ⟨index, hlt, rfl⟩)
      exact ⟨entry, hentry, (Text.Decimal.text_inj hsame).symm⟩
  have hascending : (entries.map (·.1.toNat)).Pairwise (· < ·) := List.pairwise_map.2 h.ascending
  have hnodup : (entries.map (·.1.toNat)).Nodup := hascending.imp Nat.ne_of_lt
  exact ((List.perm_ext_iff_of_nodup hnodup List.nodup_range).2 hmem).eq_of_pairwise
    (fun _ _ _ _ hab hba => absurd hab (Nat.lt_asymm hba)) hascending List.pairwise_lt_range

theorem table_read?_iff_arranged {json : Json} {hashes : Table UInt64 String} :
    (Codec.table UInt64 Codec.text).read? json = some hashes ↔
      ∃ members, json = .obj members ∧ Arranged members hashes.entries := by
  cases json with
  | obj members =>
      simp only [Json.obj.injEq, exists_eq_left', arranged_iff]
      constructor
      · exact fun hread => ⟨hashes, hread, rfl⟩
      · rintro ⟨other, hread, hentries⟩
        exact Table.ext hentries ▸ hread
  | null | bool | int | real | str | arr => simp [Codec.table]

theorem read?_iff {data : Json} {sent : SentBatch} : codec.read? data = some sent ↔
    data.HoldsFields 2 ∧ data.Counts "numOfSentTxs" 0 sent.count.toNat ∧
      ∃ members, data.part? "txsHashes" 1 = some (.obj members) ∧
        Arranged members sent.hashes.entries := by
  have hcount :
      Record.Supplied Codec.uint64 (some 0) (data.part? "numOfSentTxs" 0) sent.count ↔ _ :=
    Record.supplied_iff_counts rfl
  have hhashes :
      Record.Supplied (Codec.table UInt64 Codec.text) none (data.part? "txsHashes" 1) sent.hashes ↔
      ∃ members, data.part? "txsHashes" 1 = some (.obj members) ∧
          Arranged members sent.hashes.entries := by
    cases data.part? "txsHashes" 1 with
    | none => simp [Record.Supplied]
    | some json => simp [Record.Supplied, table_read?_iff_arranged]
  rw [SentBatch.codec, takes_record.read?_iff, hcount, hhashes]
  rfl

/-- Data that differ only in the order of hashes under different keys. -/
structure Reordered (data other : Json) : Prop where
  fields : data.HoldsFields 2 ↔ other.HoldsFields 2
  count : data.part? "numOfSentTxs" 0 = other.part? "numOfSentTxs" 0
  hashes : ∃ members others, data.part? "txsHashes" 1 = some (.obj members) ∧
    other.part? "txsHashes" 1 = some (.obj others) ∧
    ∀ key, members.filter (·.1 = key) = others.filter (·.1 = key)

/-- What is read does not depend on the order of members with different keys. -/
theorem Reordered.read?_eq {data other : Json} (h : Reordered data other) :
    codec.read? data = codec.read? other := by
  obtain ⟨hfields, hcount, members, others, hdata, hother, hsame⟩ := h
  have hlookup : ∀ key, Json.lookup key members = Json.lookup key others := fun key => by
    rw [← Json.lookup_filter, hsame, Json.lookup_filter]
  have hmembers : Json.distinctMembers members = Json.distinctMembers others :=
    Json.distinctMembers_congr hlookup
  have hhashes : (Codec.table UInt64 Codec.text).read? (.obj members) =
      (Codec.table UInt64 Codec.text).read? (.obj others) := by
    simp only [Codec.table, hmembers]
  refine Option.ext fun sent => ?_
  rw [SentBatch.codec, takes_record.read?_iff, takes_record.read?_iff, hfields, hcount,
    hdata, hother]
  simp only [Record.Supplied, hhashes]

end SentBatch

namespace Client

variable {client : Client} {txs : List Transaction} {trace : Trace Request Answer}

/-- The request that posts a batch. -/
def batchRequest (client : Client) (txs : List Transaction) : Request :=
  client.postRequest .sendTransactions ((Codec.list Transaction.codec).write txs)

theorem sendTransactions_exchanges :
    (client.sendTransactions txs).Exchanges (client.batchRequest txs)
    fun answer => told SentBatch.codec none answer >>= fun sent => .ok sent.hashes.values :=
  post_exchanges.bind fun _ => rfl

theorem ends_sendTransactions {hashes : List String} :
    (client.sendTransactions txs).Ends trace (.ok hashes) ↔
    ∃ response data members entries, trace = [.asked (client.batchRequest txs) (.ok response)] ∧
      Envelope.contents? none response = some data ∧ data.HoldsFields 2 ∧
      (∃ count < 2 ^ 64, data.Counts "numOfSentTxs" 0 count) ∧
      data.part? "txsHashes" 1 = some (.obj members) ∧ SentBatch.Arranged members entries ∧
      hashes = entries.map Prod.snd := by
  rw [sendTransactions_exchanges.ends]
  constructor
  · rintro ⟨answer, rfl, htold⟩
    cases hsent : told SentBatch.codec none answer with
    | error cause =>
        rw [hsent] at htold
        cases htold
    | ok sent =>
        rw [hsent] at htold
        obtain rfl := Except.ok.inj htold
        obtain ⟨response, data, rfl, hdata, hread⟩ := told_eq_ok_iff.1 hsent
        obtain ⟨hfields, hcount, members, hmembers, harranged⟩ := SentBatch.read?_iff.1 hread
        exact ⟨response, data, members, _, rfl, hdata, hfields,
          ⟨_, sent.count.toNat_lt, hcount⟩, hmembers,
          harranged, rfl⟩
  · rintro ⟨response, data, members, entries, rfl, hdata, hfields, ⟨count, hlt, hcount⟩,
      hmembers, harranged, rfl⟩
    have hread :
        SentBatch.codec.read? data = some ⟨UInt64.ofNat count, entries, harranged.ascending⟩ := by
      have hnumber : (UInt64.ofNat count).toNat = count := Nat.mod_eq_of_lt hlt
      exact SentBatch.read?_iff.2 ⟨hfields, hnumber.symm ▸ hcount, members, hmembers, harranged⟩
    refine ⟨_, rfl, ?_⟩
    rw [told_eq_ok_iff.2 ⟨response, data, rfl, hdata, hread⟩]
    rfl

/-- The body of a posted batch is an array of the transactions, in their order. -/
theorem exists_batch_items (txs : List Transaction) : ∃ items,
    Json.parse? ((Codec.list Transaction.codec).write txs).write = some (.arr items) ∧
      items.mapM Transaction.codec.read? = some txs := by
  have hlawful : (Codec.list Transaction.codec).Lawful Json.maxDepth :=
    Codec.lawful_list Transaction.lawful_codec
  obtain ⟨json, hjson, hread⟩ := Option.bind_eq_some_iff.1 (hlawful.parse txs)
  cases json with
  | arr items => exact ⟨items, hjson, hread⟩
  | null | bool | int | real | str | obj => cases hread

/-- Answers that differ only in the order of hashes under different keys end a batch alike. -/
theorem ends_sendTransactions_reordered {response other : Response} {data data' : Json}
    (hdata : Envelope.contents? none response = some data)
    (hother : Envelope.contents? none other = some data') (hsame : SentBatch.Reordered data data')
    {result : Except Error (List String)} :
    (client.sendTransactions txs).Ends [.asked (client.batchRequest txs) (.ok response)] result ↔
      (client.sendTransactions txs).Ends [.asked (client.batchRequest txs) (.ok other)] result := by
  have htold :
      told SentBatch.codec none (.ok response) = told SentBatch.codec none (.ok other) := by
    simp only [told, Envelope.decode_of_contents hdata, Envelope.decode_of_contents hother,
      hsame.read?_eq]
  rw [sendTransactions_exchanges.ends, sendTransactions_exchanges.ends]
  constructor
  · rintro ⟨_, ⟨⟩, rfl⟩
    exact ⟨_, rfl, by rw [htold]⟩
  · rintro ⟨_, ⟨⟩, rfl⟩
    exact ⟨_, rfl, by rw [htold]⟩

/-- Where the keys are the places of the whole batch, each hash is at its place. -/
theorem hashes_of_whole_batch {response : Response} {data : Json} {hashes : List String}
    (hdata : Envelope.contents? none response = some data)
    (hmembers : data.part? "txsHashes" 1 = some (.obj members))
    (hkeys : ∀ key, key ∈ members.map Prod.fst ↔
      ∃ index < txs.length, key = Text.Decimal.text index)
    (hends : (client.sendTransactions txs).Ends [.asked (client.batchRequest txs) (.ok response)]
      (.ok hashes)) :
    hashes.length = txs.length ∧ ∀ index hash, hashes[index]? = some hash →
      Json.lookup (Text.Decimal.text index) members = some (.str hash) := by
  obtain ⟨_, _, _, entries, htrace, hcontents, -, -, hfound, harranged, rfl⟩ :=
    ends_sendTransactions.1 hends
  cases htrace
  cases hdata.symm.trans hcontents
  cases hmembers.symm.trans hfound
  have hplaces := harranged.places hkeys
  constructor
  · have hlength := congrArg List.length hplaces
    rwa [List.length_map, List.length_range, ← List.length_map] at hlength
  · intro index hash hhash
    obtain ⟨entry, hentry, rfl⟩ : ∃ entry, entries[index]? = some entry ∧ entry.2 = hash := by
      simpa using hhash
    have hplace : (entries.map (·.1.toNat))[index]? = some entry.1.toNat := by simp [hentry]
    rw [hplaces] at hplace
    have hindex : entry.1.toNat = index := by
      obtain ⟨hlt, heq⟩ := List.getElem?_eq_some_iff.1 hplace
      rw [← heq, List.getElem_range]
    exact hindex ▸ harranged.told entry (List.mem_of_getElem? hentry)

/-- A batch is posted as an array of its transactions, in their order. The answer is the hashes by
the numbers that are their keys, in ascending order, one for each key; the order of the members
counts only where a key occurs again. Under the places of the whole batch, each hash is that of the
transaction at its place. -/
theorem batch_order (client : Client) (txs : List Transaction) : ∃ body items,
    Json.read? (Text.Utf8.symbols body) = some (.arr items) ∧
    items.mapM Transaction.codec.read? = some txs ∧
    (∀ trace request, (client.sendTransactions txs).Sends trace request ↔
      trace = [] ∧ request = ⟨.post, "transaction/send-multiple", some body⟩) ∧
    (∀ trace hashes, (client.sendTransactions txs).Ends trace (.ok hashes) ↔
      ∃ response data members entries,
        trace = [.asked ⟨.post, "transaction/send-multiple", some body⟩ (.ok response)] ∧
        Envelope.contents? none response = some data ∧ data.HoldsFields 2 ∧
        (∃ count < 2 ^ 64, data.Counts "numOfSentTxs" 0 count) ∧
        data.part? "txsHashes" 1 = some (.obj members) ∧ SentBatch.Arranged members entries ∧
        hashes = entries.map Prod.snd) ∧
    (∀ response other data data', Envelope.contents? none response = some data →
      Envelope.contents? none other = some data' → SentBatch.Reordered data data' → ∀ result,
      ((client.sendTransactions txs).Ends
        [.asked ⟨.post, "transaction/send-multiple", some body⟩ (.ok response)] result ↔
      (client.sendTransactions txs).Ends
        [.asked ⟨.post, "transaction/send-multiple", some body⟩ (.ok other)] result)) ∧
    ∀ response data members hashes, Envelope.contents? none response = some data →
      data.part? "txsHashes" 1 = some (.obj members) →
      (∀ key, key ∈ members.map Prod.fst ↔ ∃ index < txs.length, key = Text.Decimal.text index) →
      (client.sendTransactions txs).Ends
        [.asked ⟨.post, "transaction/send-multiple", some body⟩ (.ok response)] (.ok hashes) →
      hashes.length = txs.length ∧ ∀ index hash, hashes[index]? = some hash →
        Json.lookup (Text.Decimal.text index) members = some (.str hash) := by
  obtain ⟨items, hparse, hitems⟩ := exists_batch_items txs
  refine ⟨Text.Utf8.encode ((Codec.list Transaction.codec).write txs).write, items, ?_, hitems,
    fun _ _ => ?_, fun _ _ => ends_sendTransactions, fun _ _ _ _ hdata hother hsame _ =>
    ?_, fun _ _ _ _ hdata hmembers hkeys => ?_⟩
  · rw [Text.Utf8.symbols_encode]
    exact hparse
  · exact sendTransactions_exchanges.sends
  · exact ends_sendTransactions_reordered hdata hother hsame
  · exact hashes_of_whole_batch hdata hmembers hkeys

namespace Batch

def proxy : Client := ⟨"", .proxy, .proxy, 1, 0, ⟨false, false⟩⟩

/-- A transaction of which nothing matters. -/
def blank : Transaction := ⟨0, "", "", "", 0, 0, [], "", "", 0, 0⟩

/-- The data of an answer with certain hashes. -/
def data (hashes : List (String × String)) : Json :=
  .obj [("txsHashes", .obj (hashes.map fun entry => (entry.1, .str entry.2)))]

def answer (hashes : List (String × String)) : Response :=
  Envelope.response ⟨data hashes, "", "successful"⟩

theorem contents?_answer (hashes : List (String × String)) :
    Envelope.contents? none (answer hashes) = some (data hashes) := by
  have hplain :
      Json.PlainMembers (Json.maxDepth - 3) (hashes.map fun entry => (entry.1, .str entry.2)) := by
    induction hashes with
    | nil => trivial
    | cons entry rest ih => exact ⟨trivial, ih⟩
  have hkept : Json.rereadMembers? (hashes.map fun entry => (entry.1, .str entry.2)) =
      some (hashes.map fun entry => (entry.1, .str entry.2)) := by
    induction hashes with
    | nil => rfl
    | cons entry rest ih => simp [Json.rereadMembers?, Json.reread?, ih hplain.2]
  exact Envelope.contents?_response ⟨hplain, trivial⟩
    (by simp [data, Json.reread?, Json.rereadMembers?, hkept]) ⟨by simp [data], rfl⟩

end Batch

open Batch in
/-- Nine comes before ten, in whatever order they are told, and a batch of two is told in full. -/
theorem batch_order_nine_ten :
    (∃ body,
      (proxy.sendTransactions []).Ends [.asked ⟨.post, "transaction/send-multiple", some body⟩
        (.ok (answer [("10", "c"), ("9", "b"), ("2", "a")]))] (.ok ["a", "b", "c"]) ∧
      (proxy.sendTransactions []).Ends [.asked ⟨.post, "transaction/send-multiple", some body⟩
        (.ok (answer [("9", "b"), ("2", "a"), ("10", "c")]))] (.ok ["a", "b", "c"])) ∧
    ∃ body,
      (proxy.sendTransactions [blank, blank]).Ends [.asked ⟨.post,
        "transaction/send-multiple", some body⟩
        (.ok (answer [("1", "b"), ("0", "a")]))] (.ok ["a", "b"]) ∧
      Json.lookup "1" [("1", .str "b"), ("0", .str "a")] = some (.str "b") := by
  have hzero : Text.Decimal.text 0 = "0" := by decide +kernel
  have hone : Text.Decimal.text 1 = "1" := by decide +kernel
  have htwo : Text.Decimal.text 2 = "2" := by decide +kernel
  have hnine : Text.Decimal.text 9 = "9" := by decide +kernel
  have hten : Text.Decimal.text 10 = "10" := by decide +kernel
  constructor
  · obtain ⟨body, _, -, -, -, hends, horder, -⟩ := batch_order proxy []
    have hdata := contents?_answer [("10", "c"), ("9", "b"), ("2", "a")]
    have hother := contents?_answer [("9", "b"), ("2", "a"), ("10", "c")]
    have harranged : SentBatch.Arranged [("10", .str "c"), ("9", .str "b"), ("2", .str "a")]
        [(2, "a"), (9, "b"), (10, "c")] := by
      refine ⟨by decide, fun key => ?_, by simp [Json.lookup, htwo, hnine, hten]⟩
      simp [htwo, hnine, hten, or_comm, or_left_comm]
    have hfirst := (hends _ _).2 ⟨_, _, _, _, rfl, hdata, trivial,
      ⟨0, by decide, .inr ⟨rfl, rfl⟩⟩, rfl,
      harranged, rfl⟩
    have hsame :
        ∀ key, [("10", Json.str "c"), ("9", .str "b"), ("2", .str "a")].filter (·.1 = key) =
        [("9", Json.str "b"), ("2", .str "a"), ("10", .str "c")].filter (·.1 = key) :=
      Json.filter_eq_of_perm
        (List.perm_append_singleton ("10", Json.str "c") [("9", .str "b"),
          ("2", .str "a")]).symm (by simp)
    exact ⟨body, hfirst,
      (horder _ _ _ _ hdata hother ⟨Iff.rfl, rfl, _, _, rfl, rfl, hsame⟩ _).1 hfirst⟩
  · obtain ⟨body, _, -, -, -, hends, -, hwhole⟩ := batch_order proxy [blank, blank]
    have hdata := contents?_answer [("1", "b"), ("0", "a")]
    have harranged :
        SentBatch.Arranged [("1", .str "b"), ("0", .str "a")] [(0, "a"), (1, "b")] := by
      refine ⟨by decide, fun key => ?_, by simp [Json.lookup, hzero, hone]⟩
      simp [hzero, hone, or_comm]
    have hends := (hends _ _).2 ⟨_, _, _, _, rfl, hdata, trivial,
      ⟨0, by decide, .inr ⟨rfl, rfl⟩⟩, rfl,
      harranged, rfl⟩
    have hkeys : ∀ key, key ∈ [("1", Json.str "b"), ("0", .str "a")].map Prod.fst ↔
        ∃ index < [blank, blank].length, key = Text.Decimal.text index := by
      intro key
      rw [List.mem_map]
      constructor
      · rintro ⟨member, hmember, rfl⟩
        rcases List.mem_cons.1 hmember with rfl | hmember
        · exact ⟨1, by decide, hone.symm⟩
        · exact ⟨0, by decide, List.mem_singleton.1 hmember ▸ hzero.symm⟩
      · rintro ⟨index, hlt, rfl⟩
        have hindex : index < 2 := hlt
        obtain rfl | rfl : index = 0 ∨ index = 1 := by omega
        · exact ⟨_, .tail _ (.head _), hzero.symm⟩
        · exact ⟨_, .head _, hone.symm⟩
    exact ⟨body, hends, hone ▸ (hwhole _ _ _ _ hdata rfl hkeys hends).2 1 "b" rfl⟩

open Batch in
/-- Where a place is told twice, the answer depends on the order of the members: the last hash
counts. -/
theorem order_of_one_place_counts :
    [("0", Json.str "a"), ("0", .str "b")].Perm [("0", .str "b"), ("0", .str "a")] ∧
    Envelope.contents? none (answer [("0", "a"), ("0", "b")]) =
      some (.obj [("txsHashes", .obj [("0", .str "a"), ("0", .str "b")])]) ∧
    Envelope.contents? none (answer [("0", "b"), ("0", "a")]) =
      some (.obj [("txsHashes", .obj [("0", .str "b"), ("0", .str "a")])]) ∧
    (proxy.sendTransactions []).Ends
      [.asked (proxy.batchRequest []) (.ok (answer [("0", "a"), ("0", "b")]))] (.ok ["b"]) ∧
    (proxy.sendTransactions []).Ends
      [.asked (proxy.batchRequest []) (.ok (answer [("0", "b"), ("0", "a")]))] (.ok ["a"]) :=
  ⟨.swap .., contents?_answer _, contents?_answer _,
    sendTransactions_exchanges.ends.2 ⟨_, rfl, by decide +kernel⟩,
    sendTransactions_exchanges.ends.2 ⟨_, rfl, by decide +kernel⟩⟩

end Client

end ShardNet
