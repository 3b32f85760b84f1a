-- SUMMARY: What a client takes for the status of a shard, and what its numbers are if the report lacks them.
import Mathlib.Data.List.Basic
import Mathlib.Tactic.Simproc.ExistsAndEq
import ShardNet.Client.Block
import ShardNet.Client.Transfer
import ShardNet.Proofs.Client.Gate
import ShardNet.Proofs.Envelope
import ShardNet.Proofs.Finality
import ShardNet.Proofs.Json.Field

/-!
# Reported numbers

A status, and the cost of a transaction, may lack any of their fields. What is not reported counts
as zero, and the client does not tell it from a reported zero: neither in a nonce, nor in the shard
that an observer must belong to.
-/

namespace ShardNet

open Json (Codec Record)

/-! ## Records of numbers -/

theorem NetworkStatus.takes_record : record.Takes 12 fun part? status =>
    Record.Supplied Codec.uint64 (some 0) (part? "erd_current_round" 0) status.currentRound ∧
    Record.Supplied Codec.uint64 (some 0) (part? "erd_epoch_number" 1) status.epochNumber ∧
    Record.Supplied Codec.uint64 (some 0) (part? "erd_nonce" 2) status.nonce ∧
    Record.Supplied Codec.uint64 (some 0) (part? "erd_nonce_at_epoch_start" 3)
      status.nonceAtEpochStart ∧
    Record.Supplied Codec.uint64 (some 0) (part? "erd_nonces_passed_in_current_epoch" 4)
      status.noncesPassedInCurrentEpoch ∧
    Record.Supplied Codec.uint64 (some 0) (part? "erd_round_at_epoch_start" 5)
      status.roundAtEpochStart ∧
    Record.Supplied Codec.uint64 (some 0) (part? "erd_rounds_passed_in_current_epoch" 6)
      status.roundsPassedInCurrentEpoch ∧
    Record.Supplied Codec.uint64 (some 0) (part? "erd_rounds_per_epoch" 7) status.roundsPerEpoch ∧
    Record.Supplied Codec.text (some "") (part? "erd_cross_check_block_height" 8)
      status.crossCheckBlockHeight ∧
    Record.Supplied Codec.uint64 (some 0) (part? "erd_highest_final_nonce" 9)
      status.highestFinalNonce ∧
    Record.Supplied Codec.uint64 (some 0) (part? "erd_probable_highest_nonce" 10)
      status.probableHighestNonce ∧
    Record.Supplied Codec.uint32 (some 0) (part? "erd_shard_id" 11) status.shardId := by
  refine Record.Takes.mono
    (Record.takes_of NetworkStatus.mk
      |>.withDefault |>.withDefault |>.withDefault |>.withDefault |>.withDefault |>.withDefault
      |>.withDefault |>.withDefault |>.withDefault |>.withDefault |>.withDefault |>.withDefault)
    fun part? status => ?_
  -- A status is built from its fields in one way, so each of them is the value taken for it.
  obtain ⟨⟩ := status
  simp [and_assoc]

/-- Where a status has its numbers from. -/
theorem NetworkStatus.counts {report : Json} {status : NetworkStatus}
    (hread : codec.read? report = some status) :
    report.Counts "erd_nonce" 2 status.nonce.toNat ∧
    report.Counts "erd_nonce_at_epoch_start" 3 status.nonceAtEpochStart.toNat ∧
    report.Counts "erd_highest_final_nonce" 9 status.highestFinalNonce.toNat ∧
    report.Counts "erd_probable_highest_nonce" 10 status.probableHighestNonce.toNat ∧
    report.Counts "erd_shard_id" 11 status.shardId.toNat := by
  obtain ⟨-, -, -, hnonce, hstart, -, -, -, -, -, hfinal, hprobable, hshard⟩ :=
    takes_record.read?_iff.1 hread
  exact ⟨hnonce.counts rfl, hstart.counts rfl, hfinal.counts rfl, hprobable.counts rfl,
    hshard.counts rfl⟩

theorem TransactionCost.takes_record : record.Takes 2 fun part? cost =>
    Record.Supplied Codec.uint64 (some 0) (part? "txGasUnits" 0) cost.gasUnits ∧
    Record.Supplied Codec.text (some "") (part? "returnMessage" 1) cost.returnMessage := by
  refine Record.Takes.mono (Record.takes_of TransactionCost.mk |>.withDefault |>.withDefault)
    fun part? cost => ?_
  obtain ⟨⟩ := cost
  simp

theorem TransactionCost.counts {data : Json} {cost : TransactionCost}
    (hread : codec.read? data = some cost) :
    data.Counts "txGasUnits" 0 cost.gasUnits.toNat := by
  obtain ⟨-, hunits, -⟩ := takes_record.read?_iff.1 hread
  exact hunits.counts rfl

namespace Client

variable {client : Client} {shard : ShardId} {trace : Trace Request Answer}

/-! ## Answers -/

theorem told_eq_ok_iff {α : Type} {codec : Codec α} {field : Option String}
    {answer : Answer} {value : α} :
    told codec field answer = .ok value ↔ ∃ response json, answer = .ok response ∧
      Envelope.contents? field response = some json ∧ codec.read? json = some value := by
  cases answer with
  | error cause => simp [told]
  | ok response =>
      simp [told, Call.mapError_eq_ok_iff, Envelope.decode_eq_ok_iff]

/-- In the only exchange of a trace a client gets a report, and takes it for the status of a
shard. -/
structure ReadsStatus (client : Client) (shard : ShardId) (trace : Trace Request Answer)
    (report : Json) (status : NetworkStatus) : Prop where
  asked : ∃ response, trace = [.asked (client.getRequest (.networkStatus shard)) (.ok response)] ∧
    Envelope.contents? (some (statusField client.entity)) response = some report
  reads : NetworkStatus.codec.read? report = some status
  /-- An observer has to belong to the shard. -/
  shard : client.entity = .observer → status.shardId = shard

theorem statusTold_eq_ok_iff {answer : Answer} {status : NetworkStatus} :
    client.statusTold shard answer = .ok status ↔
      told NetworkStatus.codec (some (statusField client.entity)) answer = .ok status ∧
        (client.entity = .observer → status.shardId = shard) := by
  have hchecks : Route.checksShard client.entity ↔ client.entity = .observer := by
    cases client.entity <;> simp [Route.checksShard]
  unfold statusTold
  cases told NetworkStatus.codec (some (statusField client.entity)) answer with
  | error cause => simp [bind, Except.bind]
  | ok found =>
      simp only [hchecks, bind, Except.bind, pure, Except.pure]
      split
      · next hother =>
        simp only [reduceCtorEq, false_iff, not_and]
        rintro ⟨⟩ hsame
        exact hother.2 (hsame hother.1)
      · next hsame =>
        simp only [Except.ok.injEq]
        grind

theorem ends_networkStatus {status : NetworkStatus} :
    (client.networkStatus shard).Ends trace (.ok status) ↔
    ∃ report, client.ReadsStatus shard trace report status := by
  simp only [networkStatus_exchanges.ends, eq_comm (a := Except.ok status), statusTold_eq_ok_iff,
    told_eq_ok_iff]
  constructor
  · rintro ⟨answer, rfl, ⟨response, report, rfl, hcontents, hreads⟩, hshard⟩
    exact ⟨report, ⟨response, rfl, hcontents⟩, hreads, hshard⟩
  · rintro ⟨report, ⟨response, rfl, hcontents⟩, hreads, hshard⟩
    exact ⟨_, rfl, ⟨response, report, rfl, hcontents, hreads⟩, hshard⟩

/-! ## Numbers -/

/-- A call that takes one number out of a status. -/
theorem ends_statusNumber {pick : NetworkStatus → UInt64} {key : String} {place : Nat}
    {number : UInt64}
    (hcounts : ∀ report status, NetworkStatus.codec.read? report = some status →
      report.Counts key place (pick status).toNat) :
    (do return pick (← client.networkStatus shard) : Operation UInt64).Ends trace (.ok number) ↔
      ∃ report status, client.ReadsStatus shard trace report status ∧
        report.Counts key place number.toNat := by
  refine Call.ends_bind_pure_ok.trans ?_
  simp only [ends_networkStatus]
  constructor
  · rintro ⟨status, ⟨report, hread⟩, rfl⟩
    exact ⟨report, status, hread, hcounts report status hread.reads⟩
  · rintro ⟨report, status, hread, hnumber⟩
    have hsame := (hcounts report status hread.reads).unique hnumber
    exact ⟨status, ⟨report, hread⟩, UInt64.toNat_inj.1 hsame⟩

theorem ends_transactionCost {tx : Transaction} {cost : TransactionCost} :
    (client.transactionCost tx).Ends trace (.ok cost) ↔ ∃ response data,
      trace = [.asked (client.postRequest .transactionCost (Transaction.codec.write tx))
        (.ok response)] ∧ Envelope.contents? none response = some data ∧
        TransactionCost.codec.read? data = some cost := by
  simp only [transactionCost, post_exchanges.ends, eq_comm (a := Except.ok cost), told_eq_ok_iff]
  constructor
  · rintro ⟨answer, rfl, response, data, rfl, hcontents, hread⟩
    exact ⟨response, data, rfl, hcontents, hread⟩
  · rintro ⟨response, data, rfl, hcontents, hread⟩
    exact ⟨_, rfl, response, data, rfl, hcontents, hread⟩

/-- A check by what the observer reports of itself. -/
theorem ends_checkShardFinality_observer (hpolicy : client.policy = .observer) :
    (client.checkShardFinality shard).Ends trace (.ok ()) ↔ 1 ≤ client.delta.toNat ∧
      ∃ status, (client.networkStatus shard).Ends trace (.ok status) ∧
        Finality.judgeObserver shard status client.delta = .ok () := by
  rw [← Finality.checkDelta_eq_ok_iff]
  cases hdelta : Finality.checkDelta client.delta with
  | error fault =>
      rw [checkShardFinality_invalidDelta (by simp [hpolicy]) hdelta]
      simp
  | ok =>
      rw [checkShardFinality, hpolicy, Finality.check_observer hdelta,
        Finality.ends_bind_conclude_ok]
      exact (and_iff_right rfl).symm

/-- The numbers by which an observer is trusted. -/
theorem ends_checkShardFinality_counts (hpolicy : client.policy = .observer) :
    (client.checkShardFinality shard).Ends trace (.ok ()) ↔ 1 ≤ client.delta.toNat ∧
      ∃ report status nonce final probable, client.ReadsStatus shard trace report status ∧
        report.Counts "erd_nonce" 2 nonce ∧ report.Counts "erd_highest_final_nonce" 9 final ∧
        report.Counts "erd_probable_highest_nonce" 10 probable ∧
        ¬ (nonce = 0 ∧ final = 0 ∧ probable = 0) ∧
        probable ≤ nonce + client.delta.toNat ∧ nonce ≤ final + client.delta.toNat := by
  simp only [ends_checkShardFinality_observer hpolicy, ends_networkStatus,
    Finality.judgeObserver_eq_ok_iff]
  refine and_congr_right fun _ => ?_
  constructor
  · rintro ⟨status, ⟨report, hread⟩, hjudged⟩
    obtain ⟨hnonce, -, hfinal, hprobable, -⟩ := NetworkStatus.counts hread.reads
    exact ⟨report, status, _, _, _, hread, hnonce, hfinal, hprobable, hjudged⟩
  · rintro ⟨report, status, nonce, final, probable, hread, hnonce, hfinal, hprobable, hjudged⟩
    obtain ⟨hnonce', -, hfinal', hprobable', -⟩ := NetworkStatus.counts hread.reads
    obtain rfl := hnonce.unique hnonce'
    obtain rfl := hfinal.unique hfinal'
    obtain rfl := hprobable.unique hprobable'
    exact ⟨status, ⟨report, hread⟩, hjudged⟩

/-- What is reported counts, and what is not counts as zero: in the nonces that a client takes out
of a status, in the cost of a transaction, and in the nonces by which an observer is judged. -/
theorem unreported_counts_zero (client : Client) :
    (∀ trace nonce, client.latestHyperblockNonce.Ends trace (.ok nonce) ↔
      ∃ report status, client.ReadsStatus .metachain trace report status ∧
        report.Counts "erd_nonce" 2 nonce.toNat) ∧
    (∀ shard trace nonce, (client.nonceAtEpochStart shard).Ends trace (.ok nonce) ↔
      ∃ report status, client.ReadsStatus shard trace report status ∧
        report.Counts "erd_nonce_at_epoch_start" 3 nonce.toNat) ∧
    (∀ tx trace (units : UInt64),
      (∃ cost, (client.transactionCost tx).Ends trace (.ok cost) ∧ cost.gasUnits = units) ↔
        ∃ response data cost,
          trace = [.asked (client.postRequest .transactionCost (Transaction.codec.write tx))
            (.ok response)] ∧ Envelope.contents? none response = some data ∧
            TransactionCost.codec.read? data = some cost ∧
            data.Counts "txGasUnits" 0 units.toNat) ∧
    (client.policy = .observer → ∀ shard trace,
      (client.checkShardFinality shard).Ends trace (.ok ()) ↔
      1 ≤ client.delta.toNat ∧
        ∃ report status nonce final probable, client.ReadsStatus shard trace report status ∧
          report.Counts "erd_nonce" 2 nonce ∧ report.Counts "erd_highest_final_nonce" 9 final ∧
          report.Counts "erd_probable_highest_nonce" 10 probable ∧
          ¬ (nonce = 0 ∧ final = 0 ∧ probable = 0) ∧
          probable ≤ nonce + client.delta.toNat ∧ nonce ≤ final + client.delta.toNat) := by
  refine ⟨fun trace nonce => ends_statusNumber fun _ _ hread => (NetworkStatus.counts hread).1,
    fun shard trace nonce => ends_statusNumber fun _ _ hread => (NetworkStatus.counts hread).2.1,
    fun tx trace units => ?_, fun hpolicy shard trace => ends_checkShardFinality_counts hpolicy⟩
  simp only [ends_transactionCost]
  constructor
  · rintro ⟨cost, ⟨response, data, htrace, hcontents, hread⟩, rfl⟩
    exact ⟨response, data, cost, htrace, hcontents, hread, TransactionCost.counts hread⟩
  · rintro ⟨response, data, cost, htrace, hcontents, hread, hunits⟩
    have hsame := (TransactionCost.counts hread).unique hunits
    exact ⟨cost, ⟨response, data, htrace, hcontents, hread⟩, UInt64.toNat_inj.1 hsame⟩

namespace Unreported

def proxy : Client := ⟨"", .proxy, .proxy, 1, 0, ⟨false, false⟩⟩

def observer : Client := ⟨"", .observer, .observer, 1, 0, ⟨false, false⟩⟩

/-- A response with one member in its data, an object with certain members. -/
def response (field members : String) : Response :=
  let data := "\x7b\"" ++ field ++ "\":\x7b" ++ members ++ "\x7d\x7d"
  ⟨200, Text.Utf8.encode ("\x7b\"data\":" ++ data ++ ",\"error\":\"\"\x7d").toList⟩

/-- The trace of one question for the status of a shard. -/
def asked (client : Client) (shard : ShardId) (response : Response) : Trace Request Answer :=
  [.asked (client.getRequest (.networkStatus shard)) (.ok response)]

/-- The status that is read if nothing is reported. -/
def nothing : NetworkStatus := ⟨0, 0, 0, 0, 0, 0, 0, 0, "", 0, 0, 0⟩

theorem exists_lacking {field key members : String} {place : Nat}
    (h : (Envelope.contents? (some field) (response field members)).any
      (fun json => (json.part? key place).isNone) = true) :
    ∃ json, Envelope.contents? (some field) (response field members) = some json ∧
      json.Lacks key place := by
  obtain ⟨json, hjson, hnone⟩ := (Option.any_eq_true ..).1 h
  exact ⟨json, hjson, Option.isNone_iff_eq_none.1 hnone⟩

end Unreported

open Unreported in
/-- An observer that reports its head and its final block, both the fifth one, passes the check
without a probable head. -/
theorem unreported_counts_zero_probable : observer.policy = .observer ∧
    (observer.checkShardFinality 0).Ends
      (asked observer 0 (response "metrics" "\"erd_nonce\":5,\"erd_highest_final_nonce\":5"))
        (.ok ()) := by
  have hstatus : (observer.networkStatus 0).Ends
      (asked observer 0 (response "metrics" "\"erd_nonce\":5,\"erd_highest_final_nonce\":5"))
      (.ok { nothing with nonce := 5, highestFinalNonce := 5 }) :=
    networkStatus_exchanges.ends.2 ⟨_, rfl, by decide +kernel⟩
  obtain ⟨report, hread⟩ := ends_networkStatus.1 hstatus
  obtain ⟨hnonce, -, hfinal, hprobable, -⟩ := NetworkStatus.counts hread.reads
  exact ⟨rfl, ((unreported_counts_zero observer).2.2.2 rfl 0 _).2 ⟨by decide, report, _,
    _, _, _, hread, hnonce, hfinal, hprobable, by decide, by decide, by decide⟩⟩

open Unreported in
/-- From a proxy that reports nothing of the metachain, the nonce of the latest hyperblock is
zero. -/
theorem unreported_nonce_is_zero :
    (∃ report, Envelope.contents? (some "status") (response "status" "") = some report ∧
      report.Lacks "erd_nonce" 2) ∧
    proxy.latestHyperblockNonce.Ends (asked proxy .metachain (response "status" "")) (.ok 0) := by
  refine ⟨exists_lacking (by decide +kernel), Call.ends_bind_pure_ok.2 ⟨nothing, ?_, rfl⟩⟩
  exact networkStatus_exchanges.ends.2 ⟨_, rfl, by decide +kernel⟩

/-! ## The shard of an observer -/

/-- The only act of a trace is a question for the status of an observer, and what is found in the
answer is as `told` says. -/
def ObserverTells (trace : Trace Request Answer) (told : Json → Prop) : Prop :=
  ∃ response metrics, trace = [.asked ⟨.get, "node/status", none⟩ (.ok response)] ∧
    Envelope.contents? (some "metrics") response = some metrics ∧ told metrics

theorem ObserverTells.mono {told known : Json → Prop} (h : ObserverTells trace told)
    (himp : ∀ metrics, told metrics → known metrics) : ObserverTells trace known := by
  obtain ⟨response, metrics, htrace, hcontents, htold⟩ := h
  exact ⟨response, metrics, htrace, hcontents, himp metrics htold⟩

theorem ends_networkStatus_observer (hentity : client.entity = .observer) {status : NetworkStatus} :
    (client.networkStatus shard).Ends trace (.ok status) ↔ ObserverTells trace fun metrics =>
      NetworkStatus.codec.read? metrics = some status ∧
        metrics.Counts "erd_shard_id" 11 shard.toNat := by
  have hrequest : client.getRequest (.networkStatus shard) = ⟨.get, "node/status", none⟩ := by
    rw [getRequest, hentity]
    rfl
  have hfield : statusField client.entity = "metrics" := by
    rw [hentity]
    rfl
  rw [ends_networkStatus]
  constructor
  · rintro ⟨metrics, ⟨response, htrace, hcontents⟩, hreads, hshard⟩
    have hcounts := (NetworkStatus.counts hreads).2.2.2.2
    rw [hshard hentity] at hcounts
    exact ⟨response, metrics, hrequest ▸ htrace, hfield ▸ hcontents, hreads, hcounts⟩
  · rintro ⟨response, metrics, htrace, hcontents, hreads, hcounts⟩
    have hshard := (NetworkStatus.counts hreads).2.2.2.2.unique hcounts
    exact ⟨metrics, ⟨response, hrequest ▸ htrace, hfield ▸ hcontents⟩, hreads,
      fun _ => UInt32.toNat_inj.1 hshard⟩

/-- The status of an observer is taken for that of a shard exactly if it reports this shard, or if
the shard is the one with the number zero and the observer reports none. So it is with all that a
client makes of the status. The metachain has another number, and an observer must report it. -/
theorem observer_shard_counts (client : Client) (hentity : client.entity = .observer)
    (shard : ShardId) :
    (∀ trace status, (client.networkStatus shard).Ends trace (.ok status) ↔
      ObserverTells trace fun metrics => NetworkStatus.codec.read? metrics = some status ∧
        (metrics.Reports "erd_shard_id" 11 shard.toNat ∨
          metrics.Lacks "erd_shard_id" 11 ∧ shard.toNat = 0)) ∧
    (∀ trace nonce, client.latestHyperblockNonce.Ends trace (.ok nonce) →
      ObserverTells trace (·.Reports "erd_shard_id" 11 ShardId.metachain.toNat)) ∧
    (∀ trace nonce, (client.nonceAtEpochStart shard).Ends trace (.ok nonce) →
      ObserverTells trace (·.Counts "erd_shard_id" 11 shard.toNat)) ∧
    (client.policy = .observer → ∀ trace, (client.checkShardFinality shard).Ends trace (.ok ()) →
      ObserverTells trace (·.Counts "erd_shard_id" 11 shard.toNat)) := by
  refine ⟨fun _ _ => ends_networkStatus_observer hentity, fun trace nonce hends => ?_,
    fun trace nonce hends => ?_, fun hpolicy trace hends => ?_⟩
  · obtain ⟨status, hstatus, -⟩ := Call.ends_bind_pure_ok.1 hends
    refine ((ends_networkStatus_observer hentity).1 hstatus).mono fun metrics htold => ?_
    exact htold.2.resolve_right fun hnone => absurd hnone.2 (by decide)
  · obtain ⟨status, hstatus, -⟩ := Call.ends_bind_pure_ok.1 hends
    exact ((ends_networkStatus_observer hentity).1 hstatus).mono fun _ => And.right
  · obtain ⟨-, status, hstatus, -⟩ := (ends_checkShardFinality_observer hpolicy).1 hends
    exact ((ends_networkStatus_observer hentity).1 hstatus).mono fun _ => And.right

open Unreported in
/-- An observer that says it belongs to the shard with the number one tells its status as that of
this shard. -/
theorem observer_shard_counts_other : observer.entity = .observer ∧
    ObserverTells (asked observer 1 (response "metrics" "\"erd_shard_id\":1"))
      fun metrics => NetworkStatus.codec.read? metrics = some { nothing with shardId := 1 } ∧
        (metrics.Reports "erd_shard_id" 11 1 ∨ metrics.Lacks "erd_shard_id" 11 ∧ 1 = 0) := by
  refine ⟨rfl, ((observer_shard_counts observer rfl 1).1 _ _).1 ?_⟩
  exact networkStatus_exchanges.ends.2 ⟨_, rfl, by decide +kernel⟩

open Unreported in
/-- An observer that reports no shard is taken for one of the shard with the number zero. -/
theorem unreported_shard_accepted :
    (∃ metrics, Envelope.contents? (some "metrics") (response "metrics" "") = some metrics ∧
      metrics.Lacks "erd_shard_id" 11) ∧
    (observer.networkStatus 0).Ends (asked observer 0 (response "metrics" "")) (.ok nothing) :=
  ⟨exists_lacking (by decide +kernel), networkStatus_exchanges.ends.2 ⟨_, rfl, by decide +kernel⟩⟩

end Client

end ShardNet
