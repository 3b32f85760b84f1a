-- SUMMARY: When the nonce of a sender is fetched anew after a transfer that could not be sent.
import ShardNet.Proofs.Nonce.Aftermath
import ShardNet.Proofs.Nonce.Session
import ShardNet.Proofs.Nonce.Source

/-!
# Transfers that cannot be sent

A transfer whose transaction cannot be sent gives its nonce up. Where this nonce is the only one
that is out since the sender was last in step with the network, the book forgets the sender, and the
next transfer fetches the nonce of the account anew. Where an earlier transfer has succeeded since
then, or has left its nonce as a gap, the book goes on from what it knows.

`lone_failure_resyncs_iff` says of every run of transfers when the next one of the sender fetches
its nonce.
-/

namespace ShardNet.Client

open Holding

/-- A transfer whose transaction was posted returns what it was told then. -/
theorem result_of_posted {client : Client} {signer : Signer} {receiver : Address} {value : String}
    {trace : Trace Request Answer} {tx : Transaction} {answer : Answer}
    {result : Except Error String} (h : (client.transfer signer receiver value).Ends trace result)
    (hposted : .asked (client.sendRequest tx) answer ∈ trace) :
    result = told Json.Codec.text (some "txHash") answer := by
  have hdrafting : ∀ {front drafted}, (client.draft signer receiver value).Ends front drafted →
      .asked (client.sendRequest tx) answer ∉ front := by
    intro front drafted hdraft hmem
    obtain ⟨before, after, rfl⟩ := List.append_of_mem hmem
    cases method_of_sends_draft hdraft.sends
  rw [transfer_eq] at h
  obtain ⟨cause, hdraft, -⟩ | ⟨front, back, drafted, rfl, hdraft, hdispatch⟩ := Call.ends_bind.1 h
  · exact absurd hposted (hdrafting hdraft)
  have hback := (List.mem_append.1 hposted).resolve_left (hdrafting hdraft)
  have habandon : ∀ {trace sender nonce}, NonceAbandoned sender nonce trace →
      (.asked (client.sendRequest tx) answer : Act Request Answer) ∉ trace := by
    intro trace sender nonce habandoned
    cases habandoned <;> simp
  generalize signer.key.signTransaction drafted = signed at hdispatch
  cases ends_dispatch.1 hdispatch with
  | unsigned habandoned => exact absurd hback (habandon habandoned)
  | sent htold =>
      obtain ⟨-, rfl⟩ := Act.asked.inj (List.mem_singleton.1 hback)
      exact htold.symm
  | unsent htold habandoned =>
      obtain ⟨-, rfl⟩ := Act.asked.inj ((List.mem_cons.1 hback).resolve_right (habandon habandoned))
      exact htold.symm

variable {τ κ : Type} [DecidableEq τ] [DecidableEq κ] {client : Client} {orders : τ → Order}
  {others : κ → Bystander} {history between : History Request Answer (τ ⊕ κ)}
  {pool failed last : Pool Request Answer (@Outcome τ κ)} {t : τ} {tx : Transaction}
  {answer : Answer} {cause : Error} {nonce : UInt64}

/-- The transaction of a transfer cannot be sent, and by then every other transfer to which a nonce
of the sender was handed out is over. -/
structure LoneFailure (client : Client) (orders : τ → Order)
    (history : History Request Answer (τ ⊕ κ)) (pool failed : Pool Request Answer (@Outcome τ κ))
    (t : τ) (tx : Transaction) (answer : Answer) (cause : Error) : Prop where
  step : Step pool (.answered (.inl t) (client.sendRequest tx) answer) failed
  unsent : told Json.Codec.text (some "txHash") answer = .error cause
  alone : ∀ u ≠ t, ∀ nonce, history.HandedOut (.inl u) (orders t).signer.address nonce →
    pool.isOver (.inl u)

/-- After the failure, the transfer is left with its nonce, and no other call of the sender is at
work. -/
theorem LoneFailure.aftermath {clock : Moment} {cache : ConfigCache}
    (failure : LoneFailure client orders history pool failed t tx answer cause)
    (elsewhere : ∀ k, (others k).sender ≠ (orders t).signer.address)
    (run : Run (.begin ⟨clock, cache, .empty⟩ (client.calls orders others)) history pool)
    (after : Run failed between last)
    (room : History.HasRoom
      (history ++ .answered (.inl t) (client.sendRequest tx) answer :: between))
    (quiet : ∀ i nonce, ¬ between.HandedOut i (orders t).signer.address nonce) :
    ∃ stage r, pool.memory.nonces.reservation? (orders t).signer.address = some r ∧
      r.Covers tx.nonce ∧ Accounted (senderOf orders others) client.Posts CallEnds
        (history ++ .answered (.inl t) (client.sendRequest tx) answer :: between) last stage ∧
      Aftermath (.inl t) (orders t).signer.address tx.nonce r between (stage (.inl t))
        (last.memory.nonces.reservation? (orders t).signer.address) := by
  rw [List.append_cons] at room ⊢
  obtain ⟨stage, h⟩ := Accounted.of_run calls_follow run room.left.left
  obtain ⟨next, hasks, hlater⟩ := failure.step.of_answered
  obtain ⟨other, _, hposted, hcarrying⟩ :=
    transfer_posting h run (isPosting_iff.2 ⟨_, next, hasks, rfl⟩)
  obtain ⟨hrequest, -⟩ := Program.ask.inj (Option.some.inj (hasks.symm.trans hposted))
  obtain rfl := sendRequest_injective hrequest
  obtain ⟨r, hslot, hcovers⟩ := h.ledger.covered (i := .inl t) (by rw [hcarrying]; rfl)
  obtain ⟨stage', hmoves, hfailed⟩ := h.step failure.step room.left
  have halone : pool.LeavesAlone (senderOf orders others) stage (.inl t) := by
    rintro (u | k) nonce hne hsame hheld
    · have hhanded := h.recorded.held hheld
      rw [hsame] at hhanded
      exact failure.alone u (fun hut => hne (congrArg Sum.inl hut)) nonce hhanded
    · exact absurd hsame (elsewhere k)
  have hposted : stage' (.inl t) = .posted tx.nonce ∧
      failed.LeavesAlone (senderOf orders others) stage' (.inl t) := by
    cases hmoves with
    | answered hasked =>
        rw [hcarrying] at hasked
        cases hasked with
        | carrying =>
            refine ⟨Function.update_self .., halone.step failure.step fun j nonce hne _ hheld => ?_⟩
            rwa [Function.update_of_ne hne] at hheld
  have hslot' : failed.memory.nonces.reservation? (senderOf orders others (.inl t)) = some r := by
    rw [hlater]
    exact hslot
  obtain ⟨stage'', hlast, haftermath⟩ :=
    Aftermath.of_run hfailed hposted.2 hposted.1 hslot' after room quiet
  exact ⟨stage'', r, hslot, hcovers, hlast, haftermath⟩

/-- In every run of transfers: after the transaction of a transfer could not be sent, while no other
transfer with a nonce of the sender was under way, and until another nonce of the sender is handed
out, the transfer returns its failure only after it has begun to give its nonce up, and the book has
forgotten the sender just if this is so and the nonce was all that was out since the sender was last
in step with the network. In this case the next transfer that is handed a nonce has just fetched it.
Otherwise it is handed the nonce that the book has, and asks for no account. -/
theorem lone_failure_resyncs_iff {clock : Moment} {cache : ConfigCache}
    (elsewhere : ∀ k, (others k).sender ≠ (orders t).signer.address)
    (run : Run (.begin ⟨clock, cache, .empty⟩ (client.calls orders others)) history pool)
    (failure : LoneFailure client orders history pool failed t tx answer cause)
    (after : Run failed between last)
    (room : History.HasRoom
      (history ++ .answered (.inl t) (client.sendRequest tx) answer :: between))
    (quiet : ∀ i nonce, ¬ between.HandedOut i (orders t).signer.address nonce) :
    let sender := (orders t).signer.address
    let past := history ++ .answered (.inl t) (client.sendRequest tx) answer :: between
    ∃ tally, history.tally sender = some tally ∧ tx.nonce ∈ tally.outstanding ∧
      (∀ result, last.rest (.inl t) = some (.done result) →
        result = .error cause ∧ between.GaveUp (.inl t) sender tx.nonce) ∧
      (last.memory.nonces.peek sender = none ↔
        between.GaveUp (.inl t) sender tx.nonce ∧ tally.outstanding = [tx.nonce]) ∧
      ∀ event final u nonce, Step last event final → HandsOut event (.inl u) sender nonce →
        last.memory.nonces.peek sender = none ∧ client.Fetched sender (past.trace (.inl u)) nonce ∨
        last.memory.nonces.peek sender = some nonce ∧ client.Unasked (past.trace (.inl u)) := by
  intro sender past
  obtain ⟨stage, r, hslot, hcovers, h, haftermath⟩ :=
    failure.aftermath elsewhere run after room quiet
  have whole : Run (.begin ⟨clock, cache, .empty⟩ (client.calls orders others)) past last := by
    have hrun := (run.snoc failure.step).trans after
    rwa [List.append_assoc] at hrun
  have hrel := Accounted.tally_exact calls_follow run room.left sender
  rw [hslot] at hrel
  generalize history.tally sender = told at hrel
  cases hrel with
  | @some tally _ hexact =>
      refine ⟨tally, rfl, ?_, fun result hdone => ?_, ?_, fun event final u nonce step hout => ?_⟩
      · rw [hexact.mem_outstanding _ hexact.room, UInt64.le_iff_toNat_le, UInt64.lt_iff_toNat_lt]
        obtain ⟨hbelow, habove⟩ := hcovers
        have hnext := hexact.toNat_next hexact.room
        have hissued := (hexact.issued_iff hexact.room r.issued).1 rfl
        omega
      · have hasked : .asked (client.sendRequest tx) answer ∈ past.trace (.inl t) :=
          History.mem_trace_asked.2 (by simp [past])
        obtain rfl := (result_of_posted (whole.ends_trace hdone) hasked).trans failure.unsent
        refine ⟨rfl, ?_⟩
        obtain hend | hend : stage (.inl t) = .outside ∨ stage (.inl t) = .ended :=
          h.keeps _ _ hdone
        · rw [hend] at haftermath
          cases haftermath
        · rw [hend] at haftermath
          exact haftermath.gaveUp
      · rw [NonceBook.peek, Option.map_eq_none_iff, haftermath.slot_eq_none_iff,
          hexact.isSole_iff hexact.room]
      · exact (transfer_handed h whole step hout).2

/-! ### A transfer that cannot be sent -/

/-- A failure in a run that was computed. -/
theorem LoneFailure.of_next? {clock : Moment} {cache : ConfigCache}
    {event : Event Request Answer (τ ⊕ κ)}
    (run : Run (.begin ⟨clock, cache, .empty⟩ (client.calls orders others)) history pool)
    (room : history.HasRoom) (hposting : isPosting pool t)
    (hnext : pool.next? (.answer (.inl t) answer) = some (event, failed))
    (hunsent : told Json.Codec.text (some "txHash") answer = .error cause)
    (hhanded : history.HandedOut (.inl t) (orders t).signer.address nonce)
    (halone : ∀ out ∈ history.filterMap Event.handed?, out.1 = .inl t ∨ pool.isOver out.1) :
    ∃ tx, tx.nonce = nonce ∧ event = .answered (.inl t) (client.sendRequest tx) answer ∧
      LoneFailure client orders history pool failed t tx answer cause := by
  obtain ⟨stage, h⟩ := Accounted.of_run calls_follow run room
  obtain ⟨tx, next, hrest, hcarrying⟩ := transfer_posting h run hposting
  obtain rfl : tx.nonce = nonce := by
    obtain ⟨-, hended | hheld⟩ := h.recorded.handed hhanded
    · cases hcarrying.symm.trans hended
    · rw [hcarrying] at hheld
      exact Option.some.inj hheld
  have step := step_iff_next?.2 ⟨_, hnext⟩
  simp only [Pool.next?, hrest, Option.some.injEq, Prod.mk.injEq] at hnext
  obtain ⟨rfl, -⟩ := hnext
  refine ⟨tx, rfl, rfl, step, hunsent, fun u hut nonce hhanded => ?_⟩
  exact (halone _ (History.handedOut_iff.1 hhanded)).resolve_left fun hsame =>
    hut (Sum.inl.inj hsame)

open Twice in
/-- The only transfer of its sender cannot be sent and fails, and the next one has fetched the nonce
anew. -/
theorem lone_failure_resyncs_iff_twice :
    ∃ history pool failed tx answer cause between last event final,
      Run first history pool ∧
      LoneFailure Twice.client (fun _ => order) history pool failed false tx answer cause ∧
      Run failed between last ∧ (∀ i nonce, ¬ between.HandedOut i order.signer.address nonce) ∧
      last.failed (.inl false) ∧ Step last event final ∧
      HandsOut event (.inl true) order.signer.address 5 ∧
      last.memory.nonces.peek order.signer.address = none ∧
      Twice.client.Fetched order.signer.address (History.trace
        (history ++ .answered (.inl false) (Twice.client.sendRequest tx) answer :: between)
          (.inl true)) 5 := by
  have hall : (first.follow? (fetched false ++ List.replicate 2 (.step (.inl false)))).any
      fun (history, pool) => (pool.next? (.answer (.inl false) (.error (.noAnswer true)))).any
        fun (failure, failed) => (failed.follow? (.step (.inl false) :: fetched true)).any
          fun (between, last) => (last.next? (.step (.inl true))).any fun (event, _) =>
            isPosting pool false ∧ history.HandedOut (.inl false) order.signer.address 5 ∧
            (∀ out ∈ history.filterMap Event.handed?, out.1 = .inl false ∨ pool.isOver out.1) ∧
            History.HasRoom (history ++ failure :: between) ∧ between.filterMap Event.handed? = [] ∧
            last.failed (.inl false) ∧ HandsOut event (.inl true) order.signer.address 5 ∧
            last.memory.nonces.peek order.signer.address = none := by
    decide +kernel
  obtain ⟨⟨history, pool⟩, hfollow, hall⟩ := (Option.any_eq_true ..).1 hall
  obtain ⟨⟨failure, failed⟩, hfailure, hall⟩ := (Option.any_eq_true ..).1 hall
  obtain ⟨⟨between, last⟩, hbetween, hall⟩ := (Option.any_eq_true ..).1 hall
  obtain ⟨⟨event, final⟩, hnext, hall⟩ := (Option.any_eq_true ..).1 hall
  obtain ⟨hposting, hhanded, halone, hroom, hnone, hfailed, hout, hpeek⟩ := of_decide_eq_true hall
  have run := Run.of_follow? hfollow
  obtain ⟨tx, -, rfl, hlone⟩ :=
    LoneFailure.of_next? run hroom.left hposting hfailure rfl hhanded halone
  have onward := Run.of_follow? hbetween
  have step := step_iff_next?.2 ⟨_, hnext⟩
  have quiet := History.not_handedOut_of_nil hnone order.signer.address
  obtain ⟨_, -, -, -, -, hhanded⟩ := lone_failure_resyncs_iff nofun run hlone onward hroom quiet
  obtain ⟨-, hfetched⟩ | ⟨hknown, -⟩ := hhanded event final true 5 step hout
  · exact ⟨history, pool, failed, tx, _, _, between, last, event, final, run, hlone, onward, quiet,
      hfailed, step, hout, hpeek, hfetched⟩
  · cases hpeek.symm.trans hknown

open Thrice in
/-- After a transfer that has succeeded, one that cannot be sent does not make the book forget the
sender: it has failed and given its nonce back, and the next transfer is handed the same one without
a fetch. -/
theorem lone_failure_keeps_counter :
    ∃ history pool failed tx answer cause between last event final,
      Run start history pool ∧
      LoneFailure Twice.client (fun _ => Twice.order) history pool failed .two tx answer cause ∧
      tx.nonce = 6 ∧ pool.succeeded (.inl .one) ∧ Run failed between last ∧
      (∀ i nonce, ¬ between.HandedOut i Twice.order.signer.address nonce) ∧
        last.failed (.inl .two) ∧
      last.memory.nonces.peek Twice.order.signer.address = some 6 ∧ Step last event final ∧
      HandsOut event (.inl .three) Twice.order.signer.address 6 ∧
      Twice.client.Unasked (History.trace
        (history ++ .answered (.inl .two) (Twice.client.sendRequest tx) answer :: between)
          (.inl .three)) := by
  have hall : (start.follow? before).any fun (history, pool) =>
      (pool.next? failure).any fun (failing, failed) =>
        (failed.follow? after).any fun (between, last) =>
          (last.next? (.step (.inl .three))).any fun (event, _) =>
            isPosting pool .two ∧ history.HandedOut (.inl .two) Twice.order.signer.address 6 ∧
            (∀ out ∈ history.filterMap Event.handed?, out.1 = .inl .two ∨ pool.isOver out.1) ∧
            pool.succeeded (.inl .one) ∧ History.HasRoom (history ++ failing :: between) ∧
              between.filterMap Event.handed? = [] ∧
            last.failed (.inl .two) ∧ last.memory.nonces.peek Twice.order.signer.address = some 6 ∧
            HandsOut event (.inl .three) Twice.order.signer.address 6 := by
    decide +kernel
  obtain ⟨⟨history, pool⟩, hfollow, hall⟩ := (Option.any_eq_true ..).1 hall
  obtain ⟨⟨failing, failed⟩, hfailing, hall⟩ := (Option.any_eq_true ..).1 hall
  obtain ⟨⟨between, last⟩, hbetween, hall⟩ := (Option.any_eq_true ..).1 hall
  obtain ⟨⟨event, final⟩, hnext, hall⟩ := (Option.any_eq_true ..).1 hall
  obtain ⟨hposting, hhanded, halone, hsucceeded, hroom, hnone, hfailed, hpeek, hout⟩ :=
    of_decide_eq_true hall
  have run := Run.of_follow? hfollow
  obtain ⟨tx, hnonce, rfl, hlone⟩ :=
    LoneFailure.of_next? run hroom.left hposting hfailing rfl hhanded halone
  have onward := Run.of_follow? hbetween
  have step := step_iff_next?.2 ⟨_, hnext⟩
  have whole := (run.snoc hlone.step).trans onward
  rw [List.append_assoc] at whole
  obtain ⟨stage, h⟩ := Accounted.of_run calls_follow whole hroom
  obtain ⟨-, ⟨hforgotten, -⟩ | ⟨-, hunasked⟩⟩ := transfer_handed h whole step hout
  · cases hpeek.symm.trans hforgotten
  · exact ⟨history, pool, failed, tx, _, _, _, last, event, final, run, hlone, hnonce,
      hsucceeded, onward, History.not_handedOut_of_nil hnone _, hfailed, hpeek, step,
      hout, hunasked⟩

end ShardNet.Client
