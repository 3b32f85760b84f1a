-- SUMMARY: Transfers of a sender that take turns carry consecutive nonces, however many of them fail.
import Mathlib.Data.Fintype.Card
import ShardNet.Proofs.Nonce.Gapless
import ShardNet.Proofs.Nonce.Source

/-!
# Transfers that take turns

The transfers of one sender are made one after the other, while transfers of other senders and other
calls go on at any time. Accounts may not be told, transactions not signed or not sent, and whatever
is answered, each transfer posts the nonce that the network expects next: the one that was fetched
last, and one more for each transfer that has succeeded since.
-/

namespace ShardNet.Client

open Holding

variable {τ κ : Type} [DecidableEq τ] [DecidableEq κ] {client : Client} {orders : τ → Order}
  {others : κ → Bystander} {history : History Request Answer (τ ⊕ κ)}
  {first pool : Pool Request Answer Outcome} {stage : τ ⊕ κ → Holding} {sender : Address}
  {base : UInt64} {done : Finset τ}

/-- What has come of the transfers of a sender since its nonce was last fetched: a transfer was told
that the nonce of the account is `base` and started the book with it, as none has done since, and
the transfers that have succeeded since then are `done`. -/
def SinceFetch (client : Client) (orders : τ → Order) (first : Pool Request Answer (@Outcome τ κ))
    (history : History Request Answer (τ ⊕ κ)) (pool : Pool Request Answer (@Outcome τ κ))
    (sender : Address) (base : UInt64) (done : Finset τ) : Prop :=
  ∃ front before t, history.Started front (.inl t) sender base ∧ Run first front before ∧
    client.Fetched sender (front.trace (.inl t)) base ∧
    ∀ u, u ∈ done ↔
      (orders u).signer.address = sender ∧ pool.succeeded (.inl u) ∧ ¬ before.succeeded (.inl u)

/-! ## Successes -/

section

omit [DecidableEq τ] [DecidableEq κ]

/-- A transfer that has returned with a nonce in its hands has succeeded. -/
theorem succeeded_iff_holds
    (h : Accounted (senderOf orders others) client.Posts CallEnds history pool stage) {t : τ} :
    pool.succeeded (.inl t) ↔ pool.returned (.inl t) ∧ ∃ nonce,
      (stage (.inl t)).nonce? = some nonce := by
  constructor
  · intro hsucceeded
    obtain ⟨nonce, hposted⟩ := posted_of_succeeded h hsucceeded
    obtain ⟨hash, hrest⟩ := Pool.succeeded_iff.1 hsucceeded
    exact ⟨Pool.returned_iff.2 ⟨_, hrest⟩, nonce, by rw [hposted]; rfl⟩
  · rintro ⟨hreturned, nonce, hheld⟩
    obtain ⟨_ | hash, hrest⟩ := Pool.returned_iff.1 hreturned
    · obtain hend | hend : stage (.inl t) = .outside ∨ stage (.inl t) = .ended := h.keeps _ _ hrest
      all_goals
        rw [hend] at hheld
        cases hheld
    · exact Pool.succeeded_iff.2 ⟨hash, hrest⟩

/-- A transfer that has succeeded has carried the nonce that it holds. -/
theorem carried_iff_holds
    (h : Accounted (senderOf orders others) client.Posts CallEnds history pool stage) {t : τ}
    {nonce : UInt64} (hsucceeded : pool.succeeded (.inl t)) :
    client.Carried (orders t) history t nonce ↔ (stage (.inl t)).nonce? = some nonce := by
  obtain ⟨posted, hposted⟩ := posted_of_succeeded h hsucceeded
  constructor
  · rintro ⟨hhanded, -⟩
    obtain ⟨-, hended | hheld⟩ := h.recorded.handed hhanded
    · cases hposted.symm.trans hended
    · exact hheld
  · intro hheld
    obtain rfl : posted = nonce := by
      rw [hposted] at hheld
      exact Option.some.inj hheld
    obtain ⟨_, answer, ⟨tx, hnonce, rfl⟩, hmem⟩ := h.recorded.posted hposted
    exact ⟨h.recorded.held hheld, tx, answer, hnonce, hmem⟩

/-- While the nonces of a sender are known, those from the last fetched one on are held by its
transfers. -/
theorem holds_iff (elsewhere : ∀ k, (others k).sender ≠ sender)
    (h : Accounted (senderOf orders others) client.Posts CallEnds history pool stage)
    (hgapless : Gapless (senderOf orders others) sender history pool stage) {r : Reservation}
    (hslot : pool.memory.nonces.reservation? sender = some r)
    (hnext : r.next.toNat = base.toNat + r.issued.toNat) (nonce : UInt64) :
    (∃ t, (orders t).signer.address = sender ∧ (stage (.inl t)).nonce? = some nonce) ↔
      base.toNat ≤ nonce.toNat ∧ nonce.toNat < base.toNat + r.issued.toNat := by
  have hcovers : r.Covers nonce ↔
      base.toNat ≤ nonce.toNat ∧ nonce.toNat < base.toNat + r.issued.toNat := by
    rw [Reservation.Covers, hnext]
    omega
  rw [← hcovers]
  constructor
  · rintro ⟨t, rfl, hheld⟩
    obtain ⟨r', hslot', hcovered⟩ := h.ledger.covered hheld
    exact Option.some.inj (hslot.symm.trans hslot') ▸ hcovered
  · intro hcovered
    obtain ⟨t | k, hown, hheld⟩ := hgapless.filled hslot hcovered
    · exact ⟨t, hown, hheld⟩
    · exact absurd hown (elsewhere k)

/-- Those of them that transfers have succeeded with come first. After them there is at most one
more, which only a transfer that has not returned can hold. -/
theorem exists_count (elsewhere : ∀ k, (others k).sender ≠ sender)
    (h : Accounted (senderOf orders others) client.Posts CallEnds history pool stage)
    (hgapless : Gapless (senderOf orders others) sender history pool stage) {r : Reservation}
    (hslot : pool.memory.nonces.reservation? sender = some r)
    (hnext : r.next.toNat = base.toNat + r.issued.toNat) : ∃ count,
      (∀ nonce, (∃ t, (orders t).signer.address = sender ∧ pool.succeeded (.inl t) ∧
        (stage (.inl t)).nonce? = some nonce) ↔
          base.toNat ≤ nonce.toNat ∧ nonce.toNat < base.toNat + count) ∧
      base.toNat + count ≤ r.next.toNat ∧
      ∀ t nonce, (orders t).signer.address = sender → (stage (.inl t)).nonce? = some nonce →
        ¬ pool.returned (.inl t) → nonce.toNat = base.toNat + count := by
  have hholds := holds_iff elsewhere h hgapless hslot hnext
  have hlast :
      ∀ {t nonce}, (orders t).signer.address = sender → (stage (.inl t)).nonce? = some nonce →
      ¬ pool.returned (.inl t) → r.next.toNat = nonce.toNat + 1 :=
    fun {t _} ht hheld hlive => hgapless.last hslot (i := .inl t) ht hheld hlive
  by_cases hlive : ∃ t nonce, (orders t).signer.address = sender ∧
      (stage (.inl t)).nonce? = some nonce ∧
      ¬ pool.returned (.inl t)
  · obtain ⟨t, own, ht, hheld, hlive⟩ := hlive
    have hown := hlast ht hheld hlive
    have hout := (hholds own).1 ⟨t, ht, hheld⟩
    refine ⟨r.issued.toNat - 1, fun nonce => ⟨?_, ?_⟩, by omega, fun u nonce hu hother hstill => ?_⟩
    · rintro ⟨u, hu, hsucceeded, hother⟩
      have hplace := (hholds nonce).1 ⟨u, hu, hother⟩
      -- A transfer that has returned does not hold what the other one holds, which is the last one.
      have hne : nonce.toNat ≠ own.toNat := by
        intro hsame
        obtain rfl := UInt64.toNat_inj.1 hsame
        obtain rfl := Sum.inl.inj (h.ledger.distinct (hu.trans ht.symm) hother hheld)
        exact hlive ((succeeded_iff_holds h).1 hsucceeded).1
      omega
    · intro hplace
      obtain ⟨u, hu, hother⟩ := (hholds nonce).2 (by omega)
      refine ⟨u, hu, (succeeded_iff_holds h).2 ⟨?_, nonce, hother⟩, hother⟩
      by_contra hstill
      have hnonce := hlast hu hother hstill
      omega
    · have hnonce := hlast hu hother hstill
      omega
  · have hreturned : ∀ u nonce, (orders u).signer.address = sender →
        (stage (.inl u)).nonce? = some nonce →
        pool.returned (.inl u) := by
      intro u nonce hu hheld
      by_contra hstill
      exact hlive ⟨u, nonce, hu, hheld, hstill⟩
    refine ⟨r.issued.toNat, fun nonce => ⟨?_, ?_⟩, hnext.ge,
      fun u nonce hu hheld hstill => absurd (hreturned u nonce hu hheld) hstill⟩
    · rintro ⟨u, hu, -, hheld⟩
      exact (hholds nonce).1 ⟨u, hu, hheld⟩
    · intro hplace
      obtain ⟨u, hu, hheld⟩ := (hholds nonce).2 hplace
      exact ⟨u, hu, (succeeded_iff_holds h).2 ⟨hreturned u nonce hu hheld, nonce, hheld⟩, hheld⟩

/-- As many transfers have succeeded as there are nonces between these bounds. -/
theorem exists_done
    (h : Accounted (senderOf orders others) client.Posts CallEnds history pool stage)
    {count : ℕ} (hroom : base.toNat + count < UInt64.size)
    (hplaces : ∀ nonce, (∃ t, (orders t).signer.address = sender ∧ pool.succeeded (.inl t) ∧
      (stage (.inl t)).nonce? = some nonce) ↔
        base.toNat ≤ nonce.toNat ∧ nonce.toNat < base.toNat + count) :
    ∃ done : Finset τ, done.card = count ∧
      ∀ t, t ∈ done ↔ (orders t).signer.address = sender ∧ pool.succeeded (.inl t) := by
  have hplace : ∀ k : Fin count, (UInt64.ofNat (base.toNat + k)).toNat = base.toNat + k := by
    intro k
    rw [UInt64.toNat_ofNat', Nat.mod_eq_of_lt]
    exact Nat.lt_of_lt_of_le (Nat.add_lt_add_left k.isLt _) hroom.le
  have hholder :
      ∀ k : Fin count, ∃ t, (orders t).signer.address = sender ∧ pool.succeeded (.inl t) ∧
      (stage (.inl t)).nonce? = some (UInt64.ofNat (base.toNat + k)) := by
    intro k
    refine (hplaces _).2 ?_
    rw [hplace]
    have hk := k.isLt
    omega
  choose holder hown hsucceeded hheld using hholder
  have hinjective : Function.Injective holder := by
    intro k l hsame
    have hnonce := Option.some.inj ((hheld k).symm.trans (hsame ▸ hheld l))
    have hvalue := (hplace k).symm.trans ((congrArg UInt64.toNat hnonce).trans (hplace l))
    exact Fin.ext (Nat.add_left_cancel hvalue)
  refine ⟨Finset.univ.map ⟨holder, hinjective⟩, by simp, fun t => ?_⟩
  rw [Finset.mem_map]
  constructor
  · rintro ⟨k, -, rfl⟩
    exact ⟨hown k, hsucceeded k⟩
  · rintro ⟨ht, hdone⟩
    obtain ⟨-, nonce, hnonce⟩ := (succeeded_iff_holds h).1 hdone
    obtain ⟨hbase, hlt⟩ := (hplaces nonce).1 ⟨t, ht, hdone, hnonce⟩
    refine ⟨⟨nonce.toNat - base.toNat, by omega⟩, Finset.mem_univ _, ?_⟩
    -- Both hold the same nonce.
    have hsame : UInt64.ofNat (base.toNat + (nonce.toNat - base.toNat)) = nonce := by
      rw [Nat.add_sub_cancel' hbase, UInt64.ofNat_toNat]
    have hother := hheld ⟨nonce.toNat - base.toNat, by omega⟩
    rw [hsame] at hother
    exact Sum.inl.inj (h.ledger.distinct ((hown _).trans ht.symm) hother hnonce)

end

/-- When the book of a sender is started, it has been told by a fetch, and no transfer has succeeded
before. -/
theorem sinceFetch_of_started {clock : Moment} {cache : ConfigCache}
    (elsewhere : ∀ k, (others k).sender ≠ sender)
    (run : Run (.begin ⟨clock, cache, .empty⟩ (client.calls orders others)) history pool)
    (room : history.HasRoom) {front : History Request Answer (τ ⊕ κ)} {i : τ ⊕ κ}
    (hstarted : history.Started front i sender base)
    (hdone : ∀ u, u ∈ done ↔ (orders u).signer.address = sender ∧ pool.succeeded (.inl u)) :
    SinceFetch client orders (.begin ⟨clock, cache, .empty⟩ (client.calls orders others))
      history pool sender base done := by
  obtain ⟨back, rfl, hback⟩ := hstarted
  obtain ⟨before, hfront, hrest⟩ := run.split
  obtain ⟨after, step, -⟩ := hrest.uncons
  obtain ⟨stage, h⟩ := Accounted.of_run calls_follow hfront room.left
  obtain ⟨hown, hnone⟩ := h.unknown_of_started step
  cases i with
  | inr k => exact absurd hown.symm (elsewhere k)
  | inl t =>
      obtain ⟨rfl, ⟨-, hfetched⟩ | ⟨hknown, -⟩⟩ := transfer_handed h hfront step .started
      · refine ⟨front, before, t, ⟨back, rfl, hback⟩, hfront, hfetched, fun u => ?_⟩
        rw [hdone]
        refine and_congr_right fun hu => (and_iff_left ?_).symm
        -- A success holds its nonce for good, and none is held when the book is started.
        intro hsucceeded
        obtain ⟨-, nonce, hheld⟩ := (succeeded_iff_holds h).1 hsucceeded
        obtain ⟨r, hslot, -⟩ := h.ledger.covered hheld
        rw [senderOf, hu, hnone] at hslot
        cases hslot
      · rw [NonceBook.peek, hnone] at hknown
        cases hknown

/-- While the nonces of a sender are known, the transfers that have succeeded hold those from the
base on, one each, and a transfer that has not returned can only hold the next one. -/
theorem exists_sinceFetch {clock : Moment} {cache : ConfigCache}
    (elsewhere : ∀ k, (others k).sender ≠ sender)
    (run : Run (.begin ⟨clock, cache, .empty⟩ (client.calls orders others)) history pool)
    (room : history.HasRoom)
    (h : Accounted (senderOf orders others) client.Posts CallEnds history pool stage)
    (hgapless : Gapless (senderOf orders others) sender history pool stage) {r : Reservation}
    (hslot : pool.memory.nonces.reservation? sender = some r) :
    ∃ base done,
      SinceFetch client orders (.begin ⟨clock, cache, .empty⟩ (client.calls orders others)) history
        pool sender base done ∧
      (∀ t, t ∈ done ↔ (orders t).signer.address = sender ∧ pool.succeeded (.inl t)) ∧
      (∀ nonce, (∃ t, (orders t).signer.address = sender ∧ pool.succeeded (.inl t) ∧
        (stage (.inl t)).nonce? = some nonce) ↔
          base.toNat ≤ nonce.toNat ∧ nonce.toNat < base.toNat + done.card) ∧
      ∀ t nonce, (orders t).signer.address = sender → (stage (.inl t)).nonce? = some nonce →
        ¬ pool.returned (.inl t) → nonce.toNat = base.toNat + done.card := by
  obtain ⟨front, i, base, hstarted, hnext⟩ := hgapless.since hslot
  obtain ⟨count, hplaces, hbound, hlive⟩ := exists_count elsewhere h hgapless hslot hnext
  obtain ⟨done, rfl, hdone⟩ := exists_done h (Nat.lt_of_le_of_lt hbound r.next.toNat_lt) hplaces
  exact ⟨base, done, sinceFetch_of_started elsewhere run room hstarted hdone, hdone, hplaces, hlive⟩

/-- In every run in which the transfers of a sender take turns, as soon as one of them posts its
transaction or has succeeded: what a transfer of the sender posts is a transaction whose nonce is
the one that was last fetched for the sender and as many more as transfers have succeeded since
then; and the nonces that these have carried, which are all that have succeeded, are just those in
between. -/
theorem transfers_consecutive {clock : Moment} {cache : ConfigCache}
    (elsewhere : ∀ k, (others k).sender ≠ sender)
    (run : Run (.begin ⟨clock, cache, .empty⟩ (client.calls orders others)) history pool)
    (room : history.HasRoom) (turns : history.TakesTurns pool sender) {t : τ}
    (own : (orders t).signer.address = sender)
    (reached : isPosting pool t ∨ pool.succeeded (.inl t)) :
    ∃ base done,
      SinceFetch client orders (.begin ⟨clock, cache, .empty⟩ (client.calls orders others)) history
        pool sender base done ∧
      (∀ u, (orders u).signer.address = sender → pool.succeeded (.inl u) → u ∈ done) ∧
      (∀ u, (orders u).signer.address = sender → isPosting pool u → ∃ tx next,
        pool.rest (.inl u) = some (.ask (client.sendRequest tx) next) ∧
        tx.nonce.toNat = base.toNat + done.card) ∧
      ∀ nonce, (∃ u ∈ done, client.Carried (orders u) history u nonce) ↔
        base.toNat ≤ nonce.toNat ∧ nonce.toNat < base.toNat + done.card := by
  obtain ⟨stage, h, hgapless⟩ := Gapless.of_run calls_follow run room turns
  have hposts : ∀ {u}, isPosting pool u → ∃ tx next,
      pool.rest (.inl u) = some (.ask (client.sendRequest tx) next) ∧
      (stage (.inl u)).nonce? = some tx.nonce := by
    intro u hposting
    obtain ⟨tx, next, hasks, hcarrying⟩ := transfer_posting h run hposting
    exact ⟨tx, next, hasks, by rw [hcarrying]; rfl⟩
  have hholds : ∃ nonce, (stage (.inl t)).nonce? = some nonce := by
    obtain hposting | hsucceeded := reached
    · obtain ⟨tx, -, -, hheld⟩ := hposts hposting
      exact ⟨tx.nonce, hheld⟩
    · exact ((succeeded_iff_holds h).1 hsucceeded).2
  obtain ⟨_, hheld⟩ := hholds
  obtain ⟨r, hslot, -⟩ := h.ledger.covered hheld
  rw [senderOf, own] at hslot
  obtain ⟨base, done, hsince, hdone, hplaces, hlive⟩ :=
    exists_sinceFetch elsewhere run room h hgapless hslot
  refine ⟨base, done, hsince, fun u hu hsucceeded => (hdone u).2 ⟨hu, hsucceeded⟩,
    fun u hu hposting => ?_, fun nonce => ?_⟩
  · obtain ⟨tx, next, hasks, hheld⟩ := hposts hposting
    have hrunning : ¬ pool.returned (.inl u) := by simp [Pool.returned, hasks]
    exact ⟨tx, next, hasks, hlive u tx.nonce hu hheld hrunning⟩
  · rw [← hplaces]
    constructor
    · rintro ⟨u, hu, hcarried⟩
      obtain ⟨hown, hsucceeded⟩ := (hdone u).1 hu
      exact ⟨u, hown, hsucceeded, (carried_iff_holds h hsucceeded).1 hcarried⟩
    · rintro ⟨u, hown, hsucceeded, hheld⟩
      exact ⟨u, (hdone u).2 ⟨hown, hsucceeded⟩, (carried_iff_holds h hsucceeded).2 hheld⟩

open Thrice in
/-- After a transfer that has succeeded with the nonce it had fetched, and one that could not be
sent, the third one posts a transaction with the nonce one past that. -/
theorem transfers_consecutive_thrice :
    ∃ history pool base tx next, Run start history pool ∧ history.HasRoom ∧
      history.TakesTurns pool Twice.order.signer.address ∧ pool.failed (.inl .two) ∧
      SinceFetch Twice.client (fun _ => Twice.order) start history pool Twice.order.signer.address
        base {.one} ∧
      pool.rest (.inl .three) = some (.ask (Twice.client.sendRequest tx) next) ∧
      tx.nonce.toNat = base.toNat + 1 := by
  have hall :
      (start.follow? (before ++ failure :: after ++ List.replicate 2 (.step (.inl .three)))).any
      fun (history, pool) => history.HasRoom ∧ history.TakesTurns pool Twice.order.signer.address ∧
        pool.succeeded (.inl .one) ∧ pool.failed (.inl .two) ∧ ¬ pool.succeeded (.inl .two) ∧
        isPosting pool .three ∧ ¬ pool.succeeded (.inl .three) := by
    decide +kernel
  obtain ⟨⟨history, pool⟩, hfollow, hall⟩ := (Option.any_eq_true ..).1 hall
  obtain ⟨hroom, hturns, hone, hfailed, htwo, hposting, hthree⟩ := of_decide_eq_true hall
  have run := Run.of_follow? hfollow
  obtain ⟨base, done, hsince, hall, hposts, -⟩ :=
    transfers_consecutive nofun run hroom hturns rfl (.inl hposting)
  obtain rfl : done = {.one} := by
    obtain ⟨_, _, _, -, -, -, hdone⟩ := hsince
    refine Finset.eq_singleton_iff_unique_mem.2 ⟨hall .one rfl hone, fun u hu => ?_⟩
    have hsucceeded := ((hdone u).1 hu).2.1
    cases u with
    | one => rfl
    | two => exact absurd hsucceeded htwo
    | three => exact absurd hsucceeded hthree
  obtain ⟨tx, next, hposted, hnonce⟩ := hposts .three rfl hposting
  exact ⟨history, pool, base, tx, next, run, hroom, hturns, hfailed, hsince, hposted, hnonce⟩

end ShardNet.Client
