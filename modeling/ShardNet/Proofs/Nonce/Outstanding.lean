-- SUMMARY: The nonces of a sender that are out are consecutive from the last known nonce on, whoever works on them.
import Mathlib.Data.List.Nodup
import Mathlib.Data.Option.Basic
import ShardNet.Proofs.Nonce.Operation

/-!
# Outstanding nonces

The book keeps two counters for a sender, and neither the nonce that the sender was last brought in
step with nor the nonces that are out. A `Tally` keeps just these two, and is told by what the
callers have seen: which nonces they were handed since then, and which ones they were told they had
given back.

`Tally.Matches` ties the two together: the nonces that are out are those from the base on, as many
as have been issued, and the next one follows them. Each operation keeps this, with whatever nonce
it is called, and so every session does. The counters are words, and what is said of them holds
modulo `2 ^ 64`; `outstanding_consecutive` speaks of integers, and asks that the next nonce is one
of them.
-/

namespace ShardNet

/-- The nonces of a sender who is in step with the network, by what the callers have seen. -/
structure Tally where
  /-- The nonce that the sender was last brought in step with. -/
  base : UInt64
  /-- The nonces that were handed out since then and not given back, in the order in which they were
  handed out. -/
  outstanding : List UInt64
  deriving DecidableEq

namespace Tally

/-- The tally after an operation and the reply to it. -/
def after (tally : Option Tally) : NonceOperation → NonceReply → Option Tally
  | .reserve _, .reserved (.ok nonce) 0 =>
    tally.map fun t => { t with outstanding := t.outstanding ++ [nonce] }
  | .reserve (.ok base), .reserved (.ok nonce) _ => some ⟨base, [nonce]⟩
  | .release nonce, .verdict true =>
    tally.map fun t => { t with outstanding := t.outstanding.erase nonce }
  | .invalidate, _ => none
  | .invalidateIfSole _, .verdict true => none
  | .resync base, _ => some ⟨base, []⟩
  | _, _ => tally

/-- The tally of a sender, if it is in step, after a session. -/
def ofSession (sender : Address) (session : List (Address × NonceOperation × NonceReply)) :
    Option Tally :=
  session.foldl (fun tally (other, operation, reply) =>
    if other = sender then after tally operation reply else tally) none

/-- The counters of the book are those of a tally. -/
structure Matches (tally : Tally) (r : Reservation) : Prop where
  next : r.next = tally.base + UInt64.ofNat tally.outstanding.length
  issued : r.issued = UInt64.ofNat tally.outstanding.length
  outstanding : tally.outstanding.Perm
    ((List.range tally.outstanding.length).map fun place => tally.base + UInt64.ofNat place)

namespace Matches

variable {tally : Tally} {r : Reservation} {nonce : UInt64}

theorem start (nonce : UInt64) : Matches ⟨nonce, []⟩ (.start nonce) :=
  ⟨(UInt64.add_zero nonce).symm, rfl, .refl _⟩

theorem advance (h : Matches tally r) :
    Matches { tally with outstanding := tally.outstanding ++ [r.next] } r.advance := by
  constructor
  · rw [List.length_append, List.length_singleton, UInt64.ofNat_add, ← UInt64.add_assoc, ← h.next]
    rfl
  · rw [List.length_append, List.length_singleton, UInt64.ofNat_add, ← h.issued]
    rfl
  · rw [List.length_append, List.length_singleton, List.range_succ, List.map_append]
    simpa [h.next] using h.outstanding.append_right [r.next]

/-- The last nonce that was issued is the one furthest from the base. -/
theorem of_isLast (h : Matches tally r) (hlast : r.isLast nonce) :
    ∃ place, tally.outstanding.length = place + 1 ∧ nonce = tally.base + UInt64.ofNat place := by
  simp only [Reservation.isLast, Bool.and_eq_true, decide_eq_true_eq, beq_iff_eq] at hlast
  obtain ⟨hissued, hnext⟩ := hlast
  cases hlength : tally.outstanding.length with
  | zero =>
      rw [h.issued, hlength] at hissued
      exact absurd hissued (by decide)
  | succ place =>
      refine ⟨place, rfl, ?_⟩
      rw [h.next, hlength, UInt64.ofNat_add, ← UInt64.add_assoc] at hnext
      exact (UInt64.add_left_inj 1).1 hnext.symm

theorem retreat (h : Matches tally r) (hlast : r.isLast nonce) :
    Matches { tally with outstanding := tally.outstanding.erase nonce } (r.retreat nonce) := by
  obtain ⟨place, hlength, hnonce⟩ := h.of_isLast hlast
  have hperm : (tally.outstanding.erase nonce).Perm
      ((List.range place).map fun place => tally.base + UInt64.ofNat place) := by
    have houtstanding := h.outstanding
    rw [hlength, List.range_succ, List.map_append, List.map_singleton, ← hnonce] at houtstanding
    have hfront := (houtstanding.trans (List.perm_append_singleton _ _)).erase nonce
    rwa [List.erase_cons_head] at hfront
  have hlater : (tally.outstanding.erase nonce).length = place := by
    rw [hperm.length_eq, List.length_map, List.length_range]
  constructor
  · rw [hlater, ← hnonce]
    rfl
  · rw [hlater]
    show r.issued - 1 = _
    rw [h.issued, hlength, UInt64.ofNat_add]
    exact UInt64.add_sub_cancel _ _
  · rwa [hlater]

end Matches

/-! ## Sessions -/

variable {sender : Address} {tally : Option Tally} {slot : Option Reservation}

/-- Each operation keeps the tally in step with the counters. -/
theorem rel_after (h : Option.Rel Matches tally slot) (operation : NonceOperation) :
    Option.Rel Matches (after tally operation (operation.on slot).1) (operation.on slot).2 := by
  cases operation with
  | reserve fetched =>
      cases h with
      | some hmatches =>
          cases fetched with
          | ok | error => exact .some hmatches.advance
      | none =>
          cases fetched with
          | ok nonce => exact .some (Matches.start nonce).advance
          | error cause => exact .none
  | release nonce =>
      cases h with
      | some hmatches =>
          simp only [NonceOperation.on]
          split
          · rename_i hlast
            exact .some (hmatches.retreat hlast)
          · exact .some hmatches
      | none => exact .none
  | invalidate => exact .none
  | invalidateIfSole nonce =>
      cases h with
      | some hmatches =>
          simp only [NonceOperation.on]
          split
          · exact .none
          · exact .some hmatches
      | none => exact .none
  | resync nonce => exact .some (Matches.start nonce)
  | peek => exact h

/-- A session keeps the tally of every sender in step with the counters. -/
theorem rel_performAll (operations : List (Address × NonceOperation)) {memory : Memory}
    (h : Option.Rel Matches tally (memory.nonces.reservation? sender)) :
    Option.Rel Matches
      ((NonceOperation.performAll operations memory).1.foldl (fun tally (other, operation, reply) =>
        if other = sender then after tally operation reply else tally) tally)
      ((NonceOperation.performAll operations memory).2.nonces.reservation? sender) := by
  induction operations generalizing tally memory with
  | nil => exact h
  | cons step rest ih =>
      obtain ⟨other, operation⟩ := step
      simp only [NonceOperation.performAll, List.foldl_cons]
      refine ih ?_
      split
      · rename_i hsame
        subst hsame
        rw [NonceOperation.perform_reply, NonceOperation.perform_slot]
        exact rel_after h operation
      · rename_i hother
        rwa [NonceOperation.perform_frame operation (Ne.symm hother)]

/-! ## Integers -/

namespace Matches

variable {tally : Tally} {r : Reservation} {nonce : UInt64}

/-- The next nonce of a sender is the base and as many as are out, where that is a nonce. -/
theorem toNat_next (h : Matches tally r)
    (hroom : tally.base.toNat + tally.outstanding.length < UInt64.size) :
    r.next.toNat = tally.base.toNat + tally.outstanding.length := by
  simp only [UInt64.size] at hroom
  rw [h.next, UInt64.toNat_add, UInt64.toNat_ofNat']
  omega

theorem toNat_place {place : Nat} (hplace : place < tally.outstanding.length)
    (hroom : tally.base.toNat + tally.outstanding.length < UInt64.size) :
    (tally.base + UInt64.ofNat place).toNat = tally.base.toNat + place := by
  simp only [UInt64.size] at hroom
  rw [UInt64.toNat_add, UInt64.toNat_ofNat']
  omega

theorem nodup (h : Matches tally r)
    (hroom : tally.base.toNat + tally.outstanding.length < UInt64.size) :
    tally.outstanding.Nodup := by
  refine h.outstanding.nodup_iff.2 (List.Nodup.map_on (fun first hfirst second hsecond hsame => ?_)
    List.nodup_range)
  have hvalue := congrArg UInt64.toNat hsame
  rw [toNat_place (List.mem_range.1 hfirst) hroom, toNat_place (List.mem_range.1 hsecond) hroom]
    at hvalue
  omega

theorem mem_outstanding (h : Matches tally r) (nonce : UInt64)
    (hroom : tally.base.toNat + tally.outstanding.length < UInt64.size) :
    nonce ∈ tally.outstanding ↔ tally.base ≤ nonce ∧ nonce < r.next := by
  rw [h.outstanding.mem_iff, List.mem_map, UInt64.le_iff_toNat_le, UInt64.lt_iff_toNat_lt,
    h.toNat_next hroom]
  constructor
  · rintro ⟨place, hplace, rfl⟩
    have hlt := List.mem_range.1 hplace
    rw [toNat_place hlt hroom]
    omega
  · rintro ⟨hbase, hnext⟩
    have hlt : nonce.toNat - tally.base.toNat < tally.outstanding.length := by omega
    refine ⟨nonce.toNat - tally.base.toNat, List.mem_range.2 hlt, UInt64.toNat_inj.1 ?_⟩
    rw [toNat_place hlt hroom]
    omega

theorem issued_iff (h : Matches tally r)
    (hroom : tally.base.toNat + tally.outstanding.length < UInt64.size) (count : UInt64) :
    r.issued = count ↔ tally.outstanding.length = count.toNat := by
  simp only [UInt64.size] at hroom
  rw [h.issued, ← UInt64.toNat_inj, UInt64.toNat_ofNat', Nat.mod_eq_of_lt (by omega)]

/-- A nonce is the last one issued if it is the one before the next, and not below the base. -/
theorem isLast_iff (h : Matches tally r)
    (hroom : tally.base.toNat + tally.outstanding.length < UInt64.size) :
    r.isLast nonce ↔ nonce.toNat + 1 = r.next.toNat ∧ tally.base ≤ nonce := by
  have hnext := h.toNat_next hroom
  have hzero := h.issued_iff hroom 0
  have hpos : 0 < r.issued ↔ 0 < tally.outstanding.length := by
    rw [UInt64.pos_iff_ne_zero, Ne, hzero, Nat.pos_iff_ne_zero]
    rfl
  have hlt := nonce.toNat_lt
  simp only [UInt64.size] at hroom
  simp only [Reservation.isLast, Bool.and_eq_true, decide_eq_true_eq, beq_iff_eq, hpos,
    ← UInt64.toNat_inj, UInt64.toNat_add, UInt64.reduceToNat, UInt64.le_iff_toNat_le, hnext]
  omega

/-- A nonce is the only one issued if it is all that is out. -/
theorem isSole_iff (h : Matches tally r)
    (hroom : tally.base.toNat + tally.outstanding.length < UInt64.size) :
    r.isSole nonce ↔ tally.outstanding = [nonce] := by
  have hone := h.issued_iff hroom 1
  have hmem := h.mem_outstanding nonce hroom
  have hnext := h.toNat_next hroom
  have hlt := nonce.toNat_lt
  simp only [Reservation.isSole, Bool.and_eq_true, beq_iff_eq, hone]
  rw [UInt64.le_iff_toNat_le, UInt64.lt_iff_toNat_lt] at hmem
  have hlength : tally.outstanding = [nonce] ↔
      tally.outstanding.length = 1 ∧ nonce ∈ tally.outstanding := by
    constructor
    · intro hsole
      simp [hsole]
    · rintro ⟨hlength, hmem⟩
      obtain ⟨other, hother⟩ := List.length_eq_one_iff.1 hlength
      rw [hother, List.mem_singleton] at hmem
      rw [hother, hmem]
  rw [hlength, hmem]
  simp only [UInt64.size] at hroom
  simp only [← UInt64.toNat_inj, UInt64.toNat_add, UInt64.reduceToNat]
  omega

end Matches

end Tally

/-- In every session of operations by any callers, with any nonces: a sender whose nonce is not
known is one whose tally is lost. While it is known, the nonces that are out are those from the base
up to the next one, each of them once. The next nonce is shown, and handed out without a question,
and it is not below the base; the one before it can be given back, if it is not below the base; and
the nonces can be forgotten on behalf of a nonce that is all that is out. The next nonce must be
one, that is, below `2 ^ 64`. -/
theorem outstanding_consecutive (operations : List (Address × NonceOperation)) (clock : Moment)
    (cache : ConfigCache) (sender : Address) :
    let session := NonceOperation.performAll operations ⟨clock, cache, .empty⟩
    let reply operation := (NonceOperation.perform sender session.2 operation).1
    (reply .peek = .next none ↔ Tally.ofSession sender session.1 = none) ∧
    ∀ tally, Tally.ofSession sender session.1 = some tally →
      tally.base.toNat + tally.outstanding.length < UInt64.size →
      ∃ next, reply .peek = .next (some next) ∧
        (∀ fetched, reply (.reserve fetched) = .reserved (.ok next) 0) ∧ tally.base ≤ next ∧
        tally.outstanding.Nodup ∧
        (∀ nonce, nonce ∈ tally.outstanding ↔ tally.base ≤ nonce ∧ nonce < next) ∧
        (∀ nonce, reply (.release nonce) = .verdict true ↔
          nonce.toNat + 1 = next.toNat ∧ tally.base ≤ nonce) ∧
        ∀ nonce, reply (.invalidateIfSole nonce) = .verdict true ↔ tally.outstanding = [nonce] := by
  intro session reply
  have hrel : Option.Rel Tally.Matches (Tally.ofSession sender session.1)
      (session.2.nonces.reservation? sender) := Tally.rel_performAll operations .none
  have hreply : ∀ operation, reply operation =
      (operation.on (session.2.nonces.reservation? sender)).1 := NonceOperation.perform_reply
  generalize session.2.nonces.reservation? sender = slot at hrel hreply
  generalize Tally.ofSession sender session.1 = told at hrel
  cases hrel with
  | none => exact ⟨by simp [hreply, NonceOperation.on], nofun⟩
  | @some tally r hmatches =>
      refine ⟨by simp [hreply, NonceOperation.on], ?_⟩
      rintro _ ⟨⟩ hroom
      have hbase : tally.base ≤ r.next := by
        rw [UInt64.le_iff_toNat_le, hmatches.toNat_next hroom]
        exact Nat.le_add_right ..
      refine ⟨r.next, hreply _, fun fetched => (hreply _).trans (by cases fetched <;> rfl), hbase,
        hmatches.nodup hroom, fun nonce => hmatches.mem_outstanding nonce hroom, fun nonce =>
          ?_, fun nonce => ?_⟩
      · rw [← hmatches.isLast_iff hroom, hreply, NonceOperation.on]
        split <;> simp_all
      · rw [← hmatches.isSole_iff hroom, hreply, NonceOperation.on]
        split <;> simp_all

namespace Resynced

def sender : Address := ⟨[1]⟩

/-- Two nonces are handed out from seven on, and the sender is set back to three. Of the callers,
one gives back the nonce eight that it had before, and another one the nonce four that it got
after. -/
def operations : List (Address × NonceOperation) :=
  [.reserve (.ok 7), .reserve (.ok 0), .resync 3, .release 8, .reserve (.error .noAddress),
    .reserve (.ok 0), .release 4, .invalidateIfSole 8].map (sender, ·)

/-- What the callers have been told. -/
def session : List (Address × NonceOperation × NonceReply) × Memory :=
  NonceOperation.performAll operations ⟨0, ⟨0, none⟩, .empty⟩

end Resynced

open Resynced in
/-- The nonce eight is no longer out after the sender has been set back, and giving it back changes
nothing; of the nonces handed out since then, three is the one that is left. -/
theorem outstanding_consecutive_resynced :
    ∃ tally, Tally.ofSession sender session.1 = some tally ∧
      tally.base.toNat + tally.outstanding.length < UInt64.size ∧ tally = ⟨3, [3]⟩ ∧
      (NonceOperation.perform sender session.2 (.release 8)).1 ≠ .verdict true ∧
      (NonceOperation.perform sender session.2 (.release 3)).1 = .verdict true ∧
      (NonceOperation.perform sender session.2 (.invalidateIfSole 3)).1 = .verdict true := by
  have htally : Tally.ofSession sender session.1 = some ⟨3, [3]⟩ := by decide +kernel
  have hroom : (3 : UInt64).toNat + [(3 : UInt64)].length < UInt64.size := by decide
  obtain ⟨next, -, -, -, -, hmem, hrelease, hsole⟩ :=
    (outstanding_consecutive operations 0 ⟨0, none⟩ sender).2 ⟨3, [3]⟩ htally hroom
  have hthree : (3 : UInt64) < next := ((hmem 3).1 (by decide)).2
  have hfour : ¬ (4 : UInt64) < next := fun hlt => absurd ((hmem 4).2 ⟨by decide, hlt⟩) (by decide)
  have hnext : next.toNat = 4 := by
    rw [UInt64.lt_iff_toNat_lt] at hthree hfour
    simp only [UInt64.reduceToNat] at hthree hfour
    omega
  refine ⟨_, htally, hroom, rfl, fun hdone => ?_, (hrelease 3).2 ?_, (hsole 3).2 rfl⟩
  · have height := ((hrelease 8).1 hdone).1
    rw [hnext] at height
    exact absurd height (by decide)
  · rw [hnext]
    decide

end ShardNet
