-- SUMMARY: Where the calls of a sender take turns, every nonce that is out is held by one of them.
import ShardNet.Proofs.Nonce.Accounted

/-!
# Calls that take turns

Calls with nonces of one sender may run one after the other, each after the one before has returned,
while calls of other senders run at any time. `Gapless` is what this adds to the accounts of a run:
no nonce is out that no call holds, so that a call that gives its nonce up gives up the last one,
and the book goes back to where it was before.
-/

namespace ShardNet

open Holding

/-! ## Counters -/

namespace Reservation

variable {r : Reservation} {nonce other : UInt64}

/-- No nonce is out of a book that was just started. -/
theorem not_covers_of_issued (hissued : r.issued = 0) : ¬ r.Covers nonce := by
  rintro ⟨hbelow, habove⟩
  simp only [hissued, UInt64.reduceToNat] at habove
  omega

theorem Covers.of_advance (h : r.advance.Covers nonce) (hsound : r.Sound) (hroom : r.HasRoom) :
    nonce = r.next ∨ r.Covers nonce := by
  rw [Covers, toNat_next_advance hroom, toNat_issued_advance hroom hsound] at h
  obtain heq | hne := eq_or_ne nonce.toNat r.next.toNat
  · exact .inl (UInt64.toNat_inj.1 heq)
  · refine .inr ⟨?_, ?_⟩ <;> omega

theorem toNat_issued_retreat (hlast : r.isLast nonce) (hsound : r.Sound) :
    (r.retreat nonce).issued.toNat + 1 = r.issued.toNat := by
  obtain ⟨-, hpos⟩ := toNat_of_isLast hsound hlast
  have hle : (1 : UInt64) ≤ r.issued := UInt64.le_iff_toNat_le.2 hpos
  rw [Reservation.retreat, UInt64.toNat_sub_of_le _ _ hle]
  exact Nat.sub_add_cancel hpos

theorem Covers.of_retreat (h : (r.retreat nonce).Covers other) (hlast : r.isLast nonce)
    (hsound : r.Sound) :
    r.Covers other ∧ other ≠ nonce := by
  obtain ⟨hbelow, habove⟩ := h
  have hnext := (toNat_of_isLast hsound hlast).1
  have hissued := toNat_issued_retreat hlast hsound
  have hretreat : (r.retreat nonce).next = nonce := rfl
  rw [hretreat] at hbelow habove
  refine ⟨⟨by omega, by omega⟩, ?_⟩
  rintro rfl
  exact Nat.lt_irrefl _ hbelow

/-- The nonce before the next one is the last one, if it is out. -/
theorem Covers.isLast (h : r.Covers nonce) (hnext : r.next.toNat = nonce.toNat + 1) :
    r.isLast nonce := by
  have hpos : 0 < r.issued.toNat := by
    have habove := h.2
    omega
  have hlt := r.next.toNat_lt
  have hsame : r.next = nonce + 1 := by
    simp only [← UInt64.toNat_inj, UInt64.toNat_add, UInt64.reduceToNat, hnext]
    omega
  simp only [Reservation.isLast, hsame, beq_self_eq_true, Bool.and_true, decide_eq_true_eq]
  exact UInt64.lt_iff_toNat_lt.2 hpos

end Reservation

variable {Query Answer ι : Type} {α : ι → Type}

/-! ## Turns -/

/-- The calls with nonces of a sender take turns: when one of them is handed its nonce, every other
one that has had a nonce before is at its end, and has returned. One that was dropped with its nonce
has not returned. -/
def History.TakesTurns (history : History Query Answer ι) (pool : Pool Query Answer α)
    (sender : Address) :
    Prop :=
  ∀ (front : History Query Answer ι) event back i j nonce earlier,
    history = front ++ event :: back →
    HandsOut event i sender nonce → j ≠ i → front.HandedOut j sender earlier →
    pool.returned j ∧ ∀ later ∈ back, later.caller? ≠ some j

namespace History.TakesTurns

variable [DecidableEq ι] {history : History Query Answer ι} {event : Event Query Answer ι}
  {pool later : Pool Query Answer α} {sender : Address}

theorem unsnoc (h : History.TakesTurns (history ++ [event]) later sender)
    (step : Step pool event later) :
    history.TakesTurns pool sender := by
  intro front handing back i j nonce earlier hsame hout hji hhanded
  obtain ⟨hreturned, hquiet⟩ := h front handing (back ++ [event]) i j nonce earlier
    (by rw [hsame, List.append_assoc]; rfl) hout hji hhanded
  obtain ⟨result, hrest⟩ := Pool.returned_iff.1 hreturned
  exact ⟨Pool.returned_iff.2 ⟨result, (step.rest_of_ne (hquiet event (by simp))).symm.trans hrest⟩,
    fun other hmem => hquiet other (List.mem_append_left _ hmem)⟩

omit [DecidableEq ι] in
theorem last (h : History.TakesTurns (history ++ [event]) later sender) {i j : ι}
    {nonce earlier : UInt64} (hout : HandsOut event i sender nonce) (hji : j ≠ i)
    (hhanded : history.HandedOut j sender earlier) :
    later.returned j :=
  (h history event [] i j nonce earlier rfl hout hji hhanded).1

omit [DecidableEq ι] in
theorem iff_places : history.TakesTurns pool sender ↔ ∀ n : Fin history.length,
    ∀ out ∈ history[n].handed?, ∀ had ∈ (history.take n).filterMap Event.handed?,
      out.2.1 = sender → had.2.1 = sender → had.1 ≠ out.1 →
        pool.returned had.1 ∧ ∀ later ∈ history.drop (n + 1), later.caller? ≠ some had.1 := by
  constructor
  · rintro h ⟨n, hn⟩ ⟨i, _, nonce⟩ hout ⟨j, _, earlier⟩ hhad rfl hsame hne
    subst hsame
    have hsplit : history = history.take n ++ history[n] :: history.drop (n + 1) := by
      rw [← List.drop_eq_getElem_cons hn, List.take_append_drop]
    exact h _ _ _ i j nonce earlier hsplit (handsOut_iff.2 hout) hne (History.handedOut_iff.2 hhad)
  · rintro h front event back i j nonce earlier rfl hout hji hhanded
    have hplace : front.length < (front ++ event :: back).length := by simp
    have hturn := h ⟨front.length, hplace⟩ (i, sender, nonce) (by simpa using handsOut_iff.1 hout)
      (j, sender, earlier) (by simpa using History.handedOut_iff.1 hhanded) rfl rfl hji
    simpa using hturn

instance : Decidable (history.TakesTurns pool sender) := decidable_of_iff _ iff_places.symm

end History.TakesTurns

/-! ## The last fetch -/

/-- The book of a sender was started by a call with a nonce, after `front`, and not again since. -/
def History.Started (history front : History Query Answer ι) (i : ι) (sender : Address)
    (base : UInt64) :
    Prop :=
  ∃ back, history = front ++ .stepped i (.startNonces sender base) () :: back ∧
    ∀ j nonce, .stepped j (.startNonces sender nonce) () ∉ back

namespace History.Started

variable {history front : History Query Answer ι} {event : Event Query Answer ι} {i : ι}
  {sender : Address} {base : UInt64}

theorem here :
    History.Started (history ++ [.stepped i (.startNonces sender base) ()]) history i sender base :=
  ⟨[], rfl, fun _ _ => List.not_mem_nil⟩

theorem snoc (h : history.Started front i sender base)
    (hother : ∀ j nonce, event ≠ .stepped j (.startNonces sender nonce) ()) :
    History.Started (history ++ [event]) front i sender base := by
  obtain ⟨back, rfl, hback⟩ := h
  refine ⟨back ++ [event], by simp, fun j nonce hmem => ?_⟩
  obtain hmem | hmem := List.mem_append.1 hmem
  · exact hback j nonce hmem
  · exact hother j nonce (List.mem_singleton.1 hmem).symm

end History.Started

/-! ## The invariant -/

/-- What holds of the nonces of a sender whose calls take turns. -/
structure Gapless (sender : ι → Address) (address : Address) (history : History Query Answer ι)
    (pool : Pool Query Answer α) (stage : ι → Holding) : Prop where
  /-- Every nonce that is out is held by some call. -/
  filled : ∀ {r nonce}, pool.memory.nonces.reservation? address = some r → r.Covers nonce →
    ∃ i, sender i = address ∧ (stage i).nonce? = some nonce
  /-- A call that has not returned holds the last nonce. -/
  last : ∀ {r i nonce}, pool.memory.nonces.reservation? address = some r → sender i = address →
    (stage i).nonce? = some nonce → ¬ pool.returned i → r.next.toNat = nonce.toNat + 1
  /-- As many nonces are out as the next one is past the one that the book was last started with. -/
  since : ∀ {r}, pool.memory.nonces.reservation? address = some r → ∃ front i base,
    history.Started front i address base ∧ r.next.toNat = base.toNat + r.issued.toNat

namespace Gapless

variable {sender : ι → Address} {address : Address} {history : History Query Answer ι}
  {pool later : Pool Query Answer α} {stage stage' : ι → Holding} {event : Event Query Answer ι}

/-- Events that leave the nonces where they are. -/
theorem quiet (h : Gapless sender address history pool stage)
    (hslot : later.memory.nonces.reservation? address = pool.memory.nonces.reservation? address)
    (hheld : ∀ i, sender i = address → (stage' i).nonce? = (stage i).nonce?)
    (hreturned : ∀ i, pool.returned i → later.returned i)
    (hother : ∀ i nonce, event ≠ .stepped i (.startNonces address nonce) ()) :
    Gapless sender address (history ++ [event]) later stage' where
  filled hr hcovers := by
    obtain ⟨i, hi, hnonce⟩ := h.filled (hslot ▸ hr) hcovers
    exact ⟨i, hi, (hheld i hi).trans hnonce⟩
  last {r i nonce} hr hi hnonce hlive :=
    h.last (hslot ▸ hr) hi ((hheld i hi).symm.trans hnonce) (mt (hreturned i) hlive)
  since hr := by
    obtain ⟨front, i, base, hstarted, hnext⟩ := h.since (hslot ▸ hr)
    exact ⟨front, i, base, hstarted.snoc hother, hnext⟩

variable [DecidableEq ι]

/-- A nonce is handed out to a call after all others have returned. -/
theorem handOut (h : Gapless sender address history pool stage) {i : ι} {r : Reservation}
    (hslot : pool.memory.nonces.reservation? address = some r ∨
      pool.memory.nonces.reservation? address = none ∧ r.issued = 0)
    (hslot' : later.memory.nonces.reservation? address = some r.advance) (hsound : r.Sound)
    (hroom : r.HasRoom) (hown : sender i = address) (hnone : (stage i).nonce? = none)
    (hothers : ∀ j nonce, j ≠ i → sender j = address → (stage j).nonce? = some nonce →
      later.returned j)
    (hsince : ∃ front j base, History.Started (history ++ [event]) front j address base ∧
      r.next.toNat = base.toNat + r.issued.toNat) :
    Gapless sender address (history ++ [event]) later
      (Function.update stage i (.handed r.next)) where
  filled {r' nonce} hr' hcovers := by
    obtain rfl := Option.some.inj (hslot'.symm.trans hr')
    obtain rfl | hcovers := hcovers.of_advance hsound hroom
    · exact ⟨i, hown, by rw [Function.update_self]; rfl⟩
    · obtain hslot | ⟨-, hissued⟩ := hslot
      · obtain ⟨j, hj, hnonce⟩ := h.filled hslot hcovers
        have hji : j ≠ i := by
          rintro rfl
          cases hnone.symm.trans hnonce
        exact ⟨j, hj, by rwa [Function.update_of_ne hji]⟩
      · exact absurd hcovers (Reservation.not_covers_of_issued hissued)
  last {r' j nonce} hr' hj hnonce hlive := by
    obtain rfl := Option.some.inj (hslot'.symm.trans hr')
    obtain ⟨-, hnext⟩ | ⟨hji, hheld⟩ := Ledger.held_update hnonce
    · obtain rfl := Option.some.inj hnext
      exact Reservation.toNat_next_advance hroom
    · exact absurd (hothers j nonce hji hj hheld) hlive
  since {r'} hr' := by
    obtain rfl := Option.some.inj (hslot'.symm.trans hr')
    obtain ⟨front, j, base, hstarted, hnext⟩ := hsince
    refine ⟨front, j, base, hstarted, ?_⟩
    rw [Reservation.toNat_next_advance hroom, Reservation.toNat_issued_advance hroom hsound, hnext,
      Nat.add_assoc]

/-- The last nonce is given back. -/
theorem giveBack (h : Gapless sender address history pool stage) {i : ι} {r : Reservation}
    {nonce : UInt64} (hslot : pool.memory.nonces.reservation? address = some r)
    (hslot' : later.memory.nonces.reservation? address = some (r.retreat nonce)) (hsound : r.Sound)
    (hlast : r.isLast nonce) (hheld : (stage i).nonce? = some nonce)
    (hsole : ∀ j, sender j = address → (stage j).nonce? = some nonce → j = i)
    (hreturned : ∀ i, pool.returned i → later.returned i)
    (hother : ∀ i nonce, event ≠ .stepped i (.startNonces address nonce) ()) :
    Gapless sender address (history ++ [event]) later (Function.update stage i .ended) where
  filled {r' other} hr' hcovers := by
    obtain rfl := Option.some.inj (hslot'.symm.trans hr')
    obtain ⟨hcovers, hne⟩ := hcovers.of_retreat hlast hsound
    obtain ⟨j, hj, hnonce⟩ := h.filled hslot hcovers
    have hji : j ≠ i := by
      rintro rfl
      exact hne (Option.some.inj (hnonce.symm.trans hheld))
    exact ⟨j, hj, by rwa [Function.update_of_ne hji]⟩
  last {r' j other} hr' hj hnonce hlive := by
    obtain ⟨hji, hnonce⟩ := Ledger.held_of_update_ended hnonce
    -- Whoever has not returned holds the last nonce too, and would be the call itself.
    have hnext := h.last hslot hj hnonce (mt (hreturned j) hlive)
    have hsame : other = nonce :=
      UInt64.toNat_inj.1
        (Nat.succ.inj (hnext.symm.trans (Reservation.toNat_of_isLast hsound hlast).1))
    exact absurd (hsole j hj (hsame ▸ hnonce)) hji
  since {r'} hr' := by
    obtain rfl := Option.some.inj (hslot'.symm.trans hr')
    obtain ⟨front, j, base, hstarted, hnext⟩ := h.since hslot
    refine ⟨front, j, base, hstarted.snoc hother, ?_⟩
    have hbefore := (Reservation.toNat_of_isLast hsound hlast).1
    have hissued := Reservation.toNat_issued_retreat hlast hsound
    show nonce.toNat = _
    omega

variable {posts : UInt64 → Query → Prop} {ends : (i : ι) → Holding → Except Error (α i) → Prop}

/-- An event that hands a nonce of the sender to a call, which is its turn. -/
theorem handed (h : Gapless sender address history pool stage)
    (hbefore : Accounted sender posts ends history pool stage) (hstep : Step pool event later)
    (hmoves : Moves (fun i => discipline (sender i) posts) stage event stage')
    (hroom : History.HasRoom (history ++ [event])) {i : ι} {nonce : UInt64}
    (hout : HandsOut event i address nonce)
    (hturn : ∀ j earlier, j ≠ i → history.HandedOut j address earlier → later.returned j) :
    Gapless sender address (history ++ [event]) later stage' := by
  have hnext : nonce.toNat + 1 < UInt64.size := hroom i address nonce (.last hout)
  obtain ⟨hown, hnone, rfl⟩ := hout.moves hmoves
  have hothers : ∀ j other, j ≠ i → sender j = address → (stage j).nonce? = some other →
      later.returned j :=
    fun j other hji hj hheld => hturn j other hji (hj ▸ hbefore.recorded.held hheld)
  cases hout with
  | taken =>
      obtain ⟨-, r, hslot, rfl⟩ := hbefore.next_of_taken hstep
      obtain ⟨-, -, hmemory⟩ := hstep.of_stepped
      have hslot' : later.memory.nonces.reservation? address = some r.advance := by
        obtain ⟨r', hr', htake⟩ | ⟨hunknown, -⟩ := pool.memory.nonces.take_cases address
        · obtain rfl := Option.some.inj (hslot.symm.trans hr')
          simp [hmemory, Access.apply, htake]
        · cases hslot.symm.trans hunknown
      obtain ⟨front, j, base, hstarted, hbase⟩ := h.since hslot
      exact h.handOut (.inl hslot) hslot' (hbefore.ledger.sound hslot) hnext hown.symm hnone hothers
        ⟨front, j, base, hstarted.snoc (by simp), hbase⟩
  | started =>
      obtain ⟨-, hunknown⟩ := hbefore.unknown_of_started hstep
      obtain ⟨-, -, hmemory⟩ := hstep.of_stepped
      have hslot' :
          later.memory.nonces.reservation? address = some (Reservation.start nonce).advance := by
        simp [hmemory, Access.apply, NonceBook.start]
      have hissued : (Reservation.start nonce).issued = 0 := rfl
      exact h.handOut (.inr ⟨hunknown, hissued⟩) hslot' (Reservation.sound_of_issued hissued)
        hnext hown.symm hnone hothers ⟨history, i, nonce, .here, rfl⟩

/-- An event that hands out no nonce of the sender. -/
theorem unhanded (h : Gapless sender address history pool stage)
    (hbefore : Accounted sender posts ends history pool stage) (hstep : Step pool event later)
    (hmoves : Moves (fun i => discipline (sender i) posts) stage event stage')
    (hquiet : ∀ i nonce, ¬ HandsOut event i address nonce) :
    Gapless sender address (history ++ [event]) later stage' := by
  have hreturned : ∀ i, pool.returned i → later.returned i := fun _ => hstep.returned
  have hother : ∀ i nonce, event ≠ .stepped i (.startNonces address nonce) () := by
    rintro i nonce rfl
    exact hquiet i nonce .started
  cases hstep with
  | @answered i _ _ answer hleft =>
      cases hmoves with
      | answered hasks =>
          refine h.quiet rfl (fun j _ => ?_) hreturned hother
          obtain rfl | hji := eq_or_ne j i
          · rw [Function.update_self]
            generalize stage j = before at hasks
            cases hasks <;> rfl
          · rw [Function.update_of_ne hji]
  | dropped | passed =>
      cases hmoves
      exact h.quiet rfl (fun _ _ => rfl) hreturned hother
  | @stepped i access next hleft hadmits =>
      cases hmoves with
      | stepped hsteps =>
          by_cases hown : sender i = address
          · subst hown
            obtain ⟨nonce, hout, -⟩ | ⟨-, -, -, hneither⟩ :=
              @Steps.progress Query Answer ι _ _ _ _ _ hsteps i
            · exact absurd hout (hquiet i nonce)
            have heffect := hsteps.effect (hbefore.attended.unsynced (by simp [hleft]))
            generalize hstage : stage i = before at heffect
            cases heffect with
            | unchanged hslot hheld =>
                refine h.quiet hslot (fun j _ => ?_) hreturned hother
                obtain rfl | hji := eq_or_ne j i
                · rw [Function.update_self, hheld, hstage]
                · rw [Function.update_of_ne hji]
            | handsOut r => exact absurd rfl (hneither r.next).1
            | forgets hslot hsole hslot' =>
                have hnone :
                    ∀ r, (access.apply pool.memory).2.nonces.reservation? (sender i) ≠ some r := by
                  rw [hslot']
                  exact fun _ => nofun
                exact ⟨fun hr => absurd hr (hnone _), fun hr => absurd hr (hnone _),
                  fun hr => absurd hr (hnone _)⟩
            | @givesBack nonce r hslot hlast hslot' hheld =>
                exact h.giveBack hslot hslot' (hbefore.ledger.sound hslot) hlast (hstage ▸ hheld)
                  (fun j hj hnonce => hbefore.ledger.distinct hj hnonce (hstage ▸ hheld))
                    hreturned hother
            | @loses nonce hslot hlast hheld =>
                -- The call has not returned, so its nonce is the last one, and is taken back.
                obtain ⟨r, hr, hcovers⟩ := hbefore.ledger.covered (hstage ▸ hheld)
                have hlive : ¬ pool.returned i := by simp [Pool.returned, hleft]
                exact absurd (hcovers.isLast (h.last hr rfl (hstage ▸ hheld) hlive)) (hlast r hr)
          · refine h.quiet (hsteps.frame pool.memory (Ne.symm hown)) (fun j hj => ?_)
              hreturned hother
            have hji : j ≠ i := by
              rintro rfl
              exact hown hj
            rw [Function.update_of_ne hji]

/-- A sender whose calls take turns loses no nonce, whatever the calls of others do. -/
theorem of_run {clock : Moment} {cache : ConfigCache} {calls : (i : ι) → Call Query Answer (α i)}
    (hfollows : ∀ i, (calls i).Follows (discipline (sender i) posts) (ends i) .outside)
    (run : Run (.begin ⟨clock, cache, .empty⟩ calls) history pool) (hroom : history.HasRoom)
    (hturns : history.TakesTurns pool address) :
    ∃ stage, Accounted sender posts ends history pool stage ∧
      Gapless sender address history pool stage := by
  induction run with
  | nil =>
      obtain ⟨stage, hstage⟩ := Accounted.of_run hfollows .nil hroom
      exact ⟨stage, hstage, nofun, nofun, nofun⟩
  | @snoc history pool event later run step ih =>
      obtain ⟨stage, hbefore, hgapless⟩ := ih hroom.left (hturns.unsnoc step)
      obtain ⟨stage', hmoves, hafter⟩ := hbefore.step step hroom
      refine ⟨stage', hafter, ?_⟩
      by_cases hout : ∃ i nonce, HandsOut event i address nonce
      · obtain ⟨i, nonce, hout⟩ := hout
        exact hgapless.handed hbefore step hmoves hroom hout fun j earlier => hturns.last hout
      · exact hgapless.unhanded hbefore step hmoves fun i nonce hout' => hout ⟨i, nonce, hout'⟩

end Gapless

end ShardNet
