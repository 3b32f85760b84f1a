-- SUMMARY: The two counters of a sender account for every nonce that is held, whatever the calls of the sender do.
import ShardNet.Proofs.Nonce.Holding

/-!
# The nonces of a sender

The book keeps two counters for a sender in step: the next nonce, and how many are out. `Ledger` is
what they say about the calls: every nonce that a call holds lies in the stretch of so many nonces
below the next one, and no two calls of a sender hold the same. Nothing else is needed to see that a
nonce is given back, or forgotten, only by the one call that holds it.

`Steps.effect` says once what a step of a call can do to the slot of its sender, and `Ledger.step`
that each of these effects keeps the ledger.
-/

namespace ShardNet

namespace Reservation

/-- A nonce is one of those that are out: the last `issued` ones before `next`. -/
def Covers (r : Reservation) (nonce : UInt64) : Prop :=
  nonce.toNat < r.next.toNat ∧ r.next.toNat ≤ nonce.toNat + r.issued.toNat

/-- No more nonces are out than there are below the next one. -/
def Sound (r : Reservation) : Prop := r.issued.toNat ≤ r.next.toNat

/-- The next nonce can be handed out, and is not the last there is. -/
def HasRoom (r : Reservation) : Prop := r.next.toNat + 1 < UInt64.size

variable {r : Reservation} {nonce other : UInt64}

theorem sound_of_issued (hissued : r.issued = 0) : r.Sound := by
  rw [Sound, hissued]
  exact Nat.zero_le _

theorem not_covers_next : ¬ r.Covers r.next := fun h => Nat.lt_irrefl _ h.1

theorem toNat_next_advance (hroom : r.HasRoom) : r.advance.next.toNat = r.next.toNat + 1 := by
  simp only [HasRoom, UInt64.size] at hroom
  simp only [advance, UInt64.toNat_add, UInt64.reduceToNat]
  omega

theorem toNat_issued_advance (hroom : r.HasRoom) (hsound : r.Sound) :
    r.advance.issued.toNat = r.issued.toNat + 1 := by
  simp only [HasRoom, Sound, UInt64.size] at hroom hsound
  simp only [advance, UInt64.toNat_add, UInt64.reduceToNat]
  omega

theorem Sound.advance (hsound : r.Sound) (hroom : r.HasRoom) : r.advance.Sound := by
  rw [Sound, toNat_next_advance hroom, toNat_issued_advance hroom hsound]
  exact Nat.succ_le_succ hsound

theorem covers_advance_next (hsound : r.Sound) (hroom : r.HasRoom) : r.advance.Covers r.next := by
  rw [Covers, toNat_next_advance hroom, toNat_issued_advance hroom hsound]
  omega

theorem Covers.advance (hcovers : r.Covers nonce) (hsound : r.Sound) (hroom : r.HasRoom) :
    r.advance.Covers nonce := by
  obtain ⟨hbelow, habove⟩ := hcovers
  rw [Covers, toNat_next_advance hroom, toNat_issued_advance hroom hsound]
  omega

/-- The last nonce is out, and it is the one before the next. -/
theorem toNat_of_isLast (hsound : r.Sound) (hlast : r.isLast nonce) :
    r.next.toNat = nonce.toNat + 1 ∧ 0 < r.issued.toNat := by
  simp only [isLast, Bool.and_eq_true, decide_eq_true_eq, beq_iff_eq] at hlast
  obtain ⟨hissued, hnext⟩ := hlast
  have hpos : 0 < r.issued.toNat := UInt64.lt_iff_toNat_lt.1 hissued
  have hlt := nonce.toNat_lt
  simp only [Sound] at hsound
  have hval := congrArg UInt64.toNat hnext
  simp only [UInt64.toNat_add, UInt64.reduceToNat] at hval
  omega

theorem Sound.retreat (hsound : r.Sound) (hlast : r.isLast nonce) : (r.retreat nonce).Sound := by
  obtain ⟨hnext, hpos⟩ := toNat_of_isLast hsound hlast
  have hle : (1 : UInt64) ≤ r.issued := UInt64.le_iff_toNat_le.2 hpos
  simp only [Sound, Reservation.retreat, UInt64.toNat_sub_of_le _ _ hle, UInt64.reduceToNat] at *
  omega

theorem Covers.retreat (hcovers : r.Covers other) (hsound : r.Sound) (hlast : r.isLast nonce)
    (hne : other ≠ nonce) : (r.retreat nonce).Covers other := by
  obtain ⟨hnext, hpos⟩ := toNat_of_isLast hsound hlast
  have hle : (1 : UInt64) ≤ r.issued := UInt64.le_iff_toNat_le.2 hpos
  have hval : other.toNat ≠ nonce.toNat := fun h => hne (UInt64.toNat_inj.1 h)
  simp only [Covers, Reservation.retreat, UInt64.toNat_sub_of_le _ _ hle, UInt64.reduceToNat] at *
  omega

/-- A sole nonce is the only one that is out. -/
theorem Covers.eq_of_isSole (hcovers : r.Covers other) (hsound : r.Sound) (hsole : r.isSole nonce) :
    other = nonce := by
  simp only [isSole, Bool.and_eq_true, beq_iff_eq] at hsole
  obtain ⟨hone, hnext⟩ := hsole
  have hlast : r.isLast nonce := by simp [isLast, hone, hnext]
  obtain ⟨hval, -⟩ := toNat_of_isLast hsound hlast
  simp only [Covers, hone, UInt64.reduceToNat] at hcovers
  exact UInt64.toNat_inj.1 (by omega)

end Reservation

/-! ## The book by senders -/

namespace NonceBook

variable {book : NonceBook} {sender other : Address}

@[simp] theorem reservation?_put_self {contents : Option Reservation} :
    (book.put sender contents).reservation? sender = contents := by
  simp [reservation?]

theorem reservation?_put_of_ne {contents : Option Reservation} (hne : other ≠ sender) :
    (book.put sender contents).reservation? other = book.reservation? other := by
  simp [reservation?, slot?_put_of_ne book hne]

@[simp] theorem reservation?_openSlot :
    (book.openSlot sender).reservation? other = book.reservation? other := by
  unfold openSlot
  split
  · rfl
  · rename_i hnone
    obtain rfl | hne := eq_or_ne other sender
    · have hslot : book.slot? other = none := by simpa using hnone
      simp [reservation?, hslot]
    · exact reservation?_put_of_ne hne

theorem take_cases (book : NonceBook) (sender : Address) :
    (∃ r, book.reservation? sender = some r ∧
      book.take sender = (some r.next, book.put sender (some r.advance))) ∨
    (book.reservation? sender = none ∧ book.take sender = (none, book)) := by
  unfold take
  cases h : book.reservation? sender with
  | some r => exact .inl ⟨r, rfl, rfl⟩
  | none => exact .inr ⟨rfl, rfl⟩

theorem release_cases (book : NonceBook) (sender : Address) (nonce : UInt64) :
    (∃ r, book.reservation? sender = some r ∧ r.isLast nonce ∧
      book.release sender nonce = (true, book.put sender (some (r.retreat nonce)))) ∨
    (∀ r, book.reservation? sender = some r → ¬ r.isLast nonce) ∧
      book.release sender nonce = (false, book) := by
  unfold release
  cases h : book.reservation? sender with
  | none => exact .inr ⟨nofun, rfl⟩
  | some r =>
      by_cases hlast : r.isLast nonce
      · exact .inl ⟨r, rfl, hlast, by simp [hlast]⟩
      · exact .inr (by simp [hlast])

theorem invalidateIfSole_cases (book : NonceBook) (sender : Address) (nonce : UInt64) :
    (∃ r, book.reservation? sender = some r ∧ r.isSole nonce ∧
      book.invalidateIfSole sender nonce = (true, book.put sender none)) ∨
    (∀ r, book.reservation? sender = some r → ¬ r.isSole nonce) ∧
      book.invalidateIfSole sender nonce = (false, book) := by
  unfold invalidateIfSole
  cases h : book.reservation? sender with
  | none => exact .inr ⟨nofun, rfl⟩
  | some r =>
      by_cases hsole : r.isSole nonce
      · exact .inl ⟨r, rfl, hsole, by simp [hsole]⟩
      · exact .inr (by simp [hsole])

end NonceBook

theorem Access.reservation?_of_spares {access : Access} (hspares : access.sparesNonces)
    (memory : Memory) (sender : Address) :
    (access.apply memory).2.nonces.reservation? sender = memory.nonces.reservation? sender := by
  cases access with
  | openSlot other => simp [Access.apply]
  | acquire | release | freshConfig | storeConfig | clearConfig | peek => rfl
  | takeNonce | startNonces | releaseNonce | invalidateIfSole | invalidate | resync => cases hspares

/-! ## Effects -/

open Holding

/-- What a step of a call does to the slot of its sender, from `slot` to `slot'`, and to what the
call holds. -/
inductive Effect (slot slot' : Option Reservation) : Holding → Holding → Prop where
  | unchanged {stage stage'} (hslot : slot' = slot) (hheld : stage'.nonce? = stage.nonce?) :
      Effect slot slot' stage stage'
  | handsOut {stage} (r : Reservation) (hslot : slot = some r ∨ slot = none ∧ r.issued = 0)
      (hslot' : slot' = some r.advance) (hheld : stage.nonce? = none) :
      Effect slot slot' stage (.handed r.next)
  | forgets {stage nonce r} (hslot : slot = some r) (hsole : r.isSole nonce) (hslot' : slot' = none)
      (hheld : stage.nonce? = some nonce) : Effect slot slot' stage .ended
  | givesBack {stage nonce r} (hslot : slot = some r) (hlast : r.isLast nonce)
      (hslot' : slot' = some (r.retreat nonce)) (hheld : stage.nonce? = some nonce) :
      Effect slot slot' stage .ended
  | loses {stage nonce} (hslot : slot' = slot) (hlast : ∀ r, slot = some r → ¬ r.isLast nonce)
      (hheld : stage.nonce? = some nonce) : Effect slot slot' stage .ended

/-- Every step of a call with a nonce has one of the effects on the slot of its sender. -/
theorem Holding.Steps.effect {sender : Address} {stage stage' : Holding} {access : Access}
    {memory : Memory} (hstep : Steps sender stage access (access.apply memory).1 stage')
    (hsync : stage = .syncing → memory.nonces.reservation? sender = none) :
    Effect (memory.nonces.reservation? sender)
      ((access.apply memory).2.nonces.reservation? sender) stage stage' := by
  generalize hreply : (access.apply memory).1 = reply at hstep
  cases hstep with
  | outside hspares | syncing hspares =>
      exact .unchanged (access.reservation?_of_spares hspares memory sender) rfl
  | acquire | failed | release => exact .unchanged rfl rfl
  | @taken nonce =>
      obtain ⟨r, hslot, htake⟩ | ⟨-, htake⟩ := memory.nonces.take_cases sender
      · simp only [Access.apply, htake, Option.some.injEq] at hreply
        subst hreply
        exact .handsOut r (.inl hslot) (by simp [Access.apply, htake]) rfl
      · simp [Access.apply, htake] at hreply
  | missing =>
      obtain ⟨r, -, htake⟩ | ⟨-, htake⟩ := memory.nonces.take_cases sender
      · simp [Access.apply, htake] at hreply
      · exact .unchanged (by simp [Access.apply, htake]) rfl
  | @started nonce =>
      refine .handsOut (.start nonce) (.inr ⟨hsync rfl, rfl⟩) ?_ rfl
      simp [Access.apply, NonceBook.start]
  | @forgotten _ nonce hstage =>
      have hheld : stage.nonce? = some nonce := by rcases hstage with rfl | rfl <;> rfl
      obtain ⟨r, hslot, hsole, hsent⟩ | ⟨-, hsent⟩ :=
        memory.nonces.invalidateIfSole_cases sender nonce
      · exact .forgets hslot hsole (by simp [Access.apply, hsent]) hheld
      · simp [Access.apply, hsent] at hreply
  | @kept _ nonce hstage =>
      have hheld : stage.nonce? = some nonce := by rcases hstage with rfl | rfl <;> rfl
      obtain ⟨r, -, -, hsent⟩ | ⟨-, hsent⟩ := memory.nonces.invalidateIfSole_cases sender nonce
      · simp [Access.apply, hsent] at hreply
      · exact .unchanged (by simp [Access.apply, hsent]) hheld.symm
  | @released nonce returned =>
      obtain ⟨r, hslot, hlast, hsent⟩ | ⟨hlast, hsent⟩ := memory.nonces.release_cases sender nonce
      · exact .givesBack hslot hlast (by simp [Access.apply, hsent]) rfl
      · exact .loses (by simp [Access.apply, hsent]) hlast rfl

/-- A step of a call leaves the slots of other senders alone. -/
theorem Holding.Steps.frame {sender other : Address} {stage stage' : Holding} {access : Access}
    {reply : access.Reply} (hstep : Steps sender stage access reply stage') (memory : Memory)
    (hne : other ≠ sender) :
    (access.apply memory).2.nonces.reservation? other = memory.nonces.reservation? other := by
  cases hstep with
  | outside hspares | syncing hspares => exact access.reservation?_of_spares hspares memory other
  | acquire | failed | release => rfl
  | taken | missing =>
      obtain ⟨r, -, htake⟩ | ⟨-, htake⟩ := memory.nonces.take_cases sender
      · simp [Access.apply, htake, NonceBook.reservation?_put_of_ne hne]
      · simp [Access.apply, htake]
  | started => exact NonceBook.reservation?_put_of_ne hne
  | @forgotten _ nonce _ | @kept _ nonce _ =>
      obtain ⟨r, -, -, hsent⟩ | ⟨-, hsent⟩ := memory.nonces.invalidateIfSole_cases sender nonce
      · simp [Access.apply, hsent, NonceBook.reservation?_put_of_ne hne]
      · simp [Access.apply, hsent]
  | @released nonce returned =>
      obtain ⟨r, -, -, hsent⟩ | ⟨-, hsent⟩ := memory.nonces.release_cases sender nonce
      · simp [Access.apply, hsent, NonceBook.reservation?_put_of_ne hne]
      · simp [Access.apply, hsent]

/-! ## The ledger -/

variable {ι : Type}

/-- What the slots of the senders say about the nonces that the calls hold. -/
structure Ledger (sender : ι → Address) (slots : Address → Option Reservation)
    (stage : ι → Holding) :
    Prop where
  sound : ∀ {address r}, slots address = some r → r.Sound
  /-- A nonce that is held is one of those that are out. -/
  covered : ∀ {i nonce}, (stage i).nonce? = some nonce →
    ∃ r, slots (sender i) = some r ∧ r.Covers nonce
  /-- No two calls of a sender hold the same nonce. -/
  distinct : ∀ {i j nonce}, sender i = sender j → (stage i).nonce? = some nonce →
    (stage j).nonce? = some nonce → i = j

namespace Ledger

variable {sender : ι → Address} {slots slots' : Address → Option Reservation} {stage : ι → Holding}
  {i : ι} {stage' : Holding}

/-- Calls that hold no more than before keep the ledger, if the slots still cover what they hold. -/
theorem shrink (h : Ledger sender slots stage) {later : ι → Holding}
    (hheld : ∀ {j nonce}, (later j).nonce? = some nonce → (stage j).nonce? = some nonce)
    (hframe : ∀ other ≠ sender i, slots' other = slots other)
    (hsound : ∀ {r}, slots' (sender i) = some r → r.Sound)
    (hcovered : ∀ {j nonce r}, sender j = sender i → slots (sender i) = some r → r.Covers nonce →
      (later j).nonce? = some nonce → ∃ r', slots' (sender i) = some r' ∧ r'.Covers nonce) :
    Ledger sender slots' later where
  sound {address r} hslot := by
    by_cases hsame : address = sender i
    · exact hsound (hsame ▸ hslot)
    · exact h.sound (hframe address hsame ▸ hslot)
  covered {j nonce} hj := by
    obtain ⟨r, hslot, hr⟩ := h.covered (hheld hj)
    by_cases hsame : sender j = sender i
    · rw [hsame] at hslot ⊢
      exact hcovered hsame hslot hr hj
    · exact ⟨r, (hframe (sender j) hsame).trans hslot, hr⟩
  distinct hsame hj hk := h.distinct hsame (hheld hj) (hheld hk)

variable [DecidableEq ι]

theorem held_update {j : ι} {nonce : UInt64}
    (hheld : (Function.update stage i stage' j).nonce? = some nonce) :
    j = i ∧ stage'.nonce? = some nonce ∨ j ≠ i ∧ (stage j).nonce? = some nonce := by
  obtain rfl | hji := eq_or_ne j i
  · exact .inl ⟨rfl, by simpa using hheld⟩
  · exact .inr ⟨hji, by simpa [Function.update_of_ne hji] using hheld⟩

theorem held_of_update_ended {j : ι} {nonce : UInt64}
    (hheld : (Function.update stage i .ended j).nonce? = some nonce) :
    j ≠ i ∧ (stage j).nonce? = some nonce := by
  obtain ⟨-, hended⟩ | hother := held_update hheld
  · cases hended
  · exact hother

/-- A nonce that is handed out is held by nobody else, and the slot goes on to cover the others. -/
theorem handOut (h : Ledger sender slots stage) {r : Reservation}
    (hframe : ∀ other ≠ sender i, slots' other = slots other)
    (hslot : slots (sender i) = some r ∨ slots (sender i) = none ∧ r.issued = 0)
    (hslot' : slots' (sender i) = some r.advance) (hroom : r.HasRoom) :
    Ledger sender slots' (Function.update stage i (.handed r.next)) := by
  have hsound : r.Sound := hslot.elim h.sound fun hempty => Reservation.sound_of_issued hempty.2
  have hothers : ∀ {j nonce}, sender j = sender i → (stage j).nonce? = some nonce →
      r.Covers nonce := by
    intro j nonce hsame hheld
    obtain ⟨r', hr', hcovers⟩ := h.covered hheld
    rw [hsame] at hr'
    obtain hsome | ⟨hnone, -⟩ := hslot
    · rw [hsome] at hr'
      cases hr'
      exact hcovers
    · rw [hnone] at hr'
      cases hr'
  constructor
  · intro address r' hr'
    by_cases hsame : address = sender i
    · subst hsame
      rw [hslot'] at hr'
      cases hr'
      exact hsound.advance hroom
    · exact h.sound (hframe address hsame ▸ hr')
  · intro j nonce hheld
    obtain ⟨rfl, hnext⟩ | ⟨-, hj⟩ := held_update hheld
    · cases hnext
      exact ⟨_, hslot', Reservation.covers_advance_next hsound hroom⟩
    · by_cases hsame : sender j = sender i
      · exact ⟨_, hsame ▸ hslot', (hothers hsame hj).advance hsound hroom⟩
      · rw [hframe _ hsame]
        exact h.covered hj
  · intro j k nonce hsame hj hk
    obtain ⟨rfl, hnext⟩ | ⟨-, hjheld⟩ := held_update hj <;>
      obtain ⟨rfl, hnext'⟩ | ⟨-, hkheld⟩ := held_update hk
    · rfl
    · cases hnext
      exact absurd (hothers hsame.symm hkheld) Reservation.not_covers_next
    · cases hnext'
      exact absurd (hothers hsame hjheld) Reservation.not_covers_next
    · exact h.distinct hsame hjheld hkheld

theorem step
    (h : Ledger sender slots stage) (hframe : ∀ other ≠ sender i, slots' other = slots other)
    (heffect : Effect (slots (sender i)) (slots' (sender i)) (stage i) stage')
    (hroom : ∀ nonce, stage' = .handed nonce → nonce.toNat + 1 < UInt64.size) :
    Ledger sender slots' (Function.update stage i stage') := by
  generalize hstage : stage i = from_ at heffect
  cases heffect with
  | unchanged hslot hheld =>
      refine h.shrink (fun {j nonce} hj => ?_) hframe (fun hr => h.sound (hslot ▸ hr))
        fun _ hr hcovers _ => ⟨_, hslot ▸ hr, hcovers⟩
      obtain ⟨rfl, hi⟩ | ⟨-, hj⟩ := held_update hj
      · rw [hstage, ← hheld, hi]
      · exact hj
  | handsOut r hslot hslot' hheld => exact h.handOut hframe hslot hslot' (hroom r.next rfl)
  | @forgets nonce r hslot hsole hslot' hheld =>
      refine h.shrink (fun hj => (held_of_update_ended hj).2) hframe (fun hr => ?_) ?_
      · rw [hslot'] at hr
        cases hr
      · intro j other r' hsame hr hcovers hj
        obtain ⟨hji, hj⟩ := held_of_update_ended hj
        obtain rfl : r = r' := Option.some.inj (hslot.symm.trans hr)
        -- Every nonce of the sender that is out is the sole one, which the call itself holds.
        obtain rfl := hcovers.eq_of_isSole (h.sound hslot) hsole
        exact absurd (h.distinct hsame hj (hstage ▸ hheld)) hji
  | @givesBack nonce r hslot hlast hslot' hheld =>
      refine h.shrink (fun hj => (held_of_update_ended hj).2) hframe (fun hr => ?_) ?_
      · obtain rfl := Option.some.inj (hslot'.symm.trans hr)
        exact (h.sound hslot).retreat hlast
      · intro j other r' hsame hr hcovers hj
        obtain ⟨hji, hj⟩ := held_of_update_ended hj
        obtain rfl : r = r' := Option.some.inj (hslot.symm.trans hr)
        have hne : other ≠ nonce := by
          rintro rfl
          exact hji (h.distinct hsame hj (hstage ▸ hheld))
        exact ⟨_, hslot', hcovers.retreat (h.sound hslot) hlast hne⟩
  | loses hslot _ _ =>
      exact h.shrink (fun hj => (held_of_update_ended hj).2) hframe (fun hr => h.sound (hslot ▸ hr))
        fun _ hr hcovers _ => ⟨_, hslot ▸ hr, hcovers⟩

end Ledger

end ShardNet
