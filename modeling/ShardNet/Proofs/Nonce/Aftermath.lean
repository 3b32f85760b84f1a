-- SUMMARY: What comes of a nonce that is given up while no other call of its sender is at work.
import ShardNet.Proofs.Nonce.Accounted

/-!
# Giving a nonce up

A call that has failed gives its nonce up in two steps: it asks the book to forget its sender, which
the book does if no other nonce is out, and else it gives the nonce back, which the book takes if it
is the last one. `Aftermath` follows the call and the slot of its sender through this, and
`Aftermath.of_run` says that nothing else changes them in a run, while the other calls with a nonce
of the sender are over and no nonce is handed out.
-/

namespace ShardNet

open Holding

variable {Query Answer ι : Type} {α : ι → Type}

/-! ## Steps -/

namespace Holding.Steps

variable {sender : Address} {nonce : UInt64} {access : Access} {memory : Memory} {stage' : Holding}
  {r : Reservation}

/-- After its failure, a call asks the book to forget its sender. -/
theorem of_posted (hstep : Steps sender (.posted nonce) access (access.apply memory).1 stage')
    (hslot : memory.nonces.reservation? sender = some r) :
    access = .invalidateIfSole sender nonce ∧
      (r.isSole nonce ∧ stage' = .ended ∧
        (access.apply memory).2.nonces.reservation? sender = none ∨
        ¬ r.isSole nonce ∧ stage' = .abandoning nonce ∧
          (access.apply memory).2.nonces.reservation? sender = some r) := by
  generalize hreply : (access.apply memory).1 = reply at hstep
  cases hstep with
  | @forgotten _ other hstage | @kept _ other hstage =>
      obtain rfl : nonce = other := by
        obtain hcarrying | hposted := hstage
        · cases hcarrying
        · exact Holding.posted.inj hposted
      refine ⟨rfl, ?_⟩
      obtain ⟨r', hr', hsole, hsent⟩ | ⟨hshared, hsent⟩ :=
          memory.nonces.invalidateIfSole_cases sender nonce <;>
        simp_all [Access.apply]

/-- Where the book is not asked in vain, the call tries to give its nonce back. -/
theorem of_abandoning
    (hstep : Steps sender (.abandoning nonce) access (access.apply memory).1 stage')
    (hslot : memory.nonces.reservation? sender = some r) :
    access = .releaseNonce sender nonce ∧ stage' = .ended ∧
      ∃ left, (access.apply memory).2.nonces.reservation? sender = some left := by
  generalize hreply : (access.apply memory).1 = reply at hstep
  cases hstep with
  | forgotten hstage | kept hstage => obtain hstage | hstage := hstage <;> cases hstage
  | released =>
      refine ⟨rfl, rfl, ?_⟩
      obtain ⟨r', -, -, hsent⟩ | ⟨-, hsent⟩ := memory.nonces.release_cases sender nonce
      · exact ⟨r'.retreat nonce, by simp [Access.apply, hsent]⟩
      · exact ⟨r, by simp [Access.apply, hsent, hslot]⟩

end Holding.Steps

/-- A call has begun to give its nonce up. -/
def History.GaveUp (history : History Query Answer ι) (i : ι) (sender : Address) (nonce : UInt64) :
    Prop :=
  ∃ reply, .stepped i (.invalidateIfSole sender nonce) reply ∈ history

/-- Where a call stands after its failure, and what its sender's slot holds, which held `r`
before. -/
inductive Aftermath (i : ι) (sender : Address) (nonce : UInt64) (r : Reservation)
    (history : History Query Answer ι) : Holding → Option Reservation → Prop where
  | failed (hwaits : ¬ history.GaveUp i sender nonce) :
      Aftermath i sender nonce r history (.posted nonce) (some r)
  | forgotten (hgaveUp : history.GaveUp i sender nonce) (hsole : r.isSole nonce) :
      Aftermath i sender nonce r history .ended none
  | kept (hgaveUp : history.GaveUp i sender nonce) (hshared : ¬ r.isSole nonce) :
      Aftermath i sender nonce r history (.abandoning nonce) (some r)
  | released {left} (hgaveUp : history.GaveUp i sender nonce) (hshared : ¬ r.isSole nonce) :
      Aftermath i sender nonce r history .ended (some left)

namespace Aftermath

variable {i : ι} {sender : Address} {nonce : UInt64} {r : Reservation}
  {history : History Query Answer ι} {event : Event Query Answer ι} {stage stage' : Holding}
  {slot : Option Reservation}

theorem slot_eq_none_iff (h : Aftermath i sender nonce r history stage slot) :
    slot = none ↔ history.GaveUp i sender nonce ∧ r.isSole nonce := by
  cases h with
  | failed hwaits => simp [hwaits]
  | forgotten hgaveUp hsole => simp [hgaveUp, hsole]
  | kept _ hshared | released _ hshared => simp [hshared]

theorem gaveUp (h : Aftermath i sender nonce r history .ended slot) :
    history.GaveUp i sender nonce := by
  cases h <;> assumption

theorem gaveUp_snoc (h : history.GaveUp i sender nonce) :
    History.GaveUp (history ++ [event]) i sender nonce := by
  obtain ⟨reply, hmem⟩ := h
  exact ⟨reply, List.mem_append_left _ hmem⟩

/-- Events that are not steps of the call itself. -/
theorem still (h : Aftermath i sender nonce r history stage slot)
    (hother : ∀ reply, event ≠ .stepped i (.invalidateIfSole sender nonce) reply) :
    Aftermath i sender nonce r (history ++ [event]) stage slot := by
  cases h with
  | failed hwaits =>
      refine .failed ?_
      rintro ⟨reply, hmem⟩
      obtain hmem | hmem := List.mem_append.1 hmem
      · exact hwaits ⟨reply, hmem⟩
      · exact hother reply (List.mem_singleton.1 hmem).symm
  | forgotten hgaveUp hsole => exact .forgotten (gaveUp_snoc hgaveUp) hsole
  | kept hgaveUp hshared => exact .kept (gaveUp_snoc hgaveUp) hshared
  | released hgaveUp hshared => exact .released (gaveUp_snoc hgaveUp) hshared

/-- A step of the call itself. -/
theorem step {memory : Memory} {access : Access}
    (h : Aftermath i sender nonce r history stage (memory.nonces.reservation? sender))
    (hstep : Steps sender stage access (access.apply memory).1 stage') :
    Aftermath i sender nonce r (history ++ [.stepped i access (access.apply memory).1]) stage'
      ((access.apply memory).2.nonces.reservation? sender) := by
  generalize hslot : memory.nonces.reservation? sender = slot at h
  cases h with
  | failed =>
      obtain ⟨rfl, hcases⟩ := hstep.of_posted hslot
      have hgaveUp : History.GaveUp (history ++ [.stepped i (.invalidateIfSole sender nonce)
          ((Access.invalidateIfSole sender nonce).apply memory).1]) i sender nonce :=
        ⟨_, List.mem_append_right _ (List.mem_singleton.2 rfl)⟩
      obtain ⟨hsole, rfl, hslot'⟩ | ⟨hshared, rfl, hslot'⟩ := hcases
      · rw [hslot']
        exact .forgotten hgaveUp hsole
      · rw [hslot']
        exact .kept hgaveUp hshared
  | kept hgaveUp hshared =>
      obtain ⟨rfl, rfl, left, hslot'⟩ := hstep.of_abandoning hslot
      rw [hslot']
      exact .released (gaveUp_snoc hgaveUp) hshared
  | forgotten | released =>
      obtain ⟨_, -, -, hlive, -⟩ | ⟨-, hlive, -⟩ :=
        @Steps.progress Query Answer Unit _ _ _ _ _ hstep ()
      all_goals exact absurd rfl hlive

end Aftermath

section

variable [DecidableEq ι] {sender : ι → Address} {posts : UInt64 → Query → Prop}
  {ends : (i : ι) → Holding → Except Error (α i) → Prop} {history between : History Query Answer ι}
  {pool later last : Pool Query Answer α} {stage stage' : ι → Holding}
  {event : Event Query Answer ι} {i : ι} {nonce : UInt64} {r : Reservation}

/-- All other calls that hold a nonce of the sender of a call are over. -/
def Pool.LeavesAlone (pool : Pool Query Answer α) (sender : ι → Address) (stage : ι → Holding)
    (i : ι) : Prop :=
  ∀ j other, j ≠ i → sender j = sender i → (stage j).nonce? = some other → pool.isOver j

theorem Pool.LeavesAlone.step (h : pool.LeavesAlone sender stage i) (step : Step pool event later)
    (hheld : ∀ j other, j ≠ i → sender j = sender i → (stage' j).nonce? = some other →
      (stage j).nonce? = some other) : later.LeavesAlone sender stage' i :=
  fun j other hji hj hother => step.isOver (h j other hji hj (hheld j other hji hj hother))

omit [DecidableEq ι] in
/-- As long as no nonce of the sender is handed out, a step of another call changes nothing for
it. -/
theorem Pool.LeavesAlone.unchanged (h : pool.LeavesAlone sender stage i)
    (hbefore : Accounted sender posts ends history pool stage) {j : ι} {access : Access}
    {reached : Holding} (hlive : (pool.rest j).isSome) (hrunning : ¬ pool.isOver j) (hji : j ≠ i)
    (hsteps : Steps (sender j) (stage j) access (access.apply pool.memory).1 reached)
    (hquiet : ∀ other,
      ¬ HandsOut (.stepped j access (access.apply pool.memory).1 : Event Query Answer ι) j
        (sender i) other) :
    (access.apply pool.memory).2.nonces.reservation? (sender i) =
        pool.memory.nonces.reservation? (sender i) ∧
      (sender j = sender i → reached.nonce? = (stage j).nonce?) := by
  by_cases hown : sender j = sender i
  · have hnone : ∀ other, (stage j).nonce? ≠ some other :=
      fun other hheld => hrunning (h j other hji hown hheld)
    obtain ⟨other, hout, -⟩ | ⟨-, -, -, hneither⟩ :=
      @Steps.progress Query Answer ι _ _ _ _ _ hsteps j
    · exact absurd (hown ▸ hout) (hquiet other)
    rw [← hown]
    have heffect := hsteps.effect (hbefore.attended.unsynced hlive)
    generalize stage j = before at heffect hnone
    cases heffect with
    | unchanged hslot hheld => exact ⟨hslot, fun _ => hheld⟩
    | handsOut r => exact absurd rfl (hneither r.next).1
    | forgets _ _ _ hheld | givesBack _ _ _ hheld | loses _ _ hheld => exact absurd hheld (hnone _)
  · exact ⟨hsteps.frame pool.memory (Ne.symm hown), fun hsame => absurd hsame hown⟩

/-- What happens beside a failed call has no part in its aftermath, as long as no nonce is handed
out. -/
theorem Aftermath.onward
    (h : Aftermath i (sender i) nonce r between (stage i)
      (pool.memory.nonces.reservation? (sender i)))
    (halone : pool.LeavesAlone sender stage i)
    (hbefore : Accounted sender posts ends history pool stage) (step : Step pool event later)
    (hmoves : Moves (fun i => discipline (sender i) posts) stage event stage')
    (hquiet : ∀ j other, ¬ HandsOut event j (sender i) other) :
    Aftermath i (sender i) nonce r (between ++ [event]) (stage' i)
        (later.memory.nonces.reservation? (sender i)) ∧
      later.LeavesAlone sender stage' i := by
  have hstep := step
  cases step with
  | @answered j query next answer hleft =>
      cases hmoves with
      | answered hasks =>
          have hji : j ≠ i := by
            rintro rfl
            generalize stage j = before at h hasks
            generalize pool.memory.nonces.reservation? (sender j) = slot at h
            cases h <;> cases hasks
          refine ⟨?_, halone.step hstep fun k other hki hk hother => ?_⟩
          · rw [Function.update_of_ne hji.symm]
            exact h.still nofun
          · obtain ⟨rfl, hreached⟩ | ⟨-, hother⟩ := Ledger.held_update hother
            · generalize stage k = before at hasks
              cases hasks <;> exact hreached
            · exact hother
  | dropped | passed =>
      cases hmoves
      exact ⟨h.still nofun, halone.step hstep fun _ _ _ _ hother => hother⟩
  | @stepped j access next hleft hadmits =>
      cases hmoves with
      | stepped hsteps =>
          obtain rfl | hji := eq_or_ne j i
          · refine ⟨?_, halone.step hstep fun k other hki hk hother => ?_⟩
            · rw [Function.update_self]
              exact h.step hsteps
            · rwa [Function.update_of_ne hki] at hother
          · have hlive : (pool.rest j).isSome := by simp [hleft]
            obtain ⟨hslot, hheld⟩ :=
              halone.unchanged hbefore hlive (hstep.not_isOver rfl) hji hsteps (hquiet j)
            refine ⟨?_, halone.step hstep fun k other hki hk hother => ?_⟩
            · rw [Function.update_of_ne hji.symm]
              show Aftermath _ _ _ _ _ _
                ((access.apply pool.memory).2.nonces.reservation? (sender i))
              rw [hslot]
              exact h.still fun reply hsame => hji (Event.stepped.inj hsame).1
            · obtain ⟨rfl, hreached⟩ | ⟨-, hother⟩ := Ledger.held_update hother
              · exact (hheld hk).symm.trans hreached
              · exact hother

/-- The aftermath of a failed call, until another nonce of its sender is handed out. -/
theorem Aftermath.of_run (h : Accounted sender posts ends history pool stage)
    (halone : pool.LeavesAlone sender stage i) (hfailed : stage i = .posted nonce)
    (hslot : pool.memory.nonces.reservation? (sender i) = some r) (run : Run pool between last)
    (hroom : History.HasRoom (history ++ between))
    (hquiet : ∀ j other, ¬ between.HandedOut j (sender i) other) :
    ∃ stage', Accounted sender posts ends (history ++ between) last stage' ∧
      Aftermath i (sender i) nonce r between (stage' i)
        (last.memory.nonces.reservation? (sender i)) := by
  have hall : ∃ stage', Accounted sender posts ends (history ++ between) last stage' ∧
      Aftermath i (sender i) nonce r between (stage' i)
        (last.memory.nonces.reservation? (sender i)) ∧
      last.LeavesAlone sender stage' i := by
    induction run with
    | nil =>
        refine ⟨stage, by rwa [List.append_nil], ?_, halone⟩
        rw [hfailed, hslot]
        exact .failed fun ⟨_, hmem⟩ => List.not_mem_nil hmem
    | @snoc between middle event later run step ih =>
        rw [← List.append_assoc] at hroom ⊢
        obtain ⟨stage', hbefore, haftermath, halone⟩ :=
          ih hroom.left fun j other hhanded => hquiet j other hhanded.mono
        obtain ⟨stage'', hmoves, hafter⟩ := hbefore.step step hroom
        exact ⟨stage'', hafter, haftermath.onward halone hbefore step hmoves
          fun j other hout => hquiet j other (.last hout)⟩
  obtain ⟨stage', hafter, haftermath, -⟩ := hall
  exact ⟨stage', hafter, haftermath⟩

end

end ShardNet
