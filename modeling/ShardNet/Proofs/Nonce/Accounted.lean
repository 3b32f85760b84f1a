-- SUMMARY: The invariant of all runs of calls with nonces: who holds which nonce, from the history and from the memory.
import ShardNet.Proofs.Nonce.Ledger

/-!
# Accounts of a run

Calls with nonces of any senders run in any order of their steps. What holds after every run has
three parts: the ledger of the senders, the locks of the calls at their slots, and what the history
tells of the nonces handed out. `Accounted.of_run` puts them together, and
`Accounted.ended_of_handsOut` is what follows for a nonce that is handed out twice.
-/

namespace ShardNet

open Holding

variable {Query Answer ι : Type} {α : ι → Type}

/-! ## Histories -/

/-- An event that hands out a nonce of a sender, and to whom. -/
inductive HandsOut : Event Query Answer ι → ι → Address → UInt64 → Prop where
  | taken {i sender nonce} : HandsOut (.stepped i (.takeNonce sender) (some nonce)) i sender nonce
  | started {i sender nonce} : HandsOut (.stepped i (.startNonces sender nonce) ()) i sender nonce

/-- A nonce of a sender has been handed out to a call. -/
def History.HandedOut (history : History Query Answer ι) (i : ι) (sender : Address)
    (nonce : UInt64) :
    Prop :=
  ∃ event ∈ history, HandsOut event i sender nonce

/-- The nonces handed out, and the one after each of them, are nonces. -/
def History.HasRoom (history : History Query Answer ι) : Prop :=
  ∀ i sender nonce, history.HandedOut i sender nonce → nonce.toNat + 1 < UInt64.size

/-- The nonce that an event hands out, with its sender and to whom. -/
def Event.handed? : Event Query Answer ι → Option (ι × Address × UInt64)
  | .stepped i (.takeNonce sender) (some nonce) => some (i, sender, nonce)
  | .stepped i (.startNonces sender nonce) _ => some (i, sender, nonce)
  | _ => none

theorem handsOut_iff {event : Event Query Answer ι} {i : ι} {sender : Address} {nonce : UInt64} :
    HandsOut event i sender nonce ↔ event.handed? = some (i, sender, nonce) := by
  constructor
  · intro hout
    cases hout <;> rfl
  · intro hhanded
    unfold Event.handed? at hhanded
    split at hhanded
    · cases hhanded
      exact .taken
    · cases hhanded
      exact .started
    · cases hhanded

namespace History

variable {history : History Query Answer ι}

theorem handedOut_iff {i : ι} {sender : Address} {nonce : UInt64} :
    history.HandedOut i sender nonce ↔ (i, sender, nonce) ∈ history.filterMap Event.handed? := by
  simp only [HandedOut, handsOut_iff, List.mem_filterMap]

theorem not_handedOut_of_nil (hnone : history.filterMap Event.handed? = [])
    (sender : Address) (i : ι) (nonce : UInt64) : ¬ history.HandedOut i sender nonce := by
  rw [handedOut_iff, hnone]
  exact List.not_mem_nil

theorem hasRoom_iff :
    history.HasRoom ↔ ∀ out ∈ history.filterMap Event.handed?, out.2.2.toNat + 1 < UInt64.size := by
  simp only [HasRoom, handedOut_iff, Prod.forall]

instance [DecidableEq ι] {event : Event Query Answer ι} {i : ι} {sender : Address}
    {nonce : UInt64} :
    Decidable (HandsOut event i sender nonce) := decidable_of_iff _ handsOut_iff.symm

instance [DecidableEq ι] {i : ι} {sender : Address} {nonce : UInt64} :
    Decidable (history.HandedOut i sender nonce) := decidable_of_iff _ handedOut_iff.symm

instance : Decidable history.HasRoom := decidable_of_iff _ hasRoom_iff.symm

end History

namespace History.HandedOut

variable {history : History Query Answer ι} {event : Event Query Answer ι} {i : ι}
  {sender : Address} {nonce : UInt64}

theorem mono (h : history.HandedOut i sender nonce) :
    History.HandedOut (history ++ [event]) i sender nonce := by
  obtain ⟨earlier, hmem, hout⟩ := h
  exact ⟨earlier, List.mem_append_left _ hmem, hout⟩

theorem last (h : HandsOut event i sender nonce) :
    History.HandedOut (history ++ [event]) i sender nonce :=
  ⟨event, by simp, h⟩

theorem cases_snoc (h : History.HandedOut (history ++ [event]) i sender nonce) :
    history.HandedOut i sender nonce ∨ HandsOut event i sender nonce := by
  obtain ⟨earlier, hmem, hout⟩ := h
  rcases List.mem_append.1 hmem with hmem | hmem
  · exact .inl ⟨earlier, hmem, hout⟩
  · exact .inr (List.mem_singleton.1 hmem ▸ hout)

end History.HandedOut

theorem History.HasRoom.left {history later : History Query Answer ι}
    (h : HasRoom (history ++ later)) : history.HasRoom := by
  rintro i sender nonce ⟨event, hmem, hout⟩
  exact h i sender nonce ⟨event, List.mem_append_left _ hmem, hout⟩

/-- What the history tells of the calls: a nonce that was handed out is held until the call has
ended, and a call that has posted a transaction has posted one with the nonce it holds. -/
structure Recorded (sender : ι → Address) (posts : UInt64 → Query → Prop)
    (history : History Query Answer ι) (stage : ι → Holding) : Prop where
  handed : ∀ {i address nonce}, history.HandedOut i address nonce →
    address = sender i ∧ (stage i = .ended ∨ (stage i).nonce? = some nonce)
  held : ∀ {i nonce}, (stage i).nonce? = some nonce → history.HandedOut i (sender i) nonce
  posted : ∀ {i nonce}, stage i = .posted nonce →
    ∃ query answer, posts nonce query ∧ .answered i query answer ∈ history

namespace HandsOut

variable {event : Event Query Answer ι} {i j : ι} {sender other : Address} {nonce nonce' : UInt64}

theorem unique (h : HandsOut event i sender nonce) (h' : HandsOut event j other nonce') :
    j = i ∧ other = sender ∧ nonce' = nonce := by
  cases h <;> cases h' <;> exact ⟨rfl, rfl, rfl⟩

theorem not_spares {access : Access} {reply : access.Reply}
    (h : HandsOut (.stepped i access reply : Event Query Answer ι) j sender nonce) :
    ¬ access.sparesNonces := by
  cases h <;> exact Bool.false_ne_true

end HandsOut

namespace Recorded

variable {sender : ι → Address} {posts : UInt64 → Query → Prop} {history : History Query Answer ι}
  {event : Event Query Answer ι} {stage : ι → Holding}

/-- An event that hands out no nonce is recorded, if no call comes by a nonce through it. -/
theorem quiet (h : Recorded sender posts history stage) {later : ι → Holding}
    (hquiet : ∀ j address nonce, ¬ HandsOut event j address nonce)
    (hheld : ∀ j, later j = .ended ∨ stage j ≠ .ended ∧ (later j).nonce? = (stage j).nonce?)
    (hposted : ∀ j nonce, later j = .posted nonce → stage j = .posted nonce ∨
      ∃ query answer, posts nonce query ∧ event = .answered j query answer) :
    Recorded sender posts (history ++ [event]) later := by
  constructor
  · intro j address nonce hout
    obtain hold | hnew := hout.cases_snoc
    · obtain ⟨haddress, hstage⟩ := h.handed hold
      refine ⟨haddress, ?_⟩
      obtain hended | ⟨hlive, hsame⟩ := hheld j
      · exact .inl hended
      · exact .inr (hsame.trans (hstage.resolve_left hlive))
    · exact absurd hnew (hquiet j address nonce)
  · intro j nonce hj
    obtain hended | ⟨-, hsame⟩ := hheld j
    · rw [hended] at hj
      cases hj
    · exact (h.held (hsame ▸ hj)).mono
  · intro j nonce hj
    obtain hold | ⟨query, answer, hposts, rfl⟩ := hposted j nonce hj
    · obtain ⟨query, answer, hposts, hmem⟩ := h.posted hold
      exact ⟨query, answer, hposts, List.mem_append_left _ hmem⟩
    · exact ⟨query, answer, hposts, by simp⟩

/-- An event of no consequence for the stages is recorded. -/
theorem still (h : Recorded sender posts history stage)
    (hquiet : ∀ j address nonce, ¬ HandsOut event j address nonce) :
    Recorded sender posts (history ++ [event]) stage :=
  h.quiet hquiet (fun j => (em (stage j = .ended)).imp_right fun hj => ⟨hj, rfl⟩) fun _ _ => .inl

variable [DecidableEq ι]

/-- An event that moves one call is recorded, if the call keeps the nonce it has or ends. -/
theorem move (h : Recorded sender posts history stage) {i : ι} {reached : Holding}
    (hquiet : ∀ j address nonce, ¬ HandsOut event j address nonce) (hlive : stage i ≠ .ended)
    (hheld : reached = .ended ∨ reached.nonce? = (stage i).nonce?)
    (hposted : ∀ nonce, reached = .posted nonce →
      ∃ query answer, posts nonce query ∧ event = .answered i query answer) :
    Recorded sender posts (history ++ [event]) (Function.update stage i reached) := by
  refine h.quiet hquiet (fun j => ?_) fun j nonce hj => ?_
  · obtain rfl | hji := eq_or_ne j i
    · rw [Function.update_self]
      exact hheld.imp_right fun hsame => ⟨hlive, hsame⟩
    · rw [Function.update_of_ne hji]
      exact (em (stage j = .ended)).imp_right fun hj => ⟨hj, rfl⟩
  · obtain rfl | hji := eq_or_ne j i
    · rw [Function.update_self] at hj
      exact .inr (hposted nonce hj)
    · rw [Function.update_of_ne hji] at hj
      exact .inl hj

theorem handOut (h : Recorded sender posts history stage) {i : ι} {nonce : UInt64}
    (hout : HandsOut event i (sender i) nonce) (hnone : (stage i).nonce? = none)
    (hlive : stage i ≠ .ended) :
    Recorded sender posts (history ++ [event]) (Function.update stage i (.handed nonce)) := by
  constructor
  · intro j address other hother
    obtain hold | hnew := hother.cases_snoc
    · obtain ⟨haddress, hstage⟩ := h.handed hold
      have hji : j ≠ i := by
        rintro rfl
        rcases hstage with hended | hheld
        · exact hlive hended
        · cases hnone.symm.trans hheld
      exact ⟨haddress, by rwa [Function.update_of_ne hji]⟩
    · obtain ⟨rfl, haddress, rfl⟩ := hout.unique hnew
      exact ⟨haddress, .inr (by rw [Function.update_self]; rfl)⟩
  · intro j other hj
    obtain ⟨rfl, hnonce⟩ | ⟨-, hj⟩ := Ledger.held_update hj
    · cases hnonce
      exact .last hout
    · exact (h.held hj).mono
  · intro j other hj
    have hji : j ≠ i := by
      rintro rfl
      rw [Function.update_self] at hj
      cases hj
    rw [Function.update_of_ne hji] at hj
    obtain ⟨query, answer, hposts, hmem⟩ := h.posted hj
    exact ⟨query, answer, hposts, List.mem_append_left _ hmem⟩

end Recorded

variable [DecidableEq ι]

/-! ## Locks -/

/-- Calls that are at the slot of their sender hold its lock, and one that fetches a nonce has found
the slot empty. -/
structure Attended (sender : ι → Address) (pool : Pool Query Answer α) (stage : ι → Holding) :
    Prop where
  locked : ∀ {i}, (pool.rest i).isSome → (stage i).isLocked →
    pool.holder (.sender (sender i)) = some i
  unsynced : ∀ {i}, (pool.rest i).isSome → stage i = .syncing →
    pool.memory.nonces.reservation? (sender i) = none

namespace Holding.Steps

variable {sender : Address} {stage stage' : Holding} {access : Access} {reply : access.Reply}

/-- A step either is guarded by the lock of the sender, or has nothing to do with nonces. -/
theorem guarded (hstep : Steps sender stage access reply stage') :
    access.guard? = some (.sender sender) ∨ access.sparesNonces := by
  cases hstep with
  | outside hspares | syncing hspares => exact .inr hspares
  | acquire | taken | missing | started | failed | release | forgotten | kept | released =>
      exact .inl rfl

omit [DecidableEq ι] in
theorem holderAfter {i : ι} {pool : Pool Query Answer α}
    (hstep : Steps sender stage access reply stage')
    (hlocked : stage.isLocked → pool.holder (.sender sender) = some i) (hafter : stage'.isLocked) :
    Pool.holderAfter pool.holder i access (.sender sender) = some i := by
  cases hstep with
  | acquire => exact Function.update_self ..
  | taken | missing | started => exact hlocked rfl
  | syncing hspares =>
      cases access with
      | acquire lock | release lock =>
          have hconfig : lock = .config := by simpa [Access.sparesNonces] using hspares
          subst hconfig
          exact (Function.update_of_ne (by simp) ..).trans (hlocked rfl)
      | _ => exact hlocked rfl
  | outside | failed | release | forgotten | kept | released => cases hafter

/-- Whoever goes on to fetch a nonce has found the slot empty. -/
theorem unsynced
    {memory : Memory} (hstep : Steps sender stage access (access.apply memory).1 .syncing)
    (hsync : stage = .syncing → memory.nonces.reservation? sender = none) :
    (access.apply memory).2.nonces.reservation? sender = none := by
  generalize hreply : (access.apply memory).1 = reply at hstep
  cases hstep with
  | missing =>
      obtain ⟨r, -, htake⟩ | ⟨hnone, htake⟩ := memory.nonces.take_cases sender
      · simp [Access.apply, htake] at hreply
      · simpa [Access.apply, htake] using hnone
  | syncing hspares => rw [access.reservation?_of_spares hspares, hsync rfl]

end Holding.Steps

namespace Attended

variable {sender : ι → Address} {pool : Pool Query Answer α} {stage : ι → Holding}

theorem step (h : Attended sender pool stage) {i : ι} {access : Access} {stage' : Holding}
    {next : access.Reply → Program Query Answer (Except Error (α i))}
    (hlive : (pool.rest i).isSome) (hadmits : pool.admits i access)
    (hstep : Steps (sender i) (stage i) access (access.apply pool.memory).1 stage') :
    Attended sender (pool.afterStep i access next) (Function.update stage i stage') := by
  constructor
  · intro j hj hlocked
    obtain rfl | hji := eq_or_ne j i
    · rw [Function.update_self] at hlocked
      exact hstep.holderAfter (h.locked hlive) hlocked
    · rw [Function.update_of_ne hji] at hlocked
      have hj : (pool.rest j).isSome := Pool.rest_isSome_of_leave hlive hj
      exact Pool.holderAfter_of_ne hadmits (h.locked hj hlocked) hji
  · intro j hj hsync
    show (access.apply pool.memory).2.nonces.reservation? (sender j) = none
    obtain rfl | hji := eq_or_ne j i
    · rw [Function.update_self] at hsync
      exact (hsync ▸ hstep).unsynced (h.unsynced hlive)
    · rw [Function.update_of_ne hji] at hsync
      have hj : (pool.rest j).isSome := Pool.rest_isSome_of_leave hlive hj
      have hnone := h.unsynced hj hsync
      by_cases hsame : sender j = sender i
      · -- The call that fetches holds the lock, so the step of another one cannot be at the slot.
        obtain hguard | hspares := hstep.guarded
        · have hholder := h.locked hj (by rw [hsync]; rfl)
          rw [hsame] at hholder
          exact absurd (Pool.eq_of_admits hadmits hguard hholder) hji
        · rw [access.reservation?_of_spares hspares, hnone]
      · rw [hstep.frame _ hsame, hnone]

theorem answer (h : Attended sender pool stage) {i : ι} {query : Query} {stage' : Holding}
    {posts : UInt64 → Query → Prop} {program : Program Query Answer (Except Error (α i))}
    (hlive : (pool.rest i).isSome) (hasks : Asks posts (stage i) query stage') :
    Attended sender (pool.leave i program) (Function.update stage i stage') := by
  have hsame : stage'.isLocked = (stage i).isLocked ∧ (stage' = .syncing → stage i = .syncing) := by
    generalize stage i = before at hasks
    cases hasks <;> exact ⟨rfl, by simp⟩
  constructor
  · intro j hj hlocked
    obtain rfl | hji := eq_or_ne j i
    · rw [Function.update_self, hsame.1] at hlocked
      exact h.locked hlive hlocked
    · rw [Function.update_of_ne hji] at hlocked
      exact h.locked (Pool.rest_isSome_of_leave hlive hj) hlocked
  · intro j hj hsync
    obtain rfl | hji := eq_or_ne j i
    · rw [Function.update_self] at hsync
      exact h.unsynced hlive (hsame.2 hsync)
    · rw [Function.update_of_ne hji] at hsync
      exact h.unsynced (Pool.rest_isSome_of_leave hlive hj) hsync

theorem drop (h : Attended sender pool stage) {i : ι} :
    Attended sender (pool.afterDrop i) stage := by
  have hothers : ∀ {j}, ((pool.afterDrop i).rest j).isSome → j ≠ i ∧ (pool.rest j).isSome := by
    intro j hj
    obtain rfl | hji := eq_or_ne j i
    · rw [Pool.afterDrop, Pool.leave_rest_self] at hj
      cases hj
    · exact ⟨hji, by rwa [Pool.afterDrop, Pool.leave_rest_of_ne hji] at hj⟩
  constructor
  · intro j hj hlocked
    obtain ⟨hji, hj⟩ := hothers hj
    exact Pool.holderWithout_of_ne (h.locked hj hlocked) hji
  · intro j hj hsync
    exact h.unsynced (hothers hj).2 hsync

end Attended

/-! ## The invariant -/

omit [DecidableEq ι] in
/-- A step either hands out a nonce to a call that had none, or it hands out nothing and leaves the
call with the nonce it had, or at its end. -/
theorem Holding.Steps.progress {sender : Address} {stage stage' : Holding} {access : Access}
    {reply : access.Reply} (hstep : Steps sender stage access reply stage') (i : ι) :
    (∃ nonce, HandsOut (.stepped i access reply : Event Query Answer ι) i sender nonce ∧
      stage.nonce? = none ∧ stage ≠ .ended ∧ stage' = .handed nonce) ∨
    ((∀ j address nonce,
        ¬ HandsOut (.stepped i access reply : Event Query Answer ι) j address nonce) ∧
      stage ≠ .ended ∧ (stage' = .ended ∨ stage'.nonce? = stage.nonce?) ∧
      ∀ nonce, stage' ≠ .handed nonce ∧ stage' ≠ .posted nonce) := by
  cases hstep with
  | taken => exact .inl ⟨_, .taken, rfl, nofun, rfl⟩
  | started => exact .inl ⟨_, .started, rfl, nofun, rfl⟩
  | outside hspares | syncing hspares =>
      exact .inr ⟨fun _ _ _ hout => hout.not_spares hspares, nofun, .inr rfl,
        fun _ => ⟨nofun, nofun⟩⟩
  | acquire | missing | failed | release =>
      exact .inr ⟨nofun, nofun, .inr rfl, fun _ => ⟨nofun, nofun⟩⟩
  | released => exact .inr ⟨nofun, nofun, .inl rfl, fun _ => ⟨nofun, nofun⟩⟩
  | forgotten hstage =>
      have hlive : stage ≠ .ended := by rcases hstage with rfl | rfl <;> nofun
      exact .inr ⟨nofun, hlive, .inl rfl, fun _ => ⟨nofun, nofun⟩⟩
  | @kept _ nonce hstage =>
      have hlive : stage ≠ .ended := by rcases hstage with rfl | rfl <;> nofun
      have hheld : some nonce = stage.nonce? := by rcases hstage with rfl | rfl <;> rfl
      exact .inr ⟨nofun, hlive, .inr hheld, fun _ => ⟨nofun, nofun⟩⟩

/-- A call that is handed a nonce has had none before. -/
theorem HandsOut.moves {sender : ι → Address} {posts : UInt64 → Query → Prop}
    {stage stage' : ι → Holding} {event : Event Query Answer ι} {i : ι} {address : Address}
    {nonce : UInt64} (hout : HandsOut event i address nonce)
    (hmoves : Moves (fun i => discipline (sender i) posts) stage event stage') :
    address = sender i ∧ (stage i).nonce? = none ∧
      stage' = Function.update stage i (.handed nonce) := by
  cases hmoves with
  | answered | dropped | passed => cases hout
  | @stepped k _ _ _ hsteps =>
      obtain ⟨other, hother, hnone, -, rfl⟩ | ⟨hquiet, -⟩ :=
        @Steps.progress Query Answer ι _ _ _ _ _ hsteps k
      · obtain ⟨rfl, hsame, rfl⟩ := hother.unique hout
        exact ⟨hsame, hnone, rfl⟩
      · exact absurd hout (hquiet _ _ _)

/-- After its end a call makes no more steps. -/
theorem Program.Follows.eq_done {β : Type} {sender : Address} {posts : UInt64 → Query → Prop}
    {ends : Holding → β → Prop} {program : Program Query Answer β}
    (h : program.Follows (discipline sender posts) ends .ended) :
    ∃ value, program = .done value ∧ ends .ended value := by
  cases program with
  | done value => exact ⟨value, rfl, h⟩
  | ask query next =>
      obtain ⟨_, hasks, -⟩ := h
      cases hasks
  | access step next =>
      obtain ⟨_, hsteps, -⟩ := h (step.apply ⟨0, ⟨0, none⟩, .empty⟩).1
      obtain ⟨_, -, -, hlive, -⟩ | ⟨-, hlive, -⟩ :=
        @Steps.progress Query Answer Unit _ _ _ _ _ hsteps ()
      all_goals exact absurd rfl hlive

section

variable (sender : ι → Address) (posts : UInt64 → Query → Prop)
  (ends : (i : ι) → Holding → Except Error (α i) → Prop)

/-- What holds after every run of calls that go through the stages of a nonce. -/
structure Accounted (history : History Query Answer ι) (pool : Pool Query Answer α)
    (stage : ι → Holding) : Prop where
  keeps : pool.Keeps (fun i => discipline (sender i) posts) ends stage
  ledger : Ledger sender pool.memory.nonces.reservation? stage
  attended : Attended sender pool stage
  recorded : Recorded sender posts history stage
  /-- A call that has ended was not dropped. -/
  ended : ∀ {i}, stage i = .ended → (pool.rest i).isSome

variable {sender posts ends} {history : History Query Answer ι} {pool later : Pool Query Answer α}
  {stage : ι → Holding} {event : Event Query Answer ι}

namespace Accounted

theorem answered (h : Accounted sender posts ends history pool stage) {i : ι} {query : Query}
    {answer : Answer} {reached : Holding} {left program : Program Query Answer (Except Error (α i))}
    (hleft : pool.rest i = some left) (hasks : Asks posts (stage i) query reached)
    (hkeeps : (pool.leave i (some program)).Keeps (fun i => discipline (sender i) posts) ends
      (Function.update stage i reached)) :
    Accounted sender posts ends (history ++ [.answered i query answer])
      (pool.leave i (some program)) (Function.update stage i reached) := by
  have hlive : (pool.rest i).isSome := by simp [hleft]
  have hattended :
      Attended sender (pool.leave i (some program)) (Function.update stage i reached) :=
    h.attended.answer hlive hasks
  generalize hstage : stage i = before at hasks
  have hheld : reached.nonce? = before.nonce? := by cases hasks <;> rfl
  have hended : before ≠ .ended ∧ reached ≠ .ended := by cases hasks <;> exact ⟨nofun, nofun⟩
  refine ⟨hkeeps, ?_, hattended, ?_, ?_⟩
  · refine h.ledger.step (fun _ _ => rfl) (.unchanged rfl (hstage ▸ hheld)) fun nonce hto => ?_
    subst hto
    cases hasks
  · refine h.recorded.move nofun (hstage ▸ hended.1) (.inr (hstage ▸ hheld)) fun nonce hto => ?_
    subst hto
    cases hasks with
    | carrying hposts => exact ⟨query, answer, hposts, rfl⟩
  · intro j hj
    have hji : j ≠ i := by
      rintro rfl
      exact hended.2 (by rwa [Function.update_self] at hj)
    rw [Function.update_of_ne hji] at hj
    rw [Pool.leave_rest_of_ne hji]
    exact h.ended hj

theorem stepped (h : Accounted sender posts ends history pool stage) {i : ι} {access : Access}
    {reached : Holding} {left : Program Query Answer (Except Error (α i))}
    {next : access.Reply → Program Query Answer (Except Error (α i))}
    (hleft : pool.rest i = some left) (hadmits : pool.admits i access)
    (hstep : Steps (sender i) (stage i) access (access.apply pool.memory).1 reached)
    (hkeeps : (pool.afterStep i access next).Keeps (fun i => discipline (sender i) posts) ends
      (Function.update stage i reached))
    (hroom : History.HasRoom (history ++ [.stepped i access (access.apply pool.memory).1])) :
    Accounted sender posts ends (history ++ [.stepped i access (access.apply pool.memory).1])
      (pool.afterStep i access next) (Function.update stage i reached) := by
  have hlive : (pool.rest i).isSome := by simp [hleft]
  have hprogress := @Steps.progress Query Answer ι _ _ _ _ _ hstep i
  refine ⟨hkeeps, ?_, h.attended.step hlive hadmits hstep, ?_, ?_⟩
  · refine h.ledger.step (fun other hne => hstep.frame pool.memory hne)
      (hstep.effect (h.attended.unsynced hlive)) fun nonce hto => ?_
    obtain ⟨handed, hout, -, -, heq⟩ | ⟨-, -, -, hneither⟩ := hprogress
    · cases heq.symm.trans hto
      exact hroom i _ _ (.last hout)
    · exact absurd hto (hneither nonce).1
  · obtain ⟨nonce, hout, hnone, hnotended, rfl⟩ | ⟨hquiet, hnotended, hheld, hneither⟩ := hprogress
    · exact h.recorded.handOut hout hnone hnotended
    · exact h.recorded.move hquiet hnotended hheld fun nonce hto => absurd hto (hneither nonce).2
  · intro j hj
    obtain rfl | hji := eq_or_ne j i
    · simp [Pool.afterStep]
    · rw [Function.update_of_ne hji] at hj
      rw [Pool.afterStep, Pool.leave_rest_of_ne hji]
      exact h.ended hj

theorem step (h : Accounted sender posts ends history pool stage)
    (hstep : Step pool event later) (hroom : History.HasRoom (history ++ [event])) :
    ∃ stage', Moves (fun i => discipline (sender i) posts) stage event stage' ∧
      Accounted sender posts ends (history ++ [event]) later stage' := by
  obtain ⟨stage', hmoves, hkeeps⟩ := hstep.keeps h.keeps
  refine ⟨stage', hmoves, ?_⟩
  cases hstep with
  | answered answer hleft =>
      cases hmoves with
      | answered hasks => exact h.answered hleft hasks hkeeps
  | stepped hleft hadmits =>
      cases hmoves with
      | stepped hsteps => exact h.stepped hleft hadmits hsteps hkeeps hroom
  | @dropped i program hleft hunfinished =>
      cases hmoves
      refine ⟨hkeeps, h.ledger, h.attended.drop, h.recorded.still nofun, fun {j} hj => ?_⟩
      have hji : j ≠ i := by
        rintro rfl
        obtain ⟨value, hdone, -⟩ := (hj ▸ h.keeps j program hleft).eq_done
        exact hunfinished value hdone
      rw [Pool.afterDrop, Pool.leave_rest_of_ne hji]
      exact h.ended hj
  | passed time =>
      cases hmoves
      exact ⟨hkeeps, h.ledger, ⟨h.attended.locked, h.attended.unsynced⟩,
        h.recorded.still nofun, h.ended⟩

/-- The calls of a run that starts with no nonce handed out are accounted for at every moment. -/
theorem of_run {clock : Moment} {cache : ConfigCache} {calls : (i : ι) → Call Query Answer (α i)}
    (hfollows : ∀ i, (calls i).Follows (discipline (sender i) posts) (ends i) .outside)
    (run : Run (.begin ⟨clock, cache, .empty⟩ calls) history pool) (hroom : history.HasRoom) :
    ∃ stage, Accounted sender posts ends history pool stage := by
  induction run with
  | nil =>
      refine ⟨fun _ => .outside, ?_, ⟨nofun, nofun, nofun⟩, ⟨nofun, nofun⟩,
        ⟨?_, nofun, nofun⟩, nofun⟩
      · rintro i program ⟨⟩
        exact hfollows i
      · rintro i address nonce ⟨event, hmem, -⟩
        cases hmem
  | snoc run step ih =>
      obtain ⟨stage, hstage⟩ := ih hroom.left
      obtain ⟨stage', -, hstage'⟩ := hstage.step step hroom
      exact ⟨stage', hstage'⟩

/-- A step of a call is one that its stage allows. -/
theorem allowed (h : Accounted sender posts ends history pool stage) {i : ι} {access : Access}
    {reply : access.Reply} (hstep : Step pool (.stepped i access reply) later) :
    (pool.rest i).isSome ∧ ∃ reached, Steps (sender i) (stage i) access reply reached := by
  generalize hevent : Event.stepped i access reply = event at hstep
  cases hstep with
  | stepped hleft =>
      cases hevent
      obtain ⟨reached, hsteps, -⟩ := h.keeps _ _ hleft (access.apply pool.memory).1
      exact ⟨by simp [hleft], reached, hsteps⟩
  | answered | dropped | passed => cases hevent

/-- A call that starts the book of its sender has found no nonce there. -/
theorem unknown_of_started (h : Accounted sender posts ends history pool stage) {i : ι}
    {address : Address} {nonce : UInt64} {reply : (Access.startNonces address nonce).Reply}
    (hstep : Step pool (.stepped i (.startNonces address nonce) reply) later) :
    address = sender i ∧ pool.memory.nonces.reservation? address = none := by
  obtain ⟨hlive, reached, hsteps⟩ := h.allowed hstep
  have hsync := h.attended.unsynced hlive
  generalize stage i = before at hsteps hsync
  cases hsteps with
  | outside hspares | syncing hspares => cases hspares
  | started => exact ⟨rfl, hsync rfl⟩

/-- A call that is handed a nonce out of the book is handed the next one of its sender. -/
theorem next_of_taken (h : Accounted sender posts ends history pool stage) {i : ι}
    {address : Address} {nonce : UInt64}
    (hstep : Step pool (.stepped i (.takeNonce address) (some nonce)) later) :
    address = sender i ∧ ∃ r, pool.memory.nonces.reservation? address = some r ∧
      r.next = nonce := by
  obtain ⟨-, reached, hsteps⟩ := h.allowed hstep
  obtain ⟨-, hreply, -⟩ := hstep.of_stepped
  refine ⟨?_, ?_⟩
  · generalize stage i = before at hsteps
    cases hsteps with
    | outside hspares | syncing hspares => cases hspares
    | taken => rfl
  · obtain ⟨r, hslot, htake⟩ | ⟨-, htake⟩ := pool.memory.nonces.take_cases address
    · rw [Access.apply, htake] at hreply
      exact ⟨r, hslot, (Option.some.inj hreply).symm⟩
    · rw [Access.apply, htake] at hreply
      cases hreply

/-- A nonce that is handed out again has been given up by whoever had it before. -/
theorem ended_of_handsOut (h : Accounted sender posts ends history pool stage)
    (hstep : Step pool event later) (hroom : History.HasRoom (history ++ [event])) {i j : ι}
    {address : Address} {nonce : UInt64} (hout : HandsOut event i address nonce)
    (hhanded : history.HandedOut j address nonce) : stage j = .ended := by
  obtain ⟨haddress, hended | hheld⟩ := h.recorded.handed hhanded
  · exact hended
  exfalso
  obtain ⟨stage', hmoves, hafter⟩ := h.step hstep hroom
  obtain ⟨hown, hnone, rfl⟩ := hout.moves hmoves
  have hji : j ≠ i := by
    rintro rfl
    cases hnone.symm.trans hheld
  have hi : (Function.update stage i (handed nonce) i).nonce? = some nonce := by
    rw [Function.update_self]
    rfl
  have hj : (Function.update stage i (handed nonce) j).nonce? = some nonce := by
    rwa [Function.update_of_ne hji]
  -- After the step both calls hold the nonce, which the ledger excludes.
  exact hji (hafter.ledger.distinct (haddress.symm.trans hown) hj hi)

end Accounted

end

end ShardNet
