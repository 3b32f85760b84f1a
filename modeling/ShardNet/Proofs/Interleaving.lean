-- SUMMARY: Calls in progress on one memory: the steps they make in any order, and the histories of their runs.
import Mathlib.Algebra.GroupWithZero.Nat
import Mathlib.Logic.Function.Basic
import ShardNet.Program

/-!
# Interleaved calls

A `Pool` holds any number of calls that share one memory. At each moment one thing happens: a
question of some call is answered, some call makes its next step on the memory, some call is dropped
midway, or time passes. `Step` says what may happen next and what comes of it, and a `Run` is a
history of such events together with the pool that they lead to.

A call that waits for a lock makes no step, and a call that is dropped gives up its locks. Nothing
is said about who is served first, so what holds of every run holds for every order in which locks
are granted.
-/

namespace ShardNet

/-- What happens at one moment. `ι` names the calls. -/
inductive Event (Query Answer ι : Type) where
  /-- A question is answered; it was asked at some moment after the last step of the call. -/
  | answered (caller : ι) (query : Query) (answer : Answer)
  | stepped (caller : ι) (access : Access) (reply : access.Reply)
  | dropped (caller : ι)
  | passed (time : Duration)

/-- What has happened, the first event first. -/
abbrev History (Query Answer ι : Type) := List (Event Query Answer ι)

namespace Event

variable {Query Answer ι : Type}

/-- Whose event it is. -/
def caller? : Event Query Answer ι → Option ι
  | answered caller _ _ | stepped caller _ _ | dropped caller => some caller
  | passed _ => none

/-- How long it takes. Only waiting takes time. -/
def duration : Event Query Answer ι → Duration
  | passed time => time
  | _ => 0

end Event

/-- The time that has passed. -/
def History.elapsed {Query Answer ι : Type} (history : History Query Answer ι) : Duration :=
  (history.map Event.duration).sum

theorem History.elapsed_snoc {Query Answer ι : Type} {history : History Query Answer ι}
    {event : Event Query Answer ι} :
    elapsed (history ++ [event]) = history.elapsed + event.duration := by
  simp [elapsed]

/-- Calls in progress. The results of the call `i` are of type `α i`. -/
structure Pool (Query Answer : Type) {ι : Type} (α : ι → Type) where
  memory : Memory
  /-- Who holds a lock. -/
  holder : Lock → Option ι
  /-- What is left of a call, unless it has been dropped. -/
  rest : (i : ι) → Option (Program Query Answer (Except Error (α i)))

variable {Query Answer ι : Type} {α : ι → Type} [DecidableEq ι]

namespace Pool

/-- All calls at their beginning. -/
def begin (memory : Memory) (calls : (i : ι) → Call Query Answer (α i)) : Pool Query Answer α :=
  ⟨memory, fun _ => none, fun i => some (calls i).run⟩

/-- Whether a call may make a step: nobody else holds the lock that guards it. A lock that is held
is acquired by nobody, not even by who holds it. -/
def admits (pool : Pool Query Answer α) (i : ι) : Access → Bool
  | .acquire lock => pool.holder lock = none
  | access => access.guard?.all fun lock => pool.holder lock = none ∨ pool.holder lock = some i

/-- Who holds the locks after a step. -/
def holderAfter (holder : Lock → Option ι) (i : ι) : Access → Lock → Option ι
  | .acquire lock => Function.update holder lock (some i)
  | .release lock => Function.update holder lock none
  | _ => holder

/-- Who holds the locks after a call has been dropped. -/
def holderWithout (holder : Lock → Option ι) (i : ι) (lock : Lock) : Option ι :=
  if holder lock = some i then none else holder lock

/-- Replaces what is left of a call. -/
def leave (pool : Pool Query Answer α) (i : ι)
    (program : Option (Program Query Answer (Except Error (α i)))) : Pool Query Answer α :=
  { pool with rest := Function.update pool.rest i program }

/-- After a step of a call. -/
def afterStep (pool : Pool Query Answer α) (i : ι) (access : Access)
    (next : access.Reply → Program Query Answer (Except Error (α i))) : Pool Query Answer α :=
  { pool with
    memory := (access.apply pool.memory).2
    holder := holderAfter pool.holder i access }.leave i (next (access.apply pool.memory).1)

/-- After a call has been dropped. -/
def afterDrop (pool : Pool Query Answer α) (i : ι) : Pool Query Answer α :=
  { pool with holder := holderWithout pool.holder i }.leave i none

/-- After some time. -/
def afterTime (pool : Pool Query Answer α) (time : Duration) : Pool Query Answer α :=
  { pool with memory := { pool.memory with clock := pool.memory.clock + time } }

/-- A call has ended with a value. -/
def succeeded (pool : Pool Query Answer α) (i : ι) : Bool :=
  match pool.rest i with
  | some (.done (.ok _)) => true
  | _ => false

/-- A call has ended with an error. -/
def failed (pool : Pool Query Answer α) (i : ι) : Bool :=
  match pool.rest i with
  | some (.done (.error _)) => true
  | _ => false

/-- A call has ended, with a value or an error. -/
def returned (pool : Pool Query Answer α) (i : ι) : Bool :=
  match pool.rest i with
  | some (.done _) => true
  | _ => false

/-- A call does nothing more: it has ended, or was dropped. -/
def isOver (pool : Pool Query Answer α) (i : ι) : Bool :=
  match pool.rest i with
  | none | some (.done _) => true
  | _ => false

variable {pool : Pool Query Answer α} {i j : ι} {access : Access} {lock : Lock}

omit [DecidableEq ι] in
theorem succeeded_iff : pool.succeeded i ↔ ∃ value, pool.rest i = some (.done (.ok value)) := by
  unfold succeeded
  constructor
  · intro h
    split at h
    · rename_i value hrest
      exact ⟨value, hrest⟩
    · cases h
  · rintro ⟨value, hrest⟩
    rw [hrest]

omit [DecidableEq ι] in
theorem returned_iff : pool.returned i ↔ ∃ result, pool.rest i = some (.done result) := by
  unfold returned
  constructor
  · intro h
    split at h
    · rename_i result hrest
      exact ⟨result, hrest⟩
    · cases h
  · rintro ⟨result, hrest⟩
    rw [hrest]

omit [DecidableEq ι] in
theorem isOver_iff : pool.isOver i ↔ pool.rest i = none ∨ pool.returned i := by
  unfold isOver returned
  cases pool.rest i with
  | none => simp
  | some program => cases program <;> simp

/-- A step that is guarded by a lock is made by nobody but who holds it. -/
theorem eq_of_admits (hadmits : pool.admits i access) (hguard : access.guard? = some lock)
    (hholder : pool.holder lock = some j) : j = i := by
  cases access with
  | acquire other =>
      cases hguard
      simp [admits, hholder] at hadmits
  | openSlot => cases hguard
  | _ =>
      simp only [admits, hguard, Option.all_some, hholder, reduceCtorEq, false_or,
        Option.some.injEq, decide_eq_true_eq] at hadmits
      exact hadmits

/-- A lock that a call holds is left to it by the steps of the others. -/
theorem holderAfter_of_ne (hadmits : pool.admits i access) (hholder : pool.holder lock = some j)
    (hne : j ≠ i) : holderAfter pool.holder i access lock = some j := by
  have hother : ∀ {other}, access.guard? = some other → lock ≠ other := by
    rintro other hguard rfl
    exact hne (eq_of_admits hadmits hguard hholder)
  cases access with
  | acquire other | release other =>
      simpa [holderAfter, Function.update_of_ne (hother rfl)] using hholder
  | _ => exact hholder

theorem holderWithout_of_ne (hholder : pool.holder lock = some j) (hne : j ≠ i) :
    holderWithout pool.holder i lock = some j := by
  simp [holderWithout, hholder, hne]

@[simp] theorem leave_rest_self {program : Option (Program Query Answer (Except Error (α i)))} :
    (pool.leave i program).rest i = program := Function.update_self ..

theorem leave_rest_of_ne {program : Option (Program Query Answer (Except Error (α i)))}
    (hne : j ≠ i) :
    (pool.leave i program).rest j = pool.rest j := Function.update_of_ne hne ..

/-- Nothing comes back when what is left of a call is replaced. -/
theorem rest_isSome_of_leave {program : Option (Program Query Answer (Except Error (α i)))}
    (hi : (pool.rest i).isSome) (hj : ((pool.leave i program).rest j).isSome) :
    (pool.rest j).isSome := by
  obtain rfl | hji := eq_or_ne j i
  · exact hi
  · rwa [leave_rest_of_ne hji] at hj

end Pool

/-- What may happen in a pool. -/
inductive Step (pool : Pool Query Answer α) :
    Event Query Answer ι → Pool Query Answer α → Prop where
  | answered {i query next} (answer : Answer) (left : pool.rest i = some (.ask query next)) :
      Step pool (.answered i query answer) (pool.leave i (next answer))
  | stepped {i access next} (left : pool.rest i = some (.access access next))
      (admitted : pool.admits i access) :
      Step pool (.stepped i access (access.apply pool.memory).1) (pool.afterStep i access next)
  | dropped {i program} (left : pool.rest i = some program)
      (unfinished : ∀ result, program ≠ .done result) : Step pool (.dropped i) (pool.afterDrop i)
  | passed (time : Duration) : Step pool (.passed time) (pool.afterTime time)

/-- Steps one after the other, with their history. -/
inductive Run (first : Pool Query Answer α) :
    History Query Answer ι → Pool Query Answer α → Prop where
  | nil : Run first [] first
  | snoc {history pool event later} (run : Run first history pool) (step : Step pool event later) :
      Run first (history ++ [event]) later

namespace Run

variable {first pool last : Pool Query Answer α} {history later : History Query Answer ι}

theorem trans (run : Run first history pool) (more : Run pool later last) :
    Run first (history ++ later) last := by
  induction more with
  | nil => simpa using run
  | snoc _ step ih =>
      rw [← List.append_assoc]
      exact ih.snoc step

theorem single {event : Event Query Answer ι} (step : Step pool event last) :
    Run pool [event] last := snoc nil step

theorem split (run : Run first (history ++ later) last) :
    ∃ pool, Run first history pool ∧ Run pool later last := by
  generalize hall : history ++ later = all at run
  induction run generalizing later with
  | nil =>
      obtain ⟨rfl, rfl⟩ := List.append_eq_nil_iff.1 hall
      exact ⟨first, nil, nil⟩
  | @snoc before pool event last run step ih =>
      rcases List.eq_nil_or_concat later with rfl | ⟨most, final, rfl⟩
      · rw [List.append_nil] at hall
        exact ⟨last, hall ▸ run.snoc step, nil⟩
      · rw [List.concat_eq_append, ← List.append_assoc] at hall
        obtain ⟨hbefore, hlast⟩ := List.append_inj' hall rfl
        obtain ⟨middle, hfirst, hrest⟩ := ih hbefore
        rw [List.singleton_inj] at hlast
        exact ⟨middle, hfirst, List.concat_eq_append ▸ hlast ▸ hrest.snoc step⟩

theorem eq_of_nil (run : Run first [] last) : last = first := by
  generalize hnil : ([] : History Query Answer ι) = all at run
  cases run with
  | nil => rfl
  | snoc => simp at hnil

theorem unsnoc {event : Event Query Answer ι} (run : Run first (history ++ [event]) last) :
    ∃ pool, Run first history pool ∧ Step pool event last := by
  generalize hall : history ++ [event] = all at run
  cases run with
  | nil => simp at hall
  | snoc run step =>
      obtain ⟨rfl, hevent⟩ := List.append_inj' hall rfl
      cases hevent
      exact ⟨_, run, step⟩

theorem uncons {event : Event Query Answer ι} (run : Run first (event :: history) last) :
    ∃ pool, Step first event pool ∧ Run pool history last := by
  have hrun : Run first ([] ++ [event] ++ history) last := run
  obtain ⟨pool, hevent, hrest⟩ := hrun.split
  obtain ⟨same, hnil, step⟩ := hevent.unsnoc
  exact ⟨pool, hnil.eq_of_nil ▸ step, hrest⟩

end Run

/-- What a step of a call is, and what comes of it. -/
theorem Step.of_stepped {pool later : Pool Query Answer α} {i : ι} {access : Access}
    {reply : access.Reply} (step : Step pool (.stepped i access reply) later) :
    pool.admits i access ∧ reply = (access.apply pool.memory).1 ∧
      later.memory = (access.apply pool.memory).2 := by
  generalize hevent : Event.stepped i access reply = event at step
  cases step with
  | stepped left admitted =>
      cases hevent
      exact ⟨admitted, rfl, rfl⟩
  | answered | dropped | passed => cases hevent

theorem Step.rest_of_stepped {pool later : Pool Query Answer α} {i : ι} {access : Access}
    {reply : access.Reply} (step : Step pool (.stepped i access reply) later) :
    ∃ next, pool.rest i = some (.access access next) := by
  generalize hevent : Event.stepped i access reply = event at step
  cases step with
  | stepped left =>
      cases hevent
      exact ⟨_, left⟩
  | answered | dropped | passed => cases hevent

/-- What is answered was asked, and comes to the call that has asked it. -/
theorem Step.of_answered {pool later : Pool Query Answer α} {i : ι} {query : Query}
    {answer : Answer} (step : Step pool (.answered i query answer) later) :
    ∃ next, pool.rest i = some (.ask query next) ∧ later = pool.leave i (next answer) := by
  cases step with
  | answered _ left => exact ⟨_, left, rfl⟩

/-- What has not been dropped after an event had not been dropped before. -/
theorem Step.rest_isSome {pool later : Pool Query Answer α} {event : Event Query Answer ι} {i : ι}
    (step : Step pool event later) (hlater : (later.rest i).isSome) : (pool.rest i).isSome := by
  cases step with
  | answered answer left | stepped left _ | dropped left _ =>
      exact Pool.rest_isSome_of_leave (by simp [left]) hlater
  | passed => exact hlater

/-- A call only moves by its own events. -/
theorem Step.rest_of_ne {pool later : Pool Query Answer α} {event : Event Query Answer ι} {i : ι}
    (step : Step pool event later) (hother : event.caller? ≠ some i) :
    later.rest i = pool.rest i := by
  cases step with
  | answered | stepped | dropped =>
      exact Pool.leave_rest_of_ne fun hsame => hother (congrArg some hsame.symm)
  | passed => rfl

/-- How a call comes to what is left of it: it stays where it was, or it has been answered, or it
has made a step. -/
theorem Step.rest_cases {pool later : Pool Query Answer α} {event : Event Query Answer ι} {i : ι}
    {left : Program Query Answer (Except Error (α i))} (step : Step pool event later)
    (hleft : later.rest i = some left) :
    (event.caller? ≠ some i ∧ pool.rest i = some left) ∨
    (∃ query next answer, event = .answered i query answer ∧
      pool.rest i = some (.ask query next) ∧ next answer = left) ∨
    ∃ access next reply, event = .stepped i access reply ∧
      pool.rest i = some (.access access next) ∧ next reply = left := by
  by_cases hcaller : event.caller? = some i
  · refine .inr ?_
    cases step with
    | @answered _ query next answer hasked =>
        cases hcaller
        exact .inl ⟨query, next, answer, rfl, hasked,
          Option.some.inj (Pool.leave_rest_self.symm.trans hleft)⟩
    | @stepped _ access next hmade admitted =>
        cases hcaller
        exact .inr ⟨access, next, _, rfl, hmade,
          Option.some.inj (Pool.leave_rest_self.symm.trans hleft)⟩
    | dropped =>
        cases hcaller
        cases Pool.leave_rest_self.symm.trans hleft
    | passed => cases hcaller
  · exact .inl ⟨hcaller, (step.rest_of_ne hcaller).symm.trans hleft⟩

/-- Who moves has not been dropped. -/
theorem Step.rest_of_caller {pool later : Pool Query Answer α}
    {event : Event Query Answer ι} {i : ι} (step : Step pool event later)
    (hcaller : event.caller? = some i) :
    ∃ program, pool.rest i = some program := by
  cases step with
  | answered _ left | stepped left _ | dropped left _ =>
      cases hcaller
      exact ⟨_, left⟩
  | passed => cases hcaller

/-- Who moves is not over. -/
theorem Step.not_isOver {pool later : Pool Query Answer α} {event : Event Query Answer ι} {i : ι}
    (step : Step pool event later) (hcaller : event.caller? = some i) : ¬ pool.isOver i := by
  cases step with
  | answered _ hleft | stepped hleft _ =>
      cases hcaller
      simp [Pool.isOver, hleft]
  | @dropped _ program hleft hunfinished =>
      cases hcaller
      cases program with
      | done result => exact absurd rfl (hunfinished result)
      | ask | access => simp [Pool.isOver, hleft]
  | passed => cases hcaller

theorem Step.isOver {pool later : Pool Query Answer α} {event : Event Query Answer ι} {i : ι}
    (step : Step pool event later) (hover : pool.isOver i) : later.isOver i := by
  have hrest := step.rest_of_ne fun hcaller => step.not_isOver hcaller hover
  rwa [Pool.isOver, hrest]

theorem Step.returned {pool later : Pool Query Answer α} {event : Event Query Answer ι} {i : ι}
    (step : Step pool event later) (hreturned : pool.returned i) : later.returned i := by
  have hrest := step.rest_of_ne fun hcaller =>
    step.not_isOver hcaller (Pool.isOver_iff.2 (.inr hreturned))
  rwa [Pool.returned, hrest]

theorem Run.rest_isSome {pool last : Pool Query Answer α} {history : History Query Answer ι} {i : ι}
    (run : Run pool history last) (hlast : (last.rest i).isSome) : (pool.rest i).isSome := by
  induction run with
  | nil => exact hlast
  | snoc _ step ih => exact ih (step.rest_isSome hlast)

/-! ## Schedules -/

/-- What to let happen next. -/
inductive Choice (Answer ι : Type) where
  | answer (caller : ι) (answer : Answer)
  | step (caller : ι)
  | drop (caller : ι)
  | wait (time : Duration)

namespace Pool

/-- The event that is chosen, and the pool after it, if it may happen. -/
def next? (pool : Pool Query Answer α) :
    Choice Answer ι → Option (Event Query Answer ι × Pool Query Answer α)
  | .answer i answer =>
    match pool.rest i with
    | some (.ask query next) => some (.answered i query answer, pool.leave i (next answer))
    | _ => none
  | .step i =>
    match pool.rest i with
    | some (.access access next) =>
      if pool.admits i access then
        some (.stepped i access (access.apply pool.memory).1, pool.afterStep i access next)
      else none
    | _ => none
  | .drop i =>
    match pool.rest i with
    | none | some (.done _) => none
    | some _ => some (.dropped i, pool.afterDrop i)
  | .wait time => some (.passed time, pool.afterTime time)

/-- Lets one choice happen after the other, if all of them may. -/
def follow? (pool : Pool Query Answer α) :
    List (Choice Answer ι) → Option (History Query Answer ι × Pool Query Answer α)
  | [] => some ([], pool)
  | choice :: rest => do
    let (event, later) ← pool.next? choice
    let (history, last) ← later.follow? rest
    return (event :: history, last)

end Pool

/-- What may happen is what can be chosen. -/
theorem step_iff_next? {pool later : Pool Query Answer α} {event : Event Query Answer ι} :
    Step pool event later ↔ ∃ choice, pool.next? choice = some (event, later) := by
  constructor
  · intro step
    cases step with
    | @answered i query next answer left => exact ⟨.answer i answer, by simp [Pool.next?, left]⟩
    | @stepped i access next left admitted => exact ⟨.step i, by simp [Pool.next?, left, admitted]⟩
    | @dropped i program left unfinished =>
        refine ⟨.drop i, ?_⟩
        cases program with
        | done result => exact absurd rfl (unfinished result)
        | ask | access => simp [Pool.next?, left]
    | passed time => exact ⟨.wait time, rfl⟩
  · rintro ⟨choice, hnext⟩
    cases choice with
    | answer i answer =>
        simp only [Pool.next?] at hnext
        split at hnext
        · rename_i left
          cases hnext
          exact .answered answer left
        · cases hnext
    | step i =>
        simp only [Pool.next?] at hnext
        split at hnext
        · rename_i left
          split at hnext
          · rename_i admitted
            cases hnext
            exact .stepped left admitted
          · cases hnext
        · cases hnext
    | drop i =>
        simp only [Pool.next?] at hnext
        split at hnext
        · cases hnext
        · cases hnext
        · rename_i program unfinished left
          cases hnext
          exact .dropped left unfinished
    | wait time =>
        cases hnext
        exact .passed time

/-- Choices that may all happen make a run. -/
theorem Run.of_follow? {choices : List (Choice Answer ι)} {pool last : Pool Query Answer α}
    {history : History Query Answer ι} (hfollow : pool.follow? choices = some (history, last)) :
    Run pool history last := by
  induction choices generalizing pool history with
  | nil =>
      cases hfollow
      exact nil
  | cons choice rest ih =>
      simp only [Pool.follow?, Option.bind_eq_bind, Option.bind_eq_some_iff, Prod.exists] at hfollow
      obtain ⟨event, later, hnext, more, end_, hmore, hlast⟩ := hfollow
      cases hlast
      exact (single (step_iff_next?.2 ⟨choice, hnext⟩)).trans (ih hmore)

end ShardNet
