-- SUMMARY: What a call does, act by act, how calls are put together, and that runs consist of traces.
import ShardNet.Proofs.Discipline

/-!
# Traces

A `Trace` is what one call has done so far: the questions that were answered to it and the steps it
made on the memory, each with what came back. Answers and replies are free. So what holds of every
trace of a call holds whatever the service answers, whatever the memory holds, and whatever other
calls do to it in between.

`Ends` says that a call has ended after a trace, and with what. `Sends` says that it asks a question
then; a call that is never answered, or is dropped, has asked it all the same. `Reaches` says what
is left of a program then. There is a rule for each way in which calls are put together, and
`Run.reaches`, `Run.ends_trace` and `Run.sends_trace` say that the calls of a run keep to these
traces.
-/

namespace ShardNet

/-- What a call does at one moment, with what comes back. -/
inductive Act (Query Answer : Type) where
  | asked (query : Query) (answer : Answer)
  | did (access : Access) (reply : access.Reply)

/-- What a call has done, the first act first. -/
abbrev Trace (Query Answer : Type) := List (Act Query Answer)

variable {Query Answer α β : Type}

namespace Program

/-- The program has ended with a value after a trace. -/
def Ends : Program Query Answer α → Trace Query Answer → α → Prop
  | .done value, trace, result => trace = [] ∧ result = value
  | .ask query next, trace, result =>
    ∃ answer rest, trace = .asked query answer :: rest ∧ (next answer).Ends rest result
  | .access step next, trace, result =>
    ∃ reply rest, trace = .did step reply :: rest ∧ (next reply).Ends rest result

/-- The program asks a question after a trace. -/
def Sends : Program Query Answer α → Trace Query Answer → Query → Prop
  | .done _, _, _ => False
  | .ask query next, trace, sent =>
    (trace = [] ∧ sent = query) ∨
      ∃ answer rest, trace = .asked query answer :: rest ∧ (next answer).Sends rest sent
  | .access step next, trace, sent =>
    ∃ reply rest, trace = .did step reply :: rest ∧ (next reply).Sends rest sent

variable {program : Program Query Answer α} {next : α → Program Query Answer β}
  {trace : Trace Query Answer}

theorem ends_bind {result : β} : (program.bind next).Ends trace result ↔
    ∃ front back value, trace = front ++ back ∧ program.Ends front value ∧
      (next value).Ends back result := by
  induction program generalizing trace with
  | done value =>
      constructor
      · intro h
        exact ⟨[], trace, value, rfl, ⟨rfl, rfl⟩, h⟩
      · rintro ⟨front, back, value, rfl, ⟨rfl, rfl⟩, h⟩
        exact h
  | ask query rest ih =>
      constructor
      · rintro ⟨answer, left, rfl, h⟩
        obtain ⟨front, back, value, rfl, hfirst, hthen⟩ := ih answer |>.1 h
        exact ⟨_, back, value, rfl, ⟨answer, front, rfl, hfirst⟩, hthen⟩
      · rintro ⟨_, back, value, rfl, ⟨answer, front, rfl, hfirst⟩, hthen⟩
        exact ⟨answer, front ++ back, rfl, ih answer |>.2 ⟨front, back, value, rfl, hfirst, hthen⟩⟩
  | access step rest ih =>
      constructor
      · rintro ⟨reply, left, rfl, h⟩
        obtain ⟨front, back, value, rfl, hfirst, hthen⟩ := ih reply |>.1 h
        exact ⟨_, back, value, rfl, ⟨reply, front, rfl, hfirst⟩, hthen⟩
      · rintro ⟨_, back, value, rfl, ⟨reply, front, rfl, hfirst⟩, hthen⟩
        exact ⟨reply, front ++ back, rfl, ih reply |>.2 ⟨front, back, value, rfl, hfirst, hthen⟩⟩

theorem sends_bind {sent : Query} : (program.bind next).Sends trace sent ↔
    program.Sends trace sent ∨
      ∃ front back value, trace = front ++ back ∧ program.Ends front value ∧
        (next value).Sends back sent := by
  induction program generalizing trace with
  | done value =>
      constructor
      · intro h
        exact .inr ⟨[], trace, value, rfl, ⟨rfl, rfl⟩, h⟩
      · rintro (h | ⟨front, back, value, rfl, ⟨rfl, rfl⟩, h⟩)
        · exact h.elim
        · exact h
  | ask query rest ih =>
      constructor
      · rintro (h | ⟨answer, left, rfl, h⟩)
        · exact .inl (.inl h)
        · obtain h | ⟨front, back, value, rfl, hfirst, hthen⟩ := ih answer |>.1 h
          · exact .inl (.inr ⟨answer, left, rfl, h⟩)
          · exact .inr ⟨_, back, value, rfl, ⟨answer, front, rfl, hfirst⟩, hthen⟩
      · rintro ((h | ⟨answer, left, rfl, h⟩) |
          ⟨_, back, value, rfl, ⟨answer, front, rfl, hfirst⟩, hthen⟩)
        · exact .inl h
        · exact .inr ⟨answer, left, rfl, ih answer |>.2 (.inl h)⟩
        · exact .inr ⟨answer, front ++ back, rfl,
            ih answer |>.2 (.inr ⟨front, back, value, rfl, hfirst, hthen⟩)⟩
  | access step rest ih =>
      constructor
      · rintro ⟨reply, left, rfl, h⟩
        obtain h | ⟨front, back, value, rfl, hfirst, hthen⟩ := ih reply |>.1 h
        · exact .inl ⟨reply, left, rfl, h⟩
        · exact .inr ⟨_, back, value, rfl, ⟨reply, front, rfl, hfirst⟩, hthen⟩
      · rintro (⟨reply, left, rfl, h⟩ | ⟨_, back, value, rfl,
          ⟨reply, front, rfl, hfirst⟩, hthen⟩)
        · exact ⟨reply, left, rfl, ih reply |>.2 (.inl h)⟩
        · exact ⟨reply, front ++ back, rfl,
            ih reply |>.2 (.inr ⟨front, back, value, rfl, hfirst, hthen⟩)⟩

/-- What a program has done settles where it ends and with what: of two complete traces that go on
from the same beginning, one is not a part of the other. -/
theorem Ends.unique {front back front' back' : Trace Query Answer} {result result' : α}
    (h : program.Ends front result) (h' : program.Ends front' result')
    (hsame : front ++ back = front' ++ back') : front = front' ∧ result = result' := by
  induction program generalizing front front' with
  | done value =>
      obtain ⟨rfl, rfl⟩ := h
      obtain ⟨rfl, rfl⟩ := h'
      exact ⟨rfl, rfl⟩
  | ask query next ih =>
      obtain ⟨answer, rest, rfl, h⟩ := h
      obtain ⟨answer', rest', rfl, h'⟩ := h'
      obtain ⟨hact, hrest⟩ := List.cons.inj hsame
      cases hact
      obtain ⟨rfl, rfl⟩ := ih answer h h' hrest
      exact ⟨rfl, rfl⟩
  | access step next ih =>
      obtain ⟨reply, rest, rfl, h⟩ := h
      obtain ⟨reply', rest', rfl, h'⟩ := h'
      obtain ⟨hact, hrest⟩ := List.cons.inj hsame
      cases hact
      obtain ⟨rfl, rfl⟩ := ih reply h h' hrest
      exact ⟨rfl, rfl⟩

/-- What has been answered had been asked. -/
theorem Ends.sends {front back : Trace Query Answer} {query : Query} {answer : Answer} {result : α}
    (h : program.Ends (front ++ .asked query answer :: back) result) :
    program.Sends front query := by
  induction program generalizing front with
  | done value => exact absurd h.1 (by simp)
  | ask first next ih =>
      obtain ⟨told, rest, htrace, h⟩ := h
      rcases List.append_eq_cons_iff.1 htrace with ⟨rfl, hhead⟩ | ⟨front, rfl, rfl⟩
      · cases hhead
        exact .inl ⟨rfl, rfl⟩
      · exact .inr ⟨told, front, rfl, ih told h⟩
  | access step next ih =>
      obtain ⟨told, rest, htrace, h⟩ := h
      rcases List.append_eq_cons_iff.1 htrace with ⟨rfl, hhead⟩ | ⟨front, rfl, rfl⟩
      · cases hhead
      · exact ⟨told, front, rfl, ih told h⟩

/-- Whatever it is told, a program ends. -/
theorem exists_ends [Nonempty Answer] (program : Program Query Answer α) :
    ∃ trace result, program.Ends trace result := by
  induction program with
  | done value => exact ⟨[], value, rfl, rfl⟩
  | ask query next ih =>
      obtain ⟨trace, result, h⟩ := ih (Classical.arbitrary Answer)
      exact ⟨_, result, _, trace, rfl, h⟩
  | access step next ih =>
      obtain ⟨trace, result, h⟩ := ih (step.apply ⟨0, ⟨0, none⟩, .empty⟩).1
      exact ⟨_, result, _, trace, rfl, h⟩

/-- However a question is answered, the program that asks it goes on to an end. -/
theorem Sends.exists_ends [Nonempty Answer] {sent : Query} (h : program.Sends trace sent)
    (answer : Answer) :
    ∃ rest result, program.Ends (trace ++ .asked sent answer :: rest) result := by
  induction program generalizing trace with
  | done value => exact h.elim
  | ask query next ih =>
      obtain ⟨rfl, rfl⟩ | ⟨told, front, rfl, h⟩ := h
      · obtain ⟨rest, result, hrest⟩ := (next answer).exists_ends
        exact ⟨rest, result, answer, rest, rfl, hrest⟩
      · obtain ⟨rest, result, hrest⟩ := ih told h
        exact ⟨rest, result, told, _, rfl, hrest⟩
  | access step next ih =>
      obtain ⟨told, front, rfl, h⟩ := h
      obtain ⟨rest, result, hrest⟩ := ih told h
      exact ⟨rest, result, told, _, rfl, hrest⟩

/-- What is left of a program after a trace. -/
inductive Reaches :
    Program Query Answer α → Trace Query Answer → Program Query Answer α → Prop where
  | refl {program : Program Query Answer α} : Reaches program [] program
  | asked {query : Query} {next : Answer → Program Query Answer α} {answer : Answer}
      {rest : Trace Query Answer} {left : Program Query Answer α}
      (h : Reaches (next answer) rest left) :
      Reaches (ask query next) (.asked query answer :: rest) left
  | did {step : Access} {next : step.Reply → Program Query Answer α} {reply : step.Reply}
      {rest : Trace Query Answer} {left : Program Query Answer α}
      (h : Reaches (next reply) rest left) :
      Reaches (access step next) (.did step reply :: rest) left

namespace Reaches

variable {middle left : Program Query Answer α} {front back rest : Trace Query Answer}

theorem trans (h : program.Reaches front middle) (h' : middle.Reaches back left) :
    program.Reaches (front ++ back) left := by
  induction h with
  | refl => exact h'
  | asked _ ih => exact .asked (ih h')
  | did _ ih => exact .did (ih h')

/-- What is left goes on where the trace stops. -/
theorem ends {result : α} (h : program.Reaches front left) (hends : left.Ends rest result) :
    program.Ends (front ++ rest) result := by
  induction h with
  | refl => exact hends
  | asked _ ih => exact ⟨_, _, rfl, ih hends⟩
  | did _ ih => exact ⟨_, _, rfl, ih hends⟩

/-- A program of which its value is left has ended. -/
theorem ends_done {result : α} (h : program.Reaches trace (.done result)) :
    program.Ends trace result := by
  have hends := h.ends ⟨rfl, rfl⟩
  rwa [List.append_nil] at hends

theorem sends {sent : Query} (h : program.Reaches front left) (hsends : left.Sends rest sent) :
    program.Sends (front ++ rest) sent := by
  induction h with
  | refl => exact hsends
  | asked _ ih => exact .inr ⟨_, _, rfl, ih hsends⟩
  | did _ ih => exact ⟨_, _, rfl, ih hsends⟩

/-- Nothing but its value is left of a program that has ended. -/
theorem eq_done {result : α} (h : program.Reaches trace left) (hends : program.Ends trace result) :
    left = .done result := by
  induction h with
  | @refl program =>
      cases program with
      | done value => exact congrArg done hends.2.symm
      | ask | access =>
          obtain ⟨_, _, htrace, -⟩ := hends
          cases htrace
  | asked _ ih | did _ ih =>
      obtain ⟨_, _, htrace, hends⟩ := hends
      cases htrace
      exact ih hends

end Reaches

end Program

/-! ## Calls -/

namespace Call

/-- The call has ended after a trace, with a value or an error. -/
def Ends (call : Call Query Answer α) (trace : Trace Query Answer) (result : Except Error α) :
    Prop :=
  Program.Ends call.run trace result

/-- The call asks a question after a trace. -/
def Sends (call : Call Query Answer α) (trace : Trace Query Answer) (sent : Query) : Prop :=
  Program.Sends call.run trace sent

variable {call : Call Query Answer α} {next : α → Call Query Answer β} {trace : Trace Query Answer}
  {sent : Query}

theorem Ends.unique {front back front' back' : Trace Query Answer} {result result' : Except Error α}
    (h : call.Ends front result) (h' : call.Ends front' result')
    (hsame : front ++ back = front' ++ back') : front = front' ∧ result = result' :=
  Program.Ends.unique h h' hsame

theorem Ends.sends {front back : Trace Query Answer} {answer : Answer} {result : Except Error α}
    (h : call.Ends (front ++ .asked sent answer :: back) result) : call.Sends front sent :=
  Program.Ends.sends h

theorem Sends.exists_ends [Nonempty Answer] (h : call.Sends trace sent) (answer : Answer) :
    ∃ rest result, call.Ends (trace ++ .asked sent answer :: rest) result :=
  Program.Sends.exists_ends h answer

theorem ends_bind {result : Except Error β} : (call >>= next).Ends trace result ↔
    (∃ cause, call.Ends trace (.error cause) ∧ result = .error cause) ∨
      ∃ front back value, trace = front ++ back ∧ call.Ends front (.ok value) ∧
        (next value).Ends back result := by
  unfold Ends
  rw [run_bind, Program.ends_bind]
  constructor
  · rintro ⟨front, back, cause | value, rfl, hfirst, hthen⟩
    · obtain ⟨rfl, rfl⟩ := hthen
      rw [List.append_nil]
      exact .inl ⟨cause, hfirst, rfl⟩
    · exact .inr ⟨front, back, value, rfl, hfirst, hthen⟩
  · rintro (⟨cause, h, rfl⟩ | ⟨front, back, value, rfl, hfirst, hthen⟩)
    · exact ⟨trace, [], .error cause, (List.append_nil trace).symm, h, rfl, rfl⟩
    · exact ⟨front, back, .ok value, rfl, hfirst, hthen⟩

theorem sends_bind : (call >>= next).Sends trace sent ↔
    call.Sends trace sent ∨
      ∃ front back value, trace = front ++ back ∧ call.Ends front (.ok value) ∧
        (next value).Sends back sent := by
  unfold Sends Ends
  rw [run_bind, Program.sends_bind]
  refine or_congr_right ⟨?_, ?_⟩
  · rintro ⟨front, back, cause | value, rfl, hfirst, hthen⟩
    · exact hthen.elim
    · exact ⟨front, back, value, rfl, hfirst, hthen⟩
  · rintro ⟨front, back, value, rfl, hfirst, hthen⟩
    exact ⟨front, back, .ok value, rfl, hfirst, hthen⟩

@[simp] theorem throw_bind {cause : Error} :
    (throw cause >>= next : Call Query Answer β) = throw cause := rfl

@[simp] theorem ends_pure {value : α} {result : Except Error α} :
    (pure value : Call Query Answer α).Ends trace result ↔ trace = [] ∧ result = .ok value :=
  Iff.rfl

@[simp] theorem sends_pure {value : α} : ¬ (pure value : Call Query Answer α).Sends trace sent := id

@[simp] theorem ends_throw {cause : Error} {result : Except Error α} :
    (throw cause : Call Query Answer α).Ends trace result ↔ trace = [] ∧ result = .error cause :=
  Iff.rfl

@[simp] theorem sends_throw {cause : Error} :
    ¬ (throw cause : Call Query Answer α).Sends trace sent := id

@[simp] theorem ends_ofExcept {known result : Except Error α} :
    (ofExcept known : Call Query Answer α).Ends trace result ↔ trace = [] ∧ result = known :=
  Iff.rfl

@[simp] theorem sends_ofExcept {known : Except Error α} :
    ¬ (ofExcept known : Call Query Answer α).Sends trace sent := id

@[simp] theorem ends_ask {query : Query} {result : Except Error Answer} :
    (ask query : Call Query Answer Answer).Ends trace result ↔
      ∃ answer, trace = [.asked query answer] ∧ result = .ok answer := by
  constructor
  · rintro ⟨answer, rest, rfl, rfl, rfl⟩
    exact ⟨answer, rfl, rfl⟩
  · rintro ⟨answer, rfl, rfl⟩
    exact ⟨answer, [], rfl, rfl, rfl⟩

@[simp] theorem sends_ask {query : Query} :
    (ask query : Call Query Answer Answer).Sends trace sent ↔ trace = [] ∧ sent = query := by
  constructor
  · rintro (h | ⟨answer, rest, rfl, h⟩)
    · exact h
    · exact h.elim
  · exact .inl

@[simp] theorem ends_access {step : Access} {result : Except Error step.Reply} :
    (access step : Call Query Answer step.Reply).Ends trace result ↔
      ∃ reply, trace = [.did step reply] ∧ result = .ok reply := by
  constructor
  · rintro ⟨reply, rest, rfl, rfl, rfl⟩
    exact ⟨reply, rfl, rfl⟩
  · rintro ⟨reply, rfl, rfl⟩
    exact ⟨reply, [], rfl, rfl, rfl⟩

@[simp] theorem sends_access {step : Access} :
    ¬ (access step : Call Query Answer step.Reply).Sends trace sent := by
  rintro ⟨reply, rest, rfl, h⟩
  exact h

/-- An error under another name is still one. -/
theorem mapError_eq_ok_iff {ε ε' : Type} {rename : ε → ε'} {known : Except ε α} {value : α} :
    known.mapError rename = .ok value ↔ known = .ok value := by
  cases known with
  | error cause => exact iff_of_false nofun nofun
  | ok known =>
      constructor
      · intro h
        cases h
        rfl
      · intro h
        cases h
        rfl

/-- What a call ends with is worked on, without another act. -/
theorem ends_bind_ofExcept {more : α → Except Error β} {result : Except Error β} :
    (call >>= fun value => ofExcept (more value)).Ends trace result ↔
      ∃ first, call.Ends trace first ∧ result = first >>= more := by
  rw [ends_bind]
  constructor
  · rintro (⟨cause, h, rfl⟩ | ⟨front, _, value, rfl, h, rfl, rfl⟩)
    · exact ⟨_, h, rfl⟩
    · rw [List.append_nil]
      exact ⟨_, h, rfl⟩
  · rintro ⟨cause | value, h, rfl⟩
    · exact .inl ⟨cause, h, rfl⟩
    · exact .inr ⟨trace, [], value, (List.append_nil trace).symm, h, rfl, rfl⟩

theorem sends_bind_ofExcept {more : α → Except Error β} :
    (call >>= fun value => ofExcept (more value)).Sends trace sent ↔ call.Sends trace sent := by
  rw [sends_bind]
  refine or_iff_left ?_
  rintro ⟨_, _, _, -, -, hnone⟩
  exact hnone

/-- A call goes well that makes something of what another one ends with, if that one does. -/
theorem ends_bind_pure_ok {made : α → β} {value : β} :
    (call >>= fun first => pure (made first)).Ends trace (.ok value) ↔
      ∃ first, call.Ends trace (.ok first) ∧ made first = value := by
  refine ends_bind_ofExcept.trans ⟨?_, ?_⟩
  · rintro ⟨_ | first, h, hvalue⟩
    · cases hvalue
    · exact ⟨first, h, (Except.ok.inj hvalue).symm⟩
  · rintro ⟨first, h, rfl⟩
    exact ⟨.ok first, h, rfl⟩

theorem ends_access_bind {step : Access} {next : step.Reply → Call Query Answer β}
    {result : Except Error β} : (access step >>= next).Ends trace result ↔
      ∃ reply rest, trace = .did step reply :: rest ∧ (next reply).Ends rest result := Iff.rfl

theorem sends_access_bind {step : Access} {next : step.Reply → Call Query Answer β} :
    (access step >>= next).Sends trace sent ↔
      ∃ reply rest, trace = .did step reply :: rest ∧ (next reply).Sends rest sent := Iff.rfl

/-- A call under a lock does what it does between acquiring the lock and releasing it. -/
theorem ends_holding {lock : Lock} {result : Except Error α} :
    (holding lock call).Ends trace result ↔
      ∃ inside, trace = .did (.acquire lock) () :: inside ++ [.did (.release lock) ()] ∧
        call.Ends inside result := by
  unfold Ends
  rw [run_holding]
  constructor
  · rintro ⟨⟨⟩, rest, rfl, h⟩
    obtain ⟨inside, back, value, rfl, hcall, ⟨⟩, _, rfl, rfl, rfl⟩ := Program.ends_bind.1 h
    exact ⟨inside, rfl, hcall⟩
  · rintro ⟨inside, rfl, hcall⟩
    exact ⟨(), _, rfl, Program.ends_bind.2 ⟨inside, _, result, rfl, hcall, (), [], rfl, rfl, rfl⟩⟩

theorem sends_holding {lock : Lock} :
    (holding lock call).Sends trace sent ↔
      ∃ inside, trace = .did (.acquire lock) () :: inside ∧ call.Sends inside sent := by
  unfold Sends
  rw [run_holding]
  constructor
  · rintro ⟨⟨⟩, inside, rfl, h⟩
    obtain h | ⟨_, _, _, _, _, _, _, _, hnone⟩ := Program.sends_bind.1 h
    · exact ⟨inside, rfl, h⟩
    · exact hnone.elim
  · rintro ⟨inside, rfl, hcall⟩
    exact ⟨(), inside, rfl, Program.sends_bind.2 (.inl hcall)⟩

theorem ends_tryCatch {handler : Error → Call Query Answer α} {result : Except Error α} :
    (tryCatch call handler).Ends trace result ↔
      (∃ value, call.Ends trace (.ok value) ∧ result = .ok value) ∨
        ∃ front back cause, trace = front ++ back ∧ call.Ends front (.error cause) ∧
          (handler cause).Ends back result := by
  unfold Ends
  rw [run_tryCatch, Program.ends_bind]
  constructor
  · rintro ⟨front, back, cause | value, rfl, hfirst, hthen⟩
    · exact .inr ⟨front, back, cause, rfl, hfirst, hthen⟩
    · obtain ⟨rfl, rfl⟩ := hthen
      rw [List.append_nil]
      exact .inl ⟨value, hfirst, rfl⟩
  · rintro (⟨value, h, rfl⟩ | ⟨front, back, cause, rfl, hfirst, hthen⟩)
    · exact ⟨trace, [], .ok value, (List.append_nil trace).symm, h, rfl, rfl⟩
    · exact ⟨front, back, .error cause, rfl, hfirst, hthen⟩

theorem sends_tryCatch {handler : Error → Call Query Answer α} :
    (tryCatch call handler).Sends trace sent ↔
      call.Sends trace sent ∨
        ∃ front back cause, trace = front ++ back ∧ call.Ends front (.error cause) ∧
          (handler cause).Sends back sent := by
  unfold Sends Ends
  rw [run_tryCatch, Program.sends_bind]
  refine or_congr_right ⟨?_, ?_⟩
  · rintro ⟨front, back, cause | value, rfl, hfirst, hthen⟩
    · exact ⟨front, back, cause, rfl, hfirst, hthen⟩
    · exact hthen.elim
  · rintro ⟨front, back, cause, rfl, hfirst, hthen⟩
    exact ⟨front, back, .error cause, rfl, hfirst, hthen⟩

/-! ### Exchanges -/

/-- The call asks one question, and ends with what is read out of the answer. -/
def Exchanges (call : Call Query Answer α) (query : Query) (reading : Answer → Except Error α) :
    Prop :=
  call.run = .ask query fun answer => .done (reading answer)

variable {query : Query} {reading : Answer → Except Error α}

theorem Exchanges.ends (h : call.Exchanges query reading) {result : Except Error α} :
    call.Ends trace result ↔ ∃ answer, trace = [.asked query answer] ∧ result = reading answer := by
  rw [Ends, h]
  constructor
  · rintro ⟨answer, _, rfl, rfl, hresult⟩
    exact ⟨answer, rfl, hresult⟩
  · rintro ⟨answer, rfl, hresult⟩
    exact ⟨answer, [], rfl, rfl, hresult⟩

theorem Exchanges.sends (h : call.Exchanges query reading) :
    call.Sends trace sent ↔ trace = [] ∧ sent = query := by
  rw [Sends, h]
  refine or_iff_left ?_
  rintro ⟨_, _, -, hnone⟩
  exact hnone

/-- More is made of the answer, without another act. -/
theorem Exchanges.bind (h : call.Exchanges query reading) {more : α → Except Error β}
    (hnext : ∀ value, (next value).run = .done (more value)) :
    (call >>= next).Exchanges query fun answer => reading answer >>= more := by
  refine run_bind.trans ((congrArg (Program.bind · _) h).trans ?_)
  refine congrArg (Program.ask query) (funext fun answer => ?_)
  show Program.bind (.done (reading answer)) _ = .done (reading answer >>= more)
  cases reading answer with
  | error cause => rfl
  | ok value => exact hnext value

/-! ### Footprints of traces -/

variable {allowed : Access → Prop} {step : Access} {reply : step.Reply}

/-- A call that makes only certain steps has made no others when it ends. -/
theorem Only.of_ends (h : call.Only allowed) {result : Except Error α}
    (hends : call.Ends trace result) (hmem : .did step reply ∈ trace) : allowed step := by
  unfold Only Follows at h
  unfold Ends at hends
  generalize call.run = program at h hends
  induction program generalizing trace with
  | done value =>
      obtain ⟨rfl, -⟩ := hends
      cases hmem
  | ask query next ih =>
      obtain ⟨answer, rest, rfl, hends⟩ := hends
      obtain ⟨_, _, hnext⟩ := h
      cases hmem with
      | tail _ hmem => exact ih answer hmem (hnext answer) hends
  | access access next ih =>
      obtain ⟨told, rest, rfl, hends⟩ := hends
      obtain ⟨_, hallowed, hnext⟩ := h told
      cases hmem with
      | head => exact hallowed
      | tail _ hmem => exact ih told hmem hnext hends

/-- The next step of a call that makes only certain steps is one of these. -/
theorem Only.of_reaches (h : call.Only allowed)
    {later : step.Reply → Program Query Answer (Except Error α)}
    (hreaches : call.run.Reaches trace (.access step later)) (reply : step.Reply) :
    allowed step := by
  unfold Only Follows at h
  generalize call.run = program at h hreaches
  generalize hleft : Program.access step later = left at hreaches
  induction hreaches with
  | refl =>
      subst hleft
      obtain ⟨_, hallowed, _⟩ := h reply
      exact hallowed
  | @asked _ _ answer _ _ _ ih =>
      obtain ⟨_, _, hnext⟩ := h
      exact ih (hnext answer) hleft
  | @did _ _ told _ _ _ ih =>
      obtain ⟨_, _, hnext⟩ := h told
      exact ih hnext hleft

/-- A call that makes only certain steps has made no others when it asks a question. -/
theorem Only.of_sends (h : call.Only allowed) (hsends : call.Sends trace sent)
    (hmem : .did step reply ∈ trace) : allowed step := by
  unfold Only Follows at h
  unfold Sends at hsends
  generalize call.run = program at h hsends
  induction program generalizing trace with
  | done value => exact hsends.elim
  | ask query next ih =>
      obtain ⟨rfl, -⟩ | ⟨answer, rest, rfl, hsends⟩ := hsends
      · cases hmem
      · obtain ⟨_, _, hnext⟩ := h
        cases hmem with
        | tail _ hmem => exact ih answer hmem (hnext answer) hsends
  | access access next ih =>
      obtain ⟨told, rest, rfl, hsends⟩ := hsends
      obtain ⟨_, hallowed, hnext⟩ := h told
      cases hmem with
      | head => exact hallowed
      | tail _ hmem => exact ih told hmem hnext hsends

end Call

/-! ## Runs -/

section Runs

variable {ι : Type} {γ : ι → Type} [DecidableEq ι]

/-- What an event is to one of the calls. -/
def Event.act? (i : ι) : Event Query Answer ι → Option (Act Query Answer)
  | .answered caller query answer => if caller = i then some (.asked query answer) else none
  | .stepped caller access reply => if caller = i then some (.did access reply) else none
  | .dropped _ | .passed _ => none

section

variable {event : Event Query Answer ι} {i : ι}

theorem Event.act?_of_ne (hother : event.caller? ≠ some i) : event.act? i = none := by
  cases event with
  | answered | stepped => exact if_neg fun hsame => hother (congrArg some hsame)
  | dropped | passed => rfl

theorem Event.act?_eq_asked_iff {query : Query} {answer : Answer} :
    event.act? i = some (.asked query answer) ↔ event = .answered i query answer := by
  constructor
  · intro hact
    cases event with
    | answered caller =>
        simp only [act?] at hact
        split at hact
        · next hcaller =>
          cases hact
          rw [hcaller]
        · cases hact
    | stepped =>
        simp only [act?] at hact
        split at hact <;> cases hact
    | dropped | passed => cases hact
  · rintro rfl
    exact if_pos rfl

theorem Event.act?_eq_did_iff {access : Access} {reply : access.Reply} :
    event.act? i = some (.did access reply) ↔ event = .stepped i access reply := by
  constructor
  · intro hact
    cases event with
    | stepped caller =>
        simp only [act?] at hact
        split at hact
        · next hcaller =>
          cases hact
          rw [hcaller]
        · cases hact
    | answered =>
        simp only [act?] at hact
        split at hact <;> cases hact
    | dropped | passed => cases hact
  · rintro rfl
    exact if_pos rfl

end

/-- What one of the calls has done. -/
def History.trace (history : History Query Answer ι) (i : ι) : Trace Query Answer :=
  history.filterMap (Event.act? i)

@[simp] theorem History.trace_nil {i : ι} : History.trace ([] : History Query Answer ι) i = [] :=
  rfl

theorem History.trace_append {history later : History Query Answer ι} {i : ι} :
    History.trace (history ++ later) i = history.trace i ++ later.trace i :=
  List.filterMap_append

theorem History.trace_snoc {history : History Query Answer ι}
    {event : Event Query Answer ι} {i : ι} :
    History.trace (history ++ [event]) i = history.trace i ++ (event.act? i).toList := by
  rw [History.trace_append]
  simp only [History.trace, List.filterMap_cons, List.filterMap_nil]
  cases event.act? i <;> rfl

variable {pool later : Pool Query Answer γ} {event : Event Query Answer ι}
  {history : History Query Answer ι} {i : ι}

theorem History.mem_trace_asked {query : Query} {answer : Answer} :
    .asked query answer ∈ history.trace i ↔ .answered i query answer ∈ history := by
  simp only [trace, List.mem_filterMap, Event.act?_eq_asked_iff, exists_eq_right]

theorem History.mem_trace_did {access : Access} {reply : access.Reply} :
    .did access reply ∈ history.trace i ↔ .stepped i access reply ∈ history := by
  simp only [trace, List.mem_filterMap, Event.act?_eq_did_iff, exists_eq_right]

/-- The history of a trace, up to one of its acts and from there on. -/
theorem History.exists_of_trace {front back : Trace Query Answer} {act : Act Query Answer}
    (h : history.trace i = front ++ act :: back) :
    ∃ (before : History Query Answer ι) (event : Event Query Answer ι)
      (during : History Query Answer ι), history = before ++ event :: during ∧
      before.trace i = front ∧ event.act? i = some act ∧ during.trace i = back := by
  obtain ⟨before, rest, rfl, hfront, hrest⟩ := List.filterMap_eq_append_iff.1 h
  obtain ⟨others, event, during, rfl, hothers, hact, hback⟩ := List.filterMap_eq_cons_iff.1 hrest
  refine ⟨before ++ others, event, during, by simp, ?_, hact, hback⟩
  rw [trace_append, trace, trace, hfront, List.filterMap_eq_nil_iff.2 hothers, List.append_nil]

/-- A call goes on by its own events, and stays where it is at those of others. -/
theorem Step.reaches (step : Step pool event later)
    {left : Program Query Answer (Except Error (γ i))} (hleft : later.rest i = some left) :
    ∃ before, pool.rest i = some before ∧ before.Reaches (event.act? i).toList left := by
  obtain ⟨hother, hrest⟩ | ⟨query, next, answer, rfl, hrest, rfl⟩ |
    ⟨access, next, reply, rfl, hrest, rfl⟩ := step.rest_cases hleft
  · rw [Event.act?_of_ne hother]
    exact ⟨left, hrest, .refl⟩
  · rw [Event.act?_eq_asked_iff.2 rfl]
    exact ⟨_, hrest, .asked .refl⟩
  · rw [Event.act?_eq_did_iff.2 rfl]
    exact ⟨_, hrest, .did .refl⟩

variable {memory : Memory} {calls : (i : ι) → Call Query Answer (γ i)}

theorem Run.reaches (run : Run (.begin memory calls) history pool)
    {left : Program Query Answer (Except Error (γ i))} (hleft : pool.rest i = some left) :
    (calls i).run.Reaches (history.trace i) left := by
  induction run generalizing left with
  | nil =>
      cases hleft
      exact .refl
  | snoc _ step ih =>
      obtain ⟨before, hbefore, hstep⟩ := step.reaches hleft
      rw [History.trace_snoc]
      exact (ih hbefore).trans hstep

/-- A call that has ended in a run has ended after its trace. -/
theorem Run.ends_trace (run : Run (.begin memory calls) history pool) {result : Except Error (γ i)}
    (hdone : pool.rest i = some (.done result)) : (calls i).Ends (history.trace i) result :=
  (run.reaches hdone).ends_done

/-- What a call asks in a run, it asks after its trace. -/
theorem Run.sends_trace (run : Run (.begin memory calls) history pool) {query : Query}
    {next : Answer → Program Query Answer (Except Error (γ i))}
    (hasks : pool.rest i = some (.ask query next)) : (calls i).Sends (history.trace i) query := by
  have hsends := (run.reaches hasks).sends (.inl ⟨rfl, rfl⟩)
  rwa [List.append_nil] at hsends

end Runs

end ShardNet
