-- SUMMARY: What a call that reads the configuration has done at each stage, and that a store comes of its fetch.
import ShardNet.Proofs.Cache.Reading
import ShardNet.Proofs.Trace

/-!
# Fetching the configuration

`Stands` says what a call has done when it is at a stage, and what is left of it. Where it is
fetching, this is what is left of its fetch, and what it does with the result: it stores a
configuration, and it only releases the lock after an error.

Whoever is fetching holds the lock, so that nothing happens to the cache meanwhile. A store is
therefore the end of a refresh: a look that finds nothing, a fetch that ends with the configuration,
and the store, while nobody else stores or clears one.
-/

namespace ShardNet

/-- Whether a step puts a configuration into the cache. -/
def Access.stores : Access → Bool
  | storeConfig _ => true
  | _ => false

/-- Whether a step empties the cache. -/
def Access.clears : Access → Bool
  | clearConfig => true
  | _ => false

section

variable {Query Answer ι : Type}

def Event.stores : Event Query Answer ι → Bool
  | .stepped _ access _ => access.stores
  | _ => false

def Event.clears : Event Query Answer ι → Bool
  | .stepped _ access _ => access.clears
  | _ => false

/-- No event has stored or cleared a configuration. -/
def History.Unchanged (history : History Query Answer ι) : Prop :=
  ∀ event ∈ history, ¬ event.stores ∧ ¬ event.clears

variable {history : History Query Answer ι} {event : Event Query Answer ι}

theorem History.Unchanged.snoc (h : history.Unchanged) (hstores : ¬ event.stores)
    (hclears : ¬ event.clears) : Unchanged (history ++ [event]) := by
  intro other hother
  rcases List.mem_append.1 hother with hother | hother
  · exact h other hother
  · rw [List.mem_singleton.1 hother]
    exact ⟨hstores, hclears⟩

/-- An event that stores a configuration, by its parts. -/
theorem Event.eq_of_stores (hstores : event.stores) :
    ∃ i config, event = .stepped i (.storeConfig config) () := by
  cases event with
  | stepped i access reply =>
      cases access with
      | storeConfig config => exact ⟨i, config, rfl⟩
      | _ => cases hstores
  | answered | dropped | passed => cases hstores

end

/-- Only storing and clearing change the cache. -/
theorem Access.apply_cache (access : Access) (memory : Memory) :
    (∃ config, access = .storeConfig config) ∨ access = .clearConfig ∨
      (access.apply memory).2.cache = memory.cache ∧ ¬ access.stores ∧ ¬ access.clears := by
  cases access with
  | storeConfig config => exact .inl ⟨config, rfl⟩
  | clearConfig => exact .inr (.inl rfl)
  | _ => exact .inr (.inr ⟨rfl, nofun, nofun⟩)

/-! ## The lock -/

section

variable {Query Answer ι : Type} {α : ι → Type} [DecidableEq ι]

/-- The calls keep to their stages, and a call holds the lock at the stages that say so. -/
structure Locking (ends : (i : ι) → Reading → Except Error (α i) → Prop)
    (history : History Query Answer ι) (pool : Pool Query Answer α) : Prop where
  keeps : pool.Keeps (fun _ => Reading.discipline Query) ends history.reading
  locked : ∀ {i : ι}, (history.reading i).isLocked → pool.holder .config = some i

variable {ends : (i : ι) → Reading → Except Error (α i) → Prop} {history : History Query Answer ι}
  {pool later : Pool Query Answer α} {event : Event Query Answer ι} {i j : ι} {access : Access}

omit [DecidableEq ι] in
/-- The lock of the configuration is held at the stages that say so. -/
theorem Reading.Steps.holderAfter {stage stage' : Reading} {reply : access.Reply}
    (hstep : Steps stage access reply stage')
    (hlocked : stage.isLocked → pool.holder .config = some i) (hafter : stage'.isLocked) :
    Pool.holderAfter pool.holder i access .config = some i := by
  cases hstep with
  | acquire => exact Function.update_self Lock.config (some i) pool.holder
  | refreshed | start | store => exact hlocked rfl
  | fetching hspares =>
      cases access with
      | acquire lock | release lock =>
          have hne : Lock.config ≠ lock := by
            rintro rfl
            exact hspares rfl
          exact (Function.update_of_ne hne ..).trans (hlocked rfl)
      | _ => exact hlocked rfl
  | found | missed | clear | fail | release => cases hafter

namespace Reading

/-- Whether the second look has found nothing, or is past. -/
def isLate : Reading → Bool
  | fetching | leaving _ | served _ | ended => true
  | _ => false

/-- There is one fetch in a call, and no way back to it. -/
theorem Steps.late {stage stage' : Reading} {reply : access.Reply}
    (hstep : Steps stage access reply stage') (hlate : stage.isLate) :
    stage'.isLate ∧ (stage' = .fetching → stage = .fetching) := by
  cases hstep with
  | found | missed | clear | acquire | refreshed | start => cases hlate
  | fetching => exact ⟨rfl, fun _ => rfl⟩
  | store | fail | release => exact ⟨rfl, nofun⟩

end Reading

namespace Locking

theorem locked_step (h : Locking ends history pool) (step : Step pool event later)
    (hreads : Reads history event)
    (hlocked : (History.reading (history ++ [event]) j).isLocked) :
    later.holder .config = some j := by
  rw [History.reading_snoc] at hlocked
  cases step with
  | answered | passed => exact h.locked hlocked
  | @stepped i access next left admitted =>
      show Pool.holderAfter pool.holder i access .config = some j
      rw [Reading.after] at hlocked
      split at hlocked
      · rename_i hij
        subst hij
        cases hreads with
        | stepped hstep =>
            rw [hstep.next_eq] at hlocked
            exact hstep.holderAfter h.locked hlocked
      · rename_i hij
        exact Pool.holderAfter_of_ne admitted (h.locked hlocked) (Ne.symm hij)
  | @dropped i =>
      rw [Reading.after] at hlocked
      split at hlocked
      · cases hlocked
      · rename_i hij
        exact Pool.holderWithout_of_ne (h.locked hlocked) (Ne.symm hij)

theorem step (h : Locking ends history pool) (step : Step pool event later) :
    Locking ends (history ++ [event]) later := by
  obtain ⟨hreads, hkeeps⟩ := step.reads h.keeps
  exact ⟨hkeeps, h.locked_step step hreads⟩

theorem of_run {memory : Memory} {calls : (i : ι) → Call Query Answer (α i)}
    (hfollows : ∀ i, (calls i).Follows (Reading.discipline Query) (ends i) .starting)
    (run : Run (.begin memory calls) history pool) : Locking ends history pool := by
  induction run with
  | nil =>
      refine ⟨?_, nofun⟩
      rintro i program ⟨⟩
      exact hfollows i
  | snoc _ step ih => exact ih.step step

/-- Two calls that hold the lock of the configuration are the same. -/
theorem eq_of_locked (h : Locking ends history pool) (hi : (history.reading i).isLocked)
    (hj : (history.reading j).isLocked) : i = j :=
  Option.some.inj ((h.locked hi).symm.trans (h.locked hj))

/-! ### While a configuration is fetched -/

/-- A call that is late stays so, and if it is fetching afterwards it was fetching before. -/
theorem late_step (h : Locking ends history pool) (step : Step pool event later)
    (hlate : (history.reading i).isLate) :
    (History.reading (history ++ [event]) i).isLate ∧
      (History.reading (history ++ [event]) i = .fetching → history.reading i = .fetching) := by
  have hreads := (step.reads h.keeps).1
  rw [History.reading_snoc]
  cases hreads with
  | answered | passed => exact ⟨hlate, id⟩
  | dropped =>
      rw [Reading.after]
      split
      · exact ⟨rfl, Reading.noConfusion⟩
      · exact ⟨hlate, id⟩
  | stepped hstep =>
      rw [Reading.after]
      split
      · rename_i hji
        subst hji
        rw [hstep.next_eq]
        exact hstep.late hlate
      · exact ⟨hlate, id⟩

/-- While a call goes on fetching, nobody stores or clears a configuration. -/
theorem unchanged_step (h : Locking ends history pool) (step : Step pool event later)
    (hfetching : history.reading i = .fetching)
    (hafter : History.reading (history ++ [event]) i = .fetching) :
    ¬ event.stores ∧ ¬ event.clears := by
  have hholder : pool.holder .config = some i := h.locked (by rw [hfetching]; rfl)
  have hreads := (step.reads h.keeps).1
  cases step with
  | answered | dropped | passed => exact ⟨nofun, nofun⟩
  | @stepped j access next left admitted =>
      obtain ⟨config, rfl⟩ | rfl | ⟨-, hstores, hclears⟩ := access.apply_cache pool.memory
      · obtain rfl := Pool.eq_of_admits admitted rfl hholder
        -- The call would not be fetching after its store.
        rw [History.reading_snoc, hfetching] at hafter
        simp [Reading.after, Reading.next] at hafter
      · obtain rfl := Pool.eq_of_admits admitted rfl hholder
        cases hreads with
        | stepped hstep =>
            rw [hfetching] at hstep
            cases hstep with
            | fetching hspares => exact absurd rfl hspares
      · exact ⟨hstores, hclears⟩

/-- As long as a call is fetching, nobody has stored or cleared a configuration since it began. -/
theorem unchanged_of_run {first : Pool Query Answer α} {before during : History Query Answer ι}
    (h : Locking ends before first) (run : Run first during pool)
    (hlate : (before.reading i).isLate)
    (hfetching : History.reading (before ++ during) i = .fetching) : during.Unchanged := by
  have hall : Locking ends (before ++ during) pool ∧
      (History.reading (before ++ during) i).isLate ∧
      (History.reading (before ++ during) i = .fetching → during.Unchanged) := by
    clear hfetching
    induction run with
    | nil =>
        rw [List.append_nil]
        exact ⟨h, hlate, fun _ event hmem => absurd hmem List.not_mem_nil⟩
    | @snoc during pool event later run step ih =>
        obtain ⟨hlocking, hlate, hunchanged⟩ := ih
        rw [← List.append_assoc]
        obtain ⟨hlate', hback⟩ := hlocking.late_step step hlate
        refine ⟨hlocking.step step, hlate', fun hafter => ?_⟩
        obtain ⟨hstores, hclears⟩ := hlocking.unchanged_step step (hback hafter) hafter
        exact (hunchanged (hback hafter)).snoc hstores hclears
  exact hall.2.2 hfetching

/-- Nobody has stored or cleared a configuration since the look of a call that is fetching. -/
theorem unchanged_of_look {during : History Query Answer ι} (h : Locking ends history pool)
    (hinside : history.reading i = .inside)
    (run : Run pool (.stepped i .freshConfig none :: during) later)
    (hfetching : History.reading (history ++ .stepped i .freshConfig none :: during) i =
      .fetching) : during.Unchanged := by
  obtain ⟨first, look, hduring⟩ := run.uncons
  have hlate : (History.reading (history ++ [.stepped i .freshConfig none]) i).isLate := by
    rw [History.reading_snoc, hinside]
    simp [Reading.after, Reading.next, Reading.isLate]
  exact (h.step look).unchanged_of_run hduring hlate (by simpa using hfetching)

end Locking

/-- The cache is what it was if nobody has stored or cleared a configuration. -/
theorem Step.cache_eq (step : Step pool event later) (hstores : ¬ event.stores)
    (hclears : ¬ event.clears) : later.memory.cache = pool.memory.cache := by
  cases step with
  | answered | dropped | passed => rfl
  | @stepped i access next left admitted =>
      obtain ⟨config, rfl⟩ | rfl | ⟨hcache, -, -⟩ := access.apply_cache pool.memory
      · exact absurd rfl hstores
      · exact absurd rfl hclears
      · exact hcache

theorem Run.cache_eq (run : Run pool history later) (hunchanged : history.Unchanged) :
    later.memory.cache = pool.memory.cache := by
  induction run with
  | nil => rfl
  | snoc run step ih =>
      obtain ⟨hstores, hclears⟩ := hunchanged _ (List.mem_append_right _ List.mem_cons_self)
      exact (step.cache_eq hstores hclears).trans
        (ih fun event hmem => hunchanged event (List.mem_append_left _ hmem))

end

/-! ## What has been done, and what is left -/

section

variable {Query Answer : Type}

/-- What is done with the result of a fetch. -/
def afterFetch :
    Except Error NetworkConfig → Program Query Answer (Except Error NetworkConfig)
  | .ok config => .access (.storeConfig config) fun _ =>
      .access (.release .config) fun _ => .done (.ok config)
  | .error cause => .access (.release .config) fun _ => .done (.error cause)

/-- The look under the lock, and what comes of it. -/
def secondLook (fetch : Call Query Answer NetworkConfig) :
    Program Query Answer (Except Error NetworkConfig) :=
  .access .freshConfig fun
    | some config => .access (.release .config) fun _ => .done (.ok config)
    | none => fetch.run.bind afterFetch

/-- The look without the lock, and what comes of it. -/
def firstLook (fetch : Call Query Answer NetworkConfig) :
    Program Query Answer (Except Error NetworkConfig) :=
  .access .freshConfig fun
    | some config => .done (.ok config)
    | none => .access (.acquire .config) fun _ => secondLook fetch

/-- What a call has done that has found nothing, neither without the lock nor under it. -/
abbrev missed : Trace Query Answer :=
  [.did .freshConfig none, .did (.acquire .config) (), .did .freshConfig none]

/-- What a call that reads the configuration has done when it is at a stage, and what is left of
it. -/
inductive Stands (fetch : Call Query Answer NetworkConfig) :
    Reading → Trace Query Answer → Program Query Answer (Except Error NetworkConfig) → Prop where
  | starting : Stands fetch .starting [] (firstLook fetch)
  | found {config : NetworkConfig} :
      Stands fetch (.served config) [.did .freshConfig (some config)] (.done (.ok config))
  | waiting : Stands fetch .waiting [.did .freshConfig none]
      (.access (.acquire .config) fun _ => secondLook fetch)
  | inside : Stands fetch .inside [.did .freshConfig none, .did (.acquire .config) ()]
      (secondLook fetch)
  | refreshed {config : NetworkConfig} : Stands fetch (.leaving config)
      [.did .freshConfig none, .did (.acquire .config) (), .did .freshConfig (some config)]
      (.access (.release .config) fun _ => .done (.ok config))
  | fetching {during : Trace Query Answer}
      {left : Program Query Answer (Except Error NetworkConfig)}
      (hfetch : fetch.run.Reaches during left) :
      Stands fetch .fetching (missed ++ during) (left.bind afterFetch)
  | stored {during : Trace Query Answer} {config : NetworkConfig}
      (hfetch : fetch.Ends during (.ok config)) :
      Stands fetch (.leaving config) (missed ++ (during ++ [.did (.storeConfig config) ()]))
        (.access (.release .config) fun _ => .done (.ok config))
  | released {trace : Trace Query Answer} {config : NetworkConfig}
      {program : Program Query Answer (Except Error NetworkConfig)}
      (h : Stands fetch (.leaving config) trace program) :
      Stands fetch (.served config) (trace ++ [.did (.release .config) ()]) (.done (.ok config))
  | failed {during : Trace Query Answer} {cause : Error}
      (hfetch : fetch.Ends during (.error cause)) :
      Stands fetch .ended (missed ++ (during ++ [.did (.release .config) ()]))
        (.done (.error cause))

variable {fetch : Call Query Answer NetworkConfig} {stage : Reading} {trace : Trace Query Answer}

/-- What a call does, written out step by step. -/
theorem run_currentConfig : (currentConfig fetch).run = firstLook fetch := by
  refine congrArg (Program.access .freshConfig) (funext fun found => ?_)
  cases found with
  | some config => rfl
  | none =>
      refine Call.run_holding.trans (congrArg (Program.access _) (funext fun _ => ?_))
      refine congrArg (Program.access .freshConfig) (funext fun found => ?_)
      cases found with
      | some config => rfl
      | none =>
          show Program.bind (fetch >>= fun config => do
            Call.access (.storeConfig config)
            return config).run _ = fetch.run.bind afterFetch
          rw [Call.run_bind, Program.bind_assoc]
          refine congrArg fetch.run.bind (funext fun result => ?_)
          cases result <;> rfl

theorem Stands.asked {query : Query} {next : Answer → Program Query Answer _}
    (h : Stands fetch stage trace (.ask query next)) (answer : Answer) :
    Stands fetch stage (trace ++ [.asked query answer]) (next answer) := by
  generalize hprogram : Program.ask query next = program at h
  cases h with
  | @fetching during left hfetch =>
      cases left with
      | done result => cases result <;> cases hprogram
      | access => cases hprogram
      | ask =>
          cases hprogram
          rw [List.append_assoc]
          exact .fetching (hfetch.trans (.asked .refl))
  | _ => cases hprogram

theorem Stands.did (hfetch : fetch.SparesConfig) {access : Access}
    {next : access.Reply → Program Query Answer _}
    (h : Stands fetch stage trace (.access access next)) (reply : access.Reply) :
    Stands fetch (stage.next access reply) (trace ++ [.did access reply]) (next reply) := by
  generalize hprogram : Program.access access next = program at h
  cases h with
  | found | released | failed => cases hprogram
  | starting =>
      cases hprogram
      cases reply with
      | some config => exact .found
      | none => exact .waiting
  | waiting =>
      cases hprogram
      exact .inside
  | inside =>
      cases hprogram
      cases reply with
      | some config => exact .refreshed
      | none => exact .fetching .refl
  | refreshed =>
      cases hprogram
      exact .released .refreshed
  | stored hends =>
      cases hprogram
      exact .released (.stored hends)
  | @fetching during left hreaches =>
      cases left with
      | ask => cases hprogram
      | done result =>
          have hends : fetch.Ends during result := hreaches.ends_done
          cases result with
          | ok config =>
              cases hprogram
              rw [List.append_assoc]
              exact .stored hends
          | error cause =>
              cases hprogram
              rw [List.append_assoc]
              exact .failed hends
      | access =>
          cases hprogram
          have hspares := Call.Only.of_reaches hfetch hreaches reply
          rw [(Reading.Steps.fetching hspares).next_eq, List.append_assoc]
          exact .fetching (hreaches.trans (.did .refl))

/-- A configuration is stored only by a call whose fetch has ended with it. -/
theorem Stands.of_store (hfetch : fetch.SparesConfig) {config : NetworkConfig}
    {next : Unit → Program Query Answer _}
    (h : Stands fetch stage trace (.access (.storeConfig config) next)) :
    ∃ during, stage = .fetching ∧ trace = missed ++ during ∧ fetch.Ends during (.ok config) := by
  generalize hprogram : Program.access (.storeConfig config) next = program at h
  cases h with
  | @fetching during left hreaches =>
      cases left with
      | ask => cases hprogram
      | access =>
          cases hprogram
          exact absurd rfl (Call.Only.of_reaches hfetch hreaches ())
      | done result =>
          have hends : fetch.Ends during result := hreaches.ends_done
          cases result with
          | error => cases hprogram
          | ok =>
              cases hprogram
              exact ⟨during, rfl, rfl, hends⟩
  | _ => cases hprogram

/-- A call that has come under the lock and no further is about to look again. -/
theorem Stands.eq_inside {program : Program Query Answer (Except Error NetworkConfig)}
    (h : Stands fetch stage [.did .freshConfig none, .did (.acquire .config) ()] program) :
    stage = .inside := by
  generalize htrace : [Act.did .freshConfig none, .did (.acquire .config) ()] = trace at h
  cases h with
  | inside => rfl
  | released =>
      have hlast := congrArg List.getLast? htrace
      simp at hlast
  | _ => cases htrace

end

/-! ## Refreshes -/

section

variable {Query Answer ρ κ : Type} [DecidableEq ρ] [DecidableEq κ]
  {fetch : ρ → Call Query Answer NetworkConfig} {memory : Memory} {r : ρ} {config : NetworkConfig}
  {history during : History Query Answer (ρ ⊕ κ)} {pool later : Pool Query Answer (@Yield ρ κ)}
  {program : Program Query Answer (Except Error NetworkConfig)}

/-- The calls of a run stand where the history tells. -/
theorem Run.stands (hfetch : ∀ r, (fetch r).SparesConfig)
    (run : Run (.begin memory (cacheCalls fetch)) history pool)
    (hleft : pool.rest (.inl r) = some program) :
    Stands (fetch r) (history.reading (.inl r)) (history.trace (.inl r)) program := by
  induction run generalizing program with
  | nil =>
      cases hleft
      show Stands (fetch r) .starting [] (currentConfig (fetch r)).run
      rw [run_currentConfig]
      exact .starting
  | @snoc history pool event later run step ih =>
      rw [History.reading_snoc, History.trace_snoc]
      obtain ⟨hother, hrest⟩ | ⟨query, next, answer, rfl, hrest, rfl⟩ |
        ⟨access, next, reply, rfl, hrest, rfl⟩ := step.rest_cases hleft
      · rw [Event.act?_of_ne hother, Reading.after_of_ne hother]
        simpa using ih hrest
      · rw [Event.act?_eq_asked_iff.2 rfl]
        exact (ih hrest).asked answer
      · rw [Event.act?_eq_did_iff.2 rfl, Reading.after, if_pos rfl]
        exact (ih hrest).did (hfetch r) reply

/-- What a call has done since it looked under the lock is what its fetch has done, as long as it
is fetching. -/
theorem Run.reaches_of_look (hfetch : ∀ r, (fetch r).SparesConfig)
    (run : Run (.begin memory (cacheCalls fetch)) history pool)
    (hinside : history.reading (.inl r) = .inside)
    (more : Run pool (.stepped (.inl r) .freshConfig none :: during) later)
    (hfetching : History.reading (history ++ .stepped (.inl r) .freshConfig none :: during)
      (.inl r) = .fetching) (hleft : later.rest (.inl r) = some program) :
    ∃ left, (fetch r).run.Reaches (during.trace (.inl r)) left ∧
      program = left.bind afterFetch := by
  have hlive : (pool.rest (.inl r)).isSome := more.rest_isSome (by rw [hleft]; rfl)
  obtain ⟨before, hbefore⟩ := Option.isSome_iff_exists.1 hlive
  have hbegin : history.trace (.inl r) = [.did .freshConfig none, .did (.acquire .config) ()] := by
    have hstands := run.stands hfetch hbefore
    rw [hinside] at hstands
    generalize htrace : history.trace (.inl r) = trace at hstands
    cases hstands
    rfl
  have hwhole : History.trace (history ++ .stepped (.inl r) .freshConfig none :: during) (.inl r) =
      missed ++ during.trace (.inl r) := by
    rw [History.trace_append, hbegin]
    exact congrArg (_ ++ ·) (List.filterMap_cons_some (Event.act?_eq_did_iff.2 rfl))
  have hstands := (run.trans more).stands hfetch hleft
  rw [hfetching, hwhole] at hstands
  generalize htrace : missed ++ during.trace (.inl r) = trace at hstands
  cases hstands with
  | fetching hreaches =>
      obtain rfl := List.append_cancel_left htrace
      exact ⟨_, hreaches, rfl⟩

/-- A call has looked under the lock and found nothing, has fetched a configuration, and has stored
it. What it has done in between is a fetch that has ended with this configuration, and nobody has
stored or cleared one meanwhile. -/
inductive Refreshes (fetch : ρ → Call Query Answer NetworkConfig) (r : ρ)
    (config : NetworkConfig) : History Query Answer (ρ ⊕ κ) → Prop where
  | intro {during : History Query Answer (ρ ⊕ κ)}
      (hfetched : (fetch r).Ends (during.trace (.inl r)) (.ok config))
      (hunchanged : during.Unchanged) :
      Refreshes fetch r config (.stepped (.inl r) .freshConfig none ::
        (during ++ [.stepped (.inl r) (.storeConfig config) ()]))

/-- Whoever stores a configuration has refreshed the cache with it. -/
theorem Run.refreshes (hfetch : ∀ r, (fetch r).SparesConfig)
    (run : Run (.begin memory (cacheCalls fetch)) history pool) {i : ρ ⊕ κ}
    (step : Step pool (.stepped i (.storeConfig config) ()) later) :
    ∃ r before refresh, i = .inl r ∧
      history ++ [.stepped i (.storeConfig config) ()] = before ++ refresh ∧
      Refreshes fetch r config refresh := by
  obtain ⟨next, hrest⟩ := step.rest_of_stepped
  cases i with
  | inr k =>
      -- A call that clears the cache makes no other step.
      have honly : (cacheCalls fetch (.inr k) : Call Query Answer Unit).Only (· = .clearConfig) :=
        Call.only_access.2 fun _ => rfl
      cases honly.of_reaches (run.reaches hrest) ()
  | inl r =>
      have hstands := run.stands hfetch hrest
      obtain ⟨inner, hfetching, htrace, hfetched⟩ := hstands.of_store (hfetch r)
      have hlook : history.trace (.inl r) = [.did .freshConfig none, .did (.acquire .config) ()] ++
          .did .freshConfig none :: inner := htrace
      obtain ⟨before, event, during, rfl, hbefore, hevent, rfl⟩ := History.exists_of_trace hlook
      obtain rfl := Event.act?_eq_did_iff.1 hevent
      obtain ⟨first, hrun, more⟩ := run.split
      obtain ⟨program, hprogram⟩ :=
        Option.isSome_iff_exists.1 (more.rest_isSome (i := .inl r) (by rw [hrest]; rfl))
      have hinside : History.reading before (.inl r) = .inside := by
        have hstands := hrun.stands hfetch hprogram
        rw [hbefore] at hstands
        exact hstands.eq_inside
      have hlocking := Locking.of_run (cacheCalls_follow hfetch) hrun
      exact ⟨r, before, _, rfl, by simp,
        .intro hfetched (hlocking.unchanged_of_look hinside more hfetching)⟩

/-- What a call does next whose fetch has ended. It stores what was fetched; after an error it ends
with this error and leaves the cache as it was; or it is dropped. -/
inductive Concludes (r : ρ) (cache : ConfigCache) (last : Pool Query Answer (@Yield ρ κ)) :
    Except Error NetworkConfig → Event Query Answer (ρ ⊕ κ) → Prop where
  | stored {config : NetworkConfig}
      (hcache : last.memory.cache = cache.store config last.memory.clock) :
      Concludes r cache last (.ok config) (.stepped (.inl r) (.storeConfig config) ())
  | failed {cause : Error} (hcache : last.memory.cache = cache)
      (hended : last.rest (.inl r) = some (.done (.error cause))) :
      Concludes r cache last (.error cause) (.stepped (.inl r) (.release .config) ())
  | dropped {result : Except Error NetworkConfig} (hcache : last.memory.cache = cache) :
      Concludes r cache last result (.dropped (.inl r))

theorem Step.concludes {result : Except Error NetworkConfig} {event : Event Query Answer (ρ ⊕ κ)}
    (hrest : pool.rest (.inl r) = some (afterFetch result)) (step : Step pool event later)
    (hcaller : event.caller? = some (.inl r)) :
    Concludes r pool.memory.cache later result event := by
  cases step with
  | answered answer left =>
      cases hcaller
      cases result <;> cases hrest.symm.trans left
  | dropped =>
      cases hcaller
      exact .dropped rfl
  | passed => cases hcaller
  | stepped left admitted =>
      cases hcaller
      cases result with
      | ok config =>
          cases hrest.symm.trans left
          exact .stored rfl
      | error cause =>
          cases hrest.symm.trans left
          exact .failed rfl Pool.leave_rest_self

/-- What a call does next whose fetch has ended. -/
theorem Run.concludes (hfetch : ∀ r, (fetch r).SparesConfig)
    (run : Run (.begin memory (cacheCalls fetch)) history pool)
    (hinside : history.reading (.inl r) = .inside)
    (more : Run pool (.stepped (.inl r) .freshConfig none :: during) later)
    (hfetching : History.reading (history ++ .stepped (.inl r) .freshConfig none :: during)
      (.inl r) = .fetching) {result : Except Error NetworkConfig}
    (hended : (fetch r).Ends (during.trace (.inl r)) result)
    {event : Event Query Answer (ρ ⊕ κ)} {last : Pool Query Answer (@Yield ρ κ)}
    (step : Step later event last) (hcaller : event.caller? = some (.inl r)) :
    Concludes r later.memory.cache last result event := by
  obtain ⟨program, hleft⟩ := step.rest_of_caller hcaller
  obtain ⟨left, hreaches, rfl⟩ := run.reaches_of_look hfetch hinside more hfetching hleft
  obtain rfl := hreaches.eq_done hended
  exact step.concludes hleft hcaller

end

end ShardNet
