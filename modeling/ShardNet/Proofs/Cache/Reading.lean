-- SUMMARY: The stages of a call that reads the cached configuration, told by the history of a run.
import ShardNet.Network.Current
import ShardNet.Proofs.Discipline

/-!
# Reading the configuration

A call that reads the configuration looks into the cache, waits for the lock, looks again, and
fetches if it must. `Reading.next` follows it through these stages by its own steps, so that the
history of a run alone tells at which stage a call is. `Step.reads` says what a step of any call can
be at its stage.

The calls of a run are named by `ρ ⊕ κ`: the first read the configuration, each with a fetch of
its own, the others clear it.
-/

namespace ShardNet

/-- Where a call stands with the configuration. -/
inductive Reading where
  /-- Nothing has been done. -/
  | starting
  /-- The first look found nothing. -/
  | waiting
  /-- Under the lock, before the second look. -/
  | inside
  /-- The second look found nothing; the configuration is being fetched. -/
  | fetching
  /-- Under the lock, with a configuration that was found or stored. -/
  | leaving (config : NetworkConfig)
  | served (config : NetworkConfig)
  /-- The fetch failed, or the configuration was cleared, or the call was dropped. -/
  | ended
  deriving DecidableEq

namespace Reading

/-- The stage after a step of the call. -/
def next : Reading → (access : Access) → access.Reply → Reading
  | starting, .freshConfig, some config => served config
  | starting, .freshConfig, none => waiting
  | starting, .clearConfig, _ => ended
  | waiting, .acquire .config, _ => inside
  | inside, .freshConfig, some config => leaving config
  | inside, .freshConfig, none => fetching
  | fetching, .storeConfig config, _ => leaving config
  | fetching, .release .config, _ => ended
  | leaving config, .release .config, _ => served config
  | stage, _, _ => stage

/-- Whether the lock of the configuration is held. -/
def isLocked : Reading → Bool
  | inside | fetching | leaving _ => true
  | _ => false

/-- The configuration that has been found or stored. -/
def config? : Reading → Option NetworkConfig
  | leaving config | served config => some config
  | _ => none

/-- Questions are asked while the configuration is being fetched, and at no other stage. -/
inductive Asks {Query : Type} : Reading → Query → Reading → Prop where
  | fetching {query} : Asks .fetching query .fetching

/-- What is done at a stage. -/
inductive Steps : Reading → (access : Access) → access.Reply → Reading → Prop where
  | found {config} : Steps .starting .freshConfig (some config) (.served config)
  | missed : Steps .starting .freshConfig none .waiting
  | clear : Steps .starting .clearConfig () .ended
  | acquire : Steps .waiting (.acquire .config) () .inside
  | refreshed {config} : Steps .inside .freshConfig (some config) (.leaving config)
  | start : Steps .inside .freshConfig none .fetching
  | fetching {access reply} (hspares : access.guard? ≠ some .config) :
      Steps .fetching access reply .fetching
  | store {config} : Steps .fetching (.storeConfig config) () (.leaving config)
  | fail : Steps .fetching (.release .config) () .ended
  | release {config} : Steps (.leaving config) (.release .config) () (.served config)

def discipline (Query : Type) : Discipline Query Reading where
  asks := Asks
  steps := Steps

theorem Steps.next_eq {stage stage' : Reading} {access : Access} {reply : access.Reply}
    (hstep : Steps stage access reply stage') : stage.next access reply = stage' := by
  cases hstep with
  | fetching hspares =>
      cases access with
      | acquire lock | release lock =>
          cases lock with
          | config => exact absurd rfl hspares
          | sender => rfl
      | freshConfig | storeConfig | clearConfig => exact absurd rfl hspares
      | _ => rfl
  | _ => rfl

end Reading

/-! ## Calls -/

/-- A call that has nothing to do with the cached configuration. -/
abbrev Call.SparesConfig {Query Answer α : Type} (call : Call Query Answer α) : Prop :=
  call.Only fun access => access.guard? ≠ some .config

/-- How a call that reads the configuration ends. -/
def ReadingEnds (stage : Reading) : Except Error NetworkConfig → Prop
  | .ok config => stage = .served config
  | .error _ => stage = .ended

section

variable {Query Answer : Type}

theorem currentConfig_follows {fetch : Call Query Answer NetworkConfig}
    (hfetch : fetch.SparesConfig) :
    (currentConfig fetch).Follows (Reading.discipline Query) ReadingEnds .starting := by
  refine Call.follows_bind.2 (Call.follows_access.2 fun
    | some config => ⟨.served config, .found, rfl⟩
    | none => ⟨.waiting, .missed, ?_⟩)
  refine Call.follows_holding.2 ⟨.inside, .acquire, ?_⟩
  refine Call.follows_bind.2 (Call.follows_access.2 fun
    | some config => ⟨.leaving config, .refreshed, .served config, .release, rfl⟩
    | none => ⟨.fetching, .start, ?_⟩)
  have hfollows :
      fetch.Follows (Reading.discipline Query) (fun stage _ => stage = .fetching) .fetching :=
    hfetch.follows (fun _ => .fetching) fun _ _ => .fetching
  refine Call.follows_bind.2 (hfollows.mono fun stage result hstage => ?_)
  subst hstage
  cases result with
  | error cause => exact ⟨.ended, .fail, rfl⟩
  | ok config =>
      refine Call.follows_bind.2 (Call.follows_access.2 fun _ => ⟨.leaving config, .store, ?_⟩)
      exact ⟨.served config, .release, rfl⟩

theorem clearConfig_follows :
    (Call.access .clearConfig : Call Query Answer Unit).Follows (Reading.discipline Query)
      (fun stage _ => stage = .ended) .starting :=
  Call.follows_access.2 fun _ => ⟨.ended, .clear, rfl⟩

end

variable {Query Answer ρ κ : Type}

/-- A call that reads ends with a configuration, one that clears with nothing. -/
abbrev Yield : ρ ⊕ κ → Type
  | .inl _ => NetworkConfig
  | .inr _ => Unit

/-- Calls that read the configuration, and calls that clear it. -/
def cacheCalls (fetch : ρ → Call Query Answer NetworkConfig) :
    (i : ρ ⊕ κ) → Call Query Answer (Yield i)
  | .inl r => currentConfig (fetch r)
  | .inr _ => Call.access .clearConfig

/-- How a call ends. -/
def CacheEnds : (i : ρ ⊕ κ) → Reading → Except Error (Yield i) → Prop
  | .inl _ => ReadingEnds
  | .inr _ => fun stage _ => stage = .ended

theorem cacheCalls_follow {fetch : ρ → Call Query Answer NetworkConfig}
    (hfetch : ∀ r, (fetch r).SparesConfig) (i : ρ ⊕ κ) :
    (cacheCalls fetch i).Follows (Reading.discipline Query) (CacheEnds i) .starting := by
  cases i with
  | inl r => exact currentConfig_follows (hfetch r)
  | inr k => exact clearConfig_follows

/-! ## Histories -/

section

variable {ι : Type} [DecidableEq ι] {α : ι → Type}

/-- The stage of a call after an event. -/
def Reading.after (i : ι) (stage : Reading) : Event Query Answer ι → Reading
  | .stepped j access reply => if j = i then stage.next access reply else stage
  | .dropped j => if j = i then .ended else stage
  | _ => stage

theorem Reading.after_of_ne {i : ι} {stage : Reading} {event : Event Query Answer ι}
    (hother : event.caller? ≠ some i) : stage.after i event = stage := by
  cases event with
  | stepped | dropped => exact if_neg fun hsame => hother (congrArg some hsame)
  | answered | passed => rfl

/-- The stage of a call, by what has happened. -/
def History.reading (history : History Query Answer ι) (i : ι) : Reading :=
  history.foldl (Reading.after i) .starting

@[simp] theorem History.reading_snoc (history : History Query Answer ι)
    (event : Event Query Answer ι) (i : ι) :
    reading (history ++ [event]) i = (history.reading i).after i event := by
  simp [reading]

/-- What an event is at the stage of its call. -/
inductive Reads (history : History Query Answer ι) : Event Query Answer ι → Prop where
  | answered {i query answer} (hfetching : history.reading i = .fetching) :
      Reads history (.answered i query answer)
  | stepped {i access reply stage'}
      (hstep : Reading.Steps (history.reading i) access reply stage') :
      Reads history (.stepped i access reply)
  | dropped {i} : Reads history (.dropped i)
  | passed {time} : Reads history (.passed time)

variable {history : History Query Answer ι} {pool later : Pool Query Answer α}
  {event : Event Query Answer ι} {ends : (i : ι) → Reading → Except Error (α i) → Prop}

/-- The stages that the history tells are those that the calls keep to. -/
theorem Step.reads (step : Step pool event later)
    (hkeeps : pool.Keeps (fun _ => Reading.discipline Query) ends history.reading) :
    Reads history event ∧
      later.Keeps (fun _ => Reading.discipline Query) ends
        (History.reading (history ++ [event])) := by
  obtain ⟨stage', hmoves, hlater⟩ := step.keeps hkeeps
  cases hmoves with
  | @answered i query answer reached hasks =>
      have hfetching : history.reading i = .fetching ∧ reached = history.reading i := by
        generalize history.reading i = stage at hasks
        cases hasks
        exact ⟨rfl, rfl⟩
      refine ⟨.answered hfetching.1, ?_⟩
      rw [hfetching.2, Function.update_eq_self] at hlater
      intro j program hprogram
      rw [History.reading_snoc]
      exact hlater j program hprogram
  | @stepped i access reply reached hsteps =>
      refine ⟨.stepped hsteps, ?_⟩
      intro j program hprogram
      have hfollows := hlater j program hprogram
      rw [History.reading_snoc, Reading.after]
      split
      · rename_i hij
        subst hij
        rw [Function.update_self] at hfollows
        rwa [hsteps.next_eq]
      · rename_i hij
        rwa [Function.update_of_ne (Ne.symm hij)] at hfollows
  | @dropped i =>
      refine ⟨.dropped, ?_⟩
      intro j program hprogram
      rw [History.reading_snoc, Reading.after]
      split
      · rename_i hij
        subst hij
        cases step
        simp [Pool.afterDrop] at hprogram
      · exact hlater j program hprogram
  | passed =>
      refine ⟨.passed, ?_⟩
      intro j program hprogram
      rw [History.reading_snoc]
      exact hlater j program hprogram

end

end ShardNet
