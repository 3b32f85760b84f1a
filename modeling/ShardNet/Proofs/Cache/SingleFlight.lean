-- SUMMARY: The configuration is fetched by one call at a time, and not again while what was fetched is fresh.
import ShardNet.Proofs.Cache.Fresh

/-!
# Single flight

However many calls read the configuration at once, one of them at most is fetching it. While a
configuration is fresh and not cleared no fetch begins, and every call that ends in that time ends
with this configuration: those that queued for the lock find it at their second look. A fetch that
ends with an error, or is dropped, leaves the cache as it was.

The invariant of `Window` holds from the moment a configuration is stored until it expires or is
cleared.
-/

namespace ShardNet

/-- A configuration is found while it is not too old. -/
theorem ConfigCache.fresh?_of_entry {cache : ConfigCache} {now stored : Moment}
    {config : NetworkConfig} (hentry : cache.entry = some (config, stored))
    (hle : now - stored ≤ cache.expiry) :
    cache.fresh? now = some config := by
  simp [fresh?, hentry, hle]

namespace Reading

variable {stage stage' : Reading} {access : Access} {reply : access.Reply}

/-- While a configuration is fresh, a step of a call that is not fetching leads to no fetch. It
leaves the cache alone unless it clears it, and the call comes to no other configuration. -/
theorem Steps.of_fresh {memory : Memory} {config : NetworkConfig}
    (hstep : Steps stage access (access.apply memory).1 stage') (hidle : stage ≠ .fetching)
    (hfresh : memory.cache.fresh? memory.clock = some config) (hclears : ¬ access.clears) :
    stage' ≠ .fetching ∧ ¬ access.stores ∧ (access.apply memory).2.cache = memory.cache ∧
      ∀ other, stage'.config? = some other →
        other = config ∨ stage.config? = some other := by
  generalize hreply : (access.apply memory).1 = reply at hstep
  cases hstep with
  | found | refreshed =>
      refine ⟨nofun, nofun, rfl, fun other hother => .inl ?_⟩
      cases hother
      exact Option.some.inj (hreply.symm.trans hfresh)
  | missed | start => cases hreply.symm.trans hfresh
  | clear => exact absurd rfl hclears
  | acquire => exact ⟨nofun, nofun, rfl, nofun⟩
  | fetching | store | fail => exact absurd rfl hidle
  | release =>
      exact ⟨nofun, nofun, rfl, fun other hother => .inr hother⟩

end Reading

section

variable {Query Answer ι : Type} {α : ι → Type} [DecidableEq ι]
  {ends : (i : ι) → Reading → Except Error (α i) → Prop} {expiry : Duration}
  {history : History Query Answer ι} {pool later : Pool Query Answer α}
  {event : Event Query Answer ι} {i j : ι} {config : NetworkConfig}

/-! ## After a store -/

/-- What holds in the time `since` a configuration was stored, as long as it is fresh and not
cleared. The history up to the store is `stored`. -/
structure Window (ends : (i : ι) → Reading → Except Error (α i) → Prop) (expiry : Duration)
    (config : NetworkConfig) (stored since : History Query Answer ι) (pool : Pool Query Answer α) :
    Prop where
  locking : Locking ends (stored ++ since) pool
  expires : pool.memory.cache.expiry = expiry
  entered : ∃ moment, pool.memory.cache.entry = some (config, moment) ∧
    pool.memory.clock = moment + since.elapsed
  idle : ∀ i, History.reading (stored ++ since) i ≠ .fetching
  quiet : ∀ event ∈ since, ¬ event.stores
  /-- No call comes to another configuration than the one stored. -/
  served : ∀ {i other}, (History.reading (stored ++ since) i).config? = some other →
    other = config ∨ stored.reading i = .served other

namespace Window

variable {stored since : History Query Answer ι} {storer : ι}

/-- The window opens with the store. -/
theorem opened (h : Locking ends history pool) (hexpires : pool.memory.cache.expiry = expiry)
    (step : Step pool (.stepped storer (.storeConfig config) ()) later) :
    Window ends expiry config (history ++ [.stepped storer (.storeConfig config) ()]) [] later := by
  have hlocking := h.step step
  have hfetching : history.reading storer = .fetching := by
    cases (step.reads h.keeps).1 with
    | stepped hstep =>
        generalize history.reading storer = stage at hstep
        cases hstep with
        | fetching => rfl
        | store => rfl
  have hleaving : History.reading (history ++ [.stepped storer (.storeConfig config) ()]) storer =
      .leaving config := by
    rw [History.reading_snoc, hfetching]
    simp [Reading.after, Reading.next]
  have hothers :
      ∀ {i}, (History.reading (history ++ [.stepped storer (.storeConfig config) ()]) i).isLocked →
      i = storer := fun hlocked => hlocking.eq_of_locked hlocked (by rw [hleaving]; rfl)
  refine ⟨by rwa [List.append_nil], (Run.single step).expiry_eq.trans hexpires, ?_, ?_,
    fun _ hmem => absurd hmem List.not_mem_nil, ?_⟩
  · cases step with
    | stepped left admitted => exact ⟨pool.memory.clock, rfl, rfl⟩
  · intro i hi
    rw [List.append_nil] at hi
    obtain rfl : i = storer := hothers (by rw [hi]; rfl)
    cases hleaving.symm.trans hi
  · intro i other hother
    rw [List.append_nil] at hother
    cases hreading : History.reading (history ++ [.stepped storer (.storeConfig config) ()]) i with
    | served found =>
        rw [hreading] at hother
        cases hother
        exact .inr rfl
    | leaving found =>
        obtain rfl : i = storer := hothers (by rw [hreading]; rfl)
        rw [hleaving] at hother
        cases hother
        exact .inl rfl
    | starting | waiting | inside | fetching | ended =>
        rw [hreading] at hother
        cases hother

/-- The configuration is found in the time after the store. -/
theorem fresh (h : Window ends expiry config stored since pool) (hfresh : since.elapsed ≤ expiry) :
    pool.memory.cache.fresh? pool.memory.clock = some config := by
  obtain ⟨moment, hentry, hclock⟩ := h.entered
  refine ConfigCache.fresh?_of_entry hentry ?_
  rwa [hclock, Nat.add_sub_cancel_left, h.expires]

theorem quiet_snoc (h : Window ends expiry config stored since pool) (hstores : ¬ event.stores) :
    ∀ other ∈ since ++ [event], ¬ other.stores := by
  intro other hother
  rcases List.mem_append.1 hother with hother | hother
  · exact h.quiet other hother
  · rw [List.mem_singleton.1 hother]
    exact hstores

/-- An event of no call that is fetching, and that does not clear the cache, keeps the window
open. -/
theorem step (h : Window ends expiry config stored since pool) (step : Step pool event later)
    (hclears : ¬ event.clears) (hfresh : since.elapsed ≤ expiry) :
    Window ends expiry config stored (since ++ [event]) later := by
  have hlocking : Locking ends (stored ++ (since ++ [event])) later := by
    rw [← List.append_assoc]
    exact h.locking.step step
  have hexpires := (Run.single step).expiry_eq.trans h.expires
  have hreading : ∀ i, History.reading (stored ++ (since ++ [event])) i =
      (History.reading (stored ++ since) i).after i event := by
    intro i
    rw [← List.append_assoc, History.reading_snoc]
  have hreads := (step.reads h.locking.keeps).1
  cases step with
  | @answered j query next answer left =>
      cases hreads with
      | answered hfetching => exact absurd hfetching (h.idle j)
  | passed time =>
      refine ⟨hlocking, hexpires, ?_, ?_, h.quiet_snoc nofun, ?_⟩
      · obtain ⟨moment, hentry, hclock⟩ := h.entered
        refine ⟨moment, hentry, ?_⟩
        show pool.memory.clock + time = moment + History.elapsed (since ++ [.passed time])
        rw [hclock, History.elapsed_snoc, Nat.add_assoc]
        rfl
      · intro i
        rw [hreading]
        exact h.idle i
      · intro i other hother
        rw [hreading] at hother
        exact h.served hother
  | @dropped j program left unfinished =>
      refine ⟨hlocking, hexpires, ?_, ?_, h.quiet_snoc nofun, ?_⟩
      · obtain ⟨moment, hentry, hclock⟩ := h.entered
        exact ⟨moment, hentry, by rw [History.elapsed_snoc]; exact hclock⟩
      · intro i hi
        rw [hreading, Reading.after] at hi
        split at hi
        · cases hi
        · exact h.idle i hi
      · intro i other hother
        rw [hreading, Reading.after] at hother
        split at hother
        · cases hother
        · exact h.served hother
  | @stepped j access next left admitted =>
      cases hreads with
      | @stepped _ _ _ reached hstep =>
          obtain ⟨hidle, hstores, hcache, hserved⟩ :=
            hstep.of_fresh (h.idle j) (h.fresh hfresh) hclears
          refine ⟨hlocking, hexpires, ?_, ?_, h.quiet_snoc hstores, ?_⟩
          · obtain ⟨moment, hentry, hclock⟩ := h.entered
            refine ⟨moment, hcache ▸ hentry, ?_⟩
            rw [History.elapsed_snoc]
            exact (access.apply_clock pool.memory).trans hclock
          · intro i hi
            rw [hreading, Reading.after] at hi
            split at hi
            · rename_i hji
              subst hji
              exact hidle (hstep.next_eq.symm.trans hi)
            · exact h.idle i hi
          · intro i other hother
            rw [hreading, Reading.after] at hother
            split at hother
            · rename_i hji
              subst hji
              rw [hstep.next_eq] at hother
              obtain hsame | hbefore := hserved other hother
              · exact .inl hsame
              · exact h.served hbefore
            · exact h.served hother

/-- The window stays open until time has run out or the cache is cleared. -/
theorem of_run {first : Pool Query Answer α} (h : Window ends expiry config stored [] first)
    (run : Run first since pool) (hclears : ∀ event ∈ since, ¬ event.clears)
    (hfresh : since.elapsed ≤ expiry) : Window ends expiry config stored since pool := by
  induction run with
  | nil => exact h
  | @snoc since pool event later run step ih =>
      have hle : since.elapsed ≤ expiry := by
        rw [History.elapsed_snoc] at hfresh
        exact Nat.le_trans (Nat.le_add_right ..) hfresh
      have hopen := ih (fun other hother => hclears other (List.mem_append_left _ hother)) hle
      exact hopen.step step (hclears event (by simp)) hle

variable {calls : (i : ι) → Call Query Answer (α i)} {clock : Moment} {nonces : NonceBook}

/-- The window of a store in a run from an empty cache. -/
theorem of_stored (hfollows : ∀ i, (calls i).Follows (Reading.discipline Query) (ends i) .starting)
    (run : Run (.begin ⟨clock, ⟨expiry, none⟩, nonces⟩ calls)
      (history ++ [.stepped storer (.storeConfig config) ()]) pool)
    (more : Run pool since later) (hclears : ∀ event ∈ since, ¬ event.clears)
    (hfresh : since.elapsed ≤ expiry) :
    Window ends expiry config (history ++ [.stepped storer (.storeConfig config) ()])
      since later := by
  obtain ⟨earlier, hearlier, store⟩ := run.unsnoc
  exact (opened (.of_run hfollows hearlier) hearlier.expiry_eq store).of_run more hclears hfresh

/-- A look finds nothing only after the window of a store. -/
theorem closed_of_missed
    (hfollows : ∀ i, (calls i).Follows (Reading.discipline Query) (ends i) .starting)
    (run : Run (.begin ⟨clock, ⟨expiry, none⟩, nonces⟩ calls)
      (history ++ .stepped storer (.storeConfig config) () :: since) pool)
    (look : Step pool (.stepped i .freshConfig none) later) :
    expiry < since.elapsed ∨ ∃ event ∈ since, event.clears := by
  by_contra hneither
  simp only [not_or, Nat.not_lt, not_exists, not_and] at hneither
  obtain ⟨hfresh, hclears⟩ := hneither
  rw [List.append_cons] at run
  obtain ⟨middle, hstored, hsince⟩ := run.split
  have hfound := (of_stored hfollows hstored hsince hclears hfresh).fresh hfresh
  -- The look would have found the configuration.
  cases look.of_stepped.2.1.trans hfound

end Window

/-! ## Single flight -/

section

variable {ρ κ : Type} [DecidableEq ρ] [DecidableEq κ]

/-- A call that has come to a configuration and was not dropped has succeeded. -/
theorem Run.succeeded {fetch : ρ → Call Query Answer NetworkConfig}
    (hfetch : ∀ r, (fetch r).SparesConfig) {memory : Memory}
    {history : History Query Answer (ρ ⊕ κ)} {pool : Pool Query Answer (@Yield ρ κ)}
    (run : Run (.begin memory (cacheCalls fetch)) history pool) {r : ρ}
    (hserved : history.reading (.inl r) = .served config) (hrest : (pool.rest (.inl r)).isSome) :
    pool.succeeded (.inl r) := by
  obtain ⟨program, hprogram⟩ := Option.isSome_iff_exists.1 hrest
  have hstands := run.stands hfetch hprogram
  rw [hserved] at hstands
  generalize history.trace (.inl r) = trace at hstands
  cases hstands with
  | found | released => exact Pool.succeeded_iff.2 ⟨config, hprogram⟩

/-- In every run of calls that read or clear the configuration, from an empty cache:

* questions are asked by a call that is fetching, and no two calls are fetching at once;
* a configuration is stored only at the end of a fetch that has ended with it;
* when a fetch begins after a configuration was stored, more than `expiry` has passed since then, or
  the cache was cleared;
* while a call is fetching the cache is as it was when the fetch began, and so it is after the call
  was dropped; a call whose fetch has ended stores the configuration, or ends with the error and
  leaves the cache as it was, or is dropped and leaves it so too;
* while a stored configuration is fresh and not cleared no other is stored, and every call that had
  not succeeded before and succeeds by then ends with this one. -/
theorem currentConfig_single_flight {fetch : ρ → Call Query Answer NetworkConfig}
    (hfetch : ∀ r, (fetch r).SparesConfig) (clock : Moment) (expiry : Duration)
    (nonces : NonceBook) :
    let first : Pool Query Answer (@Yield ρ κ) :=
      .begin ⟨clock, ⟨expiry, none⟩, nonces⟩ (cacheCalls fetch)
    (∀ {history pool later i query answer}, Run first history pool →
      Step pool (.answered i query answer) later → history.reading i = .fetching) ∧
    (∀ {history pool i j}, Run first history pool →
      history.reading i = .fetching → history.reading j = .fetching → i = j) ∧
    (∀ {history pool i config later}, Run first history pool →
      Step pool (.stepped i (.storeConfig config) ()) later →
      ∃ r before refresh, i = .inl r ∧
        history ++ [.stepped i (.storeConfig config) ()] = before ++ refresh ∧
        Refreshes fetch r config refresh) ∧
    (∀ {before storer config since pool i later},
      Run first (before ++ .stepped storer (.storeConfig config) () :: since) pool →
      Step pool (.stepped i .freshConfig none) later →
      History.reading (before ++ .stepped storer (.storeConfig config) () :: since) i = .inside →
      expiry < History.elapsed since ∨ ∃ event ∈ since, event.clears) ∧
    (∀ {before pool r during pool'}, Run first before pool →
      before.reading (.inl r) = .inside →
      Run pool (.stepped (.inl r) .freshConfig none :: during) pool' →
      History.reading (before ++ .stepped (.inl r) .freshConfig none :: during) (.inl r) =
        .fetching →
      pool'.memory.cache = pool.memory.cache ∧
      ∀ {event last}, Step pool' event last → event.caller? = some (.inl r) →
        (event = .dropped (.inl r) → last.memory.cache = pool.memory.cache) ∧
        ∀ {result}, (fetch r).Ends (History.trace during (.inl r)) result →
          Concludes r pool.memory.cache last result event) ∧
    ∀ {before storer config pool since pool'},
      Run first (before ++ [.stepped storer (.storeConfig config) ()]) pool → Run pool since pool' →
      (∀ event ∈ since, ¬ event.clears) → History.elapsed since ≤ expiry →
      (∀ event ∈ since, ¬ event.stores) ∧
      ∀ {r other}, ¬ pool.succeeded (.inl r) → pool'.rest (.inl r) = some (.done (.ok other)) →
        other = config := by
  intro first
  have hfollows := cacheCalls_follow (κ := κ) hfetch
  have hlocking : ∀ {history pool}, Run first history pool → Locking CacheEnds history pool :=
    fun run => .of_run hfollows run
  refine ⟨?_, ?_, ?_, ?_, ?_, ?_⟩
  · intro history pool later i query answer run step
    cases (step.reads (hlocking run).keeps).1 with
    | answered hfetching => exact hfetching
  · intro history pool i j run hi hj
    exact (hlocking run).eq_of_locked (by rw [hi]; rfl) (by rw [hj]; rfl)
  · intro history pool i config later run store
    exact run.refreshes hfetch store
  · intro before storer config since pool i later run look hinside
    exact Window.closed_of_missed hfollows run look
  · intro before pool r during pool' run hinside more hfetching
    have hunchanged := (hlocking run).unchanged_of_look hinside more hfetching
    have hcache : pool'.memory.cache = pool.memory.cache := by
      obtain ⟨_, look, hduring⟩ := more.uncons
      exact (hduring.cache_eq hunchanged).trans (look.cache_eq nofun nofun)
    refine ⟨hcache, fun {event last} step hcaller => ⟨?_, fun {result} hended => ?_⟩⟩
    · rintro rfl
      exact (step.cache_eq nofun nofun).trans hcache
    · rw [← hcache]
      exact run.concludes hfetch hinside more hfetching hended step hcaller
  · intro before storer config pool since pool' run more hclears hfresh
    have hopen := Window.of_stored hfollows run more hclears hfresh
    refine ⟨hopen.quiet, fun {r other} hunfinished hended => ?_⟩
    have hserved : History.reading (before ++ [.stepped storer (.storeConfig config) ()] ++ since)
        (.inl r) = .served other := hopen.locking.keeps (.inl r) _ hended
    obtain hsame | hearlier := hopen.served (by rw [hserved]; rfl)
    · exact hsame
    · have hrest : (pool.rest (.inl r)).isSome := more.rest_isSome (by rw [hended]; rfl)
      exact absurd (run.succeeded hfetch hearlier hrest) hunfinished

end

end

/-! ### A queue behind a fetch that is dropped -/

namespace Queue

open LastMoment

/-- All three calls find nothing. The first one is dropped while it fetches, the second one
fetches. -/
def before : List (Choice Answer (Fin 3 ⊕ Empty)) :=
  [.step (.inl 0), .step (.inl 1), .step (.inl 2), .step (.inl 0), .step (.inl 0), .drop (.inl 0),
    .step (.inl 1), .step (.inl 1), .answer (.inl 1) answer]

/-- The third call gets the lock when the configuration is as old as it may be. -/
def after : List (Choice Answer (Fin 3 ⊕ Empty)) :=
  [.step (.inl 1), .wait client.cacheExpiry, .step (.inl 2), .step (.inl 2), .step (.inl 2)]

end Queue

open LastMoment Queue in
/-- The third call has waited for the lock, and ends with what the second one stored. -/
theorem currentConfig_single_flight_queue :
    ∃ history storer config pool since pool',
      Run (start (Fin 3) Empty) (history ++ [.stepped storer (.storeConfig config) ()]) pool ∧
      Run pool since pool' ∧ since.elapsed = client.cacheExpiry ∧ ¬ pool.succeeded (.inl 2) ∧
      pool'.rest (.inl 2) = some (.done (.ok config)) := by
  have hall : ((start (Fin 3) Empty).follow? before).any fun (_, middle) =>
      (middle.next? (.step (.inl 1))).any fun (event, pool) =>
        event.stores ∧ ¬ pool.succeeded (.inl 2) ∧ (pool.follow? after).any fun (since, pool') =>
          since.elapsed = client.cacheExpiry ∧ (∀ event ∈ since, ¬ event.clears) ∧
            pool'.succeeded (.inl 2) := by
    decide +kernel
  obtain ⟨⟨history, middle⟩, hbefore, hall⟩ := (Option.any_eq_true ..).1 hall
  obtain ⟨⟨event, pool⟩, hnext, hall⟩ := (Option.any_eq_true ..).1 hall
  obtain ⟨hstores, hunfinished, hall⟩ := of_decide_eq_true hall
  obtain ⟨⟨since, pool'⟩, hafter, hall⟩ := (Option.any_eq_true ..).1 hall
  obtain ⟨helapsed, hclears, hsucceeded⟩ := of_decide_eq_true hall
  obtain ⟨storer, config, rfl⟩ := Event.eq_of_stores hstores
  obtain ⟨other, hended⟩ := Pool.succeeded_iff.1 hsucceeded
  have run := (Run.of_follow? hbefore).snoc (step_iff_next?.2 ⟨_, hnext⟩)
  have more := Run.of_follow? hafter
  obtain ⟨-, -, -, -, -, hsingle⟩ :=
    currentConfig_single_flight (ρ := Fin 3) (κ := Empty) (fun _ => fetch_sparesConfig) 0
      client.cacheExpiry .empty
  obtain rfl : other = config :=
    (hsingle run more hclears (Nat.le_of_eq helapsed)).2 hunfinished hended
  exact ⟨history, storer, other, pool, since, pool', run, more, helapsed, hunfinished, hended⟩

end ShardNet
