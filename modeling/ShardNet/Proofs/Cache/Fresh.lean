-- SUMMARY: A configuration that a call ends with was fetched and stored last, not long ago, and not cleared since.
import ShardNet.Proofs.Cache.Fetching
import ShardNet.Proofs.Client.Footprint

/-!
# Freshness of the configuration

`currentConfig_fresh` is about every run of calls that read the configuration and calls that clear
it, from an empty cache: whatever a call ends with, it has fetched and stored itself, or it has
found it in the cache when it was the last one that was fetched and stored, no older than the
expiry, and not cleared in between.

The invariant ties the cache to the history: its entry comes of a refresh by some call, and no event
since then has stored another or cleared it.
-/

namespace ShardNet

section

variable {Query Answer ρ κ : Type} [DecidableEq ρ] [DecidableEq κ]

/-- A configuration has been fetched and stored by some call, and the cache has not changed in the
time since. -/
def History.Kept (fetch : ρ → Call Query Answer NetworkConfig)
    (history : History Query Answer (ρ ⊕ κ)) (config : NetworkConfig) (since : Duration) : Prop :=
  ∃ (before : History Query Answer (ρ ⊕ κ)) (storer : ρ)
    (refresh between : History Query Answer (ρ ⊕ κ)),
    history = before ++ (refresh ++ between) ∧ Refreshes fetch storer config refresh ∧
      between.Unchanged ∧ between.elapsed = since

/-- How a call has come by a configuration. -/
inductive Obtains (fetch : ρ → Call Query Answer NetworkConfig) (expiry : Duration)
    (history : History Query Answer (ρ ⊕ κ)) (r : ρ) (config : NetworkConfig) : Prop where
  /-- It has fetched and stored the configuration. -/
  | fetched (before refresh after : History Query Answer (ρ ⊕ κ))
      (hsplit : history = before ++ (refresh ++ after))
      (hrefresh : Refreshes fetch r config refresh)
  /-- It has looked and found the configuration that was fetched and stored last, soon enough and
  not cleared. -/
  | found (before refresh between after : History Query Answer (ρ ⊕ κ)) (storer : ρ)
      (hsplit : history = before ++
        (refresh ++ (between ++ [.stepped (.inl r) .freshConfig (some config)]) ++ after))
      (hrefresh : Refreshes fetch storer config refresh) (hunchanged : between.Unchanged)
      (hfresh : between.elapsed ≤ expiry)

variable {fetch : ρ → Call Query Answer NetworkConfig} {history : History Query Answer (ρ ⊕ κ)}
  {event : Event Query Answer (ρ ⊕ κ)} {config : NetworkConfig} {since expiry : Duration}

theorem History.Kept.snoc (h : history.Kept fetch config since) (hstores : ¬ event.stores)
    (hclears : ¬ event.clears) :
    Kept fetch (history ++ [event]) config (since + event.duration) := by
  obtain ⟨before, storer, refresh, between, rfl, hrefresh, hunchanged, rfl⟩ := h
  exact ⟨before, storer, refresh, between ++ [event], by simp, hrefresh,
    hunchanged.snoc hstores hclears, elapsed_snoc⟩

end

/-! ## The entry of the cache -/

theorem Access.apply_clock (access : Access) (memory : Memory) :
    (access.apply memory).2.clock = memory.clock := by
  cases access <;> rfl

theorem Access.apply_expiry (access : Access) (memory : Memory) :
    (access.apply memory).2.cache.expiry = memory.cache.expiry := by
  cases access <;> rfl

theorem Run.expiry_eq {Query Answer ι : Type} {α : ι → Type} [DecidableEq ι]
    {first pool : Pool Query Answer α} {history : History Query Answer ι}
    (run : Run first history pool) : pool.memory.cache.expiry = first.memory.cache.expiry := by
  induction run with
  | nil => rfl
  | snoc _ step ih =>
      cases step with
      | answered | dropped | passed => exact ih
      | @stepped i access next left admitted => exact (access.apply_expiry _).trans ih

section

variable {Query Answer ρ κ : Type} [DecidableEq ρ] [DecidableEq κ]
  {fetch : ρ → Call Query Answer NetworkConfig} {history : History Query Answer (ρ ⊕ κ)}
  {pool later : Pool Query Answer (@Yield ρ κ)} {clock : Moment} {expiry : Duration}
  {nonces : NonceBook} {r : ρ} {config : NetworkConfig}

/-- The entry of the cache has been kept since the moment that it tells. -/
theorem Run.kept (hfetch : ∀ r, (fetch r).SparesConfig)
    (run : Run (.begin ⟨clock, ⟨expiry, none⟩, nonces⟩ (cacheCalls fetch)) history pool)
    {stored : Moment} (hentry : pool.memory.cache.entry = some (config, stored)) :
    ∃ since, pool.memory.clock = stored + since ∧ history.Kept fetch config since := by
  induction run with
  | nil => cases hentry
  | @snoc history pool event later run step ih =>
      cases step with
      | answered | dropped =>
          obtain ⟨since, hclock, hkept⟩ := ih hentry
          exact ⟨since, hclock, hkept.snoc nofun nofun⟩
      | passed time =>
          obtain ⟨since, hclock, hkept⟩ := ih hentry
          refine ⟨since + time, ?_, hkept.snoc nofun nofun⟩
          show pool.memory.clock + time = stored + (since + time)
          rw [hclock, Nat.add_assoc]
      | @stepped i access next left admitted =>
          have hclock : (pool.afterStep i access next).memory.clock = pool.memory.clock :=
            access.apply_clock pool.memory
          obtain ⟨found, rfl⟩ | rfl | ⟨hcache, hstores, hclears⟩ := access.apply_cache pool.memory
          · cases hentry
            obtain ⟨storer, before, refresh, rfl, hsplit, hrefresh⟩ :=
              run.refreshes hfetch (.stepped left admitted)
            exact ⟨0, hclock, before, storer, refresh, [], by rw [List.append_nil]; exact hsplit,
              hrefresh, nofun, rfl⟩
          · cases hentry
          · obtain ⟨since, hsince, hkept⟩ := ih (hcache ▸ hentry)
            exact ⟨since, hclock.trans hsince, hkept.snoc hstores hclears⟩

end

/-! ## What calls end with -/

section

/-- One place of a list and some part of it: the place comes before the part, is in it, or comes
after it. -/
theorem places {α : Type} {before after front middle back : List α} {x : α}
    (hsame : before ++ x :: after = front ++ (middle ++ back)) :
    (∃ m, front = before ++ x :: m ∧ after = m ++ (middle ++ back)) ∨ x ∈ middle ∨
      ∃ m, before = front ++ (middle ++ m) ∧ back = m ++ x :: after := by
  have hpart : ∀ {m}, middle ++ back = m ++ x :: after →
      x ∈ middle ∨ ∃ m', m = middle ++ m' ∧ back = m' ++ x :: after := by
    intro m hrest
    obtain ⟨m', rfl, hback⟩ | ⟨m', rfl, hback⟩ := List.append_eq_append_iff.1 hrest
    · exact .inr ⟨m', rfl, hback⟩
    · obtain ⟨rfl, hback⟩ | ⟨m', rfl, -⟩ := List.cons_eq_append_iff.1 hback
      · exact .inr ⟨[], by simp, hback.symm⟩
      · exact .inl (by simp)
  obtain ⟨m, rfl, hrest⟩ | ⟨m, rfl, hrest⟩ := List.append_eq_append_iff.1 hsame
  · obtain ⟨rfl, hrest⟩ | ⟨m, rfl, hafter⟩ := List.cons_eq_append_iff.1 hrest
    · obtain hmem | ⟨m, hnil, hback⟩ := hpart (m := []) hrest.symm
      · exact .inr (.inl hmem)
      · exact .inr (.inr ⟨m, by rw [← hnil, List.append_nil, List.append_nil], hback⟩)
    · exact .inl ⟨m, rfl, hafter⟩
  · obtain hmem | ⟨m, rfl, hback⟩ := hpart hrest
    · exact .inr (.inl hmem)
    · exact .inr (.inr ⟨m, rfl, hback⟩)

variable {Query Answer ρ κ : Type} [DecidableEq ρ] [DecidableEq κ]
  {fetch : ρ → Call Query Answer NetworkConfig} {before after : History Query Answer (ρ ⊕ κ)}
  {event : Event Query Answer (ρ ⊕ κ)} {expiry : Duration} {r : ρ} {config : NetworkConfig}

theorem Refreshes.not_clears {refresh : History Query Answer (ρ ⊕ κ)}
    (h : Refreshes fetch r config refresh) (hmem : event ∈ refresh) : ¬ event.clears := by
  cases h with
  | intro _ hunchanged =>
      simp only [List.mem_cons, List.mem_append, List.not_mem_nil, or_false] at hmem
      obtain rfl | hmem | rfl := hmem
      · nofun
      · exact (hunchanged event hmem).2
      · nofun

/-- What a call has come by that began after the cache was emptied, it has come by since then. -/
theorem Obtains.since (h : Obtains fetch expiry (before ++ event :: after) r config)
    (hclears : event.clears) (hbegins : ∀ earlier ∈ before, earlier.caller? ≠ some (.inl r)) :
    Obtains fetch expiry after r config := by
  cases h with
  | fetched front refresh back hsplit hrefresh =>
      obtain ⟨m, -, rfl⟩ | hmem | ⟨m, rfl, -⟩ := places hsplit
      · exact .fetched m refresh back rfl hrefresh
      · exact absurd hclears (hrefresh.not_clears hmem)
      · obtain ⟨-, -⟩ := hrefresh
        exact absurd rfl (hbegins (.stepped (.inl r) .freshConfig none) (by simp))
  | found front refresh between back storer hsplit hrefresh hunchanged hfresh =>
      obtain ⟨m, -, rfl⟩ | hmem | ⟨m, rfl, -⟩ := places hsplit
      · exact .found m refresh between back storer rfl hrefresh hunchanged hfresh
      · rw [List.mem_append, List.mem_append, List.mem_singleton] at hmem
        obtain hmem | hmem | rfl := hmem
        · exact absurd hclears (hrefresh.not_clears hmem)
        · exact absurd hclears (hunchanged event hmem).2
        · cases hclears
      · exact absurd rfl (hbegins (.stepped (.inl r) .freshConfig (some config)) (by simp))

end

namespace LastMoment

def client : Client := ⟨"", .proxy, .disabled, 0, Duration.ofSeconds 1, ⟨false, false⟩⟩

/-- Asks the service for the configuration. -/
def fetch : Call Request Answer NetworkConfig :=
  client.get .networkConfig NetworkConfig.codec "config"

theorem fetch_sparesConfig : fetch.SparesConfig := Client.get_only

/-- Calls that read the configuration of a client, and calls that clear it. -/
def start (ρ κ : Type) [DecidableEq ρ] [DecidableEq κ] : Pool Request Answer (@Yield ρ κ) :=
  .begin ⟨0, ⟨client.cacheExpiry, none⟩, .empty⟩
    (cacheCalls fun _ => fetch)

def answer : Answer :=
  .ok ⟨200, Text.Utf8.encode "\x7b\"data\":\x7b\"config\":\x7b\x7d\x7d\x7d".toList⟩

/-- The first call fetches the configuration, and the second looks when it is as old as it may
be. -/
def choices : List (Choice Answer (Bool ⊕ Unit)) :=
  List.replicate 3 (.step (.inl false)) ++ [.answer (.inl false) answer, .step (.inl false),
    .wait client.cacheExpiry, .step (.inl false), .step (.inl true)]

end LastMoment

end ShardNet
