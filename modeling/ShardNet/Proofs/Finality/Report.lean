-- SUMMARY: What the metachain's report says of a shard: the first entry that concerns it, whatever stands around.
import ShardNet.Finality
import ShardNet.Proofs.Text.Decimal
import ShardNet.Proofs.Text.Split

/-!
# Reading the report of the metachain

An entry concerns a shard if it has one colon, and the digits of the shard in front of it, between
blanks. The first such entry decides what the report says of the shard, and nothing else in the
report does: neither the entries of other shards, nor what is no entry at all.

`Renders` is the other direction. It relates a list of nonces to the entries that a metachain may
write for it, with blanks and foreign entries wherever they are allowed.
-/

namespace ShardNet.Finality

open Text (Padded trim)
open Text.Decimal (Numeral digits isBlank_of_mem_digits readUnsigned_trim_eq_ok_iff)

variable {shard other : ShardId} {nonce : UInt64} {report : String}
  {core entry name text : List Char} {entries rest : List (List Char)}
  {pairs : List (ShardId × UInt64)}

/-! ## Entries -/

/-- An entry with one colon, the digits of a shard in front of it, between blanks, and a text behind
it. -/
def Concerns (shard : ShardId) (entry text : List Char) : Prop :=
  ∃ name, entry = name ++ ':' :: text ∧ ':' ∉ name ∧ ':' ∉ text ∧
    Padded (digits shard.toNat) name

theorem notMem_of_padded_digits {value : Nat} {c : Char} (h : Padded (digits value) text)
    (hdigit : c.isDigit = false) (hblank : Text.isBlank c = false) : c ∉ text := by
  refine h.notMem (fun hmem => ?_) hblank
  rw [Text.Decimal.isDigit_of_mem_digits hmem] at hdigit
  cases hdigit

theorem concerns_iff : Concerns shard entry text ↔
    ∃ name, entry.splitOn ':' = [name, text] ∧ trim name = digits shard.toNat := by
  simp only [Concerns, Text.splitOn_eq_pair_iff,
    Text.trim_eq_iff fun _ => isBlank_of_mem_digits, and_assoc]

theorem Concerns.count_eq_one (h : Concerns shard entry text) : entry.count ':' = 1 := by
  obtain ⟨name, rfl, hname, htext, -⟩ := h
  simp [List.count_eq_zero_of_not_mem hname, List.count_eq_zero_of_not_mem htext]

/-- An entry concerns no more than one shard, and tells it one thing. -/
theorem Concerns.unique {text' : List Char} (h : Concerns shard entry text)
    (h' : Concerns other entry text') : shard = other ∧ text = text' := by
  obtain ⟨name, hsplit, hname⟩ := concerns_iff.1 h
  obtain ⟨name', hsplit', hother⟩ := concerns_iff.1 h'
  obtain ⟨rfl, htext⟩ : name = name' ∧ text = text' := by simpa using hsplit.symm.trans hsplit'
  exact ⟨UInt32.toNat_inj.1 (Text.Decimal.digits_inj (hname.symm.trans hother)), htext⟩

/-- The text behind the colon of the first entry that concerns a shard. -/
inductive FirstTold (shard : ShardId) : List (List Char) → List Char → Prop where
  | here {entry text : List Char} {rest : List (List Char)} (hentry : Concerns shard entry text) :
      FirstTold shard (entry :: rest) text
  | later {entry text : List Char} {rest : List (List Char)}
      (hskip : ∀ other, ¬ Concerns shard entry other)
      (hrest : FirstTold shard rest text) : FirstTold shard (entry :: rest) text

/-! ## Finding an entry -/

theorem findEntry_of_concerns (h : Concerns shard entry text) :
    findEntry (digits shard.toNat) (entry :: rest) = some (trim text) := by
  obtain ⟨name, hsplit, hname⟩ := concerns_iff.1 h
  simp [findEntry, Text.split_eq_splitOn, hsplit, hname]

theorem findEntry_of_not_concerns (h : ∀ text, ¬ Concerns shard entry text) :
    findEntry (digits shard.toNat) (entry :: rest) = findEntry (digits shard.toNat) rest := by
  rw [findEntry, Text.split_eq_splitOn]
  split
  · next name text hsplit =>
    exact if_neg fun hname => h text (concerns_iff.2 ⟨name, hsplit, hname⟩)
  · rfl

theorem findEntry_eq_some_iff : findEntry (digits shard.toNat) entries = some core ↔
    ∃ text, FirstTold shard entries text ∧ trim text = core := by
  induction entries with
  | nil => exact iff_of_false nofun fun ⟨_, htold, _⟩ => nomatch htold
  | cons entry rest ih =>
      by_cases hentry : ∃ text, Concerns shard entry text
      · obtain ⟨text, hentry⟩ := hentry
        rw [findEntry_of_concerns hentry, Option.some.injEq]
        constructor
        · exact fun hcore => ⟨text, .here hentry, hcore⟩
        · rintro ⟨text', htold, rfl⟩
          cases htold with
          | here hentry' => rw [(hentry.unique hentry').2]
          | later hskip => exact absurd hentry (hskip text)
      · have hskip : ∀ text, ¬ Concerns shard entry text := not_exists.1 hentry
        rw [findEntry_of_not_concerns hskip, ih]
        constructor
        · rintro ⟨text, htold, hcore⟩
          exact ⟨text, .later hskip htold, hcore⟩
        · rintro ⟨text, htold, hcore⟩
          cases htold with
          | here hentry' => exact absurd hentry' (hskip text)
          | later _ htold => exact ⟨text, htold, hcore⟩

/-! ## Reading the nonce -/

theorem notarisedNonce_eq_error {fault : Fault} (h : notarisedNonce report shard = .error fault) :
    ∃ text, fault = .crossCheck text := by
  unfold notarisedNonce at h
  split at h
  · cases h
    exact ⟨_, rfl⟩
  · split at h
    · cases h
      exact ⟨_, rfl⟩
    · split at h
      · cases h
      · cases h
        exact ⟨_, rfl⟩

theorem notarisedNonce_eq_ok_iff : notarisedNonce report shard = .ok nonce ↔
    ∃ text, FirstTold shard (report.toList.splitOn ',') text ∧
      ∃ core, Padded core text ∧ Numeral core nonce.toNat := by
  have hfind : notarisedNonce report shard = .ok nonce ↔ report ≠ "" ∧
      ∃ core, findEntry (digits shard.toNat) (report.toList.splitOn ',') = some core ∧
        Text.Decimal.readUnsigned UInt64 core = .ok nonce := by
    rw [notarisedNonce, Text.split_eq_splitOn]
    split
    · next hempty => simp [hempty]
    · next hsome =>
      cases findEntry (digits shard.toNat) (report.toList.splitOn ',') with
      | none => simp
      | some core => cases hread : Text.Decimal.readUnsigned UInt64 core <;> simp [hsome, hread]
  rw [hfind]
  constructor
  · rintro ⟨-, _, hcore, hread⟩
    obtain ⟨text, htold, rfl⟩ := findEntry_eq_some_iff.1 hcore
    exact ⟨text, htold, readUnsigned_trim_eq_ok_iff.1 hread⟩
  · rintro ⟨text, htold, hnumeral⟩
    refine ⟨?_, trim text, findEntry_eq_some_iff.2 ⟨text, htold, rfl⟩,
      readUnsigned_trim_eq_ok_iff.2 hnumeral⟩
    -- The only entry of the empty report is empty, and concerns no shard.
    rintro rfl
    cases htold with
    | here hentry => cases hentry.count_eq_one
    | later _ hrest => cases hrest

/-! ## What a metachain writes -/

/-- The entries of a report that gives nonces: for each of them one with the digits of the shard and
of the nonce between blanks, and among these any entries that do not have one colon. -/
inductive Renders : List (ShardId × UInt64) → List (List Char) → Prop where
  | nil : Renders [] []
  | told {shard : ShardId} {nonce : UInt64} {name text : List Char}
      {pairs : List (ShardId × UInt64)} {entries : List (List Char)}
      (hname : Padded (digits shard.toNat) name) (htext : Padded (digits nonce.toNat) text)
      (hrest : Renders pairs entries) :
      Renders ((shard, nonce) :: pairs) ((name ++ ':' :: text) :: entries)
  | foreign {entry : List Char} {pairs : List (ShardId × UInt64)} {entries : List (List Char)}
      (hcomma : ',' ∉ entry) (hcolon : entry.count ':' ≠ 1)
      (hrest : Renders pairs entries) : Renders pairs (entry :: entries)

/-- The report with certain entries. -/
def reportOf (entries : List (List Char)) : String := String.ofList ([','].intercalate entries)

theorem concerns_of_padded (hname : Padded (digits shard.toNat) name)
    (htext : Padded (digits nonce.toNat) text) :
    Concerns shard (name ++ ':' :: text) text :=
  ⟨name, rfl, notMem_of_padded_digits hname (by decide) (by decide),
    notMem_of_padded_digits htext (by decide) (by decide), hname⟩

/-- No entry reaches beyond a comma. -/
theorem Renders.notMem (h : Renders pairs entries) : ∀ entry ∈ entries, ',' ∉ entry := by
  induction h with
  | nil => simp
  | told hname htext _ ih =>
      have hentry := notMem_of_padded_digits hname (c := ',') (by decide) (by decide)
      have hback := notMem_of_padded_digits htext (c := ',') (by decide) (by decide)
      simpa [hentry, hback] using ih
  | foreign hcomma _ _ ih => simpa [hcomma] using ih

/-- The nonce of a shard stands in the first entry that concerns it. -/
theorem Renders.firstTold (h : Renders pairs entries) (hdistinct : (pairs.map Prod.fst).Nodup)
    (hlisted : (shard, nonce) ∈ pairs) :
    ∃ text, FirstTold shard entries text ∧ Padded (digits nonce.toNat) text := by
  induction h with
  | nil => cases hlisted
  | @told shard' nonce' name text pairs entries hname htext _ ih =>
      have hentry : Concerns shard' (name ++ ':' :: text) text := concerns_of_padded hname htext
      obtain ⟨hnone, hdistinct⟩ := List.nodup_cons.1 hdistinct
      rcases List.mem_cons.1 hlisted with hhead | htail
      · cases hhead
        exact ⟨text, .here hentry, htext⟩
      · obtain ⟨told, htold, hpadded⟩ := ih hdistinct htail
        refine ⟨told, .later (fun _ hentry' => hnone ?_) htold, hpadded⟩
        obtain rfl : shard' = shard := (hentry.unique hentry').1
        exact List.mem_map.2 ⟨_, htail, rfl⟩
  | foreign _ hcolon _ ih =>
      obtain ⟨told, htold, hpadded⟩ := ih hdistinct hlisted
      exact ⟨told, .later (fun _ hentry => hcolon hentry.count_eq_one) htold, hpadded⟩

/-- No entry concerns a shard without a nonce. -/
theorem Renders.not_firstTold (h : Renders pairs entries) (hunlisted : shard ∉ pairs.map Prod.fst) :
    ¬ FirstTold shard entries text := by
  induction h with
  | nil => exact nofun
  | @told shard' nonce' name back pairs entries hname htext _ ih =>
      have hentry : Concerns shard' (name ++ ':' :: back) back := concerns_of_padded hname htext
      rw [List.map_cons, List.mem_cons, not_or] at hunlisted
      intro htold
      cases htold with
      | here hentry' => exact hunlisted.1 (hentry'.unique hentry).1
      | later _ htold => exact ih hunlisted.2 htold
  | foreign _ hcolon _ ih =>
      intro htold
      cases htold with
      | here hentry => exact hcolon hentry.count_eq_one
      | later _ htold => exact ih hunlisted htold

/-- The report is cut into the entries it was made of. Without any, it is cut into an empty one,
which says nothing either. -/
theorem Renders.splitOn_reportOf (h : Renders pairs entries) :
    Renders pairs ((reportOf entries).toList.splitOn ',') := by
  rw [reportOf, String.toList_ofList]
  by_cases hentries : entries = []
  · subst hentries
    cases h
    exact .foreign nofun (by decide) .nil
  · rwa [List.splitOn_intercalate ',' h.notMem hentries]

/-- The check reads out of the report of the metachain what the metachain wrote into it: the nonce
of each shard that has one, and nothing for any other shard. Of any report at all, the first entry
that concerns the shard decides, by whether a number stands behind its colon; whatever else goes
wrong is a fault of the report. -/
theorem notarisedNonce_reads_back :
    (∀ (pairs : List (ShardId × UInt64)) (entries : List (List Char)), Renders pairs entries →
      (pairs.map Prod.fst).Nodup → ∀ shard,
        (∀ nonce, (shard, nonce) ∈ pairs → notarisedNonce (reportOf entries) shard = .ok nonce) ∧
        (shard ∉ pairs.map Prod.fst →
          ∃ text, notarisedNonce (reportOf entries) shard = .error (.crossCheck text))) ∧
    ∀ (report : String) (shard : ShardId),
      (∀ nonce, notarisedNonce report shard = .ok nonce ↔
        ∃ text, FirstTold shard (report.toList.splitOn ',') text ∧
          ∃ core, Padded core text ∧ Numeral core nonce.toNat) ∧
      ∀ fault, notarisedNonce report shard = .error fault → ∃ text, fault = .crossCheck text := by
  refine ⟨fun pairs entries hrenders hdistinct shard => ⟨fun nonce hlisted => ?_,
    fun hunlisted => ?_⟩, fun report shard => ⟨fun nonce => notarisedNonce_eq_ok_iff, fun fault =>
    notarisedNonce_eq_error⟩⟩
  · obtain ⟨text, htold, hpadded⟩ := hrenders.splitOn_reportOf.firstTold hdistinct hlisted
    exact notarisedNonce_eq_ok_iff.2 ⟨text, htold, _, hpadded, Text.Decimal.numeral_digits⟩
  · cases hread : notarisedNonce (reportOf entries) shard with
    | ok nonce =>
        obtain ⟨text, htold, -⟩ := notarisedNonce_eq_ok_iff.1 hread
        exact absurd htold (hrenders.splitOn_reportOf.not_firstTold hunlisted)
    | error fault =>
        obtain ⟨text, rfl⟩ := notarisedNonce_eq_error hread
        exact ⟨text, rfl⟩

/-- Entries for two shards, among entries that do not have one colon. -/
def paddedEntries : List (List Char) :=
  [" 10 ".toList ++ ':' :: "5".toList, "1:2:3".toList,
    " 1".toList ++ ':' :: "\u00a042".toList, " ".toList]

/-- Neither the shard with the number ten nor the entry with two colons is taken for the shard with
the number one, and a no-break space is a blank. -/
theorem notarisedNonce_reads_back_padded :
    Renders [(10, 5), (1, 42)] paddedEntries ∧
      reportOf paddedEntries = " 10 :5,1:2:3, 1:\u00a042, " ∧
      notarisedNonce (reportOf paddedEntries) 1 = .ok 42 := by
  have hspace : ∀ c ∈ [' '], Text.isBlank c := List.forall_mem_singleton.2 rfl
  have hnoBreak : ∀ c ∈ ['\u00a0'], Text.isBlank c := List.forall_mem_singleton.2 rfl
  have hten : Padded (digits (10 : ShardId).toNat) " 10 ".toList :=
    ⟨[' '], [' '], by decide +kernel, hspace, hspace⟩
  have hfive : Padded (digits (5 : UInt64).toNat) "5".toList :=
    ⟨[], [], by decide +kernel, nofun, nofun⟩
  have hone : Padded (digits (1 : ShardId).toNat) " 1".toList :=
    ⟨[' '], [], by decide +kernel, hspace, nofun⟩
  have hback : Padded (digits (42 : UInt64).toNat) "\u00a042".toList :=
    ⟨['\u00a0'], [], by decide +kernel, hnoBreak, nofun⟩
  have hrenders : Renders [(10, 5), (1, 42)] paddedEntries :=
    .told hten hfive (.foreign (by decide +kernel) (by decide +kernel) (.told hone hback
      (.foreign (by decide +kernel) (by decide +kernel) .nil)))
  exact ⟨hrenders, by decide +kernel,
    (notarisedNonce_reads_back.1 _ _ hrenders (by decide) 1).1 42 (by decide)⟩

end ShardNet.Finality
