-- SUMMARY: The verdicts on a shard, in exact arithmetic.
import Mathlib.Logic.ExistsUnique
import ShardNet.Finality

/-!
# Verdicts in exact arithmetic

Nonces have 64 bits, and a sum beyond that is cut off at the greatest of them. No nonce is greater,
so every comparison with such a sum comes out as with the exact one. `ObserverJudged` and
`NotarisedJudged` list the verdicts by such comparisons. A greater delta takes none of the trust
away.
-/

namespace ShardNet.Finality

variable {a b nonce notarised current delta delta' : UInt64} {shard : ShardId}
  {status : NetworkStatus} {verdict : Except Fault Unit}

theorem toNat_saturatingAdd :
    (saturatingAdd a b).toNat = min (a.toNat + b.toNat) (UInt64.size - 1) := by
  unfold saturatingAdd
  split
  · next hlt =>
    rw [UInt64.toNat_add, Nat.mod_eq_of_lt hlt]
    omega
  · next hge =>
    rw [UInt64.toNat_ofNat_of_lt' (by decide)]
    omega

theorem saturatingAdd_lt_iff : saturatingAdd a b < nonce ↔ a.toNat + b.toNat < nonce.toNat := by
  have hbound : nonce.toNat < UInt64.size := nonce.toNat_lt
  rw [UInt64.lt_iff_toNat_lt, toNat_saturatingAdd]
  omega

theorem le_saturatingAdd_iff : nonce ≤ saturatingAdd a b ↔ nonce.toNat ≤ a.toNat + b.toNat := by
  rw [← UInt64.not_lt, saturatingAdd_lt_iff, Nat.not_lt]

theorem checkDelta_cases (delta : UInt64) :
    1 ≤ delta.toNat ∧ checkDelta delta = .ok () ∨
      delta.toNat = 0 ∧ checkDelta delta = .error (.invalidDelta delta) := by
  have hmin : delta < minDelta ↔ delta.toNat < 1 := UInt64.lt_iff_toNat_lt
  simp only [checkDelta, hmin]
  split
  · exact .inr ⟨by omega, rfl⟩
  · exact .inl ⟨by omega, rfl⟩

theorem checkDelta_eq_ok_iff : checkDelta delta = .ok () ↔ 1 ≤ delta.toNat := by
  obtain ⟨hdelta, hcheck⟩ | ⟨hdelta, hcheck⟩ := checkDelta_cases delta
  · simp [hcheck, hdelta]
  · simp [hcheck, hdelta]

/-! ## Observers -/

/-- A node that reports zero for its head, its final block and the probable head. -/
def NotStarted (status : NetworkStatus) : Prop :=
  status.nonce = 0 ∧ status.highestFinalNonce = 0 ∧ status.probableHighestNonce = 0

/-- The verdicts on an observer. That its head is far behind the probable head weighs more than that
it is far ahead of its own final block. -/
inductive ObserverJudged (shard : ShardId) (status : NetworkStatus) (delta : UInt64) :
    Except Fault Unit → Prop where
  | notStarted (hnone : NotStarted status) : ObserverJudged shard status delta (.error .notStarted)
  | syncing (hstarted : ¬ NotStarted status)
      (hbehind : status.nonce.toNat + delta.toNat < status.probableHighestNonce.toNat) :
      ObserverJudged shard status delta
        (.error (.syncing shard status.probableHighestNonce status.nonce delta))
  | stuck (hstarted : ¬ NotStarted status)
      (hnear : status.probableHighestNonce.toNat ≤ status.nonce.toNat + delta.toNat)
      (hahead : status.highestFinalNonce.toNat + delta.toNat < status.nonce.toNat) :
      ObserverJudged shard status delta
        (.error (.stuck shard status.highestFinalNonce status.nonce delta))
  | trusted (hstarted : ¬ NotStarted status)
      (hnear : status.probableHighestNonce.toNat ≤ status.nonce.toNat + delta.toNat)
      (hclose : status.nonce.toNat ≤ status.highestFinalNonce.toNat + delta.toNat) :
      ObserverJudged shard status delta (.ok ())

theorem judgeObserver_judged :
    ObserverJudged shard status delta (judgeObserver shard status delta) := by
  simp only [judgeObserver, saturatingAdd_lt_iff, le_saturatingAdd_iff]
  split
  · next hnone => exact .notStarted hnone
  · next hstarted =>
    split
    · next hbehind => exact .syncing hstarted hbehind
    · next hnear =>
      split
      · next hclose => exact .trusted hstarted (Nat.not_lt.1 hnear) hclose
      · next hahead => exact .stuck hstarted (Nat.not_lt.1 hnear) (Nat.not_le.1 hahead)

/-- There is one verdict. -/
theorem ObserverJudged.unique {verdict' : Except Fault Unit}
    (h : ObserverJudged shard status delta verdict)
    (h' : ObserverJudged shard status delta verdict') : verdict = verdict' := by
  -- Two different verdicts differ in whether the node has started, or in a comparison.
  cases h <;> cases h' <;> first | rfl | contradiction | omega

theorem existsUnique_observerJudged : ∃! verdict, ObserverJudged shard status delta verdict :=
  ⟨_, judgeObserver_judged, fun _ h => h.unique judgeObserver_judged⟩

theorem judgeObserver_eq_iff :
    judgeObserver shard status delta = verdict ↔ ObserverJudged shard status delta verdict :=
  ⟨fun h => h ▸ judgeObserver_judged, judgeObserver_judged.unique⟩

theorem ObserverJudged.mono (hle : delta ≤ delta')
    (h : ObserverJudged shard status delta (.ok ())) :
    ObserverJudged shard status delta' (.ok ()) := by
  have hle : delta.toNat ≤ delta'.toNat := UInt64.le_iff_toNat_le.1 hle
  cases h with
  | trusted hstarted hnear hclose => exact .trusted hstarted (by omega) (by omega)

/-- An observer is trusted if it has started, and if its head is neither far behind the probable
head nor far ahead of its own final block. -/
theorem judgeObserver_eq_ok_iff : judgeObserver shard status delta = .ok () ↔
    ¬ (status.nonce.toNat = 0 ∧ status.highestFinalNonce.toNat = 0 ∧
      status.probableHighestNonce.toNat = 0) ∧
    status.probableHighestNonce.toNat ≤ status.nonce.toNat + delta.toNat ∧
    status.nonce.toNat ≤ status.highestFinalNonce.toNat + delta.toNat := by
  have hzero : ∀ nonce : UInt64, nonce = 0 ↔ nonce.toNat = 0 := fun nonce => UInt64.toNat_inj.symm
  simp only [judgeObserver_eq_iff, ← hzero]
  constructor
  · intro h
    cases h with
    | trusted hstarted hnear hclose => exact ⟨hstarted, hnear, hclose⟩
  · exact fun ⟨hstarted, hnear, hclose⟩ => .trusted hstarted hnear hclose

/-! ## Shards behind a proxy -/

/-- The verdicts on a shard by the nonce that the metachain has notarised. -/
inductive NotarisedJudged (shard : ShardId) (notarised current delta : UInt64) :
    Except Fault Unit → Prop where
  | syncing (hbehind : current.toNat < notarised.toNat) :
      NotarisedJudged shard notarised current delta
        (.error (.syncing shard notarised current delta))
  | stuck (hahead : notarised.toNat + delta.toNat < current.toNat) :
      NotarisedJudged shard notarised current delta (.error (.stuck shard notarised current delta))
  | trusted (hlow : notarised.toNat ≤ current.toNat)
      (hhigh : current.toNat ≤ notarised.toNat + delta.toNat) :
      NotarisedJudged shard notarised current delta (.ok ())

theorem judgeNotarised_judged :
    NotarisedJudged shard notarised current delta
      (judgeNotarised shard notarised current delta) := by
  simp only [judgeNotarised, UInt64.lt_iff_toNat_lt, le_saturatingAdd_iff]
  split
  · next hbehind => exact .syncing hbehind
  · next hlow =>
    split
    · next hhigh => exact .trusted (Nat.not_lt.1 hlow) hhigh
    · next hahead => exact .stuck (Nat.not_le.1 hahead)

/-- There is one verdict. -/
theorem NotarisedJudged.unique {verdict' : Except Fault Unit}
    (h : NotarisedJudged shard notarised current delta verdict)
    (h' : NotarisedJudged shard notarised current delta verdict') : verdict = verdict' := by
  cases h <;> cases h' <;> first | rfl | omega

theorem existsUnique_notarisedJudged :
    ∃! verdict, NotarisedJudged shard notarised current delta verdict :=
  ⟨_, judgeNotarised_judged, fun _ h => h.unique judgeNotarised_judged⟩

theorem judgeNotarised_eq_iff : judgeNotarised shard notarised current delta = verdict ↔
    NotarisedJudged shard notarised current delta verdict :=
  ⟨fun h => h ▸ judgeNotarised_judged, judgeNotarised_judged.unique⟩

theorem NotarisedJudged.mono (hle : delta ≤ delta')
    (h : NotarisedJudged shard notarised current delta (.ok ())) :
    NotarisedJudged shard notarised current delta' (.ok ()) := by
  have hle : delta.toNat ≤ delta'.toNat := UInt64.le_iff_toNat_le.1 hle
  cases h with
  | trusted hlow hhigh => exact .trusted hlow (by omega)

end ShardNet.Finality
