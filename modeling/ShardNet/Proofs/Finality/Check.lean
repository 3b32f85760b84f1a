-- SUMMARY: How a shard is checked: which reports are asked for, in which order, and the verdict on them.
import ShardNet.Finality.Check
import ShardNet.Proofs.Finality
import ShardNet.Proofs.Trace

/-!
# The course of a check

A check asks for the status of a shard by whatever call it is given. `Checked` lists what it does
then: a delta of zero and the metachain behind a proxy are settled without a question, and any error
ends the check at once and is its result. `ends_check` says that these are the complete traces, and
the last section that a greater delta does not take a trace to another end once it has gone well.
-/

namespace ShardNet.Finality

variable {Query Answer : Type} {status : ShardId → Call Query Answer NetworkStatus}
  {policy : Policy} {shard : ShardId} {delta delta' : UInt64} {trace : Trace Query Answer}
  {result : Except Error Unit}

/-! ## What a check comes to, by the policy, the delta and the shard -/

theorem check_disabled : check status .disabled shard delta = pure () := rfl

theorem check_invalidDelta {fault : Fault} (hpolicy : policy ≠ .disabled)
    (hdelta : checkDelta delta = .error fault) :
    check status policy shard delta = throw (.finality fault) := by
  cases policy with
  | disabled => exact absurd rfl hpolicy
  | observer | proxy =>
      simp only [check, hdelta]
      rfl

theorem check_observer (hdelta : checkDelta delta = .ok ()) : check status .observer shard delta =
    status shard >>= fun report => conclude (judgeObserver shard report delta) := by
  simp only [check, hdelta]
  rfl

theorem check_metachain (hdelta : checkDelta delta = .ok ()) :
    check status .proxy .metachain delta = pure () := by
  simp only [check, hdelta]
  rfl

/-- The metachain is asked first, then the shard itself. -/
theorem check_proxy (hdelta : checkDelta delta = .ok ()) (hshard : shard ≠ .metachain) :
    check status .proxy shard delta =
      (status .metachain >>= fun metachain =>
          conclude (notarisedNonce metachain.crossCheckBlockHeight shard)) >>= fun notarised =>
        status shard >>= fun report =>
            conclude (judgeNotarised shard notarised report.nonce delta) := by
  simp only [check, hdelta, if_neg hshard, bind_assoc]
  rfl

/-! ## The traces of a check -/

/-- How a shard is checked, by the traces of the calls for its status and for that of the
metachain. -/
inductive Checked (status : ShardId → Call Query Answer NetworkStatus) (shard : ShardId)
    (delta : UInt64) :
    Policy → Trace Query Answer → Except Error Unit → Prop where
  | disabled : Checked status shard delta .disabled [] (.ok ())
  | invalidDelta {policy : Policy} (hpolicy : policy ≠ .disabled) (hdelta : delta.toNat = 0) :
      Checked status shard delta policy [] (.error (.finality (.invalidDelta delta)))
  | observerFailed {trace : Trace Query Answer} {cause : Error} (hdelta : 1 ≤ delta.toNat)
      (hstatus : (status shard).Ends trace (.error cause)) :
      Checked status shard delta .observer trace (.error cause)
  | observer {trace : Trace Query Answer} {report : NetworkStatus} {verdict : Except Fault Unit}
      (hdelta : 1 ≤ delta.toNat) (hstatus : (status shard).Ends trace (.ok report))
      (hjudged : ObserverJudged shard report delta verdict) :
      Checked status shard delta .observer trace (verdict.mapError .finality)
  /-- The metachain notarises itself. -/
  | metachain (hdelta : 1 ≤ delta.toNat) (hshard : shard = .metachain) :
      Checked status shard delta .proxy [] (.ok ())
  | metachainFailed {trace : Trace Query Answer} {cause : Error} (hdelta : 1 ≤ delta.toNat)
      (hshard : shard ≠ .metachain) (hstatus : (status .metachain).Ends trace (.error cause)) :
      Checked status shard delta .proxy trace (.error cause)
  | unnotarised {trace : Trace Query Answer} {report : NetworkStatus} {fault : Fault}
      (hdelta : 1 ≤ delta.toNat) (hshard : shard ≠ .metachain)
      (hstatus : (status .metachain).Ends trace (.ok report))
      (hreport : notarisedNonce report.crossCheckBlockHeight shard = .error fault) :
      Checked status shard delta .proxy trace (.error (.finality fault))
  | shardFailed {front back : Trace Query Answer} {metachain : NetworkStatus} {notarised : UInt64}
      {cause : Error} (hdelta : 1 ≤ delta.toNat) (hshard : shard ≠ .metachain)
      (hmetachain : (status .metachain).Ends front (.ok metachain))
      (hreport : notarisedNonce metachain.crossCheckBlockHeight shard = .ok notarised)
      (hstatus : (status shard).Ends back (.error cause)) :
      Checked status shard delta .proxy (front ++ back) (.error cause)
  | notarised {front back : Trace Query Answer} {metachain report : NetworkStatus}
      {notarised : UInt64} {verdict : Except Fault Unit} (hdelta : 1 ≤ delta.toNat)
      (hshard : shard ≠ .metachain) (hmetachain : (status .metachain).Ends front (.ok metachain))
      (hreport : notarisedNonce metachain.crossCheckBlockHeight shard = .ok notarised)
      (hstatus : (status shard).Ends back (.ok report))
      (hjudged : NotarisedJudged shard notarised report.nonce delta verdict) :
      Checked status shard delta .proxy (front ++ back) (verdict.mapError .finality)

section

variable {α β : Type} {call : Call Query Answer α} {judge : α → Except Fault β}

/-- A report that cannot be had is the result, and one that can is judged without another act. -/
theorem ends_bind_conclude {result : Except Error β} :
    (call >>= fun report => conclude (judge report)).Ends trace result ↔
      (∃ cause, call.Ends trace (.error cause) ∧ result = .error cause) ∨
        ∃ report, call.Ends trace (.ok report) ∧ result = (judge report).mapError .finality := by
  rw [Call.ends_bind]
  refine or_congr_right ⟨?_, ?_⟩
  · rintro ⟨front, _, report, rfl, hcall, rfl, hresult⟩
    rw [List.append_nil]
    exact ⟨report, hcall, hresult⟩
  · rintro ⟨report, hcall, hresult⟩
    exact ⟨trace, [], report, (List.append_nil trace).symm, hcall, rfl, hresult⟩

theorem ends_bind_conclude_ok {value : β} :
    (call >>= fun report => conclude (judge report)).Ends trace (.ok value) ↔
      ∃ report, call.Ends trace (.ok report) ∧ judge report = .ok value := by
  simp [ends_bind_conclude, eq_comm (a := Except.ok value), Call.mapError_eq_ok_iff]

theorem ends_bind_conclude_error {cause : Error} :
    (call >>= fun report => conclude (judge report)).Ends trace (.error cause) ↔
      call.Ends trace (.error cause) ∨
        ∃ report fault, call.Ends trace (.ok report) ∧ judge report = .error fault ∧
          cause = .finality fault := by
  have herror : ∀ verdict : Except Fault β, .error cause = verdict.mapError Error.finality ↔
      ∃ fault, verdict = .error fault ∧ cause = .finality fault := by
    intro verdict
    cases verdict with
    | error fault =>
        constructor
        · exact fun h => ⟨fault, rfl, Except.error.inj h⟩
        · rintro ⟨_, hfault, rfl⟩
          cases hfault
          rfl
    | ok value => exact iff_of_false nofun nofun
  simp [ends_bind_conclude, herror]

end

theorem ends_check_observer (hdelta : 1 ≤ delta.toNat) :
    Call.Ends (check status .observer shard delta) trace result ↔
      Checked status shard delta .observer trace result := by
  rw [check_observer (checkDelta_eq_ok_iff.2 hdelta), ends_bind_conclude]
  constructor
  · rintro (⟨cause, hstatus, rfl⟩ | ⟨report, hstatus, rfl⟩)
    · exact .observerFailed hdelta hstatus
    · exact .observer hdelta hstatus judgeObserver_judged
  · intro h
    cases h with
    | invalidDelta _ hzero => omega
    | observerFailed _ hstatus => exact .inl ⟨_, hstatus, rfl⟩
    | observer _ hstatus hjudged => exact .inr ⟨_, hstatus, by rw [judgeObserver_eq_iff.2 hjudged]⟩

theorem ends_check_proxy (hdelta : 1 ≤ delta.toNat) (hshard : shard ≠ .metachain) :
    Call.Ends (check status .proxy shard delta) trace result ↔
      Checked status shard delta .proxy trace result := by
  rw [check_proxy (checkDelta_eq_ok_iff.2 hdelta) hshard, Call.ends_bind]
  constructor
  · rintro (⟨cause, hfirst, rfl⟩ | ⟨front, back, notarised, rfl, hfirst, hsecond⟩)
    · obtain hstatus | ⟨metachain, fault, hstatus, hreport, rfl⟩ :=
        ends_bind_conclude_error.1 hfirst
      · exact .metachainFailed hdelta hshard hstatus
      · exact .unnotarised hdelta hshard hstatus hreport
    · obtain ⟨metachain, hmetachain, hreport⟩ := ends_bind_conclude_ok.1 hfirst
      obtain ⟨cause, hstatus, rfl⟩ | ⟨report, hstatus, rfl⟩ := ends_bind_conclude.1 hsecond
      · exact .shardFailed hdelta hshard hmetachain hreport hstatus
      · exact .notarised hdelta hshard hmetachain hreport hstatus judgeNotarised_judged
  · intro h
    cases h with
    | invalidDelta _ hzero => omega
    | metachain _ hmetachain => exact absurd hmetachain hshard
    | metachainFailed _ _ hstatus => exact .inl ⟨_, ends_bind_conclude_error.2 (.inl hstatus), rfl⟩
    | unnotarised _ _ hstatus hreport =>
        exact .inl ⟨_, ends_bind_conclude_error.2 (.inr ⟨_, _, hstatus, hreport, rfl⟩), rfl⟩
    | shardFailed _ _ hmetachain hreport hstatus =>
        exact .inr ⟨_, _, _, rfl, ends_bind_conclude_ok.2 ⟨_, hmetachain, hreport⟩,
          ends_bind_conclude.2 (.inl ⟨_, hstatus, rfl⟩)⟩
    | notarised _ _ hmetachain hreport hstatus hjudged =>
        refine .inr ⟨_, _, _, rfl, ends_bind_conclude_ok.2 ⟨_, hmetachain, hreport⟩,
          ends_bind_conclude.2 (.inr ⟨_, hstatus, ?_⟩)⟩
        rw [judgeNotarised_eq_iff.2 hjudged]

theorem ends_check : Call.Ends (check status policy shard delta) trace result ↔
    Checked status shard delta policy trace result := by
  by_cases hdisabled : policy = .disabled
  · subst hdisabled
    rw [check_disabled, Call.ends_pure]
    constructor
    · rintro ⟨rfl, rfl⟩
      exact .disabled
    · intro h
      cases h with
      | disabled => exact ⟨rfl, rfl⟩
      | invalidDelta hpolicy => exact absurd rfl hpolicy
  obtain ⟨hdelta, hcheck⟩ | ⟨hdelta, hcheck⟩ := checkDelta_cases delta
  · cases policy with
    | disabled => exact absurd rfl hdisabled
    | observer => exact ends_check_observer hdelta
    | proxy =>
        by_cases hshard : shard = .metachain
        · subst hshard
          rw [check_metachain hcheck, Call.ends_pure]
          constructor
          · rintro ⟨rfl, rfl⟩
            exact .metachain hdelta rfl
          · intro h
            cases h with
            | invalidDelta _ hzero => omega
            | metachain => exact ⟨rfl, rfl⟩
            | metachainFailed _ hshard | unnotarised _ hshard | shardFailed _ hshard
                | notarised _ hshard =>
                exact absurd rfl hshard
        · exact ends_check_proxy hdelta hshard
  · rw [check_invalidDelta hdisabled hcheck, Call.ends_throw]
    constructor
    · rintro ⟨rfl, rfl⟩
      exact .invalidDelta hdisabled hdelta
    · intro h
      cases h with
      | disabled => exact absurd rfl hdisabled
      | invalidDelta => exact ⟨rfl, rfl⟩
      | observerFailed | observer | metachain | metachainFailed | unnotarised | shardFailed
          | notarised => omega

/-! ## The verdict and the delta -/

theorem Checked.mono (hle : delta ≤ delta') (h : Checked status shard delta policy trace result)
    (hok : result = .ok ()) : Checked status shard delta' policy trace (.ok ()) := by
  have hle' : delta.toNat ≤ delta'.toNat := UInt64.le_iff_toNat_le.1 hle
  cases h with
  | disabled => exact .disabled
  | observer hdelta hstatus hjudged =>
      obtain rfl := Call.mapError_eq_ok_iff.1 hok
      exact .observer (by omega) hstatus (hjudged.mono hle)
  | metachain hdelta hshard => exact .metachain (by omega) hshard
  | notarised hdelta hshard hmetachain hreport hstatus hjudged =>
      obtain rfl := Call.mapError_eq_ok_iff.1 hok
      exact .notarised (by omega) hshard hmetachain hreport hstatus (hjudged.mono hle)
  | invalidDelta | observerFailed | metachainFailed | unnotarised | shardFailed => cases hok

/-- A check asks for what `Checked` lists and for nothing else, and ends with the verdict that
stands there, whatever is reported and whatever the numbers are. There is one verdict for all
numbers. What passes with a delta passes with any greater one. -/
theorem check_judges_exactly (status : ShardId → Call Query Answer NetworkStatus) (policy : Policy)
    (shard : ShardId) (delta : UInt64) :
    (∀ trace result, Call.Ends (check status policy shard delta) trace result ↔
      Checked status shard delta policy trace result) ∧
    (∀ report, ∃! verdict, ObserverJudged shard report delta verdict) ∧
    (∀ notarised current, ∃! verdict, NotarisedJudged shard notarised current delta verdict) ∧
    ∀ delta', delta ≤ delta' → ∀ trace,
      Call.Ends (check status policy shard delta) trace (.ok ()) →
      Call.Ends (check status policy shard delta') trace (.ok ()) := by
  refine ⟨fun _ _ => ends_check, fun _ => existsUnique_observerJudged,
    fun _ _ => existsUnique_notarisedJudged, fun delta' hle trace hends => ?_⟩
  have hchecked : Checked status shard delta policy trace (.ok ()) := ends_check.1 hends
  exact ends_check.2 (hchecked.mono hle rfl)

/-- Takes the answer for the status. -/
def takeStatus (shard : ShardId) : Call ShardId NetworkStatus NetworkStatus := Call.ask shard

/-- A status that reports a nonce, and of other shards what the metachain has notarised. -/
def statusAt (nonce : UInt64) (notarised : String) : NetworkStatus :=
  ⟨0, 0, nonce, 0, 0, 0, 0, 0, notarised, 0, 0, 0⟩

/-- The head of the shard is at the greatest nonce, and all blocks before it are notarised. -/
def greatestNonces : Trace ShardId NetworkStatus :=
  [.asked .metachain (statusAt 0 "1: 18446744073709551614"),
    .asked 1 (statusAt 18446744073709551615 "")]

/-- The shard passes with the smallest delta, and with the greatest one, whose sums lie beyond all
nonces. -/
theorem check_judges_exactly_greatest :
    (1 : UInt64) ≤ 18446744073709551615 ∧ Call.Ends
    (check takeStatus .proxy 1 1) greatestNonces (.ok ()) ∧
      Call.Ends (check takeStatus .proxy 1 18446744073709551615) greatestNonces (.ok ()) := by
  have hmetachain : (takeStatus .metachain).Ends
      [.asked .metachain (statusAt 0 "1: 18446744073709551614")]
      (.ok (statusAt 0 "1: 18446744073709551614")) := Call.ends_ask.2 ⟨_, rfl, rfl⟩
  have hreport : notarisedNonce "1: 18446744073709551614" 1 = .ok 18446744073709551614 := rfl
  have hstatus : (takeStatus 1).Ends [.asked 1 (statusAt 18446744073709551615 "")]
      (.ok (statusAt 18446744073709551615 "")) := Call.ends_ask.2 ⟨_, rfl, rfl⟩
  have hjudged : NotarisedJudged 1 18446744073709551614 18446744073709551615 1 (.ok ()) :=
    .trusted (by decide) (by decide)
  have hends : Call.Ends (check takeStatus .proxy 1 1) greatestNonces (.ok ()) :=
    ((check_judges_exactly takeStatus .proxy 1 1).1 greatestNonces (.ok ())).2
      (.notarised (by decide) (by decide) hmetachain hreport hstatus hjudged)
  exact ⟨by decide, hends, (check_judges_exactly takeStatus .proxy 1 1).2.2.2 _ (by decide) _ hends⟩

end ShardNet.Finality
