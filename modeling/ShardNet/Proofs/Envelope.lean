-- SUMMARY: When a value is taken out of a response: the response carries one, and that is readable.
import ShardNet.Envelope

/-!
# Values in envelopes
-/

namespace ShardNet.Envelope

open Json (Codec)

variable {α : Type} {codec : Codec α} {field : Option String} {response : Response} {value : α}

/-- The value that a response carries: its status is good, its body is an envelope without an error,
and in the data stands something else than null. -/
def contents? (field : Option String) (response : Response) : Option Json :=
  if response.isOk then ((read? response.body).filter (·.error = "")).bind (·.value? field)
    else none

theorem decode_of_contents {json : Json} (h : contents? field response = some json) :
    decode codec field response = (codec.read? json).elim (.error .malformed) .ok := by
  unfold contents? at h
  split at h
  · next hok =>
    obtain ⟨envelope, hread, hvalue⟩ := Option.bind_eq_some_iff.1 h
    obtain ⟨hread, herror⟩ := Option.filter_eq_some_iff.1 hread
    have hnone : ¬ envelope.error ≠ "" := fun herror' => herror' (of_decide_eq_true herror)
    simp only [decode, hok, not_true, if_false, hread, hnone, hvalue]
    cases codec.read? json <;> rfl
  · cases h

theorem decode_eq_ok_iff : decode codec field response = .ok value ↔
    ∃ json, contents? field response = some json ∧ codec.read? json = some value := by
  unfold decode contents?
  by_cases hok : response.isOk
  · simp only [hok, not_true, if_false, if_true]
    cases read? response.body with
    | none => simp
    | some envelope =>
        by_cases herror : envelope.error = ""
        · simp only [herror, ne_eq, not_true, if_false, Option.filter_some, decide_true, if_true,
            Option.bind_some]
          cases envelope.value? field with
          | none => simp
          | some json =>
              simp only [Option.some.injEq, exists_eq_left']
              cases codec.read? json <;> simp
        · simp [herror, Option.filter_some]
  · simp [hok]

end ShardNet.Envelope
