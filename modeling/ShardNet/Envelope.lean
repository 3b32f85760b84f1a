-- SUMMARY: The envelope around every answer, and what it takes to get a value out of it.
import ShardNet.Exchange
import ShardNet.Json.Codec
import ShardNet.Json.Reader

/-!
# Envelopes

A service answers `{"data": …, "error": "…", "code": "…"}`. The three keys occur at most once, any
of them may be missing, and other members are passed over unread. The three values may also come as
an array.

A value is taken from a response in steps, and the first step that fails is reported: the status,
the envelope, the error it carries, the presence of the value, and last its form.
-/

namespace ShardNet

structure Envelope where
  data : Json
  error : String
  code : String

namespace Envelope

open Json (Codec Care)

/-- What is made of a member of the envelope. -/
def care (key : String) : Care :=
  if key = "data" ∨ key = "error" ∨ key = "code" then .keep else .pass

/-- A text that may be missing. -/
def text? : Option Json → Option String
  | none => some ""
  | some (.str value) => some value
  | some _ => none

/-- The envelope of its three values. -/
def ofValues? (data error code : Option Json) : Option Envelope := do
  return ⟨data.getD .null, ← text? error, ← text? code⟩

/-- The value of a key that occurs at most once; `none` where it occurs again. -/
def sole? (key : String) (members : List (String × Json)) : Option (Option Json) :=
  match members.filter (·.1 = key) with
  | [] => some none
  | [(_, value)] => some (some value)
  | _ => none

/-- Reads an envelope. -/
def read? (body : Bytes) : Option Envelope :=
  let input := Text.Utf8.symbols body
  match Json.readObject? care input with
  | some members => do
    ofValues? (← sole? "data" members) (← sole? "error" members) (← sole? "code" members)
  | none =>
    match Json.read? input with
    | some (.arr items) =>
      if items.length ≤ 3 then ofValues? items[0]? items[1]? items[2]? else none
    | _ => none

/-- The value in question: a member of the data, or the data itself. Null counts as missing. -/
def value? (envelope : Envelope) (field : Option String) : Option Json :=
  let found := match field, envelope.data with
    | none, data => some data
    | some key, .obj members => Json.lookup key members
    | some _, _ => none
  match found with
  | some .null => none
  | found => found

/-- Takes a value out of a response: the member `field` of the data, or the data itself. -/
def decode {α : Type} (codec : Codec α) (field : Option String) (response : Response) :
    Except Exchange.Fault α :=
  if ¬ response.isOk then
    .error (.status response.status (String.ofList (Text.Utf8.decodeLossy response.body)))
  else
    match read? response.body with
    | none => .error .malformed
    | some envelope =>
      if envelope.error ≠ "" then .error (.remote envelope.error envelope.code)
      else
        match envelope.value? field with
        | none =>
          let name := field.getD "data"
          .error (.invalidResponse s!"missing '{name}' in response data")
        | some value =>
          match codec.read? value with
          | none => .error .malformed
          | some value => .ok value

end Envelope

end ShardNet
