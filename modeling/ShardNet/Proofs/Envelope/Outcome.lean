-- SUMMARY: What comes of a response, cause by cause, and which bodies are envelopes.
import ShardNet.Proofs.Envelope
import ShardNet.Proofs.Json.Field
import ShardNet.Proofs.Json.Recognize
import ShardNet.Proofs.Text.Utf8.WellFormed

/-!
# Outcomes of responses

A response fails by its status, by its form, by the error it carries, by the lack of the value in
question, or by the form of this value. The causes are looked at in this order, and the first one
is reported. What stands in the data beside the value in question is read, but nothing comes of it.

Which bodies are envelopes is said by the grammar of JSON alone, without the reader.
-/

namespace ShardNet

open Json (Codec Care SameKept WholeObject)

variable {members others : List (String × Json)} {key : String}

/-! ## Members that are kept -/

theorem Json.SameKept.filter_eq {care : String → Care} (h : SameKept care others members)
    (hkeep : care key = .keep) : others.filter (·.1 = key) = members.filter (·.1 = key) := by
  induction h with
  | nil => rfl
  | @cons other member others members hfirst _ ih =>
      obtain ⟨hname, hvalue⟩ := hfirst
      by_cases hkey : member.1 = key
      · have hsame : other = member := Prod.ext hname (hvalue (hkey ▸ hkeep))
        rw [hsame, List.filter_cons, List.filter_cons, ih]
      · rw [List.filter_cons_of_neg (by simpa [hname] using hkey),
          List.filter_cons_of_neg (by simpa using hkey), ih]

namespace Envelope

/-! ## Envelopes in JSON -/

/-- A text that a value has for a field: an empty one if there is nothing for the field. -/
def Says (json : Json) (key : String) (place : Nat) (text : String) : Prop :=
  json.part? key place = some (.str text) ∨ json.part? key place = none ∧ text = ""

def keys : List String := ["data", "error", "code"]

/-- The envelope that a value is: an object with each of the three keys at most once, or an array of
up to three items. The data is null where it is missing. -/
structure StandsIn (envelope : Envelope) (json : Json) : Prop where
  fields : json.HoldsFields 3
  sole : ∀ members, json = .obj members → ∀ key ∈ keys, (members.filter (·.1 = key)).length ≤ 1
  data : (json.part? "data" 0).getD .null = envelope.data
  error : Says json "error" 1 envelope.error
  code : Says json "code" 2 envelope.code

/-- The envelope that a body is the text of. The members of the object are kept by the three keys;
what stands under other keys has to be well-formed, and is passed over. -/
inductive Tells (body : Bytes) (envelope : Envelope) : Prop where
  | object {care : String → Care} {members : List (String × Json)}
      (hcare : ∀ key, care key = .keep ↔ key ∈ keys)
      (hwhole : WholeObject care (Text.Utf8.symbols body) members)
      (hstands : envelope.StandsIn (.obj members)) : Tells body envelope
  | array {items : List Json} (hwhole : Json.Whole (Text.Utf8.symbols body) (.arr items))
      (hstands : envelope.StandsIn (.arr items)) : Tells body envelope

variable {found : Option Json} {text : String} {envelope : Envelope} {body : Bytes} {json : Json}

theorem text?_eq_some_iff :
    text? found = some text ↔ found = some (.str text) ∨ found = none ∧ text = "" := by
  cases found with
  | none => simp [text?, eq_comm]
  | some json => cases json <;> simp [text?]

theorem ofValues?_eq_some_iff {data error code : Option Json} :
    ofValues? data error code = some envelope ↔ data.getD .null = envelope.data ∧
      text? error = some envelope.error ∧ text? code = some envelope.code := by
  obtain ⟨_, _, _⟩ := envelope
  simp only [ofValues?]
  cases text? error <;> cases text? code <;> simp

theorem sole?_eq_some_iff : sole? key members = some found ↔
    (members.filter (·.1 = key)).length ≤ 1 ∧ Json.lookup key members = found := by
  have hkeys : ∀ member ∈ members.filter (·.1 = key), member.1 = key := by simp
  rw [← Json.lookup_filter]
  unfold sole?
  generalize members.filter (·.1 = key) = same at hkeys
  match same, hkeys with
  | [], _ => simp
  | [(name, value)], hkeys =>
      obtain rfl : name = key := hkeys _ (List.mem_singleton_self _)
      simp [Json.lookup]
  | _ :: _ :: _, _ => simp

theorem standsIn_obj_iff : envelope.StandsIn (.obj members) ↔
    ∃ data, sole? "data" members = some data ∧ ∃ error, sole? "error" members = some error ∧
      ∃ code, sole? "code" members = some code ∧ ofValues? data error code = some envelope := by
  simp only [sole?_eq_some_iff, ofValues?_eq_some_iff, text?_eq_some_iff]
  constructor
  · rintro ⟨-, hsole, hvalue, htext, hname⟩
    have hkeys := hsole members rfl
    exact ⟨_, ⟨hkeys "data" (by simp [keys]), rfl⟩, _, ⟨hkeys "error" (by simp [keys]), rfl⟩, _,
      ⟨hkeys "code" (by simp [keys]), rfl⟩, hvalue, htext, hname⟩
  · rintro ⟨_, ⟨hdata, rfl⟩, _, ⟨herror, rfl⟩, _, ⟨hcode, rfl⟩, hvalue, htext, hname⟩
    refine ⟨trivial, ?_, hvalue, htext, hname⟩
    rintro _ ⟨⟩
    simp [keys, hdata, herror, hcode]

theorem standsIn_arr_iff {items : List Json} : envelope.StandsIn (.arr items) ↔
    items.length ≤ 3 ∧ ofValues? items[0]? items[1]? items[2]? = some envelope := by
  rw [ofValues?_eq_some_iff, text?_eq_some_iff, text?_eq_some_iff]
  exact ⟨fun h => ⟨h.fields, h.data, h.error, h.code⟩,
    fun ⟨hfew, hdata, herror, hcode⟩ => ⟨hfew, nofun, hdata, herror, hcode⟩⟩

theorem care_eq_keep_iff : care key = .keep ↔ key ∈ keys := by
  unfold care
  split <;> simp_all [keys]

theorem eq_care {other : String → Care} (h : ∀ key, other key = .keep ↔ key ∈ keys) :
    other = care := by
  funext key
  have hsame : other key = .keep ↔ care key = .keep := (h key).trans care_eq_keep_iff.symm
  cases hother : other key <;> cases hcare : care key <;> simp_all

/-! ## Envelopes that are read -/

theorem read?_of_whole_object (h : WholeObject care (Text.Utf8.symbols body) members) :
    read? body = some envelope ↔ envelope.StandsIn (.obj members) := by
  obtain ⟨others, hread, hsame⟩ := h.readObject?
  have hsole : ∀ key ∈ keys, sole? key others = sole? key members := by
    intro key hkey
    rw [sole?, sole?, hsame.filter_eq (care_eq_keep_iff.2 hkey)]
  rw [standsIn_obj_iff, ← hsole "data" (by simp [keys]), ← hsole "error" (by simp [keys]),
    ← hsole "code" (by simp [keys])]
  simp [read?, hread, Option.bind_eq_some_iff]

theorem read?_of_whole (h : Json.Whole (Text.Utf8.symbols body) json) :
    read? body = some envelope ↔ envelope.StandsIn json := by
  cases json with
  | obj members => exact read?_of_whole_object (h.object care)
  | arr items =>
      rw [standsIn_arr_iff]
      simp [read?, h.readObject?_eq_none nofun, Json.read?_eq_some_iff.2 h]
  | null | bool | int | real | str =>
      have hread : read? body = none := by
        simp [read?, h.readObject?_eq_none nofun, Json.read?_eq_some_iff.2 h]
      rw [hread]
      exact iff_of_false nofun fun hstands => hstands.fields.elim

/-- An envelope is read from a body exactly if the body is its text. -/
theorem read?_eq_some_iff : read? body = some envelope ↔ Tells body envelope := by
  constructor
  · intro h
    cases hobject : Json.readObject? care (Text.Utf8.symbols body) with
    | some others =>
        have hwhole := Json.wholeObject_of_readObject? hobject
        exact .object (fun _ => care_eq_keep_iff) hwhole ((read?_of_whole_object hwhole).1 h)
    | none =>
        obtain ⟨items, hitems⟩ :
            ∃ items, Json.read? (Text.Utf8.symbols body) = some (.arr items) := by
          simp only [read?, hobject] at h
          split at h
          · next items hitems => exact ⟨items, hitems⟩
          · cases h
        have hwhole := Json.read?_eq_some_iff.1 hitems
        exact .array hwhole ((read?_of_whole hwhole).1 h)
  · rintro (⟨hcare, hwhole, hstands⟩ | ⟨hwhole, hstands⟩)
    · obtain rfl := eq_care hcare
      exact (read?_of_whole_object hwhole).2 hstands
    · exact (read?_of_whole hwhole).2 hstands

theorem read?_eq_none_iff : read? body = none ↔ ¬ ∃ envelope, Tells body envelope := by
  simp only [← read?_eq_some_iff, Option.eq_none_iff_forall_ne_some, not_exists, ne_eq]

/-- Which envelope a body is that is JSON. -/
theorem tells_iff (h : Json.Whole (Text.Utf8.symbols body) json) :
    Tells body envelope ↔ envelope.StandsIn json :=
  read?_eq_some_iff.symm.trans (read?_of_whole h)

/-! ## Envelopes that are written -/

/-- An envelope as JSON, with all of its three members. -/
def write (envelope : Envelope) : Json :=
  .obj [("data", envelope.data), ("error", .str envelope.error), ("code", .str envelope.code)]

theorem standsIn_write (envelope : Envelope) : envelope.StandsIn envelope.write where
  fields := trivial
  sole := by
    rintro _ ⟨⟩ key hkey
    simp only [keys, List.mem_cons, List.not_mem_nil, or_false] at hkey
    rcases hkey with rfl | rfl | rfl <;> simp
  data := rfl
  error := .inl rfl
  code := .inl rfl

/-- The response with an envelope in its body. -/
def response (envelope : Envelope) : Response := ⟨200, Text.Utf8.encode envelope.write.write⟩

/-- An envelope is read back from the response, if its data is. -/
theorem read?_response {envelope : Envelope} (hplain : Json.Plain (Json.maxDepth - 1) envelope.data)
    (hkept : Json.reread? envelope.data = some envelope.data) :
    read? envelope.response.body = some envelope := by
  have hwhole : Json.Plain Json.maxDepth envelope.write := ⟨hplain, trivial, trivial, trivial⟩
  have hreread : Json.reread? envelope.write = some envelope.write := by
    simp [write, Json.reread?, Json.rereadMembers?, hkept]
  have hjson : Json.read? (Text.Utf8.symbols envelope.response.body) = some envelope.write := by
    rw [response, Text.Utf8.symbols_encode]
    exact (Json.parse?_write hwhole).trans hreread
  exact (read?_of_whole (Json.read?_eq_some_iff.1 hjson)).2 envelope.standsIn_write

/-! ## Outcomes -/

/-- The data has a value: under the key in question, or as a whole. Null is no value. -/
def Carries (envelope : Envelope) (field : Option String) (json : Json) : Prop :=
  json ≠ .null ∧
    match field with
    | none => envelope.data = json
    | some key => ∃ members, envelope.data = .obj members ∧ Json.lookup key members = some json

/-- The data has no value: it is null, or it is no object, or it has nothing under the key in
question, or null. -/
def Withholds (envelope : Envelope) : Option String → Prop
  | none => envelope.data = .null
  | some key => (∀ members, envelope.data ≠ .obj members) ∨
      ∃ members, envelope.data = .obj members ∧
        (key ∉ members.map Prod.fst ∨ Json.lookup key members = some .null)

section

variable {α : Type} {codec : Codec α} {field : Option String} {result : Except Exchange.Fault α}
  {response : Response}

/-- What comes of a response, by its first cause. -/
inductive Outcome (codec : Codec α) (field : Option String) (response : Response) :
    Except Exchange.Fault α → Prop
  | status (hstatus : response.status ≠ 200) : Outcome codec field response
      (.error (.status response.status (String.ofList (Text.Utf8.decodeLossy response.body))))
  | malformed (hstatus : response.status = 200)
      (hnone : ¬ ∃ envelope, Tells response.body envelope) :
      Outcome codec field response (.error .malformed)
  | remote {envelope : Envelope} (hstatus : response.status = 200)
      (htells : Tells response.body envelope) (herror : envelope.error ≠ "") :
      Outcome codec field response (.error (.remote envelope.error envelope.code))
  | missing {envelope : Envelope} (hstatus : response.status = 200)
      (htells : Tells response.body envelope) (herror : envelope.error = "")
      (hnone : envelope.Withholds field) : Outcome codec field response
      (.error (.invalidResponse ("missing '" ++ field.getD "data" ++ "' in response data")))
  | unreadable {envelope : Envelope} {json : Json} (hstatus : response.status = 200)
      (htells : Tells response.body envelope) (herror : envelope.error = "")
      (hcarries : envelope.Carries field json) (hvalue : codec.read? json = none) :
      Outcome codec field response (.error .malformed)
  | value {envelope : Envelope} {json : Json} {value : α} (hstatus : response.status = 200)
      (htells : Tells response.body envelope) (herror : envelope.error = "")
      (hcarries : envelope.Carries field json) (hvalue : codec.read? json = some value) :
      Outcome codec field response (.ok value)

theorem value?_eq_some_iff : envelope.value? field = some json ↔ envelope.Carries field json := by
  cases field with
  | none =>
      cases hdata : envelope.data <;> simp +contextual [value?, Carries, hdata, eq_comm, iff_def]
  | some key =>
      cases hdata : envelope.data with
      | obj members =>
          simp only [value?, hdata, Carries, Json.obj.injEq, exists_eq_left', ne_eq]
          cases hlookup : Json.lookup key members with
          | none => simp
          | some value => cases value <;> simp +contextual [eq_comm, iff_def]
      | null | bool | int | real | str | arr => simp [value?, Carries, hdata]

theorem value?_eq_none_iff : envelope.value? field = none ↔ envelope.Withholds field := by
  cases field with
  | none => cases hdata : envelope.data <;> simp [value?, Withholds, hdata]
  | some key =>
      cases hdata : envelope.data with
      | obj members =>
          simp only [value?, hdata, Withholds, ← Json.exists_lookup_iff, Json.obj.injEq,
            exists_eq_left', ne_eq]
          cases hlookup : Json.lookup key members with
          | none => simp
          | some value => cases value <;> simp
      | null | bool | int | real | str | arr => simp [value?, Withholds, hdata]

theorem outcome_decode (codec : Codec α) (field : Option String) (response : Response) :
    Outcome codec field response (decode codec field response) := by
  by_cases hstatus : response.status = 200
  · have hok : response.isOk := decide_eq_true hstatus
    simp only [decode, hok, not_true, if_false]
    cases hread : read? response.body with
    | none => exact .malformed hstatus (read?_eq_none_iff.1 hread)
    | some envelope =>
        have htells := read?_eq_some_iff.1 hread
        by_cases herror : envelope.error = ""
        · simp only [herror, ne_eq, not_true, if_false]
          cases hvalue : envelope.value? field with
          | none => exact .missing hstatus htells herror (value?_eq_none_iff.1 hvalue)
          | some json =>
              have hcarries := value?_eq_some_iff.1 hvalue
              dsimp only
              split
              · next hjson => exact .unreadable hstatus htells herror hcarries hjson
              · next hjson => exact .value hstatus htells herror hcarries hjson
        · simp only [ne_eq, herror, not_false_eq_true, if_true]
          exact .remote hstatus htells herror
  · have hbad : ¬ response.isOk := by simpa [Response.isOk] using hstatus
    rw [decode, if_pos hbad]
    exact .status hstatus

theorem Outcome.decode_eq (h : Outcome codec field response result) :
    decode codec field response = result := by
  cases h with
  | status hstatus => simp [decode, Response.isOk, hstatus]
  | malformed hstatus hnone => simp [decode, Response.isOk, hstatus, read?_eq_none_iff.2 hnone]
  | remote hstatus htells herror =>
      simp [decode, Response.isOk, hstatus, read?_eq_some_iff.2 htells, herror]
  | missing hstatus htells herror hnone =>
      simp only [decode, Response.isOk, hstatus, read?_eq_some_iff.2 htells, herror,
        value?_eq_none_iff.2 hnone, decide_true, not_true, if_false, ne_eq]
      rfl
  | unreadable hstatus htells herror hcarries hvalue =>
      simp [decode, Response.isOk, hstatus, read?_eq_some_iff.2 htells, herror,
        value?_eq_some_iff.2 hcarries, hvalue]
  | value hstatus htells herror hcarries hvalue =>
      simp [decode, Response.isOk, hstatus, read?_eq_some_iff.2 htells, herror,
        value?_eq_some_iff.2 hcarries, hvalue]

theorem decode_eq_iff :
    decode codec field response = result ↔ Outcome codec field response result :=
  ⟨fun h => h ▸ outcome_decode codec field response, Outcome.decode_eq⟩

/-- What the data of a written envelope without an error carries is there to be taken. -/
theorem contents?_response {data json : Json} {code : String}
    (hplain : Json.Plain (Json.maxDepth - 1) data) (hkept : Json.reread? data = some data)
    (hcarries : (⟨data, "", code⟩ : Envelope).Carries field json) :
    contents? field (Envelope.response ⟨data, "", code⟩) = some json := by
  have hread : read? (Envelope.response ⟨data, "", code⟩).body = some ⟨data, "", code⟩ :=
    read?_response hplain hkept
  have hvalue : (⟨data, "", code⟩ : Envelope).value? field = some json :=
    value?_eq_some_iff.2 hcarries
  have hok : (Envelope.response ⟨data, "", code⟩).isOk := rfl
  simp only [contents?, hok, if_true, hread, Option.filter_some, decide_true, Option.bind_some,
    hvalue]

/-- Nothing comes of the members of the data that are not in question. -/
theorem decode_of_members {other : Response} (hstatus : response.status = 200)
    (hother : other.status = 200) (htells : Tells response.body envelope)
    (hdata : envelope.data = .obj members)
    (htellsOther : Tells other.body { envelope with data := .obj others })
    (hsame : others.filter (·.1 = key) = members.filter (·.1 = key)) :
    decode codec (some key) other = decode codec (some key) response := by
  have hlookup : Json.lookup key others = Json.lookup key members := by
    rw [← Json.lookup_filter, hsame, Json.lookup_filter]
  have hvalue : ({ envelope with data := .obj others } : Envelope).value? (some key) =
      envelope.value? (some key) := by
    simp only [value?, hdata, hlookup]
  have hread := read?_eq_some_iff.2 htells
  have hreadOther := read?_eq_some_iff.2 htellsOther
  simp only [decode, Response.isOk, hstatus, hother, hread, hreadOther, hvalue, decide_true,
    not_true, if_false]

end

/-- What comes of a response is decided by its first cause, and this for every body. It is an
envelope by the grammar of JSON over its characters, which are those of a text exactly if the body
is this text in UTF-8. A body that is JSON is an envelope if it is an object with each of the three
keys at most once, or a short array, and has no error or code that is no text. What the data of an
envelope has under other keys than the one in question does not count. -/
theorem decode_outcome {α : Type} (codec : Codec α) (field : Option String) (response : Response) :
    (∀ result, decode codec field response = result ↔ Outcome codec field response result) ∧
    (∀ text : List Char, Text.Utf8.symbols response.body = text.map some ↔
      Text.Utf8.encode text = response.body) ∧
    (∀ json, Json.Whole (Text.Utf8.symbols response.body) json →
      ∀ envelope, Tells response.body envelope ↔ envelope.StandsIn json) ∧
    ∀ (other : Response) (key : String) (envelope : Envelope)
      (members others : List (String × Json)),
      field = some key → response.status = 200 → other.status = 200 →
      Tells response.body envelope → envelope.data = .obj members →
      Tells other.body { envelope with data := .obj others } →
      others.filter (·.1 = key) = members.filter (·.1 = key) →
      decode codec field other = decode codec field response := by
  refine ⟨fun result => decode_eq_iff, fun text => Text.Utf8.symbols_eq_iff,
    fun json hjson envelope => tells_iff hjson, ?_⟩
  rintro other key envelope members others rfl hstatus hother htells hdata htellsOther hsame
  exact decode_of_members hstatus hother htells hdata htellsOther hsame

/-- An error counts before the value beside it, another member of the data does not count, and a
body that is no JSON is malformed. -/
theorem decode_outcome_hash :
    decode Codec.text (some "txHash")
        (response ⟨.obj [("txHash", .str "abc")], "bad nonce", "bad_request"⟩) =
      .error (.remote "bad nonce" "bad_request") ∧
    decode Codec.text (some "txHash")
        (response ⟨.obj [("more", .null), ("txHash", .str "abc")], "", ""⟩) =
      decode Codec.text (some "txHash") (response ⟨.obj [("txHash", .str "abc")], "", ""⟩) ∧
    decode Codec.text (some "txHash") ⟨200, Text.Utf8.encode "gone".toList⟩ =
      .error .malformed := by
  have hread : ∀ error code,
      Tells (response ⟨.obj [("txHash", .str "abc")], error, code⟩).body
        ⟨.obj [("txHash", .str "abc")], error, code⟩ :=
    fun error code => read?_eq_some_iff.1 (read?_response ⟨trivial, trivial⟩ rfl)
  have hmore : Tells (response ⟨.obj [("more", .null), ("txHash", .str "abc")], "", ""⟩).body
      ⟨.obj [("more", .null), ("txHash", .str "abc")], "", ""⟩ :=
    read?_eq_some_iff.1 (read?_response ⟨trivial, trivial, trivial⟩ rfl)
  refine ⟨?_, ?_, ?_⟩
  · exact ((decode_outcome ..).1 _).2 (.remote rfl (hread ..) (by decide))
  · exact (decode_outcome ..).2.2.2 _ "txHash" _ _ _ rfl rfl rfl (hread ..) rfl hmore (by simp)
  · refine ((decode_outcome ..).1 _).2 (.malformed rfl (read?_eq_none_iff.1 ?_))
    decide

end Envelope

end ShardNet
