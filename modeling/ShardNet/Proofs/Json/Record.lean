-- SUMMARY: Codecs and records that read back what they write.
import ShardNet.Json.Record
import ShardNet.Proofs.Json.ReadBack
import ShardNet.Proofs.Text.Base64

/-!
# Reading back records

A lawful codec reads back every value that it has written. A codec may also be lawful on a part of
its values only: it reads back the good ones, and refuses what it has written for the others. A
record of such codecs is another one, if its keys are distinct, and if what it leaves out is what
stands in for a missing field. Its good values are those with good fields.

`Builds` is the invariant of a record under construction: from any members that have the written
values under its keys, the record builds what it should, whatever stands under other keys.
-/

namespace ShardNet.Json

/-! ## Members -/

theorem lookup_append (key : String) (front back : List (String × Json)) :
    lookup key (front ++ back) = (lookup key back).or (lookup key front) := by
  induction front with
  | nil => simp
  | cons member front ih =>
      obtain ⟨name, value⟩ := member
      simp only [List.cons_append, lookup, ih]
      cases lookup key back with
      | some later => rfl
      | none => rfl

theorem lookup_eq_none {key : String} {members : List (String × Json)}
    (hnone : ∀ member ∈ members, member.1 ≠ key) : lookup key members = none := by
  induction members with
  | nil => rfl
  | cons member members ih =>
      obtain ⟨name, value⟩ := member
      have hname : name ≠ key := hnone (name, value) (by simp)
      simp [lookup, ih fun other hother => hnone other (by simp [hother]), hname]

theorem exists_lookup_iff {key : String} {members : List (String × Json)} :
    (∃ value, lookup key members = some value) ↔ key ∈ members.map Prod.fst := by
  induction members with
  | nil => simp
  | cons member rest ih =>
      obtain ⟨name, other⟩ := member
      rw [List.map_cons, List.mem_cons, ← ih]
      simp only [lookup]
      cases hlater : lookup key rest with
      | some later => simp
      | none =>  simp [eq_comm]

theorem lookup_filter (key : String) (members : List (String × Json)) :
    lookup key (members.filter (·.1 = key)) = lookup key members := by
  induction members with
  | nil => rfl
  | cons member rest ih =>
      obtain ⟨name, value⟩ := member
      by_cases hname : name = key
      · rw [List.filter_cons_of_pos (by simpa using hname), lookup, lookup, ih]
      · rw [List.filter_cons_of_neg (by simpa using hname), ih, lookup, if_neg hname]
        cases lookup key rest <;> rfl

theorem plainMembers_append {depth : Nat} {front back : List (String × Json)}
    (hfront : PlainMembers depth front) (hback : PlainMembers depth back) :
    PlainMembers depth (front ++ back) := by
  induction front with
  | nil => exact hback
  | cons member front ih => exact ⟨hfront.1, ih hfront.2⟩

theorem rereadMembers?_cons {key : String} {value : Json} {members written : List (String × Json)} :
    rereadMembers? ((key, value) :: members) = some written ↔
      ∃ json rest, reread? value = some json ∧
      rereadMembers? members = some rest ∧ written = (key, json) :: rest := by
  simp only [rereadMembers?, Option.bind_eq_bind, Option.bind_eq_some_iff, Option.pure_def,
    Option.some.injEq]
  constructor
  · rintro ⟨json, hjson, rest, hrest, rfl⟩
    exact ⟨json, rest, hjson, hrest, rfl⟩
  · rintro ⟨json, rest, hjson, hrest, rfl⟩
    exact ⟨json, hjson, rest, hrest, rfl⟩

theorem rereadMembers?_append {front back written : List (String × Json)} :
    rereadMembers? (front ++ back) = some written ↔
      ∃ first second, rereadMembers? front = some first ∧
      rereadMembers? back = some second ∧ written = first ++ second := by
  induction front generalizing written with
  | nil => simp [rereadMembers?]
  | cons member front ih =>
      obtain ⟨key, value⟩ := member
      simp only [List.cons_append, rereadMembers?_cons, ih]
      constructor
      · rintro ⟨json, _, hjson, ⟨first, second, hfirst, hsecond, rfl⟩, rfl⟩
        exact ⟨(key, json) :: first, second, ⟨json, first, hjson, hfirst, rfl⟩, hsecond, rfl⟩
      · rintro ⟨_, second, ⟨json, first, hjson, hfirst, rfl⟩, hsecond, rfl⟩
        exact ⟨json, first ++ second, hjson, ⟨first, second, hfirst, hsecond, rfl⟩, rfl⟩

/-- Reading changes no key. -/
theorem mem_of_mem_rereadMembers? {members written : List (String × Json)} {member : String × Json}
    (hread : rereadMembers? members = some written) (hmem : member ∈ written) :
    ∃ value, (member.1, value) ∈ members := by
  induction members generalizing written with
  | nil =>
      cases hread
      cases hmem
  | cons first members ih =>
      obtain ⟨key, value⟩ := first
      obtain ⟨json, rest, -, hrest, rfl⟩ := rereadMembers?_cons.1 hread
      rcases List.mem_cons.1 hmem with rfl | hmem
      · exact ⟨value, List.mem_cons_self⟩
      · obtain ⟨other, hother⟩ := ih hrest hmem
        exact ⟨other, List.mem_cons_of_mem _ hother⟩

/-! ## Codecs -/

/-- A codec that writes plain values, reads back the good ones, and refuses what it has written for
the others. -/
structure Codec.LawfulOn {α : Type} (depth : Nat) (codec : Codec α) (good : α → Prop) : Prop where
  plain : ∀ value, Plain depth (codec.write value)
  reads : ∀ value read, (reread? (codec.write value)).bind codec.read? = some read ↔
    read = value ∧ good value

/-- A codec whose written values are all read back. -/
abbrev Codec.Lawful {α : Type} (depth : Nat) (codec : Codec α) : Prop :=
  codec.LawfulOn depth fun _ => True

namespace Codec

variable {α : Type} {codec : Codec α} {good : α → Prop} {depth : Nat} {value read : α} {json : Json}

theorem LawfulOn.mono {wanted : α → Prop} (h : codec.LawfulOn depth good)
    (hsame : ∀ value, good value ↔ wanted value) : codec.LawfulOn depth wanted where
  plain := h.plain
  reads value read := (h.reads value read).trans (and_congr_right fun _ => hsame value)

theorem LawfulOn.read?_iff (h : codec.LawfulOn depth good)
    (hjson : reread? (codec.write value) = some json) :
    codec.read? json = some read ↔ read = value ∧ good value := by
  rw [← h.reads, hjson]
  rfl

theorem LawfulOn.exists_reread (h : codec.LawfulOn depth good) (hgood : good value) :
    ∃ json, reread? (codec.write value) = some json := by
  obtain ⟨json, hjson, -⟩ := Option.bind_eq_some_iff.1 ((h.reads value value).2 ⟨rfl, hgood⟩)
  exact ⟨json, hjson⟩

/-- A codec is lawful if what it writes is read back as it stands. -/
theorem lawful_of_kept (hplain : ∀ value, Plain depth (codec.write value))
    (hkept : ∀ value, reread? (codec.write value) = some (codec.write value))
    (hreads : ∀ value, codec.read? (codec.write value) = some value) : codec.Lawful depth where
  plain := hplain
  reads value read := by
    rw [hkept, Option.bind_some, hreads, Option.some.injEq]
    simp [eq_comm]

/-! ### Basic types -/

theorem lawful_text : text.Lawful depth :=
  lawful_of_kept (fun _ => trivial) (fun _ => rfl) fun _ => rfl

theorem lawful_bytes : bytes.Lawful depth :=
  lawful_of_kept (fun _ => trivial) (fun _ => rfl) fun value => by
    have hdecode : Text.Base64.decode .optional (Text.Base64.encode value) = .ok value :=
      Text.Base64.decode_encode value
    simp [bytes, Text.Base64.text, hdecode, Except.toOption]

theorem lawful_int64 : int64.Lawful depth :=
  lawful_of_kept (fun _ => trivial)
    (fun value => reread?_int ⟨value.le_toInt, Int.lt_trans value.toInt_lt (by decide)⟩)
    fun value => by
      simp only [int64, if_pos (And.intro value.le_toInt value.toInt_lt), Int64.ofInt_toInt]

section Unsigned

variable {ω : Type} [Unsigned ω]

theorem unsigned_read?_toNat (value : ω) :
    (unsigned ω).read? (.int (Unsigned.toNat value)) = some value :=
  Unsigned.ofInt?_toNat value

theorem reread?_unsigned {value : ω} (hsmall : Unsigned.toNat value < 2 ^ 64) :
    reread? (.int (Unsigned.toNat value)) = some (.int (Unsigned.toNat value)) :=
  reread?_int ⟨by omega, by omega⟩

/-- Integers that are all in the range of the reader. -/
theorem lawful_unsigned (hbound : Unsigned.bound ω ≤ 2 ^ 64) : (unsigned ω).Lawful depth :=
  lawful_of_kept (fun _ => trivial)
    (fun value => reread?_unsigned (Nat.lt_of_lt_of_le (Unsigned.toNat_lt value) hbound))
    unsigned_read?_toNat

theorem lawful_uint32 : uint32.Lawful depth := lawful_unsigned (by decide)

theorem lawful_uint64 : uint64.Lawful depth := lawful_unsigned (by decide)

/-- An integer that may be read from a text is written as a number all the same, and a number beyond
the range of the reader is not read back. -/
theorem lawfulOn_unsignedOrText :
    (unsignedOrText ω).LawfulOn depth fun value => Unsigned.toNat value < 2 ^ 64 where
  plain _ := trivial
  reads value read := by
    show (reread? (.int (Unsigned.toNat value))).bind (unsignedOrText ω).read? = some read ↔ _
    by_cases hsmall : Unsigned.toNat value < 2 ^ 64
    · rw [reread?_unsigned hsmall, Option.bind_some]
      simp only [unsignedOrText, orText, unsigned_read?_toNat, Option.some.injEq, hsmall, and_true]
      exact eq_comm
    · simp only [hsmall, and_false, iff_false, Option.bind_eq_some_iff, not_exists, not_and]
      intro json hjson hread
      obtain ⟨number, rfl⟩ := exists_real_of_reread? (Nat.le_of_not_lt hsmall) hjson
      cases hread

theorem lawful_unsignedOrText (hbound : Unsigned.bound ω ≤ 2 ^ 64) :
    (unsignedOrText ω).Lawful depth :=
  lawfulOn_unsignedOrText.mono fun value =>
    iff_true_intro (Nat.lt_of_lt_of_le (Unsigned.toNat_lt value) hbound)

end Unsigned

/-! ### Containers -/

theorem option_read?_of_ne_null (hpresent : json ≠ .null) :
    codec.option.read? json = (codec.read? json).map some := by
  cases json with
  | null => exact absurd rfl hpresent
  | bool | int | real | str | arr | obj => rfl

/-- Null is taken for an absent value, so it must not be read as a present one. -/
theorem lawful_option (h : codec.Lawful depth) (hnull : codec.read? .null = none) :
    codec.option.Lawful depth where
  plain
    | none => trivial
    | some value => h.plain value
  reads
    | none, read => by simp [option, reread?, eq_comm]
    | some value, read => by
        obtain ⟨json, hjson⟩ : ∃ json, reread? (codec.write value) = some json :=
          h.exists_reread trivial
        have hread : codec.read? json = some value := (h.read?_iff hjson).2 ⟨rfl, trivial⟩
        have hpresent : json ≠ .null := by
          rintro rfl
          cases hnull.symm.trans hread
        have hwritten : reread? (codec.option.write (some value)) = some json := hjson
        rw [hwritten, Option.bind_some, option_read?_of_ne_null hpresent, hread]
        simp [eq_comm]

theorem plainItems_map (h : codec.LawfulOn depth good) (values : List α) :
    PlainItems depth (values.map codec.write) := by
  induction values with
  | nil => trivial
  | cons value values ih => exact ⟨h.plain value, ih⟩

theorem rereadItems?_map (h : codec.LawfulOn depth good) {values reads : List α} :
    (rereadItems? (values.map codec.write)).bind (·.mapM codec.read?) = some reads ↔
      reads = values ∧ ∀ value ∈ values, good value := by
  induction values generalizing reads with
  | nil => simp [rereadItems?, eq_comm]
  | cons value values ih =>
      simp only [List.map_cons, rereadItems?, List.forall_mem_cons]
      constructor
      · intro hreads
        obtain ⟨_, hitems, hreads⟩ := Option.bind_eq_some_iff.1 hreads
        obtain ⟨json, hjson, hitems⟩ := Option.bind_eq_some_iff.1 hitems
        obtain ⟨items, hrest, hitems⟩ := Option.bind_eq_some_iff.1 hitems
        cases hitems
        rw [List.mapM_cons] at hreads
        obtain ⟨first, hfirst, hreads⟩ := Option.bind_eq_some_iff.1 hreads
        obtain ⟨rest, hothers, hreads⟩ := Option.bind_eq_some_iff.1 hreads
        cases hreads
        obtain ⟨rfl, hgood⟩ := (h.read?_iff hjson).1 hfirst
        obtain ⟨rfl, hall⟩ := ih.1 (Option.bind_eq_some_iff.2 ⟨items, hrest, hothers⟩)
        exact ⟨rfl, hgood, hall⟩
      · rintro ⟨rfl, hgood, hall⟩
        obtain ⟨json, hjson⟩ := h.exists_reread hgood
        obtain ⟨items, hrest, hothers⟩ := Option.bind_eq_some_iff.1 (ih.2 ⟨rfl, hall⟩)
        have hfirst : codec.read? json = some value := (h.read?_iff hjson).2 ⟨rfl, hgood⟩
        simp [hjson, hrest, hfirst, hothers]

/-- A list is good if all of its values are. -/
theorem lawfulOn_list (h : codec.LawfulOn depth good) :
    codec.list.LawfulOn (depth + 1) fun values => ∀ value ∈ values, good value where
  plain values := plainItems_map h values
  reads values read := by
    rw [← rereadItems?_map h]
    simp only [list, reread?, Option.bind_map]
    rfl

theorem lawful_list (h : codec.Lawful depth) : codec.list.Lawful (depth + 1) :=
  (lawfulOn_list h).mono fun _ => iff_true_intro fun _ _ => trivial

/-! ### Texts -/

/-- The text of a value is read back, if the value is good, and is refused otherwise. -/
theorem LawfulOn.parse_iff (h : codec.LawfulOn maxDepth good) (value read : α) :
    (parse? (codec.write value).write).bind codec.read? = some read ↔
      read = value ∧ good value := by
  rw [parse?_write (h.plain value), h.reads]

/-- A value that is written by a lawful codec is read back from its text. -/
theorem Lawful.parse (h : codec.Lawful maxDepth) (value : α) :
    (parse? (codec.write value).write).bind codec.read? = some value :=
  (LawfulOn.parse_iff h value value).2 ⟨rfl, trivial⟩

theorem Lawful.write_injective (h : codec.Lawful maxDepth) {value other : α}
    (hsame : (codec.write value).write = (codec.write other).write) : value = other := by
  have hread := h.parse value
  rw [hsame, h.parse other, Option.some.injEq] at hread
  exact hread.symm

end Codec

/-! ## Records -/

namespace Record

variable {ρ β γ : Type} {depth : Nat} {keys : List String}

section

variable {record : Record ρ (γ → β)} {key : String} {get : ρ → γ} {codec : Codec γ}
  {missing : Option γ} {omits : γ → Bool}

/-- The value of a field, from what the source has for it, or instead of that. -/
def Supplied (codec : Codec γ) (missing : Option γ) : Option Json → γ → Prop
  | some json, value => codec.read? json = some value
  | none, value => missing = some value

/-- A field is read after the earlier ones, from what they leave of the source. -/
theorem field_read?_eq_some_iff {source rest : Source} {value : β} :
    (record.field key get codec missing omits).read? source = some (value, rest) ↔
      ∃ build middle, record.read? source = some (build, middle) ∧
        ∃ given, Supplied codec missing (middle.take key).1 given ∧ value = build given ∧
          rest = (middle.take key).2 := by
  simp only [field]
  cases record.read? source with
  | none => simp
  | some found =>
      obtain ⟨build, middle⟩ := found
      simp only [Option.some.injEq, Prod.mk.injEq, and_assoc, exists_and_left, exists_eq_left']
      obtain ⟨_ | json, left⟩ := middle.take key <;>
        simp [Supplied, eq_comm (a := value), eq_comm (a := rest)]

end

/-- A record that builds `build value` from members that agree on its keys with what the members of
`value` are read back as, if the value is good, and that builds nothing from them otherwise. -/
structure Builds (record : Record ρ β) (depth : Nat) (keys : List String) (build : ρ → β)
    (good : ρ → Prop) : Prop where
  plain : ∀ value, PlainMembers depth (record.write value)
  keyed : ∀ value, ∀ member ∈ record.write value, member.1 ∈ keys
  kept : ∀ value, good value → ∃ written, rereadMembers? (record.write value) = some written
  reads : ∀ {value written members}, rereadMembers? (record.write value) = some written →
    (∀ key ∈ keys, lookup key members = lookup key written) → ∀ read rest,
    record.read? (.keyed members) = some (read, rest) ↔
      read = build value ∧ rest = .keyed members ∧ good value

theorem builds_of (build : β) :
    (of build : Record ρ β).Builds depth [] (fun _ => build) fun _ => True where
  plain _ := trivial
  keyed _ := nofun
  kept _ _ := ⟨[], rfl⟩
  reads _ _ read rest := by simp [of, eq_comm]

theorem Builds.mono {record : Record ρ β} {build : ρ → β} {good wanted : ρ → Prop}
    (h : record.Builds depth keys build good) (hsame : ∀ value, good value ↔ wanted value) :
    record.Builds depth keys build wanted where
  plain := h.plain
  keyed := h.keyed
  kept value hgood := h.kept value ((hsame value).2 hgood)
  reads hwritten hagree read rest := by rw [h.reads hwritten hagree, hsame]

variable {record : Record ρ (γ → β)} {build : ρ → γ → β} {key : String} {get : ρ → γ}
  {codec : Codec γ} {good : ρ → Prop} {fieldGood : γ → Prop}

theorem Builds.field {missing : Option γ} {omits : γ → Bool}
    (h : record.Builds depth keys build good) (hkey : key ∉ keys)
    (hcodec : codec.LawfulOn depth fieldGood)
    (homits : ∀ value, omits value → missing = some value ∧ fieldGood value) :
    (record.field key get codec missing omits).Builds depth (key :: keys)
      (fun value => build value (get value)) fun value => good value ∧ fieldGood (get value) where
  plain value := by
    refine plainMembers_append (h.plain value) ?_
    split
    · trivial
    · exact ⟨hcodec.plain _, trivial⟩
  keyed value member hmember := by
    rcases List.mem_append.1 hmember with hmember | hmember
    · exact List.mem_cons_of_mem key (h.keyed value member hmember)
    · split at hmember
      · cases hmember
      · rw [List.mem_singleton.1 hmember]
        exact List.mem_cons_self
  kept value hgood := by
    obtain ⟨first, hfirst⟩ := h.kept value hgood.1
    obtain ⟨json, hjson⟩ := hcodec.exists_reread hgood.2
    refine ⟨_, rereadMembers?_append.2 ⟨first, if omits (get value) then [] else [(key, json)],
      hfirst, ?_, rfl⟩⟩
    split
    · rfl
    · exact rereadMembers?_cons.2 ⟨json, [], hjson, rfl, rfl⟩
  reads {value written members} hwritten hagree read rest := by
    obtain ⟨first, second, hfirst, hsecond, rfl⟩ := rereadMembers?_append.1 hwritten
    have hown : lookup key first = none := lookup_eq_none fun member hmember heq => by
      obtain ⟨other, hwrote⟩ := mem_of_mem_rereadMembers? hfirst hmember
      have hmem : member.1 ∈ keys := h.keyed value (member.1, other) hwrote
      exact hkey (heq ▸ hmem)
    have hlookup : lookup key members = lookup key second := by
      rw [hagree key List.mem_cons_self, lookup_append, hown, Option.or_none]
    have hothers : ∀ other ∈ keys, lookup other members = lookup other first := by
      intro other hother
      have hnone : lookup other second = none := lookup_eq_none fun member hmember heq => by
        obtain ⟨_, hwrote⟩ := mem_of_mem_rereadMembers? hsecond hmember
        split at hwrote
        · cases hwrote
        · have hsame : member.1 = key := congrArg Prod.fst (List.mem_singleton.1 hwrote)
          exact hkey (hsame ▸ heq ▸ hother)
      rw [hagree other (List.mem_cons_of_mem key hother), lookup_append, hnone, Option.none_or]
    -- What stands under the key, or instead of it, is the field of the value, if that is good.
    have hsupplied : ∀ given, Supplied codec missing (lookup key members) given ↔
        given = get value ∧ fieldGood (get value) := by
      intro given
      rw [hlookup]
      split at hsecond
      · next homit =>
        cases hsecond
        obtain ⟨hmissing, hgood⟩ := homits _ homit
        simp [Supplied, hmissing, hgood, eq_comm]
      · obtain ⟨json, _, hjson, hnil, rfl⟩ := rereadMembers?_cons.1 hsecond
        cases hnil
        simpa [Supplied, lookup] using hcodec.read?_iff hjson
    simp only [field_read?_eq_some_iff, h.reads hfirst hothers]
    constructor
    · rintro ⟨_, _, ⟨rfl, rfl, hgood⟩, given, hgiven, rfl, rfl⟩
      obtain ⟨rfl, hfield⟩ := (hsupplied given).1 hgiven
      exact ⟨rfl, rfl, hgood, hfield⟩
    · rintro ⟨rfl, rfl, hgood, hfield⟩
      exact ⟨_, _, ⟨rfl, rfl, hgood⟩, _, (hsupplied _).2 ⟨rfl, hfield⟩, rfl, rfl⟩

theorem Builds.required (h : record.Builds depth keys build good) (hkey : key ∉ keys)
    (hcodec : codec.LawfulOn depth fieldGood) :
    (record.required key get codec).Builds depth (key :: keys) (fun value =>
      build value (get value)) fun value => good value ∧ fieldGood (get value) :=
  h.field hkey hcodec nofun

theorem Builds.withDefault {default : γ} (h : record.Builds depth keys build good)
    (hkey : key ∉ keys) (hcodec : codec.LawfulOn depth fieldGood) :
    (record.withDefault key get codec default).Builds depth (key :: keys)
      (fun value => build value (get value)) fun value => good value ∧ fieldGood (get value) :=
  h.field hkey hcodec nofun

theorem Builds.omitted [DecidableEq γ] {default : γ} (h : record.Builds depth keys build good)
    (hkey : key ∉ keys) (hcodec : codec.Lawful depth) :
    (record.omitted key get codec default).Builds depth (key :: keys)
      (fun value => build value (get value)) fun value => good value ∧ True :=
  h.field hkey hcodec fun _ homit => ⟨congrArg some (of_decide_eq_true homit).symm, trivial⟩

/-- A record that builds each value from its own fields is lawful on its good values. -/
theorem Builds.lawfulOn {record : Record ρ ρ} {build : ρ → ρ} {wanted : ρ → Prop}
    (h : record.Builds depth keys build good) (hbuild : ∀ value, build value = value)
    (hgood : ∀ value, good value ↔ wanted value) : record.codec.LawfulOn (depth + 1) wanted where
  plain value := h.plain value
  reads value read := by
    show ((rereadMembers? (record.write value)).map Json.obj).bind record.codec.read? = some read ↔
      _
    rw [← hgood]
    cases hwritten : rereadMembers? (record.write value) with
    | none =>
        have hbad : ¬ good value := fun hgood => by
          obtain ⟨written, hkept⟩ := h.kept value hgood
          cases hwritten.symm.trans hkept
        simp [hbad]
    | some written =>
        show (record.read? (.keyed written)).map (·.1) = some read ↔ _
        rw [Option.map_eq_some_iff]
        constructor
        · rintro ⟨⟨_, rest⟩, hread, rfl⟩
          obtain ⟨rfl, -, hgood⟩ := (h.reads hwritten (fun _ _ => rfl) _ _).1 hread
          exact ⟨hbuild value, hgood⟩
        · rintro ⟨rfl, hgood⟩
          exact ⟨_, (h.reads hwritten (fun _ _ => rfl) _ _).2 ⟨rfl, rfl, hgood⟩, hbuild _⟩

theorem Builds.lawful {record : Record ρ ρ} {build : ρ → ρ}
    (h : record.Builds depth keys build good) (hbuild : ∀ value, build value = value)
    (hgood : ∀ value, good value) :
    record.codec.Lawful (depth + 1) :=
  h.lawfulOn hbuild fun value => iff_true_intro (hgood value)

end Record

end ShardNet.Json
