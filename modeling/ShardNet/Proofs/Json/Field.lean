-- SUMMARY: What a record takes from JSON: for each field a member or an item, or what stands in for it.
import ShardNet.Proofs.Json.Record

/-!
# Fields of foreign JSON

A record is read from any object and from any array that is not too long, also from one that nobody
has written by that record. `Takes` says what it takes for each field: the last member with its key,
the item at its place, or else the default of the field. So a field that is missing and one that
holds the default are read alike.
-/

namespace ShardNet.Json

/-! ## Sources -/

/-- What a source has for the field with a key, or at a place. -/
def Source.part? : Source → String → Nat → Option Json
  | .keyed members, key, _ => lookup key members
  | .positional items, _, place => items[place]?

/-- What a source has left after so many fields. -/
def Source.drop (count : Nat) : Source → Source
  | .keyed members => .keyed members
  | .positional items => .positional (items.drop count)

theorem Source.take_drop {source : Source} {key : String} {count : Nat} :
    (source.drop count).take key = (source.part? key count, source.drop (count + 1)) := by
  cases source with
  | keyed members => rfl
  | positional items =>
      simp only [drop, part?]
      cases hitems : items.drop count with
      | nil =>
          have hlength : items.length ≤ count := List.drop_eq_nil_iff.1 hitems
          rw [List.getElem?_eq_none hlength, List.drop_eq_nil_of_le (by omega)]
          rfl
      | cons item rest =>
          have hitem : items[count]? = some item := by
            rw [← List.head?_drop, hitems, List.head?_cons]
          have hrest : items.drop (count + 1) = rest := by
            rw [← List.tail_drop, hitems, List.tail_cons]
          rw [hitem, hrest]
          rfl

/-! ## Records -/

namespace Record

variable {ρ β γ : Type} {size : Nat}

/-- A record of `size` fields. From any source it takes the values that are related to what the
source has. -/
def Takes (record : Record ρ β) (size : Nat)
    (taken : (String → Nat → Option Json) → β → Prop) : Prop :=
  ∀ source value rest, record.read? source = some (value, rest) ↔
    taken source.part? value ∧ rest = source.drop size

theorem takes_of (build : β) : (of build : Record ρ β).Takes 0 fun _ value => value = build := by
  intro source value rest
  have hdrop : source.drop 0 = source := by cases source <;> rfl
  simp [of, hdrop, eq_comm]

theorem Takes.mono {record : Record ρ β} {taken wanted : (String → Nat → Option Json) → β → Prop}
    (h : record.Takes size taken) (hsame : ∀ part? value, taken part? value ↔ wanted part? value) :
    record.Takes size wanted := fun source value rest => by rw [h, hsame]

variable {record : Record ρ (γ → β)}
  {taken : (String → Nat → Option Json) → (γ → β) → Prop} {key : String} {get : ρ → γ}
  {codec : Codec γ}

theorem Takes.field {missing : Option γ} {omits : γ → Bool} (h : record.Takes size taken) :
    (record.field key get codec missing omits).Takes (size + 1) fun part? value =>
      ∃ build, taken part? build ∧ ∃ given, Supplied codec missing (part? key size) given ∧
        value = build given := by
  intro source value rest
  rw [field_read?_eq_some_iff]
  constructor
  · rintro ⟨build, middle, hbuild, given, hgiven, rfl, rfl⟩
    obtain ⟨htaken, rfl⟩ := (h _ _ _).1 hbuild
    rw [Source.take_drop] at hgiven ⊢
    exact ⟨⟨build, htaken, given, hgiven, rfl⟩, rfl⟩
  · rintro ⟨⟨build, htaken, given, hgiven, rfl⟩, rfl⟩
    refine ⟨build, _, (h _ _ _).2 ⟨htaken, rfl⟩, given, ?_⟩
    rw [Source.take_drop]
    exact ⟨hgiven, rfl, rfl⟩

theorem Takes.required (h : record.Takes size taken) :
    (record.required key get codec).Takes (size + 1) fun part? value =>
      ∃ build, taken part? build ∧ ∃ given, Supplied codec none (part? key size) given ∧
          value = build given :=
  h.field

theorem Takes.withDefault {default : γ} (h : record.Takes size taken) :
    (record.withDefault key get codec default).Takes (size + 1) fun part? value =>
      ∃ build, taken part? build ∧ ∃ given, Supplied codec (some default) (part? key size) given ∧
        value = build given :=
  h.field

end Record

/-! ## Values -/

/-- What a value has for the field with a key, or at a place. -/
def part? : Json → String → Nat → Option Json
  | .obj members => (Source.keyed members).part?
  | .arr items => (Source.positional items).part?
  | _ => fun _ _ => none

/-- An object, or an array of at most so many items. -/
def HoldsFields (size : Nat) : Json → Prop
  | .obj _ => True
  | .arr items => items.length ≤ size
  | _ => False

theorem Record.Takes.read?_iff {ρ : Type} {record : Record ρ ρ} {size : Nat}
    {taken : (String → Nat → Option Json) → ρ → Prop} (h : record.Takes size taken)
    {json : Json} {value : ρ} :
    record.codec.read? json = some value ↔ json.HoldsFields size ∧ taken json.part? value := by
  cases json with
  | null | bool | int | real | str => simp [Record.codec, HoldsFields]
  | obj members =>
      simp only [Record.codec, Option.map_eq_some_iff, HoldsFields, true_and, part?]
      constructor
      · rintro ⟨⟨_, rest⟩, hread, rfl⟩
        exact ((h _ _ _).1 hread).1
      · exact fun htaken => ⟨(value, _), (h _ _ _).2 ⟨htaken, rfl⟩, rfl⟩
  | arr items =>
      simp only [Record.codec, HoldsFields, part?]
      have hwhole : record.read? (.positional items) = some (value, .positional []) ↔
          items.length ≤ size ∧ taken (Source.positional items).part? value := by
        rw [h, Source.drop, Source.positional.injEq, eq_comm (a := []),
          List.drop_eq_nil_iff, and_comm]
      rw [← hwhole]
      split
      · next hread => simp [hread]
      · next hread =>
        simp only [reduceCtorEq, false_iff]
        exact hread value

/-- A value that has a number for a field. -/
def Reports (json : Json) (key : String) (place number : Nat) : Prop :=
  json.part? key place = some (.int number)

/-- A value that has nothing for a field. -/
def Lacks (json : Json) (key : String) (place : Nat) : Prop := json.part? key place = none

/-- The number that is taken for a field: the reported one, or zero if there is nothing for the
field. -/
def Counts (json : Json) (key : String) (place number : Nat) : Prop :=
  json.Reports key place number ∨ json.Lacks key place ∧ number = 0

theorem Counts.unique {json : Json} {key : String} {place number other : Nat}
    (h : json.Counts key place number) (h' : json.Counts key place other) : number = other := by
  simp only [Counts, Reports, Lacks] at h h'
  grind

theorem Codec.unsigned_read?_iff {ω : Type} [Unsigned ω] {json : Json} {value : ω} :
    (unsigned ω).read? json = some value ↔ json = .int (Unsigned.toNat value) := by
  constructor
  · intro hread
    cases json with
    | int number =>
        obtain ⟨⟨hpos, hbound⟩, rfl⟩ : (0 ≤ number ∧ number < Unsigned.bound ω) ∧
            Unsigned.ofNat number.toNat = value := by
          simpa [unsigned, Unsigned.ofInt?] using hread
        rw [Unsigned.toNat_ofNat (by omega), Int.toNat_of_nonneg hpos]
    | null | bool | real | str | arr | obj => cases hread
  · rintro rfl
    exact unsigned_read?_toNat value

theorem Codec.text_read?_iff {json : Json} {value : String} :
    text.read? json = some value ↔ json = .str value := by
  cases json <;> simp [text]

/-- A number is taken from what is reported, or is zero. -/
theorem Record.supplied_iff_counts {ω : Type} [Unsigned ω]
    {default value : ω} {json : Json} {key : String} {place : Nat}
    (hdefault : Unsigned.toNat default = 0) :
    Supplied (Codec.unsigned ω) (some default) (json.part? key place) value ↔
      json.Counts key place (Unsigned.toNat value) := by
  unfold Counts Reports Lacks
  cases json.part? key place with
  | none =>
      simp only [Supplied, Option.some.injEq, reduceCtorEq, false_or, true_and]
      exact ⟨fun h => h ▸ hdefault, fun h => Unsigned.toNat_inj (hdefault.trans h.symm)⟩
  | some found => simp [Supplied, Codec.unsigned_read?_iff]

theorem Record.Supplied.counts {ω : Type} [Unsigned ω]
    {default value : ω} {json : Json} {key : String} {place : Nat}
    (hdefault : Unsigned.toNat default = 0)
    (h : Supplied (Codec.unsigned ω) (some default) (json.part? key place) value) :
    json.Counts key place (Unsigned.toNat value) := (supplied_iff_counts hdefault).1 h

end ShardNet.Json
