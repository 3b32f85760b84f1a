-- SUMMARY: Records as JSON: one description of the fields gives the writer, the reader, the defaults and the omissions.
import ShardNet.Json.Codec

/-!
# Records

A `Record` lists the fields of a structure in the order in which they are written. Reading follows
the same list: from an object by the keys, or from an array by the positions. Keys that belong to
no field are passed over; an array may end early if the fields it lacks have defaults, and must not
be too long.

A description starts from the constructor and adds one field at a time:

    Record.of Point.mk
      |>.required "x" (·.x) codec
      |>.withDefault "y" (·.y) codec 0
-/

namespace ShardNet.Json

/-- Where the values of fields are taken from. -/
inductive Source where
  | keyed (members : List (String × Json))
  | positional (items : List Json)

/-- The value of the next field, whose key is `key`, and what is left for the later fields. -/
def Source.take (key : String) : Source → Option Json × Source
  | .keyed members => (lookup key members, .keyed members)
  | .positional [] => (none, .positional [])
  | .positional (item :: rest) => (some item, .positional rest)

/-- Fields of the structure `ρ`, and what they build. -/
structure Record (ρ β : Type) where
  write : ρ → List (String × Json)
  read? : Source → Option (β × Source)

namespace Record

variable {ρ β γ : Type}

/-- No fields yet: only the function that takes their values. -/
def of (build : β) : Record ρ β where
  write _ := []
  read? source := some (build, source)

/-- Adds a field. `missing` stands in where the source has none, and a value for which `omits` holds
is not written. -/
def field (record : Record ρ (γ → β)) (key : String) (get : ρ → γ) (codec : Codec γ)
    (missing : Option γ) (omits : γ → Bool) : Record ρ β where
  write value :=
    record.write value ++ if omits (get value) then [] else [(key, codec.write (get value))]
  read? source :=
    match record.read? source with
    | none => none
    | some (build, source) =>
      match source.take key with
      | (some json, source) => (codec.read? json).map fun value => (build value, source)
      | (none, source) => missing.map fun value => (build value, source)

/-- Adds a field that has to be there. -/
def required (record : Record ρ (γ → β)) (key : String) (get : ρ → γ) (codec : Codec γ) :
    Record ρ β :=
  record.field key get codec none fun _ => false

/-- Adds a field that is always written and may be missing. -/
def withDefault (record : Record ρ (γ → β)) (key : String) (get : ρ → γ) (codec : Codec γ)
    (default : γ) : Record ρ β :=
  record.field key get codec (some default) fun _ => false

/-- Adds a field that is left out when it has its default. -/
def omitted [DecidableEq γ] (record : Record ρ (γ → β)) (key : String) (get : ρ → γ)
    (codec : Codec γ) (default : γ) : Record ρ β :=
  record.field key get codec (some default) (· = default)

/-- The codec of a complete record. -/
def codec (record : Record ρ ρ) : Codec ρ where
  write value := .obj (record.write value)
  read?
    | .obj members => (record.read? (.keyed members)).map (·.1)
    | .arr items =>
      match record.read? (.positional items) with
      | some (value, .positional []) => some value
      | _ => none
    | _ => none

end Record

end ShardNet.Json
