-- SUMMARY: How the values of a type stand in JSON: the codecs of the basic types, and those made of other codecs.
import ShardNet.Json.Writer
import ShardNet.Table
import ShardNet.Text.Base64

/-!
# Codecs

A codec writes the values of a type as JSON and reads them back. The basic codecs are strict: a
number is read from an integer in range and from nothing else. `orText` is the lenient form for
numbers and flags that some services write as text.
-/

namespace ShardNet.Json

-- A power is that of the core library, whatever is imported beside it.
attribute [local instance (2000)] instPowNat

open Number (Binary32 Binary64)

/-- A way to write the values of a type as JSON, and to read them. -/
structure Codec (α : Type) where
  write : α → Json
  read? : Json → Option α

namespace Codec

/-! ## Basic types -/

def text : Codec String where
  write := .str
  read?
    | .str value => some value
    | _ => none

def flag : Codec Bool where
  write := .bool
  read?
    | .bool value => some value
    | _ => none

/-- Integers of an unsigned type. A number out of range, or with a point or an exponent, is none of
them. -/
def unsigned (ω : Type) [Unsigned ω] : Codec ω where
  write value := .int (Unsigned.toNat value)
  read?
    | .int value => Unsigned.ofInt? ω value
    | _ => none

def uint32 : Codec UInt32 := unsigned UInt32

def uint64 : Codec UInt64 := unsigned UInt64

/-- Signed integers of 64 bits. -/
def int64 : Codec Int64 where
  write value := .int value.toInt
  read?
    | .int value =>
      if -2 ^ (63 : Nat) ≤ value ∧ value < 2 ^ (63 : Nat) then some (Int64.ofInt value) else none
    | _ => none

/-- Floating-point numbers of 64 bits. -/
def binary64 : Codec Binary64 where
  write := .real
  read?
    | .int value => some (.ofInt value)
    | .real value => some value
    | _ => none

/-- Floating-point numbers of 32 bits. An integer is rounded once; any other number has been rounded
to 64 bits before. -/
def binary32 : Codec Binary32 where
  write value := .real value.widen
  read?
    | .int value => some (.ofInt value)
    | .real value => some value.narrow
    | _ => none

/-- Byte strings as base64, read with or without padding. -/
def bytes : Codec Bytes where
  write value := .str (Text.Base64.text value)
  read?
    | .str value => (Text.Base64.decode .optional value.toList).toOption
    | _ => none

/-- Any value, in its canonical form. -/
def any : Codec Json where
  write value := value
  read? value := some value.canonical

/-! ## Lenient forms -/

/-- Reads null as a given value. -/
def nullAs {α : Type} (value : α) (codec : Codec α) : Codec α where
  write := codec.write
  read?
    | .null => some value
    | json => codec.read? json

/-- Reads the value also from a text. -/
def orText {α : Type} (codec : Codec α) (fromText? : List Char → Option α) : Codec α where
  write := codec.write
  read? json :=
    match codec.read? json, json with
    | some value, _ => some value
    | none, .str value => fromText? value.toList
    | none, _ => none

/-- Integers of an unsigned type, possibly as text. -/
def unsignedOrText (ω : Type) [Unsigned ω] : Codec ω :=
  (unsigned ω).orText fun value => (Text.Decimal.readUnsigned ω value).toOption

/-- Flags, possibly as one of two words. -/
def flagOrText : Codec Bool :=
  flag.orText fun value =>
    if value = ['t', 'r', 'u', 'e'] then some true
    else if value = ['f', 'a', 'l', 's', 'e'] then some false
    else none

/-- Floating-point numbers of 64 bits, possibly as text. -/
def binary64OrText : Codec Binary64 := binary64.orText Binary64.read?

/-- Floating-point numbers of 32 bits, possibly as text, which is rounded once. -/
def binary32OrText : Codec Binary32 := binary32.orText Binary32.read?

/-! ## Containers -/

/-- A value that may be absent: null stands for its absence. -/
def option {α : Type} (codec : Codec α) : Codec (Option α) where
  write
    | some value => codec.write value
    | none => .null
  read?
    | .null => some none
    | json => (codec.read? json).map some

def list {α : Type} (codec : Codec α) : Codec (List α) where
  write values := .arr (values.map codec.write)
  read?
    | .arr items => items.mapM codec.read?
    | _ => none

/-- The number of a key: its canonical decimal text, and no other. -/
def keyNumber? (κ : Type) [Unsigned κ] (key : String) : Option κ :=
  match Text.Decimal.readUnsigned κ key.toList with
  | .ok number => if Text.Decimal.text (Unsigned.toNat number) = key then some number else none
  | .error _ => none

/-- Tables as objects. -/
def table {α : Type} (κ : Type) [Unsigned κ] (codec : Codec α) : Codec (Table κ α) where
  write entries := .obj <| entries.entries.map fun (key, value) =>
    (Text.Decimal.text (Unsigned.toNat key), codec.write value)
  read?
    | .obj members => do
      let entries ← (distinctMembers members).mapM fun (key, value) =>
        return (← keyNumber? κ key, ← codec.read? value)
      return Table.ofList entries
    | _ => none

/-! ## Names -/

/-- Values that have a name. The name may also be the only key of an object, above null. -/
def named {α : Type} (name : α → String) (ofName? : String → Option α) : Codec α where
  write value := .str (name value)
  read?
    | .str value => ofName? value
    | .obj members =>
      match distinctMembers members with
      | [(value, .null)] => ofName? value
      | _ => none
    | _ => none

end Codec

end ShardNet.Json
