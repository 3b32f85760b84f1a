-- SUMMARY: JSON values, looking up members, and the form with sorted and distinct keys.
import ShardNet.Number.Binary

/-!
# JSON values

An object keeps its members in the order of the text, duplicates included. Where a key occurs more
than once the last member counts: `lookup` finds that one, and `canonical` keeps only that one
and sorts the members by key.
-/

namespace ShardNet

inductive Json where
  | null
  | bool (value : Bool)
  | int (value : Int)
  | real (value : Number.Binary64)
  | str (value : String)
  | arr (items : List Json)
  | obj (members : List (String × Json))
  deriving Inhabited, Repr

namespace Json

/-- The value of a key: of the last member that has it. -/
def lookup (key : String) : List (String × Json) → Option Json
  | [] => none
  | (name, value) :: rest =>
    match lookup key rest with
    | some later => some later
    | none => if name = key then some value else none

@[simp] theorem lookup_nil (key : String) : lookup key [] = none := rfl

/-- Inserts a member into sorted members, unless its key is there already. -/
def addMember (key : String) (value : Json) : List (String × Json) → List (String × Json)
  | [] => [(key, value)]
  | (name, other) :: rest =>
    if key < name then (key, value) :: (name, other) :: rest
    else if key = name then (name, other) :: rest
    else (name, other) :: addMember key value rest

mutual

/-- The value with the members of every object sorted by key, the last of each key only. -/
def canonical : Json → Json
  | .arr items => .arr (canonicalItems items)
  | .obj members => .obj (canonicalMembers members)
  | .null => .null
  | .bool value => .bool value
  | .int value => .int value
  | .real value => .real value
  | .str value => .str value

def canonicalItems : List Json → List Json
  | [] => []
  | item :: rest => item.canonical :: canonicalItems rest

def canonicalMembers : List (String × Json) → List (String × Json)
  | [] => []
  | (key, value) :: rest => addMember key value.canonical (canonicalMembers rest)

end

/-- The members of an object by distinct sorted keys, their values as they stand. -/
def distinctMembers : List (String × Json) → List (String × Json)
  | [] => []
  | (key, value) :: rest => addMember key value (distinctMembers rest)

end Json

end ShardNet
