-- SUMMARY: The compact text of a JSON value.
import ShardNet.Json.Literal

/-!
# Writing JSON

The text has no white space and keeps the members of an object in their order. Inside a string only
the quotation mark, the backslash and the controls are escaped; five controls have a letter and the
others are written by their code.
-/

namespace ShardNet.Json

/-- One character of a string. -/
def escapeChar (c : Char) : List Char :=
  if c = '"' then ['\\', '"']
  else if c = '\\' then ['\\', '\\']
  else if c = '\x08' then ['\\', 'b']
  else if c = '\x0c' then ['\\', 'f']
  else if c = '\n' then ['\\', 'n']
  else if c = '\r' then ['\\', 'r']
  else if c = '\t' then ['\\', 't']
  else if c.val < 0x20 then
    ['\\', 'u', '0', '0', Nat.digitChar (c.toNat / 16), Nat.digitChar (c.toNat % 16)]
  else [c]

def writeString (text : List Char) : List Char := '"' :: text.flatMap escapeChar ++ ['"']

mutual

/-- The characters of the text. -/
def write : Json → List Char
  | .null => ['n', 'u', 'l', 'l']
  | .bool true => ['t', 'r', 'u', 'e']
  | .bool false => ['f', 'a', 'l', 's', 'e']
  | .int value => Text.Decimal.signedDigits value
  | .real value => writeReal value
  | .str value => writeString value.toList
  | .arr [] => ['[', ']']
  | .arr (item :: rest) => '[' :: (write item ++ writeItems rest)
  | .obj [] => ['\x7b', '\x7d']
  | .obj ((key, value) :: rest) =>
    '\x7b' :: (writeString key.toList ++ ':' :: (write value ++ writeMembers rest))

/-- The items after the first one, each behind its comma, and the closing bracket. -/
def writeItems : List Json → List Char
  | [] => [']']
  | item :: rest => ',' :: (write item ++ writeItems rest)

/-- The members after the first one, each behind its comma, and the closing brace. -/
def writeMembers : List (String × Json) → List Char
  | [] => ['\x7d']
  | (key, value) :: rest =>
    ',' :: (writeString key.toList ++ ':' :: (write value ++ writeMembers rest))

end

def text (value : Json) : String := String.ofList value.write

end ShardNet.Json
