-- SUMMARY: Strict reading of JSON text, with a limit on nesting and with values that are passed over unread.
import ShardNet.Json.Literal
import ShardNet.Text.Utf8

/-!
# Reading JSON

The reader works on the symbols of a text: its characters, with a hole for every malformed stretch
of bytes. It accepts strict JSON only and gives the members of an object in their order.

A value is kept or passed over. Of a kept value every string must be well-formed text, every number
must be in range, and containers nest at most `maxDepth` deep. A value that is passed over needs to
follow the grammar and nothing more.
-/

namespace ShardNet.Json

/-- Characters of a text, with holes where its bytes are malformed. -/
abbrev Symbols := List (Option Char)

/-- What is made of a value. -/
inductive Care where
  | keep
  | pass
  deriving DecidableEq, Repr

/-- How deep containers may nest in a kept value. -/
def maxDepth : Nat := 127

def isSpace : Option Char → Bool
  | some c => c = ' ' || c = '\n' || c = '\r' || c = '\t'
  | none => false

def skipSpace (input : Symbols) : Symbols := input.dropWhile isSpace

/-! ## Strings -/

/-- One unit of a string: a character as it stands, a code of four hexadecimal digits, or a hole. -/
inductive Unit16 where
  | char (c : Char)
  | code (value : Nat)
  | hole
  deriving DecidableEq, Repr

/-- Value of a hexadecimal digit. -/
def hexValue? (symbol : Option Char) : Option Nat :=
  match symbol with
  | none => none
  | some c =>
    if '0' ≤ c ∧ c ≤ '9' then some (c.toNat - '0'.toNat)
    else if 'a' ≤ c ∧ c ≤ 'f' then some (c.toNat - 'a'.toNat + 10)
    else if 'A' ≤ c ∧ c ≤ 'F' then some (c.toNat - 'A'.toNat + 10)
    else none

/-- Value of the four digits of a code. -/
def codeValue? (a b c d : Option Char) : Option Nat := do
  return (((← hexValue? a) * 16 + (← hexValue? b)) * 16 + (← hexValue? c)) * 16 + (← hexValue? d)

/-- The character of a letter behind a backslash. -/
def escaped? : Char → Option Char
  | '"' => some '"'
  | '\\' => some '\\'
  | '/' => some '/'
  | 'b' => some '\x08'
  | 'f' => some '\x0c'
  | 'n' => some '\n'
  | 'r' => some '\r'
  | 't' => some '\t'
  | _ => none

/-- The units of a string up to its closing quotation mark, and what follows. -/
def readUnits : Symbols → Option (List Unit16 × Symbols)
  | [] => none
  | some '"' :: rest => some ([], rest)
  | some '\\' :: some 'u' :: a :: b :: c :: d :: rest =>
    match codeValue? a b c d, readUnits rest with
    | some value, some (units, rest) => some (.code value :: units, rest)
    | _, _ => none
  | some '\\' :: some letter :: rest =>
    match escaped? letter, readUnits rest with
    | some c, some (units, rest) => some (.char c :: units, rest)
    | _, _ => none
  | some '\\' :: _ => none
  | some c :: rest =>
    if c.val < 0x20 then none
    else match readUnits rest with
      | some (units, rest) => some (.char c :: units, rest)
      | none => none
  | none :: rest =>
    match readUnits rest with
    | some (units, rest) => some (.hole :: units, rest)
    | none => none

/-- The characters of units: a code of the surrogate range counts only in a pair. -/
def decodeUnits : List Unit16 → Option (List Char)
  | [] => some []
  | .char c :: rest => (decodeUnits rest).map (c :: ·)
  | .code high :: .code low :: rest =>
    if 0xD800 ≤ high ∧ high ≤ 0xDBFF then
      if 0xDC00 ≤ low ∧ low ≤ 0xDFFF then
        (decodeUnits rest).map
          (Char.ofNat (0x10000 + (high - 0xD800) * 0x400 + (low - 0xDC00)) :: ·)
      else none
    else if 0xDC00 ≤ high ∧ high ≤ 0xDFFF then none
    else (decodeUnits (.code low :: rest)).map (Char.ofNat high :: ·)
  | .code value :: rest =>
    if 0xD800 ≤ value ∧ value ≤ 0xDFFF then none
    else (decodeUnits rest).map (Char.ofNat value :: ·)
  | .hole :: _ => none

/-- A string behind its opening quotation mark. -/
def readString (care : Care) (input : Symbols) : Option (String × Symbols) :=
  match readUnits input, care with
  | none, _ => none
  | some (_, rest), .pass => some ("", rest)
  | some (units, rest), .keep => (decodeUnits units).map fun text => (String.ofList text, rest)

/-! ## Numbers -/

/-- The digits at the front of an input. -/
def takeDigits : Symbols → List Char × Symbols
  | some c :: rest =>
    if c.isDigit then
      let (digits, rest) := takeDigits rest
      (c :: digits, rest)
    else ([], some c :: rest)
  | input => ([], input)

/-- Digits, at least one. -/
def takeDigits? (input : Symbols) : Option (List Char × Symbols) :=
  match takeDigits input with
  | ([], _) => none
  | found => some found

/-- The digits before the point: a zero stands alone. -/
def takeWhole? (input : Symbols) : Option (List Char × Symbols) :=
  match takeDigits? input with
  | some ('0' :: _ :: _, _) => none
  | found => found

/-- The digits behind a point, if there is one. -/
def takeFraction? : Symbols → Option (List Char × Symbols)
  | some '.' :: rest => takeDigits? rest
  | input => some ([], input)

/-- An exponent, if there is one. -/
def takeExponent? : Symbols → Option (Option Int × Symbols)
  | some letter :: rest =>
    if letter ≠ 'e' ∧ letter ≠ 'E' then some (none, some letter :: rest)
    else
      let (negative, rest) := match rest with
        | some '-' :: rest => (true, rest)
        | some '+' :: rest => (false, rest)
        | rest => (false, rest)
      (takeDigits? rest).map fun (digits, rest) =>
        let value : Int := Number.ofDigits digits
        (some (if negative then -value else value), rest)
  | input => some (none, input)

/-- A number, taken apart. -/
def takeLiteral? (input : Symbols) : Option (Literal × Symbols) := do
  let (negative, input) := match input with
    | some '-' :: rest => (true, rest)
    | input => (false, input)
  let (whole, input) ← takeWhole? input
  let (fraction, input) ← takeFraction? input
  let (exponent, input) ← takeExponent? input
  return (⟨negative, whole, fraction, exponent⟩, input)

def readNumber (care : Care) (input : Symbols) : Option (Json × Symbols) := do
  let (literal, rest) ← takeLiteral? input
  match care with
  | .keep => return (← literal.value?, rest)
  | .pass => return (.null, rest)

/-! ## Values -/

/-- The nesting left inside a container, unless there is none. -/
def enter (care : Care) (depth : Nat) : Option Nat :=
  match care, depth with
  | .pass, _ => some 0
  | .keep, 0 => none
  | .keep, depth + 1 => some depth

mutual

/-- The value at the front of an input, in which containers nest at most `depth` deep. -/
def readValue (care : Care) : (fuel depth : Nat) → Symbols → Option (Json × Symbols)
  | 0, _, _ => none
  | fuel + 1, depth, input =>
    match skipSpace input with
    | some 'n' :: some 'u' :: some 'l' :: some 'l' :: rest => some (.null, rest)
    | some 't' :: some 'r' :: some 'u' :: some 'e' :: rest => some (.bool true, rest)
    | some 'f' :: some 'a' :: some 'l' :: some 's' :: some 'e' :: rest => some (.bool false, rest)
    | some '"' :: rest => (readString care rest).map fun (text, rest) => (.str text, rest)
    | some '[' :: rest => do
      let depth ← enter care depth
      match skipSpace rest with
      | some ']' :: rest => return (.arr [], rest)
      | rest =>
        let (items, rest) ← readItems care fuel depth rest
        return (.arr items, rest)
    | some '\x7b' :: rest => do
      let depth ← enter care depth
      match skipSpace rest with
      | some '\x7d' :: rest => return (.obj [], rest)
      | rest =>
        let (members, rest) ← readMembers care (fun _ => care) fuel depth rest
        return (.obj members, rest)
    | input => readNumber care input

/-- The items of an array, at least one, and its closing bracket. -/
def readItems (care : Care) : (fuel depth : Nat) → Symbols → Option (List Json × Symbols)
  | 0, _, _ => none
  | fuel + 1, depth, input => do
    let (item, rest) ← readValue care fuel depth input
    match skipSpace rest with
    | some ',' :: rest =>
      let (items, rest) ← readItems care fuel depth rest
      return (item :: items, rest)
    | some ']' :: rest => return ([item], rest)
    | _ => none

/-- The members of an object, at least one, and its closing brace. The key of a member says whether
its value is kept. -/
def readMembers (keyCare : Care) (care : String → Care) :
    (fuel depth : Nat) → Symbols → Option (List (String × Json) × Symbols)
  | 0, _, _ => none
  | fuel + 1, depth, input =>
    match skipSpace input with
    | some '"' :: rest => do
      let (key, rest) ← readString keyCare rest
      match skipSpace rest with
      | some ':' :: rest =>
        let (value, rest) ← readValue (care key) fuel depth rest
        match skipSpace rest with
        | some ',' :: rest =>
          let (members, rest) ← readMembers keyCare care fuel depth rest
          return ((key, value) :: members, rest)
        | some '\x7d' :: rest => return ([(key, value)], rest)
        | _ => none
      | _ => none
    | _ => none

end

/-- Enough fuel for an input: every call of the reader either consumes a symbol or is followed by
one that does. -/
def fuelFor (input : Symbols) : Nat := 2 * input.length + 2

/-- The value of a whole input. -/
def read? (input : Symbols) : Option Json :=
  match readValue .keep (fuelFor input) maxDepth input with
  | some (value, rest) => if (skipSpace rest).isEmpty then some value else none
  | none => none

/-- The value of a text. -/
def parse? (text : List Char) : Option Json := read? (text.map some)

/-- The members of an object that is a whole input. Its keys decide which values are kept. -/
def readObject? (care : String → Care) (input : Symbols) : Option (List (String × Json)) :=
  match skipSpace input with
  | some '\x7b' :: rest =>
    match skipSpace rest with
    | some '\x7d' :: rest => if (skipSpace rest).isEmpty then some [] else none
    | rest =>
      match readMembers .keep care (fuelFor input) (maxDepth - 1) rest with
      | some (members, rest) => if (skipSpace rest).isEmpty then some members else none
      | none => none
  | _ => none

end ShardNet.Json
