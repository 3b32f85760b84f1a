-- SUMMARY: What a request for a web address asks of the server: the path and the query, as sent.
import ShardNet.Text.Split
import ShardNet.Text.Utf8

/-!
# Request targets

Of an address that ends in `/a/./b?q#f` the server sees `/a/b?q`. Blanks around the address and line
breaks in it are dropped, a backslash counts as a slash, dot segments are resolved, and characters
that may not stand in a path or a query are sent as percent codes of their bytes.
-/

namespace ShardNet.Target

/-- Whether a character is dropped at the ends of an address. -/
def isMargin (c : Char) : Bool := c.val ≤ 0x20

/-- Whether a character is dropped wherever it stands. -/
def isBreak (c : Char) : Bool := c = '\t' || c = '\n' || c = '\r'

def isSlash (c : Char) : Bool := c = '/' || c = '\\'

/-- The address without the characters that do not count. -/
def clean (url : List Char) : List Char :=
  (((url.dropWhile isMargin).reverse.dropWhile isMargin).reverse).filter fun c => !isBreak c

/-- A byte as a percent code. -/
def percentCode (byte : UInt8) : List Char :=
  let digit (value : Nat) : Char := (Nat.digitChar value).toUpper
  ['%', digit (byte.toNat / 16), digit (byte.toNat % 16)]

/-- A character, or the percent codes of its bytes where it is outside of ASCII, a control, or one
of `escaped`. -/
def encodeChar (escaped : List Char) (c : Char) : List Char :=
  if c.val ≤ 0x1F ∨ 0x7F ≤ c.val ∨ c ∈ escaped then (Text.Utf8.encode [c]).flatMap percentCode
  else [c]

/-- What may not stand in a path. -/
def escapedInPath : List Char := [' ', '"', '#', '<', '>', '?', '\x60', '\x7b', '\x7d']

/-- What may not stand in a query. -/
def escapedInQuery : List Char := [' ', '"', '#', '<', '>', '\'']

/-- A segment with the percent codes of dots read. -/
def readDots : List Char → List Char
  | '%' :: '2' :: c :: rest =>
    if c = 'e' ∨ c = 'E' then '.' :: readDots rest else '%' :: '2' :: readDots (c :: rest)
  | c :: rest => c :: readDots rest
  | [] => []

/-- Resolves dot segments; `kept` are the segments before, the last one first. A dot segment at the
end leaves an empty one. -/
def resolve (kept : List (List Char)) : List (List Char) → List (List Char)
  | [] => kept.reverse
  | [last] =>
    match readDots last with
    | ['.'] => ([] :: kept).reverse
    | ['.', '.'] => ([] :: kept.tail).reverse
    | _ => (last :: kept).reverse
  | segment :: rest =>
    match readDots segment with
    | ['.'] => resolve kept rest
    | ['.', '.'] => resolve kept.tail rest
    | _ => resolve (segment :: kept) rest

/-- The path as it is sent. The slash that begins it begins no segment. -/
def path (text : List Char) : List Char :=
  let text := match text with
    | c :: rest => if isSlash c then rest else text
    | [] => []
  (resolve [] (Text.split isSlash text)).flatMap fun segment =>
    '/' :: segment.flatMap (encodeChar escapedInPath)

/-- The query as it is sent, with its question mark. -/
def query : List Char → List Char
  | '?' :: text => '?' :: text.flatMap (encodeChar escapedInQuery)
  | _ => []

/-- The target of an address, unless no request can be made for it. -/
def ofUrl? (url : String) : Option String :=
  let text := clean url.toList
  let scheme := (text.takeWhile (· ≠ ':')).map Char.toLower
  let rest := (text.dropWhile (· ≠ ':')).drop 1
  let host := (rest.dropWhile isSlash).takeWhile fun c => !isSlash c && c ≠ '?' && c ≠ '#'
  if (scheme = "http".toList ∨ scheme = "https".toList) ∧ ¬ host.isEmpty then
    let place := ((rest.dropWhile isSlash).drop host.length).takeWhile (· ≠ '#')
    some (String.ofList (path (place.takeWhile (· ≠ '?')) ++ query (place.dropWhile (· ≠ '?'))))
  else none

end ShardNet.Target
