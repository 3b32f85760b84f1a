-- SUMMARY: The grammar of JSON text, in which some values are kept and the others passed over.
import ShardNet.Proofs.Json.ReadBack
import ShardNet.Proofs.Text.Hex.Spelling

/-!
# The grammar of JSON

`Value` says that an input begins with the text of a value, and goes on with the rest. A value that
is kept is the one in question; of a value that is passed over the text follows the grammar, and
nothing is said of its numbers, its characters and its nesting. The members of an object are kept by
their keys.

What may be kept may be passed over as well: `Value.skim`.
-/

namespace ShardNet.Json

open Text.Decimal (DigitRun)
open Text.Hex (Digit)

/-! ## Blanks -/

/-- Blanks in front of the rest of an input. -/
inductive Blanks : Symbols → Symbols → Prop where
  | done {rest : Symbols} : Blanks rest rest
  | blank {c : Char} {input rest : Symbols} (hc : c ∈ [' ', '\n', '\r', '\t'])
      (h : Blanks input rest) : Blanks (some c :: input) rest

/-! ## Strings -/

/-- Four hexadecimal digits, of either case, and their number. -/
def IsCode (a b c d : Char) (value : Nat) : Prop :=
  ∃ p q r s, Digit a p ∧ Digit b q ∧ Digit c r ∧ Digit d s ∧
    value = ((p * 16 + q) * 16 + r) * 16 + s

/-- The letters behind a backslash, and the characters that they stand for. -/
def escapes : List (Char × Char) :=
  [('"', '"'), ('\\', '\\'), ('/', '/'), ('b', '\x08'), ('f', '\x0c'), ('n', '\n'), ('r', '\r'),
    ('t', '\t')]

/-- The units of a string, up to its closing quotation mark. -/
inductive Units : Symbols → List Unit16 → Symbols → Prop where
  | close {rest : Symbols} : Units (some '"' :: rest) [] rest
  | plain {c : Char} {input rest : Symbols} {units : List Unit16} (hprinted : 0x20 ≤ c.toNat)
      (hquote : c ≠ '"') (hslash : c ≠ '\\') (h : Units input units rest) :
      Units (some c :: input) (.char c :: units) rest
  | escaped {letter c : Char} {input rest : Symbols} {units : List Unit16}
      (hescape : (letter, c) ∈ escapes) (h : Units input units rest) :
      Units (some '\\' :: some letter :: input) (.char c :: units) rest
  | code {a b c d : Char} {value : Nat} {input rest : Symbols} {units : List Unit16}
      (hcode : IsCode a b c d value) (h : Units input units rest) :
      Units (some '\\' :: some 'u' :: some a :: some b :: some c :: some d :: input)
        (.code value :: units) rest
  | hole {input rest : Symbols} {units : List Unit16} (h : Units input units rest) :
      Units (none :: input) (.hole :: units) rest

/-- The text of units: a code of the surrogate range counts in a pair only. -/
inductive Spelt : List Unit16 → List Char → Prop where
  | nil : Spelt [] []
  | char {c : Char} {units : List Unit16} {text : List Char} (h : Spelt units text) :
      Spelt (.char c :: units) (c :: text)
  | code {value : Nat} {units : List Unit16} {text : List Char}
      (hvalue : ¬ (0xD800 ≤ value ∧ value ≤ 0xDFFF)) (h : Spelt units text) :
      Spelt (.code value :: units) (Char.ofNat value :: text)
  | pair {high low : Nat} {units : List Unit16} {text : List Char}
      (hhigh : 0xD800 ≤ high ∧ high ≤ 0xDBFF) (hlow : 0xDC00 ≤ low ∧ low ≤ 0xDFFF)
      (h : Spelt units text) :
      Spelt (.code high :: .code low :: units)
        (Char.ofNat (0x10000 + (high - 0xD800) * 0x400 + (low - 0xDC00)) :: text)

/-- A string behind its opening quotation mark. -/
def Quoted (care : Care) (input : Symbols) (text : String) (rest : Symbols) : Prop :=
  ∃ units, Units input units rest ∧ (care = .keep → Spelt units text.toList)

/-- The key of a member with its colon, and the blanks around them. -/
inductive Named (care : Care) : Symbols → String → Symbols → Prop where
  | intro {input name colon value front : Symbols} {key : String}
      (hquote : Blanks input (some '"' :: name)) (hkey : Quoted care name key colon)
      (hcolon : Blanks colon (some ':' :: value)) (hfront : Blanks value front) :
      Named care input key front

/-! ## Numbers -/

/-- The digits behind a point, if there is one, and their text. -/
inductive Fraction : List Char → List Char → Prop where
  | none : Fraction [] []
  | digits {digits : List Char} {value : Nat} (h : DigitRun digits value) :
      Fraction digits ('.' :: digits)

/-- The signs of an exponent, with whether it is negative. -/
def signs : List (Bool × List Char) := [(false, []), (false, ['+']), (true, ['-'])]

/-- An exponent, if there is one, and its text. -/
inductive Exponent : Option Int → List Char → Prop where
  | none : Exponent none []
  | digits {letter : Char} {negative : Bool} {sign digits : List Char} {value : Nat}
      (hletter : letter ∈ ['e', 'E']) (hsign : (negative, sign) ∈ signs)
      (h : DigitRun digits value) :
      Exponent (some (if negative then -value else value)) (letter :: (sign ++ digits))

/-- A number, taken apart, and its text: a zero stands alone in front of the point. -/
inductive Literal.Spells : Literal → List Char → Prop where
  | intro {negative : Bool} {sign whole fraction front back : List Char} {value : Nat}
      {exponent : Option Int} (hsign : sign = if negative then ['-'] else [])
      (hwhole : DigitRun whole value) (hzero : ∀ c others, whole ≠ '0' :: c :: others)
      (hfraction : Fraction fraction front) (hexponent : Exponent exponent back) :
      Spells ⟨negative, whole, fraction, exponent⟩ (sign ++ (whole ++ (front ++ back)))

/-! ## Values -/

mutual

/-- The text of a value, in which containers nest at most `depth` deep if it is kept. -/
inductive Value : Care → Nat → Symbols → Json → Symbols → Prop where
  | null {care : Care} {depth : Nat} {rest : Symbols} :
      Value care depth (some 'n' :: some 'u' :: some 'l' :: some 'l' :: rest) .null rest
  | yes {care : Care} {depth : Nat} {rest : Symbols} :
      Value care depth (some 't' :: some 'r' :: some 'u' :: some 'e' :: rest) (.bool true) rest
  | no {care : Care} {depth : Nat} {rest : Symbols} :
      Value care depth (some 'f' :: some 'a' :: some 'l' :: some 's' :: some 'e' :: rest)
        (.bool false) rest
  | str {care : Care} {depth : Nat} {input rest : Symbols} {text : String}
      (h : Quoted care input text rest) : Value care depth (some '"' :: input) (.str text) rest
  | number {care : Care} {depth : Nat} {input rest : Symbols} {literal : Literal}
      {text : List Char} {json : Json} (hinput : input = text.map some ++ rest)
      (hspells : literal.Spells text) (hvalue : care = .keep → literal.value? = some json) :
      Value care depth input json rest
  | noItems {care : Care} {depth inner : Nat} {input rest : Symbols}
      (hdepth : care = .keep → depth = inner + 1) (h : Blanks input (some ']' :: rest)) :
      Value care depth (some '[' :: input) (.arr []) rest
  | arr {care : Care} {depth inner : Nat} {input rest : Symbols} {items : List Json}
      (hdepth : care = .keep → depth = inner + 1)
      (h : Items care inner input items (some ']' :: rest)) :
      Value care depth (some '[' :: input) (.arr items) rest
  | noMembers {care : Care} {depth inner : Nat} {input rest : Symbols}
      (hdepth : care = .keep → depth = inner + 1) (h : Blanks input (some '\x7d' :: rest)) :
      Value care depth (some '\x7b' :: input) (.obj []) rest
  | obj {care : Care} {depth inner : Nat} {input rest : Symbols} {members : List (String × Json)}
      (hdepth : care = .keep → depth = inner + 1)
      (h : Members care (fun _ => care) inner input members (some '\x7d' :: rest)) :
      Value care depth (some '\x7b' :: input) (.obj members) rest

/-- The items of an array, at least one, up to its closing bracket. -/
inductive Items : Care → Nat → Symbols → List Json → Symbols → Prop where
  | last {care : Care} {depth : Nat} {input front after rest : Symbols} {item : Json}
      (hfront : Blanks input front) (hitem : Value care depth front item after)
      (hback : Blanks after rest) : Items care depth input [item] rest
  | more {care : Care} {depth : Nat} {input front after next rest : Symbols} {item : Json}
      {items : List Json} (hfront : Blanks input front) (hitem : Value care depth front item after)
      (hback : Blanks after (some ',' :: next)) (hitems : Items care depth next items rest) :
      Items care depth input (item :: items) rest

/-- The members of an object, at least one, up to its closing brace. The key of a member says
whether its value is kept. -/
inductive Members :
    Care → (String → Care) → Nat → Symbols → List (String × Json) → Symbols → Prop where
  | last {keyCare : Care} {care : String → Care} {depth : Nat} {input front after rest : Symbols}
      {key : String} {json : Json} (hname : Named keyCare input key front)
      (hvalue : Value (care key) depth front json after) (hback : Blanks after rest) :
      Members keyCare care depth input [(key, json)] rest
  | more {keyCare : Care} {care : String → Care} {depth : Nat}
      {input front after next rest : Symbols} {key : String} {json : Json}
      {members : List (String × Json)} (hname : Named keyCare input key front)
      (hvalue : Value (care key) depth front json after) (hback : Blanks after (some ',' :: next))
      (hmembers : Members keyCare care depth next members rest) :
      Members keyCare care depth input ((key, json) :: members) rest

end

/-- A whole input that is the text of a value. -/
def Whole (input : Symbols) (json : Json) : Prop :=
  ∃ front rest, Blanks input front ∧ Value .keep maxDepth front json rest ∧ Blanks rest []

/-- A whole input that is the text of an object, of which the members are kept by their keys. -/
inductive WholeObject (care : String → Care) (input : Symbols) : List (String × Json) → Prop where
  | empty {inside rest : Symbols} (hfront : Blanks input (some '\x7b' :: inside))
      (h : Blanks inside (some '\x7d' :: rest)) (hback : Blanks rest []) : WholeObject care input []
  | members {inside rest : Symbols} {members : List (String × Json)}
      (hfront : Blanks input (some '\x7b' :: inside))
      (h : Members .keep care (maxDepth - 1) inside members (some '\x7d' :: rest))
      (hback : Blanks rest []) : WholeObject care input members

variable {care : Care} {input front rest : Symbols} {depth : Nat} {json : Json}

/-! ## Beginnings and ends of texts -/

theorem Blanks.trans (h : Blanks input front) (h' : Blanks front rest) : Blanks input rest := by
  induction h with
  | done => exact h'
  | blank hc _ ih => exact .blank hc (ih h')

theorem Blanks.length_le (h : Blanks input rest) : rest.length ≤ input.length := by
  induction h with
  | done => exact Nat.le_refl _
  | blank _ _ ih => exact Nat.le_succ_of_le ih

theorem Literal.Spells.begins {literal : Literal} {text : List Char} (h : literal.Spells text) :
    ∃ c tail, text = c :: tail ∧ BeginsNumber c := by
  cases h with
  | @intro negative _ whole _ _ _ _ _ hsign hwhole =>
      subst hsign
      cases negative with
      | true => exact ⟨'-', _, rfl, .inl rfl⟩
      | false =>
          cases whole with
          | nil => exact absurd rfl hwhole.ne_nil
          | cons c whole => exact ⟨c, _, rfl, .inr (hwhole.isDigit c List.mem_cons_self)⟩

theorem Value.begins (h : Value care depth input json rest) :
    ∃ c tail, input = some c :: tail ∧ isSpace (some c) = false ∧ c ≠ ']' := by
  cases h with
  | number hinput hspells _ =>
      obtain ⟨c, tail, rfl, hc⟩ := hspells.begins
      exact ⟨c, _, hinput, hc.isSpace, hc.ne (by decide)⟩
  | _ => exact ⟨_, _, rfl, by decide, by decide⟩

theorem Units.length_lt {units : List Unit16} (h : Units input units rest) :
    rest.length < input.length := by
  induction h with
  | close => exact Nat.lt_succ_self _
  | _ =>
      simp only [List.length_cons]
      omega

theorem Named.length_lt {key : String} (h : Named care input key front) :
    front.length < input.length := by
  obtain ⟨hquote, ⟨_, hunits, _⟩, hcolon, hfront⟩ := h
  have hname := hquote.length_le
  have hlt := hunits.length_lt
  have hvalue := hcolon.length_le
  have hle := hfront.length_le
  simp only [List.length_cons] at hname hvalue
  omega

mutual

/-- The text of a value is not empty. -/
theorem Value.length_lt {care : Care} {depth : Nat} {input rest : Symbols} {json : Json} :
    Value care depth input json rest → rest.length < input.length
  | .null | .yes | .no => by
      simp only [List.length_cons]
      omega
  | .str ⟨_, hunits, _⟩ => by
      have hlt := hunits.length_lt
      simp only [List.length_cons]
      omega
  | .number hinput hspells _ => by
      obtain ⟨c, tail, rfl, -⟩ := hspells.begins
      rw [hinput, List.length_append, List.length_map, List.length_cons]
      omega
  | .noItems _ h | .noMembers _ h => by
      have hle := h.length_le
      simp only [List.length_cons] at hle ⊢
      omega
  | .arr _ h => by
      have hlt := h.length_lt
      simp only [List.length_cons] at hlt ⊢
      omega
  | .obj _ h => by
      have hlt := h.length_lt
      simp only [List.length_cons] at hlt ⊢
      omega

theorem Items.length_lt {care : Care} {depth : Nat} {input rest : Symbols} {items : List Json} :
    Items care depth input items rest → rest.length < input.length
  | .last hfront hitem hback =>
      Nat.lt_of_le_of_lt hback.length_le (Nat.lt_of_lt_of_le hitem.length_lt hfront.length_le)
  | .more hfront hitem hback hitems => by
      have hnext := hback.length_le
      have hlt := hitem.length_lt
      have hle := hfront.length_le
      have hrest := hitems.length_lt
      simp only [List.length_cons] at hnext
      omega

theorem Members.length_lt {keyCare : Care} {care : String → Care} {depth : Nat}
    {input rest : Symbols} {members : List (String × Json)} :
    Members keyCare care depth input members rest → rest.length < input.length
  | .last hname hvalue hback =>
      Nat.lt_of_le_of_lt hback.length_le (Nat.lt_trans hvalue.length_lt hname.length_lt)
  | .more hname hvalue hback hmembers => by
      have hnext := hback.length_le
      have hlt := hvalue.length_lt
      have hfront := hname.length_lt
      have hrest := hmembers.length_lt
      simp only [List.length_cons] at hnext
      omega

end

/-! ## Less care -/

theorem Quoted.skim {text : String} (h : Quoted .keep input text rest) (care : Care) :
    Quoted care input text rest := by
  obtain ⟨units, hunits, htext⟩ := h
  exact ⟨units, hunits, fun _ => htext rfl⟩

theorem Named.skim {key : String} (h : Named .keep input key front) (care : Care) :
    Named care input key front := by
  obtain ⟨hquote, hkey, hcolon, hfront⟩ := h
  exact .intro hquote (hkey.skim care) hcolon hfront

mutual

/-- What is kept can be passed over as well. -/
theorem Value.skim {depth : Nat} {input rest : Symbols} {json : Json} (care : Care) :
    Value .keep depth input json rest → Value care depth input json rest
  | .null => .null
  | .yes => .yes
  | .no => .no
  | .str h => .str (h.skim care)
  | .number hinput hspells hvalue => .number hinput hspells fun _ => hvalue rfl
  | .noItems hdepth h => .noItems (fun _ => hdepth rfl) h
  | .arr hdepth h => .arr (fun _ => hdepth rfl) (h.skim care)
  | .noMembers hdepth h => .noMembers (fun _ => hdepth rfl) h
  | .obj hdepth h => .obj (fun _ => hdepth rfl) (h.skim care fun _ => care)

theorem Items.skim {depth : Nat} {input rest : Symbols} {items : List Json} (care : Care) :
    Items .keep depth input items rest → Items care depth input items rest
  | .last hfront hitem hback => .last hfront (hitem.skim care) hback
  | .more hfront hitem hback hitems => .more hfront (hitem.skim care) hback (hitems.skim care)

theorem Members.skim {depth : Nat} {input rest : Symbols} {members : List (String × Json)}
    (keyCare : Care) (care : String → Care) :
    Members .keep (fun _ => .keep) depth input members rest →
      Members keyCare care depth input members rest
  | .last hname hvalue hback => .last (hname.skim keyCare) (hvalue.skim _) hback
  | .more hname hvalue hback hmembers =>
      .more (hname.skim keyCare) (hvalue.skim _) hback (hmembers.skim keyCare care)

end

/-! ## More blanks -/

theorem Items.of_blanks {items : List Json} (hfront : Blanks input front)
    (h : Items care depth front items rest) : Items care depth input items rest := by
  cases h with
  | last hblanks hitem hback => exact .last (hfront.trans hblanks) hitem hback
  | more hblanks hitem hback hitems => exact .more (hfront.trans hblanks) hitem hback hitems

theorem Named.of_blanks {key : String} (hblanks : Blanks input front)
    (h : Named care front key rest) :
    Named care input key rest := by
  obtain ⟨hquote, hkey, hcolon, hfront⟩ := h
  exact .intro (hblanks.trans hquote) hkey hcolon hfront

theorem Members.of_blanks {keyCare : Care} {care : String → Care} {members : List (String × Json)}
    (hfront : Blanks input front) (h : Members keyCare care depth front members rest) :
    Members keyCare care depth input members rest := by
  cases h with
  | last hname hvalue hback => exact .last (hname.of_blanks hfront) hvalue hback
  | more hname hvalue hback hmembers => exact .more (hname.of_blanks hfront) hvalue hback hmembers

end ShardNet.Json
