-- SUMMARY: What the reader of JSON makes of a written value: the value itself, if its integers are in range.
import Mathlib.Algebra.Group.Int.Defs
import Mathlib.Algebra.Group.Nat.Defs
import ShardNet.Json.Reader
import ShardNet.Json.Writer
import ShardNet.Proofs.Text.Decimal

/-!
# Reading back JSON

The text of a value without real numbers, and with its containers not nested too deep, is read as
`reread?` says: `parse?_write`. An integer in range is read back as it is. A greater one comes back
as a real number, if as anything.

What follows the text of a value is left as it is. Only a number needs to know that something else
than a number follows, and so the lemmas on values ask for it.
-/

namespace ShardNet.Json

/-! ## Strings -/

/-- The three ways in which a character is written inside a string, and the unit it is read as. -/
inductive Escape (c : Char) : List Char → Unit16 → Prop where
  | letter {letter} (hescaped : escaped? letter = some c) (hletter : letter ≠ 'u') :
      Escape c ['\\', letter] (.char c)
  | code (hcontrol : c.toNat < 0x20) :
      Escape c ['\\', 'u', '0', '0', Nat.digitChar (c.toNat / 16), Nat.digitChar (c.toNat % 16)]
        (.code c.toNat)
  | plain (hprinted : ¬ c.val < 0x20) (hquote : c ≠ '"') (hslash : c ≠ '\\') :
      Escape c [c] (.char c)

theorem escape_escapeChar (c : Char) : ∃ unit, Escape c (escapeChar c) unit := by
  unfold escapeChar
  iterate 7
    split
    · subst_vars
      exact ⟨_, .letter rfl (by decide)⟩
  split
  · rename_i hcontrol
    exact ⟨_, .code (UInt32.lt_iff_toNat_lt.1 hcontrol)⟩
  · rename_i hquote hslash _ _ _ _ _ hprinted
    exact ⟨_, .plain hprinted hquote hslash⟩

theorem hexValue?_digitChar :
    ∀ value < 16, hexValue? (some (Nat.digitChar value)) = some value := by
  decide

namespace Escape

variable {c : Char} {escaped : List Char} {unit : Unit16}

theorem readUnits (h : Escape c escaped unit) (rest : Symbols) :
    readUnits (escaped.map some ++ rest) =
      (readUnits rest).map fun (units, rest) => (unit :: units, rest) := by
  cases h with
  | @letter letter hescaped hletter =>
      simp only [List.map_cons, List.map_nil, List.cons_append, List.nil_append]
      simp [Json.readUnits, hescaped, hletter]
      cases Json.readUnits rest <;> rfl
  | code hcontrol =>
      have hhigh := hexValue?_digitChar (c.toNat / 16) (by omega)
      have hlow := hexValue?_digitChar (c.toNat % 16) (by omega)
      have hzero : hexValue? (some '0') = some 0 := rfl
      have hvalue : c.toNat / 16 * 16 + c.toNat % 16 = c.toNat := by omega
      simp only [List.map_cons, List.map_nil, List.cons_append, List.nil_append, Json.readUnits,
        codeValue?, hhigh, hlow, hzero]
      cases Json.readUnits rest <;> simp [hvalue]
  | plain hprinted hquote hslash =>
      simp only [List.map_cons, List.map_nil, List.cons_append, List.nil_append]
      simp [Json.readUnits, hslash, hprinted]
      cases Json.readUnits rest <;> rfl

/-- A code below the surrogates stands for its character. -/
theorem decodeUnits (h : Escape c escaped unit) (units : List Unit16) :
    decodeUnits (unit :: units) = (decodeUnits units).map (c :: ·) := by
  cases h with
  | letter | plain => simp [Json.decodeUnits]
  | code hcontrol =>
      have hhigh : ¬ (0xD800 ≤ c.toNat ∧ c.toNat ≤ 0xDBFF) := by omega
      have hlow : ¬ (0xDC00 ≤ c.toNat ∧ c.toNat ≤ 0xDFFF) := by omega
      have hany : ¬ (0xD800 ≤ c.toNat ∧ c.toNat ≤ 0xDFFF) := by omega
      cases units with
      | nil => simp [Json.decodeUnits, hany]
      | cons next rest => cases next <;> simp [Json.decodeUnits, hhigh, hlow, hany]

end Escape

/-- The text of a string is read up to its closing quotation mark. -/
theorem readUnits_escaped (text : List Char) (rest : Symbols) :
    ∃ units, readUnits ((text.flatMap escapeChar).map some ++ some '"' :: rest) =
      some (units, rest) ∧ decodeUnits units = some text := by
  induction text with
  | nil => exact ⟨[], by simp [readUnits], rfl⟩
  | cons c text ih =>
      obtain ⟨units, hread, hdecode⟩ := ih
      obtain ⟨unit, hescape⟩ := escape_escapeChar c
      refine ⟨unit :: units, ?_, ?_⟩
      · rw [List.flatMap_cons, List.map_append, List.append_assoc, hescape.readUnits, hread]
        rfl
      · rw [hescape.decodeUnits, hdecode]
        rfl

theorem readString_escaped (text : String) (rest : Symbols) :
    readString .keep ((text.toList.flatMap escapeChar).map some ++ some '"' :: rest) =
      some (text, rest) := by
  obtain ⟨units, hread, hdecode⟩ := readUnits_escaped text.toList rest
  simp [readString, hread, hdecode]

theorem writeString_append (text : List Char) (rest : Symbols) :
    (writeString text).map some ++ rest =
      some '"' :: ((text.flatMap escapeChar).map some ++ some '"' :: rest) := by
  simp [writeString]

/-! ## Numbers -/

/-- Symbols with which no number goes on. -/
def EndsNumber : Symbols → Prop
  | some c :: _ => ¬ c.isDigit ∧ c ≠ '.' ∧ c ≠ 'e' ∧ c ≠ 'E'
  | _ => True

/-- Symbols with which no run of digits goes on. -/
def EndsDigits : Symbols → Prop
  | some c :: _ => ¬ c.isDigit
  | _ => True

theorem EndsNumber.endsDigits {rest : Symbols} (h : EndsNumber rest) : EndsDigits rest := by
  rcases rest with - | ⟨- | c, rest⟩
  · trivial
  · trivial
  · exact h.1

theorem takeDigits_append {digits : List Char} {rest : Symbols} (hdigits : ∀ c ∈ digits, c.isDigit)
    (hrest : EndsDigits rest) : takeDigits (digits.map some ++ rest) = (digits, rest) := by
  induction digits with
  | nil =>
      rcases rest with - | ⟨- | c, rest⟩
      · rfl
      · rfl
      · have hc : ¬ c.isDigit := hrest
        simp [takeDigits, hc]
  | cons c digits ih =>
      have hc : c.isDigit := hdigits c (by simp)
      simp [takeDigits, hc, ih fun d hd => hdigits d (by simp [hd])]

theorem takeWhole?_append {digits : List Char} {rest : Symbols} (hdigits : ∀ c ∈ digits, c.isDigit)
    (hne : digits ≠ []) (hzero : ∀ c others, digits ≠ '0' :: c :: others)
    (hrest : EndsDigits rest) :
    takeWhole? (digits.map some ++ rest) = some (digits, rest) := by
  rw [takeWhole?, takeDigits?, takeDigits_append hdigits hrest]
  rcases digits with - | ⟨c, - | ⟨d, others⟩⟩
  · exact absurd rfl hne
  · simp
  · have hc : c ≠ '0' := by
      rintro rfl
      exact hzero d others rfl
    simp [hc]

/-- The digits of an integer, taken apart. -/
theorem takeLiteral?_signedDigits {value : Int} {rest : Symbols} (hrest : EndsNumber rest) :
    takeLiteral? ((Text.Decimal.signedDigits value).map some ++ rest) =
      some (⟨value < 0, Text.Decimal.digits value.natAbs, [], none⟩, rest) := by
  have hfraction : takeFraction? rest = some ([], rest) := by
    rcases rest with - | ⟨- | c, rest⟩
    · rfl
    · rfl
    · simp [takeFraction?, hrest.2.1]
  have hexponent : takeExponent? rest = some (none, rest) := by
    rcases rest with - | ⟨- | c, rest⟩
    · rfl
    · rfl
    · simp [takeExponent?, hrest.2.2]
  have hwhole : takeWhole? ((Text.Decimal.digits value.natAbs).map some ++ rest) =
      some (Text.Decimal.digits value.natAbs, rest) :=
    takeWhole?_append (fun _ => Text.Decimal.isDigit_of_mem_digits) Text.Decimal.digits_ne_nil
      (fun _ _ => Text.Decimal.digits_ne_zero_cons) hrest.endsDigits
  by_cases hneg : value < 0
  · simp [takeLiteral?, Text.Decimal.signedDigits, hneg, hwhole, hfraction, hexponent]
  · -- No digit is taken for a sign.
    have hsign :
        ∀ tail, (Text.Decimal.digits value.natAbs).map some ++ rest ≠ some '-' :: tail := by
      intro tail heq
      cases hdigits : Text.Decimal.digits value.natAbs with
      | nil => exact Text.Decimal.digits_ne_nil hdigits
      | cons c others =>
          have hc : c.isDigit := Text.Decimal.isDigit_of_mem_digits (hdigits ▸ List.mem_cons_self)
          rw [hdigits] at heq
          simp only [List.map_cons, List.cons_append, List.cons.injEq, Option.some.injEq] at heq
          rw [heq.1] at hc
          cases hc
    simp [takeLiteral?, Text.Decimal.signedDigits, hneg, hwhole, hfraction, hexponent]

/-- What an integer begins with. -/
def BeginsNumber (c : Char) : Prop := c = '-' ∨ c.isDigit

instance (c : Char) : Decidable (BeginsNumber c) := inferInstanceAs (Decidable (_ ∨ _))

theorem BeginsNumber.ne {c d : Char} (hc : BeginsNumber c) (hd : ¬ BeginsNumber d) : c ≠ d := by
  rintro rfl
  exact hd hc

theorem BeginsNumber.isSpace {c : Char} (hc : BeginsNumber c) : isSpace (some c) = false := by
  simp [Json.isSpace, hc.ne (by decide : ¬ BeginsNumber ' '),
    hc.ne (by decide : ¬ BeginsNumber '\n'),
    hc.ne (by decide : ¬ BeginsNumber '\r'), hc.ne (by decide : ¬ BeginsNumber '\t')]

theorem signedDigits_cons (value : Int) :
    ∃ c tail, Text.Decimal.signedDigits value = c :: tail ∧ BeginsNumber c := by
  unfold Text.Decimal.signedDigits
  split
  · exact ⟨_, _, rfl, .inl rfl⟩
  · cases hdigits : Text.Decimal.digits value.natAbs with
    | nil => exact absurd hdigits Text.Decimal.digits_ne_nil
    | cons c tail =>
        have hc : c.isDigit := Text.Decimal.isDigit_of_mem_digits (hdigits ▸ List.mem_cons_self)
        exact ⟨c, tail, rfl, .inr hc⟩

/-- Digits whose number fits are all kept. -/
theorem Literal.foldl_whole {digits : List Char} {start : Nat}
    (hfits : Nat.ofDigitChars 10 digits start < UInt64.size) :
    digits.foldl Kept.whole ⟨start, 0, false⟩ = ⟨Nat.ofDigitChars 10 digits start, 0, false⟩ := by
  induction digits generalizing start with
  | nil => simp
  | cons c digits ih =>
      rw [Text.Decimal.ofDigitChars_cons] at hfits ⊢
      have hnext : start * 10 + Text.Decimal.digitValue c < UInt64.size :=
        Nat.lt_of_le_of_lt Text.Decimal.le_ofDigitChars hfits
      have hstep : Kept.whole ⟨start, 0, false⟩ c = ⟨start * 10 + Text.Decimal.digitValue c,
          0, false⟩ := by
        simp [Kept.whole, hnext]
      rw [List.foldl_cons, hstep, ih hfits]

/-- Once a digit did not fit, the later ones are not kept either. -/
theorem Literal.foldl_full {digits : List Char} {kept : Kept} (hfull : kept.full) :
    (digits.foldl Kept.whole kept).full := by
  induction digits generalizing kept with
  | nil => exact hfull
  | cons c digits ih =>
      refine ih ?_
      simp [Kept.whole, hfull]

/-- Digits whose number does not fit are not all kept. -/
theorem Literal.foldl_whole_full {digits : List Char} {start : Nat} (hstart : start < UInt64.size)
    (hlarge : UInt64.size ≤ Nat.ofDigitChars 10 digits start) :
    (digits.foldl Kept.whole ⟨start, 0, false⟩).full := by
  induction digits generalizing start with
  | nil => exact absurd hlarge (by simpa using hstart)
  | cons c digits ih =>
      rw [Text.Decimal.ofDigitChars_cons] at hlarge
      rw [List.foldl_cons]
      by_cases hnext : start * 10 + Text.Decimal.digitValue c < UInt64.size
      · have hstep : Kept.whole ⟨start, 0, false⟩ c =
            ⟨start * 10 + Text.Decimal.digitValue c, 0, false⟩ := by simp [Kept.whole, hnext]
        rw [hstep]
        exact ih hnext hlarge
      · refine foldl_full ?_
        simp [Kept.whole, Nat.le_of_not_lt hnext]

/-- The integers that are read as integers. -/
def InRange (value : Int) : Prop := -2 ^ 63 ≤ value ∧ value < 2 ^ 64

/-- The value of the digits of a number that fits, behind a sign or not. -/
theorem Literal.value?_digits {negative : Bool} {value : Nat} (hfits : value < UInt64.size) :
    Literal.value? ⟨negative, Text.Decimal.digits value, [], none⟩ =
      if ¬ negative then some (.int value)
      else if value ≠ 0 ∧ value ≤ 2 ^ 63 then some (.int (-value))
      else real? true ⟨value, 0, false⟩ 0 := by
  have hback : Nat.ofDigitChars 10 (Text.Decimal.digits value) 0 = value :=
    Text.Decimal.ofDigits_digits
  have hkept : (Text.Decimal.digits value).foldl Kept.whole ⟨0, 0, false⟩ = ⟨value, 0, false⟩ := by
    rw [foldl_whole (by rwa [hback]), hback]
  simp only [value?, hkept]
  exact if_pos ⟨rfl, rfl, nofun⟩

theorem Literal.value?_int {value : Int} (hrange : InRange value) :
    Literal.value? ⟨value < 0, Text.Decimal.digits value.natAbs, [], none⟩ = some (.int value) := by
  obtain ⟨hlow, hhigh⟩ := hrange
  have hfits : value.natAbs < UInt64.size := by
    simp only [UInt64.size]
    omega
  rw [value?_digits hfits]
  by_cases hneg : value < 0
  · have hint : -(value.natAbs : Int) = value := by omega
    rw [if_neg (by simpa using hneg), if_pos ⟨by omega, by omega⟩, hint]
  · have hint : (value.natAbs : Int) = value := by omega
    rw [if_pos (by simpa using hneg), hint]

/-- The digits of a number that does not fit are read as a real number, if as anything. -/
theorem Literal.exists_real_of_value? {negative : Bool} {value : Nat} {json : Json}
    (hlarge : UInt64.size ≤ value)
    (hvalue : Literal.value? ⟨negative, Text.Decimal.digits value, [], none⟩ = some json) :
    ∃ number, json = .real number := by
  have hback : Nat.ofDigitChars 10 (Text.Decimal.digits value) 0 = value :=
    Text.Decimal.ofDigits_digits
  have hfull : ((Text.Decimal.digits value).foldl Kept.whole ⟨0, 0, false⟩).full :=
    foldl_whole_full (by decide) (by rwa [hback])
  simp only [value?, hfull, not_true_eq_false, and_false, if_false, real?, Option.map_eq_some_iff]
    at hvalue
  obtain ⟨magnitude, -, rfl⟩ := hvalue
  exact ⟨_, rfl⟩

/-! ## Values -/

mutual

/-- A value without real numbers, and with containers at most `depth` deep. -/
def Plain : (depth : Nat) → Json → Prop
  | _, .null | _, .bool _ | _, .int _ | _, .str _ => True
  | _, .real _ => False
  | 0, .arr _ | 0, .obj _ => False
  | depth + 1, .arr items => PlainItems depth items
  | depth + 1, .obj members => PlainMembers depth members

def PlainItems (depth : Nat) : List Json → Prop
  | [] => True
  | item :: rest => Plain depth item ∧ PlainItems depth rest

def PlainMembers (depth : Nat) : List (String × Json) → Prop
  | [] => True
  | (_, value) :: rest => Plain depth value ∧ PlainMembers depth rest

end

mutual

/-- What the text of a plain value is read as. Its integers are read by their digits. -/
def reread? : Json → Option Json
  | .null => some .null
  | .bool value => some (.bool value)
  | .int value => Literal.value? ⟨value < 0, Text.Decimal.digits value.natAbs, [], none⟩
  | .real value => some (.real value)
  | .str value => some (.str value)
  | .arr items => (rereadItems? items).map .arr
  | .obj members => (rereadMembers? members).map .obj

def rereadItems? : List Json → Option (List Json)
  | [] => some []
  | item :: rest => do return (← reread? item) :: (← rereadItems? rest)

def rereadMembers? : List (String × Json) → Option (List (String × Json))
  | [] => some []
  | (key, value) :: rest => do return (key, ← reread? value) :: (← rereadMembers? rest)

end

theorem readNumber_signedDigits (value : Int) {rest : Symbols} (hrest : EndsNumber rest) :
    readNumber .keep ((Text.Decimal.signedDigits value).map some ++ rest) =
      (reread? (.int value)).map (·, rest) := by
  rw [readNumber, takeLiteral?_signedDigits hrest, reread?]
  cases hvalue : Literal.value? _ <;> simp [hvalue]

/-- An integer in range is read back. -/
theorem reread?_int {value : Int} (hrange : InRange value) :
    reread? (.int value) = some (.int value) :=
  Literal.value?_int hrange

/-- No integer beyond the range is read back as one. -/
theorem exists_real_of_reread? {value : Nat} {json : Json} (hlarge : 2 ^ 64 ≤ value)
    (hread : reread? (.int value) = some json) : ∃ number, json = .real number :=
  Literal.exists_real_of_value? hlarge hread

/-- A value whose text is read as `reread?` says wherever it stands, with containers at most `depth`
deep. Its text begins with something that is no space, and closes no array. -/
structure ReadsBack (depth : Nat) (value : Json) : Prop where
  begins : ∃ c tail, value.write = c :: tail ∧ isSpace (some c) = false ∧ c ≠ ']'
  reads : ∀ {fuel rest}, 2 * value.write.length ≤ fuel → EndsNumber rest →
    readValue .keep fuel depth (value.write.map some ++ rest) = (reread? value).map (·, rest)

theorem skipSpace_cons {c : Char} {tail : Symbols} (hc : isSpace (some c) = false) :
    skipSpace (some c :: tail) = some c :: tail := by
  simp [skipSpace, hc]

theorem readItems_write {depth fuel : Nat} {first : Json} {items : List Json} {rest : Symbols}
    (hitems : ∀ item ∈ first :: items, ReadsBack depth item)
    (hfuel : 2 * (first.write ++ writeItems items).length + 1 ≤ fuel) :
    readItems .keep fuel depth ((first.write ++ writeItems items).map some ++ rest) =
      (rereadItems? (first :: items)).map (·, rest) := by
  induction items generalizing first fuel with
  | nil =>
      obtain ⟨fuel, rfl⟩ : ∃ n, fuel = n + 1 := ⟨fuel - 1, by omega⟩
      simp only [writeItems, List.length_append, List.length_cons] at hfuel
      have htext : (first.write ++ writeItems []).map some ++ rest =
          first.write.map some ++ some ']' :: rest := by simp [writeItems]
      have hread : readValue .keep fuel depth (first.write.map some ++ some ']' :: rest) =
          (reread? first).map (·, some ']' :: rest) :=
        (hitems first (by simp)).reads (by omega) (by simp [EndsNumber])
      rw [htext, readItems, hread]
      cases hfirst : reread? first <;> simp [rereadItems?, hfirst, skipSpace, isSpace]
  | cons second items ih =>
      obtain ⟨fuel, rfl⟩ : ∃ n, fuel = n + 1 := ⟨fuel - 1, by omega⟩
      simp only [writeItems, List.length_append, List.length_cons] at hfuel
      have htext : (first.write ++ writeItems (second :: items)).map some ++ rest =
          first.write.map some ++
            some ',' :: ((second.write ++ writeItems items).map some ++ rest) := by
        simp [writeItems]
      have hrest :
          readItems .keep fuel depth ((second.write ++ writeItems items).map some ++ rest) =
          (rereadItems? (second :: items)).map (·, rest) :=
        ih (fun item hitem => hitems item (by simp [hitem]))
          (by simp only [List.length_append]; omega)
      rw [htext]
      generalize (second.write ++ writeItems items).map some ++ rest = tail at hrest ⊢
      have hread : readValue .keep fuel depth (first.write.map some ++ some ',' :: tail) =
          (reread? first).map (·, some ',' :: tail) :=
        (hitems first (by simp)).reads (by omega) (by simp [EndsNumber])
      rw [readItems, hread, rereadItems?]
      cases reread? first with
      | none => rfl
      | some item =>
          cases hitems : rereadItems? (second :: items) <;> simp [hrest, hitems, skipSpace, isSpace]

/-- The text of a member. -/
def writeMember (key : String) (value : Json) : List Char :=
  writeString key.toList ++ ':' :: value.write

theorem readMembers_write {depth fuel : Nat} {key : String} {value : Json}
    {members : List (String × Json)} {rest : Symbols}
    (hmembers : ∀ member ∈ (key, value) :: members, ReadsBack depth member.2)
    (hfuel : 2 * (writeMember key value ++ writeMembers members).length + 1 ≤ fuel) :
    readMembers .keep (fun _ => .keep) fuel depth
      ((writeMember key value ++ writeMembers members).map some ++ rest) =
      (rereadMembers? ((key, value) :: members)).map (·, rest) := by
  induction members generalizing key value fuel with
  | nil =>
      obtain ⟨fuel, rfl⟩ : ∃ n, fuel = n + 1 := ⟨fuel - 1, by omega⟩
      simp only [writeMember, writeMembers, List.length_append, List.length_cons] at hfuel
      have htext : (writeMember key value ++ writeMembers []).map some ++ rest =
          some '"' :: ((key.toList.flatMap escapeChar).map some ++
            some '"' :: some ':' :: (value.write.map some ++ some '\x7d' :: rest)) := by
        simp [writeMember, writeMembers, writeString]
      have hvalue : ReadsBack depth value := hmembers (key, value) (by simp)
      have hread : readValue .keep fuel depth (value.write.map some ++ some '\x7d' :: rest) =
          (reread? value).map (·, some '\x7d' :: rest) :=
        hvalue.reads (by omega) (by simp [EndsNumber])
      rw [htext]
      cases hwritten : reread? value <;>
        simp [readMembers, rereadMembers?, readString_escaped, hread, hwritten, skipSpace, isSpace]
  | cons second members ih =>
      obtain ⟨fuel, rfl⟩ : ∃ n, fuel = n + 1 := ⟨fuel - 1, by omega⟩
      obtain ⟨key', value'⟩ := second
      have hsplit : writeMembers ((key', value') :: members) =
          ',' :: (writeMember key' value' ++ writeMembers members) := by
        simp [writeMember, writeMembers]
      have hlength : (writeMember key value).length ≥ value.write.length + 1 := by
        simp only [writeMember, List.length_append, List.length_cons]
        omega
      simp only [hsplit, List.length_append, List.length_cons] at hfuel
      have hrest : readMembers .keep (fun _ => .keep) fuel depth
          ((writeMember key' value' ++ writeMembers members).map some ++ rest) =
          (rereadMembers? ((key', value') :: members)).map (·, rest) :=
        ih (fun member hmember => hmembers member (by simp [hmember]))
          (by simp only [List.length_append]; omega)
      have htext :
          (writeMember key value ++ writeMembers ((key', value') :: members)).map some ++ rest =
          some '"' :: ((key.toList.flatMap escapeChar).map some ++
            some '"' :: some ':' :: (value.write.map some ++
              some ',' :: ((writeMember key' value' ++ writeMembers members).map some ++
                rest))) := by
        simp [hsplit, writeMember, writeString]
      rw [htext]
      generalize (writeMember key' value' ++ writeMembers members).map some ++ rest = tail
        at hrest ⊢
      have hvalue : ReadsBack depth value := hmembers (key, value) (by simp)
      have hread : readValue .keep fuel depth (value.write.map some ++ some ',' :: tail) =
          (reread? value).map (·, some ',' :: tail) :=
        hvalue.reads (by omega) (by simp [EndsNumber])
      rw [rereadMembers?]
      cases hwritten : reread? value with
      | none => simp [readMembers, readString_escaped, hread, hwritten, skipSpace, isSpace]
      | some read =>
          cases hothers : rereadMembers? ((key', value') :: members) <;>
            simp [readMembers, readString_escaped, hread, hwritten, hrest, hothers,
              skipSpace, isSpace]

/-- What begins a number begins no other value. -/
theorem readValue_number {care : Care} {c : Char} {tail : Symbols} {fuel depth : Nat}
    (hc : BeginsNumber c) :
    readValue care (fuel + 1) depth (some c :: tail) = readNumber care (some c :: tail) := by
  have hne : ∀ d, ¬ BeginsNumber d → c ≠ d := fun d hd => hc.ne hd
  rw [readValue, skipSpace_cons hc.isSpace]
  simp [hne 'n' (by decide), hne 't' (by decide), hne 'f' (by decide), hne '"' (by decide),
    hne '[' (by decide), hne '\x7b' (by decide)]

namespace ReadsBack

variable {depth : Nat}

theorem null : ReadsBack depth .null where
  begins := ⟨'n', _, rfl, by decide, by decide⟩
  reads {fuel rest} hfuel _ := by
    obtain ⟨fuel, rfl⟩ : ∃ n, fuel = n + 1 := ⟨fuel - 1, by simp [write] at hfuel; omega⟩
    simp [write, reread?, readValue, Json.skipSpace, isSpace]

theorem bool (value : Bool) : ReadsBack depth (.bool value) where
  begins := by cases value <;> exact ⟨_, _, rfl, by decide, by decide⟩
  reads {fuel rest} hfuel _ := by
    obtain ⟨fuel, rfl⟩ : ∃ n, fuel = n + 1 :=
      ⟨fuel - 1, by cases value <;> simp [write] at hfuel <;> omega⟩
    cases value <;> simp [write, reread?, readValue, Json.skipSpace, isSpace]

theorem str (value : String) : ReadsBack depth (.str value) where
  begins := ⟨'"', _, rfl, by decide, by decide⟩
  reads {fuel rest} hfuel _ := by
    obtain ⟨fuel, rfl⟩ : ∃ n, fuel = n + 1 :=
      ⟨fuel - 1, by simp [write, writeString] at hfuel; omega⟩
    rw [write, writeString_append]
    simp [reread?, readValue, readString_escaped, Json.skipSpace, isSpace]

theorem int (value : Int) : ReadsBack depth (.int value) where
  begins := by
    obtain ⟨c, tail, hwrite, hc⟩ := signedDigits_cons value
    exact ⟨c, tail, hwrite, hc.isSpace, hc.ne (by decide)⟩
  reads {fuel rest} hfuel hrest := by
    obtain ⟨c, tail, hwrite, hc⟩ := signedDigits_cons value
    obtain ⟨fuel, rfl⟩ : ∃ n, fuel = n + 1 := ⟨fuel - 1, by simp [write, hwrite] at hfuel; omega⟩
    have hread := readNumber_signedDigits value hrest
    rw [hwrite] at hread
    rw [write, hwrite]
    exact (readValue_number hc).trans hread

theorem arr {items : List Json} (hitems : ∀ item ∈ items, ReadsBack depth item) :
    ReadsBack (depth + 1) (.arr items) where
  begins := by cases items <;> exact ⟨'[', _, rfl, by decide, by decide⟩
  reads {fuel rest} hfuel _ := by
    cases items with
    | nil =>
        obtain ⟨fuel, rfl⟩ : ∃ n, fuel = n + 1 := ⟨fuel - 1, by simp [write] at hfuel; omega⟩
        simp [write, reread?, rereadItems?, readValue, enter, Json.skipSpace, isSpace]
    | cons item items =>
        simp only [write, List.length_cons] at hfuel
        obtain ⟨fuel, rfl⟩ : ∃ n, fuel = n + 1 := ⟨fuel - 1, by omega⟩
        obtain ⟨c, tail, hwrite, hspace, hclose⟩ := (hitems item (by simp)).begins
        have hread :
            readItems .keep fuel depth ((item.write ++ writeItems items).map some ++ rest) =
            (rereadItems? (item :: items)).map (·, rest) := readItems_write hitems (by omega)
        have htext : (item.write ++ writeItems items).map some ++ rest =
            some c :: (tail.map some ++ ((writeItems items).map some ++ rest)) := by simp [hwrite]
        rw [htext] at hread
        rw [write, List.map_cons, List.cons_append, htext]
        cases hread' : rereadItems? (item :: items) <;>
          simp [reread?, readValue, enter, skipSpace_cons hspace,
            skipSpace_cons (c := '['), hclose, hread,
            hread', isSpace]

theorem obj {members : List (String × Json)}
    (hmembers : ∀ member ∈ members, ReadsBack depth member.2) :
    ReadsBack (depth + 1) (.obj members) where
  begins := by
    rcases members with - | ⟨⟨key, value⟩, members⟩ <;>
      exact ⟨'\x7b', _, rfl, by decide, by decide⟩
  reads {fuel rest} hfuel _ := by
    rcases members with - | ⟨⟨key, value⟩, members⟩
    · obtain ⟨fuel, rfl⟩ : ∃ n, fuel = n + 1 := ⟨fuel - 1, by simp [write] at hfuel; omega⟩
      simp [write, reread?, rereadMembers?, readValue, enter, Json.skipSpace, isSpace]
    · have hwrite : write (.obj ((key, value) :: members)) =
          '\x7b' :: (writeMember key value ++ writeMembers members) := by simp [write, writeMember]
      simp only [hwrite, List.length_cons] at hfuel
      obtain ⟨fuel, rfl⟩ : ∃ n, fuel = n + 1 := ⟨fuel - 1, by omega⟩
      have hread : readMembers .keep (fun _ => .keep) fuel depth
          ((writeMember key value ++ writeMembers members).map some ++ rest) =
          (rereadMembers? ((key, value) :: members)).map (·, rest) :=
        readMembers_write hmembers (by omega)
      have htext : (writeMember key value ++ writeMembers members).map some ++ rest =
          some '"' :: ((key.toList.flatMap escapeChar).map some ++ some '"' :: some ':' ::
            ((value.write ++ writeMembers members).map some ++ rest)) := by
        simp [writeMember, writeString]
      rw [htext] at hread
      rw [hwrite, List.map_cons, List.cons_append, htext]
      generalize (key.toList.flatMap escapeChar).map some ++ some '"' :: some ':' ::
        ((value.write ++ writeMembers members).map some ++ rest) = tail at hread ⊢
      cases hread' : rereadMembers? ((key, value) :: members) <;>
        simp [reread?, readValue, enter, skipSpace_cons (c := '"'), skipSpace_cons (c := '\x7b'),
          hread, hread', isSpace]

end ReadsBack

mutual

theorem Plain.readsBack {depth : Nat} : ∀ {value : Json}, Plain depth value → ReadsBack depth value
  | .null, _ => .null
  | .bool value, _ => .bool value
  | .int value, _ => .int value
  | .real _, hreal => hreal.elim
  | .str value, _ => .str value
  | .arr items, hitems => by
      cases depth with
      | zero => exact hitems.elim
      | succ depth => exact .arr (PlainItems.readsBack hitems)
  | .obj members, hmembers => by
      cases depth with
      | zero => exact hmembers.elim
      | succ depth => exact .obj (PlainMembers.readsBack hmembers)

theorem PlainItems.readsBack {depth : Nat} :
    ∀ {items : List Json}, PlainItems depth items → ∀ item ∈ items, ReadsBack depth item
  | [], _ => nofun
  | item :: items, hitems => by
      have hitem : ReadsBack depth item := hitems.1.readsBack
      intro other hmem
      rcases List.mem_cons.1 hmem with rfl | hmem
      · exact hitem
      · exact PlainItems.readsBack hitems.2 other hmem

theorem PlainMembers.readsBack {depth : Nat} :
    ∀ {members : List (String × Json)}, PlainMembers depth members →
      ∀ member ∈ members, ReadsBack depth member.2
  | [], _ => nofun
  | (key, value) :: members, hmembers => by
      have hvalue : ReadsBack depth value := hmembers.1.readsBack
      intro other hmem
      rcases List.mem_cons.1 hmem with rfl | hmem
      · exact hvalue
      · exact PlainMembers.readsBack hmembers.2 other hmem

end

/-- The text of a plain value is read as `reread?` says. -/
theorem parse?_write {value : Json} (hplain : Plain maxDepth value) :
    parse? value.write = reread? value := by
  have hread :
      readValue .keep (fuelFor (value.write.map some)) maxDepth (value.write.map some ++ []) =
      (reread? value).map (·, []) :=
    hplain.readsBack.reads (by simp [fuelFor]) (by simp [EndsNumber])
  rw [List.append_nil] at hread
  cases hreread : reread? value <;> simp [parse?, read?, hread, hreread, skipSpace]

end ShardNet.Json
