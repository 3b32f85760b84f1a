-- SUMMARY: The blanks, strings and numbers of JSON are read as the grammar says, and nothing else is.
import ShardNet.Proofs.Json.Grammar

/-!
# Tokens

The reader finds the blanks, the strings and the numbers of the grammar. What it takes for one is
one, and it takes all of it. Only a number needs to know that no number goes on behind it.
-/

namespace ShardNet.Json

open Text.Decimal (DigitRun)
open Text.Hex (Digit)

variable {care : Care} {input front rest : Symbols} {c : Char}

/-! ## Blanks -/

theorem isSpace_iff : isSpace (some c) ↔ c ∈ [' ', '\n', '\r', '\t'] := by
  simp [isSpace, or_assoc]

/-- Blanks in front do not change what follows them. -/
theorem Blanks.skipSpace (h : Blanks input rest) : skipSpace input = skipSpace rest := by
  induction h with
  | done => rfl
  | blank hc _ ih =>
      rw [← ih, Json.skipSpace, List.dropWhile_cons_of_pos (isSpace_iff.2 hc), Json.skipSpace]

theorem blanks_skipSpace (input : Symbols) : Blanks input (skipSpace input) := by
  induction input with
  | nil => exact .done
  | cons symbol input ih =>
      rw [skipSpace, List.dropWhile_cons]
      split
      · next hspace =>
        cases symbol with
        | none => cases hspace
        | some c => exact .blank (isSpace_iff.1 hspace) ih
      · exact .done

theorem blanks_nil_iff : Blanks rest [] ↔ skipSpace rest = [] :=
  ⟨fun h => h.skipSpace, fun h => h ▸ blanks_skipSpace rest⟩

/-- Blanks go on no number. -/
theorem Blanks.endsNumber (h : Blanks input rest) (hrest : EndsNumber rest) : EndsNumber input := by
  cases h with
  | done => exact hrest
  | blank hc _ =>
      simp only [List.mem_cons, List.not_mem_nil, or_false] at hc
      rcases hc with rfl | rfl | rfl | rfl <;> simp [EndsNumber]

/-! ## Strings -/

theorem hexValue?_eq_some_iff {value : Nat} : hexValue? (some c) = some value ↔ Digit c value := by
  have hread : ∀ value < 16, hexValue? (some (Text.Hex.digit value)) = some value ∧
      hexValue? (some (Text.Hex.digit value).toUpper) = some value := by decide
  have hdigits :
      ∀ n < 128, ∀ value ∈ hexValue? (some (Char.ofNat n)), Digit (Char.ofNat n) value := by
    decide +kernel
  constructor
  · intro h
    have hsmall : c.toNat < 128 := by
      by_contra hlarge
      have hbeyond : ∀ d : Char, d.toNat < 128 → ¬ c ≤ d := by
        intro d hd hle
        have hle := UInt32.le_iff_toNat_le.1 hle
        have hc : c.val.toNat = c.toNat := rfl
        have hd' : d.val.toNat = d.toNat := rfl
        omega
      simp [hexValue?, hbeyond] at h
    have hdigit := hdigits c.toNat hsmall value
    rw [Char.ofNat_toNat] at hdigit
    exact hdigit h
  · intro h
    obtain ⟨hlt, rfl | rfl⟩ := Text.Hex.digit_iff.1 h
    · exact (hread value hlt).1
    · exact (hread value hlt).2

theorem codeValue?_eq_some_iff {p q r s : Option Char} {value : Nat} :
    codeValue? p q r s = some value ↔
      ∃ a b c d, p = some a ∧ q = some b ∧ r = some c ∧ s = some d ∧ IsCode a b c d value := by
  have hnone : ∀ {symbol : Option Char} {value : Nat}, hexValue? symbol = some value ↔
      ∃ c, symbol = some c ∧ Digit c value := by
    intro symbol value
    cases symbol with
    | none => simp [hexValue?]
    | some c => simp [hexValue?_eq_some_iff]
  simp only [codeValue?, Option.bind_eq_bind, Option.bind_eq_some_iff, hnone, Option.pure_def,
    Option.some.injEq]
  constructor
  · rintro ⟨_, ⟨a, rfl, ha⟩, _, ⟨b, rfl, hb⟩, _, ⟨c, rfl, hc⟩, _, ⟨d, rfl, hd⟩, rfl⟩
    exact ⟨a, b, c, d, rfl, rfl, rfl, rfl, _, _, _, _, ha, hb, hc, hd, rfl⟩
  · rintro ⟨a, b, c, d, rfl, rfl, rfl, rfl, _, _, _, _, ha, hb, hc, hd, rfl⟩
    exact ⟨_, ⟨a, rfl, ha⟩, _, ⟨b, rfl, hb⟩, _, ⟨c, rfl, hc⟩, _, ⟨d, rfl, hd⟩, rfl⟩

theorem escaped?_eq_some_iff {letter : Char} :
    escaped? letter = some c ↔ (letter, c) ∈ escapes := by
  unfold escaped?
  split <;> simp_all [escapes, eq_comm]

theorem units_of_readUnits {units : List Unit16} (h : readUnits input = some (units, rest)) :
    Units input units rest := by
  fun_induction readUnits input generalizing units with
  | case2 =>
      cases h
      exact .close
  | case3 _ _ _ _ _ _ _ _ hread hvalue ih =>
      cases h
      obtain ⟨a, b, c, d, rfl, rfl, rfl, rfl, hcode⟩ := codeValue?_eq_some_iff.1 hvalue
      exact .code hcode (ih hread)
  | case5 _ _ _ _ _ _ hread hletter ih =>
      cases h
      exact .escaped (escaped?_eq_some_iff.1 hletter) (ih hread)
  | case9 _ _ hquote _ _ hslash hcontrol _ _ hread ih =>
      cases h
      exact .plain (Nat.not_lt.1 hcontrol) hquote hslash (ih hread)
  | case11 _ _ _ hread ih =>
      cases h
      exact .hole (ih hread)
  | case1 | case4 | case6 | case7 | case8 | case10 | case12 => cases h

theorem Units.readUnits {units : List Unit16} (h : Units input units rest) :
    readUnits input = some (units, rest) := by
  induction h with
  | close => rfl
  | plain hprinted hquote hslash _ ih =>
      have hcontrol : ¬ _ < (0x20 : UInt32) := Nat.not_lt.2 hprinted
      simp [Json.readUnits, hslash, hcontrol, ih]
  | @escaped letter c _ _ _ hescape _ ih =>
      have hletter : letter ≠ 'u' := by
        rintro rfl
        simp [escapes] at hescape
      simp [Json.readUnits, hletter, escaped?_eq_some_iff.2 hescape, ih]
  | @code a b c d value _ _ _ hcode _ ih =>
      have hvalue : codeValue? (some a) (some b) (some c) (some d) = some value :=
        codeValue?_eq_some_iff.2 ⟨a, b, c, d, rfl, rfl, rfl, rfl, hcode⟩
      simp [Json.readUnits, hvalue, ih]
  | hole _ ih => simp [Json.readUnits, ih]

theorem decodeUnits_eq_some_iff {units : List Unit16} {text : List Char} :
    decodeUnits units = some text ↔ Spelt units text := by
  constructor
  · intro h
    fun_induction decodeUnits units generalizing text with
    | case1 =>
        cases h
        exact .nil
    | case2 _ _ ih =>
        obtain ⟨others, hothers, rfl⟩ := Option.map_eq_some_iff.1 h
        exact .char (ih hothers)
    | case3 _ _ _ hhigh hlow ih =>
        obtain ⟨others, hothers, rfl⟩ := Option.map_eq_some_iff.1 h
        exact .pair hhigh hlow (ih hothers)
    | case6 high _ _ hhigh hlow ih =>
        obtain ⟨others, hothers, rfl⟩ := Option.map_eq_some_iff.1 h
        exact .code (by omega) (ih hothers)
    | case8 _ _ _ hvalue ih =>
        obtain ⟨others, hothers, rfl⟩ := Option.map_eq_some_iff.1 h
        exact .code hvalue (ih hothers)
    | case4 | case5 | case7 | case9 => cases h
  · intro h
    induction h with
    | nil => rfl
    | char _ ih => simp [decodeUnits, ih]
    | @code value units text hvalue _ ih =>
        have hhigh : ¬ (0xD800 ≤ value ∧ value ≤ 0xDBFF) := by omega
        have hlow : ¬ (0xDC00 ≤ value ∧ value ≤ 0xDFFF) := by omega
        have hdecode : decodeUnits (.code value :: units) =
            (decodeUnits units).map (Char.ofNat value :: ·) := by
          rcases units with - | ⟨- | - | -, units⟩ <;> simp [decodeUnits, hvalue, hhigh, hlow]
        rw [hdecode, ih]
        rfl
    | pair hhigh hlow _ ih => simp [decodeUnits, hhigh, hlow, ih]

theorem quoted_of_readString {text : String} (h : readString care input = some (text, rest)) :
    Quoted care input text rest := by
  unfold readString at h
  split at h
  · cases h
  · next hunits =>
    cases h
    exact ⟨_, units_of_readUnits hunits, nofun⟩
  · next hunits =>
    obtain ⟨characters, htext, hfound⟩ := Option.map_eq_some_iff.1 h
    cases hfound
    refine ⟨_, units_of_readUnits hunits, fun _ => ?_⟩
    rwa [String.toList_ofList, ← decodeUnits_eq_some_iff]

theorem Quoted.readString {text : String} (h : Quoted care input text rest) :
    ∃ other, readString care input = some (other, rest) ∧ (care = .keep → other = text) := by
  obtain ⟨units, hunits, htext⟩ := h
  cases care with
  | pass => exact ⟨"", by simp [Json.readString, hunits.readUnits], nofun⟩
  | keep =>
      refine ⟨text, ?_, fun _ => rfl⟩
      simp [Json.readString, hunits.readUnits, decodeUnits_eq_some_iff.2 (htext rfl)]

/-! ## Numbers -/

variable {digits : List Char} {literal : Literal}

theorem of_takeDigits (h : takeDigits input = (digits, rest)) :
    input = digits.map some ++ rest ∧ ∀ c ∈ digits, c.isDigit := by
  fun_induction takeDigits input generalizing digits with
  | case1 c _ hc others left hothers ih =>
      cases h
      obtain ⟨rfl, hdigits⟩ := ih hothers
      exact ⟨rfl, List.forall_mem_cons.2 ⟨hc, hdigits⟩⟩
  | case2 | case3 =>
      cases h
      exact ⟨rfl, List.forall_mem_nil _⟩

theorem of_takeDigits? (h : takeDigits? input = some (digits, rest)) :
    input = digits.map some ++ rest ∧ DigitRun digits (Number.ofDigits digits) := by
  unfold takeDigits? at h
  split at h
  · cases h
  · next hne =>
    obtain ⟨hinput, hdigits⟩ := of_takeDigits (Option.some.inj h)
    refine ⟨hinput, ⟨?_, hdigits, rfl⟩⟩
    rintro rfl
    exact hne _ (Option.some.inj h)

theorem takeDigits?_append {value : Nat} (h : DigitRun digits value) (hrest : EndsDigits rest) :
    takeDigits? (digits.map some ++ rest) = some (digits, rest) := by
  rw [takeDigits?, takeDigits_append h.isDigit hrest]
  cases digits with
  | nil => exact absurd rfl h.ne_nil
  | cons => rfl

theorem of_takeFraction? (h : takeFraction? input = some (digits, rest)) :
    ∃ front, input = front.map some ++ rest ∧ Fraction digits front := by
  unfold takeFraction? at h
  split at h
  · obtain ⟨rfl, hrun⟩ := of_takeDigits? h
    exact ⟨_, rfl, .digits hrun⟩
  · cases h
    exact ⟨[], rfl, .none⟩

/-- An input that begins with no sign. -/
def NoSign (input : Symbols) : Prop := ∀ left, input ≠ some '-' :: left ∧ input ≠ some '+' :: left

/-- Behind its letter and its sign, an exponent is its digits. -/
theorem takeExponent?_letter {letter : Char} {negative : Bool} {sign : List Char}
    (hletter : letter ∈ ['e', 'E']) (hsign : (negative, sign) ∈ signs)
    (hplain : sign = [] → NoSign input) :
    takeExponent? (some letter :: (sign.map some ++ input)) = (takeDigits? input).map
      fun (digits, rest) =>
        (some (if negative then -(Number.ofDigits digits : Int) else Number.ofDigits digits),
          rest) := by
  have hmark : ¬ (letter ≠ 'e' ∧ letter ≠ 'E') := by
    simpa [Decidable.imp_iff_not_or, or_comm] using hletter
  simp only [signs, List.mem_cons, Prod.mk.injEq, List.not_mem_nil, or_false] at hsign
  rcases hsign with ⟨rfl, rfl⟩ | ⟨rfl, rfl⟩ | ⟨rfl, rfl⟩
  · simp only [List.map_nil, List.nil_append, takeExponent?, if_neg hmark]
    split
    · exact absurd rfl (hplain rfl _).1
    · exact absurd rfl (hplain rfl _).2
    · rfl
  · simp only [List.map_cons, List.map_nil, List.cons_append, List.nil_append,
      takeExponent?, if_neg hmark]
  · simp only [List.map_cons, List.map_nil, List.cons_append, List.nil_append,
      takeExponent?, if_neg hmark]

theorem exists_sign (input : Symbols) : ∃ negative sign left, (negative, sign) ∈ signs ∧
    input = sign.map some ++ left ∧ (sign = [] → NoSign left) := by
  by_cases hplain : NoSign input
  · exact ⟨false, [], input, by simp [signs], rfl, fun _ => hplain⟩
  · obtain ⟨left, hleft⟩ := not_forall.1 hplain
    obtain rfl | rfl : input = some '-' :: left ∨ input = some '+' :: left := by
      rwa [not_and_or, not_not, not_not] at hleft
    · exact ⟨true, ['-'], left, by simp [signs], rfl, nofun⟩
    · exact ⟨false, ['+'], left, by simp [signs], rfl, nofun⟩

theorem of_takeExponent? {exponent : Option Int} (h : takeExponent? input = some (exponent, rest)) :
    ∃ back, input = back.map some ++ rest ∧ Exponent exponent back := by
  rcases input with - | ⟨- | letter, input⟩
  · cases h
    exact ⟨[], rfl, .none⟩
  · cases h
    exact ⟨[], rfl, .none⟩
  by_cases hletter : letter ∈ ['e', 'E']
  · obtain ⟨negative, sign, left, hsign, rfl, hplain⟩ := exists_sign input
    rw [takeExponent?_letter hletter hsign hplain] at h
    obtain ⟨⟨digits, after⟩, hdigits, hfound⟩ := Option.map_eq_some_iff.1 h
    cases hfound
    obtain ⟨rfl, hrun⟩ := of_takeDigits? hdigits
    exact ⟨letter :: (sign ++ digits), by simp, .digits hletter hsign hrun⟩
  · have hother : letter ≠ 'e' ∧ letter ≠ 'E' := by simpa using hletter
    simp only [takeExponent?, if_pos hother] at h
    cases h
    exact ⟨[], rfl, .none⟩

theorem of_takeWhole? (h : takeWhole? input = some (digits, rest)) :
    input = digits.map some ++ rest ∧ DigitRun digits (Number.ofDigits digits) ∧
      ∀ c others, digits ≠ '0' :: c :: others := by
  unfold takeWhole? at h
  split at h
  · cases h
  · next hzero =>
    obtain ⟨hinput, hrun⟩ := of_takeDigits? h
    refine ⟨hinput, hrun, ?_⟩
    rintro c others rfl
    exact hzero _ _ _ h

theorem of_takeLiteral? (h : takeLiteral? input = some (literal, rest)) :
    ∃ text, input = text.map some ++ rest ∧ literal.Spells text := by
  unfold takeLiteral? at h
  split at h
  next negative left hfound =>
  obtain ⟨sign, rfl, hsign⟩ : ∃ sign : List Char, input = sign.map some ++ left ∧
      sign = if negative then ['-'] else [] := by
    split at hfound
    · cases hfound
      exact ⟨['-'], rfl, rfl⟩
    · cases hfound
      exact ⟨[], rfl, rfl⟩
  obtain ⟨⟨whole, left⟩, hwhole, h⟩ := Option.bind_eq_some_iff.1 h
  obtain ⟨⟨fraction, left⟩, hfraction, h⟩ := Option.bind_eq_some_iff.1 h
  obtain ⟨⟨exponent, left⟩, hexponent, h⟩ := Option.bind_eq_some_iff.1 h
  cases h
  obtain ⟨rfl, hrun, hzero⟩ := of_takeWhole? hwhole
  obtain ⟨front, rfl, hfront⟩ := of_takeFraction? hfraction
  obtain ⟨back, rfl, hback⟩ := of_takeExponent? hexponent
  exact ⟨_, by simp, .intro hsign hrun hzero hfront hback⟩

theorem noSign_of_digits {value : Nat} (h : DigitRun digits value) :
    NoSign (digits.map some ++ rest) := by
  cases digits with
  | nil => exact absurd rfl h.ne_nil
  | cons c digits =>
      have hc : c.isDigit := h.isDigit c List.mem_cons_self
      intro left
      constructor
      all_goals
        rintro ⟨⟩
        cases hc

theorem Exponent.takeExponent? {exponent : Option Int} {back : List Char}
    (h : Exponent exponent back) (hrest : EndsNumber rest) :
    takeExponent? (back.map some ++ rest) = some (exponent, rest) := by
  cases h with
  | none =>
      rcases rest with - | ⟨- | c, rest⟩
      · rfl
      · rfl
      · simp [Json.takeExponent?, hrest.2.2]
  | @digits letter negative sign digits value hletter hsign hrun =>
      have hplain : sign = [] → NoSign (digits.map some ++ rest) := fun _ => noSign_of_digits hrun
      have hread := takeExponent?_letter hletter hsign hplain
      rw [takeDigits?_append hrun hrest.endsDigits] at hread
      simpa [hrun.value_eq] using hread

theorem Fraction.takeFraction? {fraction front : List Char} (h : Fraction fraction front)
    (hrest : EndsDigits rest) (hpoint : front = [] → rest.head? ≠ some (some '.')) :
    takeFraction? (front.map some ++ rest) = some (fraction, rest) := by
  cases h with
  | none =>
      rcases rest with - | ⟨- | c, rest⟩
      · rfl
      · rfl
      · have hc : c ≠ '.' := by simpa using hpoint rfl
        simp [Json.takeFraction?, hc]
  | digits hrun => exact takeDigits?_append hrun hrest

/-- What comes behind the digits of a number goes on none of them, and has no point. -/
theorem Exponent.ends {exponent : Option Int} {back : List Char} (h : Exponent exponent back)
    (hrest : EndsNumber rest) :
    EndsDigits (back.map some ++ rest) ∧ (back.map some ++ rest).head? ≠ some (some '.') := by
  cases h with
  | none =>
      refine ⟨hrest.endsDigits, ?_⟩
      rcases rest with - | ⟨- | c, rest⟩
      · exact nofun
      · simp
      · simpa using hrest.2.1
  | digits hletter _ _ =>
      simp only [List.mem_cons, List.not_mem_nil, or_false] at hletter
      rcases hletter with rfl | rfl <;> simp [EndsDigits]

theorem Literal.Spells.takeLiteral? {text : List Char} (h : literal.Spells text)
    (hrest : EndsNumber rest) :
    takeLiteral? (text.map some ++ rest) = some (literal, rest) := by
  cases h with
  | @intro negative sign whole fraction front back value exponent hsign hwhole hzero
      hfraction hexponent =>
      obtain ⟨hback, hpoint⟩ := hexponent.ends hrest
      have hfront : EndsDigits (front.map some ++ (back.map some ++ rest)) := by
        cases hfraction with
        | none => exact hback
        | digits => simp [EndsDigits]
      have hread : takeWhole? (whole.map some ++ (front.map some ++ (back.map some ++ rest))) =
          some (whole, front.map some ++ (back.map some ++ rest)) :=
        takeWhole?_append hwhole.isDigit hwhole.ne_nil hzero hfront
      have hplain : NoSign (whole.map some ++ (front.map some ++ (back.map some ++ rest))) :=
        noSign_of_digits hwhole
      have hrests := hfraction.takeFraction? hback fun _ => hpoint
      subst hsign
      cases negative with
      | true => simp [Json.takeLiteral?, hread, hrests, hexponent.takeExponent? hrest]
      | false =>
          simp only [Bool.false_eq_true, if_false, List.nil_append, List.map_append,
            List.append_assoc]
          unfold Json.takeLiteral?
          split
          next heq =>
          split at heq
          · next hminus => exact absurd hminus (hplain _).1
          · cases heq
            simp [hread, hrests, hexponent.takeExponent? hrest]

theorem of_readNumber {json : Json} (h : readNumber care input = some (json, rest)) :
    ∃ literal text, input = text.map some ++ rest ∧ Literal.Spells literal text ∧
      (care = .keep → literal.value? = some json) := by
  obtain ⟨⟨literal, left⟩, hliteral, h⟩ := Option.bind_eq_some_iff.1 h
  cases care with
  | keep =>
      obtain ⟨value, hvalue, hfound⟩ := Option.bind_eq_some_iff.1 h
      cases hfound
      obtain ⟨text, hinput, hspells⟩ := of_takeLiteral? hliteral
      exact ⟨literal, text, hinput, hspells, fun _ => hvalue⟩
  | pass =>
      cases h
      obtain ⟨text, hinput, hspells⟩ := of_takeLiteral? hliteral
      exact ⟨literal, text, hinput, hspells, nofun⟩

theorem Literal.Spells.readNumber {text : List Char} {json : Json} (h : literal.Spells text)
    (hvalue : care = .keep → literal.value? = some json) (hrest : EndsNumber rest) :
    ∃ other, readNumber care (text.map some ++ rest) = some (other, rest) ∧
      (care = .keep → other = json) := by
  cases care with
  | keep => exact ⟨json, by simp [Json.readNumber, h.takeLiteral? hrest, hvalue rfl], fun _ => rfl⟩
  | pass =>
      refine ⟨.null, by simp [Json.readNumber, h.takeLiteral? hrest], fun hkeep => ?_⟩
      cases hkeep

end ShardNet.Json
