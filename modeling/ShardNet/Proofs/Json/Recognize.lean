-- SUMMARY: The reader of JSON takes the texts of the grammar and no others.
import Mathlib.Data.List.Forall2
import ShardNet.Proofs.Json.Token

/-!
# The reader decides the grammar

What the reader reads is derived (`Sound`), and what is derived it reads (`Complete`), the same
where it is kept. Both are shown for all parts of a value at once, by induction on the fuel of the
reader. A whole input has fuel enough, so it is read exactly if it is a text: `read?_eq_some_iff`.
-/

namespace ShardNet.Json

variable {care : Care} {input front rest : Symbols} {c : Char} {depth : Nat} {json : Json}

/-! ## What is read follows the grammar -/

/-- What is read with so much fuel is a text of the grammar. -/
structure Sound (fuel : Nat) : Prop where
  value : ∀ {care depth input json rest}, readValue care fuel depth input = some (json, rest) →
    Value care depth (skipSpace input) json rest
  items : ∀ {care depth input items rest}, readItems care fuel depth input = some (items, rest) →
    Items care depth input items (some ']' :: rest)
  members : ∀ {keyCare care depth input members rest},
    readMembers keyCare care fuel depth input = some (members, rest) →
    Members keyCare care depth input members (some '\x7d' :: rest)

theorem of_enter {depth inner : Nat} (h : enter care depth = some inner) :
    care = .keep → depth = inner + 1 := by
  rintro rfl
  cases depth with
  | zero => cases h
  | succ depth =>
      cases h
      rfl

theorem Sound.value_succ {fuel : Nat} (ih : Sound fuel)
    (h : readValue care (fuel + 1) depth input = some (json, rest)) :
    Value care depth (skipSpace input) json rest := by
  rw [readValue] at h
  generalize skipSpace input = front at h ⊢
  split at h
  · cases h
    exact .null
  · cases h
    exact .yes
  · cases h
    exact .no
  · obtain ⟨⟨text, left⟩, htext, hvalue⟩ := Option.map_eq_some_iff.1 h
    cases hvalue
    exact .str (quoted_of_readString htext)
  · obtain ⟨inner, hinner, h⟩ := Option.bind_eq_some_iff.1 h
    split at h
    · next hclosed =>
      cases h
      exact .noItems (of_enter hinner) (hclosed ▸ blanks_skipSpace _)
    · obtain ⟨⟨items, left⟩, hitems, hvalue⟩ := Option.bind_eq_some_iff.1 h
      cases hvalue
      exact .arr (of_enter hinner) ((ih.items hitems).of_blanks (blanks_skipSpace _))
  · obtain ⟨inner, hinner, h⟩ := Option.bind_eq_some_iff.1 h
    split at h
    · next hclosed =>
      cases h
      exact .noMembers (of_enter hinner) (hclosed ▸ blanks_skipSpace _)
    · obtain ⟨⟨members, left⟩, hmembers, hvalue⟩ := Option.bind_eq_some_iff.1 h
      cases hvalue
      exact .obj (of_enter hinner) ((ih.members hmembers).of_blanks (blanks_skipSpace _))
  · obtain ⟨literal, text, hinput, hspells, hvalue⟩ := of_readNumber h
    exact .number hinput hspells hvalue

theorem Sound.items_succ {fuel : Nat} {items : List Json} (ih : Sound fuel)
    (h : readItems care (fuel + 1) depth input = some (items, rest)) :
    Items care depth input items (some ']' :: rest) := by
  rw [readItems] at h
  obtain ⟨⟨item, left⟩, hitem, h⟩ := Option.bind_eq_some_iff.1 h
  have hvalue := ih.value hitem
  dsimp only at h
  split at h
  · next hcomma =>
    obtain ⟨⟨items, last⟩, hitems, hfound⟩ := Option.bind_eq_some_iff.1 h
    cases hfound
    exact .more (blanks_skipSpace _) hvalue (hcomma ▸ blanks_skipSpace _) (ih.items hitems)
  · next hclosed =>
    cases h
    exact .last (blanks_skipSpace _) hvalue (hclosed ▸ blanks_skipSpace _)
  · cases h

theorem Sound.members_succ {fuel : Nat} {keyCare : Care} {care : String → Care}
    {members : List (String × Json)} (ih : Sound fuel)
    (h : readMembers keyCare care (fuel + 1) depth input = some (members, rest)) :
    Members keyCare care depth input members (some '\x7d' :: rest) := by
  rw [readMembers] at h
  split at h
  · next hquote =>
    obtain ⟨⟨key, left⟩, hkey, h⟩ := Option.bind_eq_some_iff.1 h
    dsimp only at h
    split at h
    · next hcolon =>
      obtain ⟨⟨value, left⟩, hvalue, h⟩ := Option.bind_eq_some_iff.1 h
      have hname : Named keyCare input key _ := .intro (hquote ▸ blanks_skipSpace _)
        (quoted_of_readString hkey) (hcolon ▸ blanks_skipSpace _) (blanks_skipSpace _)
      have hfound := ih.value hvalue
      dsimp only at h
      split at h
      · next hcomma =>
        obtain ⟨⟨members, last⟩, hmembers, hall⟩ := Option.bind_eq_some_iff.1 h
        cases hall
        exact .more hname hfound (hcomma ▸ blanks_skipSpace _) (ih.members hmembers)
      · next hclosed =>
        cases h
        exact .last hname hfound (hclosed ▸ blanks_skipSpace _)
      · cases h
    · cases h
  · cases h

theorem sound (fuel : Nat) : Sound fuel := by
  induction fuel with
  | zero => exact ⟨nofun, nofun, nofun⟩
  | succ fuel ih => exact ⟨ih.value_succ, ih.items_succ, ih.members_succ⟩

/-! ## What follows the grammar is read -/

/-- Members with the same keys, and with the same values where they are kept. -/
def SameKept (care : String → Care) (others members : List (String × Json)) : Prop :=
  List.Forall₂
    (fun other member => other.1 = member.1 ∧ (care member.1 = .keep → other.2 = member.2))
    others members

/-- Texts for which there is this much fuel are read, the same where they are kept. How deep a value
stands that is passed over does not matter. -/
structure Complete (fuel : Nat) : Prop where
  value : ∀ {care depth input json rest}, Value care depth input json rest →
    2 * input.length + 1 ≤ fuel → EndsNumber rest →
    ∀ {front deeper}, Blanks front input → (care = .keep → deeper = depth) →
    ∃ other, readValue care fuel deeper front = some (other, rest) ∧ (care = .keep → other = json)
  items : ∀ {care depth input items rest}, Items care depth input items (some ']' :: rest) →
    2 * input.length + 2 ≤ fuel → ∀ {deeper}, (care = .keep → deeper = depth) →
    ∃ others, readItems care fuel deeper input = some (others, rest) ∧
      (care = .keep → others = items)
  members : ∀ {keyCare care depth input members rest},
    Members keyCare care depth input members (some '\x7d' :: rest) → 2 * input.length + 2 ≤ fuel →
    ∀ {deeper}, (keyCare = .keep ∧ deeper = depth ∨ ∀ key, care key = .pass) →
    ∃ others, readMembers keyCare care fuel deeper input = some (others, rest) ∧
      (keyCare = .keep → SameKept care others members)

theorem Blanks.skipSpace_eq (h : Blanks input (some c :: rest)) (hc : isSpace (some c) = false) :
    Json.skipSpace input = some c :: rest := by
  rw [h.skipSpace, skipSpace_cons hc]

/-- The items of an array may as well be read from their first one on. -/
theorem Items.begins {items : List Json} (h : Items care depth input items rest) :
    ∃ c tail, skipSpace input = some c :: tail ∧ c ≠ ']' ∧
      (some c :: tail).length ≤ input.length ∧
      Items care depth (some c :: tail) items rest := by
  cases h with
  | last hfront hitem hback =>
      obtain ⟨c, tail, rfl, hspace, hc⟩ := hitem.begins
      exact ⟨c, tail, hfront.skipSpace_eq hspace, hc, hfront.length_le, .last .done hitem hback⟩
  | more hfront hitem hback hitems =>
      obtain ⟨c, tail, rfl, hspace, hc⟩ := hitem.begins
      exact ⟨c, tail, hfront.skipSpace_eq hspace, hc, hfront.length_le,
        .more .done hitem hback hitems⟩

theorem Members.begins {keyCare : Care} {care : String → Care} {members : List (String × Json)}
    (h : Members keyCare care depth input members rest) :
    ∃ tail, skipSpace input = some '"' :: tail ∧ (some '"' :: tail).length ≤ input.length ∧
      Members keyCare care depth (some '"' :: tail) members rest := by
  have hnamed : ∀ {key front}, Named keyCare input key front →
      ∃ tail, skipSpace input = some '"' :: tail ∧ (some '"' :: tail).length ≤ input.length ∧
        Named keyCare (some '"' :: tail) key front := by
    rintro key front ⟨hquote, hkey, hcolon, hfront⟩
    exact ⟨_, hquote.skipSpace_eq (by decide), hquote.length_le, .intro .done hkey hcolon hfront⟩
  cases h with
  | last hname hvalue hback =>
      obtain ⟨tail, hskip, hle, hname⟩ := hnamed hname
      exact ⟨tail, hskip, hle, .last hname hvalue hback⟩
  | more hname hvalue hback hmembers =>
      obtain ⟨tail, hskip, hle, hname⟩ := hnamed hname
      exact ⟨tail, hskip, hle, .more hname hvalue hback hmembers⟩

theorem exists_enter {depth inner deeper : Nat} (hdepth : care = .keep → depth = inner + 1)
    (hdeeper : care = .keep → deeper = depth) :
    ∃ within, enter care deeper = some within ∧ (care = .keep → within = inner) := by
  cases care with
  | keep => exact ⟨inner, by rw [hdeeper rfl, hdepth rfl]; rfl, fun _ => rfl⟩
  | pass => exact ⟨0, rfl, nofun⟩

theorem Complete.value_succ {fuel deeper : Nat} (ih : Complete fuel)
    (h : Value care depth input json rest) (hfuel : 2 * input.length + 1 ≤ fuel + 1)
    (hrest : EndsNumber rest) (hfront : Blanks front input)
    (hdeeper : care = .keep → deeper = depth) :
    ∃ other, readValue care (fuel + 1) deeper front = some (other, rest) ∧
      (care = .keep → other = json) := by
  obtain ⟨c, tail, hbegins, hspace, -⟩ := h.begins
  have hskip : skipSpace front = input := by
    rw [hbegins] at hfront ⊢
    exact hfront.skipSpace_eq hspace
  have hread : readValue care (fuel + 1) deeper front = readValue care (fuel + 1) deeper input := by
    rw [readValue, readValue, hskip, hbegins, skipSpace_cons hspace]
  rw [hread]
  clear hskip hfront hread
  cases h with
  | null | yes | no =>
      rw [readValue, skipSpace_cons (by decide)]
      exact ⟨_, rfl, fun _ => rfl⟩
  | str hquoted =>
      obtain ⟨text, htext, hsame⟩ := hquoted.readString
      rw [readValue, skipSpace_cons (by decide)]
      exact ⟨.str text, by simp [htext], fun hcare => congrArg Json.str (hsame hcare)⟩
  | number hinput hspells hvalue =>
      obtain ⟨c, tail, rfl, hc⟩ := hspells.begins
      rw [hinput, List.map_cons, List.cons_append, readValue_number hc]
      exact hspells.readNumber hvalue hrest
  | noItems hdepth hblanks =>
      obtain ⟨within, hwithin, -⟩ := exists_enter hdepth hdeeper
      rw [readValue, skipSpace_cons (by decide)]
      refine ⟨.arr [], ?_, fun _ => rfl⟩
      simp [hwithin, hblanks.skipSpace_eq (by decide)]
  | arr hdepth hitems =>
      obtain ⟨within, hwithin, hsame⟩ := exists_enter hdepth hdeeper
      obtain ⟨c, tail, hskip, hc, hle, hitems⟩ := hitems.begins
      simp only [List.length_cons] at hfuel hle
      obtain ⟨others, hothers, hkept⟩ :=
        ih.items hitems (by simp only [List.length_cons]; omega) hsame
      rw [readValue, skipSpace_cons (by decide)]
      refine ⟨.arr others, ?_, fun hcare => congrArg Json.arr (hkept hcare)⟩
      simp [hwithin, hskip, hc, hothers]
  | noMembers hdepth hblanks =>
      obtain ⟨within, hwithin, -⟩ := exists_enter hdepth hdeeper
      rw [readValue, skipSpace_cons (by decide)]
      refine ⟨.obj [], ?_, fun _ => rfl⟩
      simp [hwithin, hblanks.skipSpace_eq (by decide)]
  | @obj _ _ inner _ _ members hdepth hmembers =>
      obtain ⟨within, hwithin, hsame⟩ := exists_enter hdepth hdeeper
      obtain ⟨tail, hskip, hle, hmembers⟩ := hmembers.begins
      simp only [List.length_cons] at hfuel hle
      have hcares : care = .keep ∧ within = inner ∨
          ∀ key : String, (fun _ => care) key = Care.pass := by
        cases care with
        | keep => exact .inl ⟨rfl, hsame rfl⟩
        | pass => exact .inr fun _ => rfl
      obtain ⟨others, hothers, hkept⟩ :=
        ih.members hmembers (by simp only [List.length_cons]; omega) hcares
      rw [readValue, skipSpace_cons (by decide)]
      refine ⟨.obj others, ?_, fun hcare => congrArg Json.obj ?_⟩
      · simp [hwithin, hskip, hothers]
      · exact List.forall₂_eq_eq_eq ▸ (hkept hcare).imp fun _ _ h => Prod.ext h.1 (h.2 hcare)

theorem Complete.items_succ {fuel deeper : Nat} {items : List Json} (ih : Complete fuel)
    (h : Items care depth input items (some ']' :: rest)) (hfuel : 2 * input.length + 2 ≤ fuel + 1)
    (hdeeper : care = .keep → deeper = depth) :
    ∃ others, readItems care (fuel + 1) deeper input = some (others, rest) ∧
      (care = .keep → others = items) := by
  rw [readItems]
  cases h with
  | last hfront hitem hback =>
      have hle := hfront.length_le
      obtain ⟨other, hother, hsame⟩ := ih.value hitem (by omega)
        (hback.endsNumber (by simp [EndsNumber])) hfront hdeeper
      refine ⟨[other], ?_, fun hcare => by rw [hsame hcare]⟩
      simp [hother, hback.skipSpace_eq (by decide)]
  | more hfront hitem hback hitems =>
      have hle := hfront.length_le
      have hlt := hitem.length_lt
      have hnext := hback.length_le
      simp only [List.length_cons] at hnext
      obtain ⟨other, hother, hsame⟩ := ih.value hitem (by omega)
        (hback.endsNumber (by simp [EndsNumber])) hfront hdeeper
      obtain ⟨others, hothers, hrest⟩ := ih.items hitems (by omega) hdeeper
      refine ⟨other :: others, ?_, fun hcare => by rw [hsame hcare, hrest hcare]⟩
      simp [hother, hback.skipSpace_eq (by decide), hothers]

theorem Complete.members_succ {fuel deeper : Nat} {keyCare : Care} {care : String → Care}
    {members : List (String × Json)} (ih : Complete fuel)
    (h : Members keyCare care depth input members (some '\x7d' :: rest))
    (hfuel : 2 * input.length + 2 ≤ fuel + 1)
    (hcares : keyCare = .keep ∧ deeper = depth ∨ ∀ key, care key = .pass) :
    ∃ others, readMembers keyCare care (fuel + 1) deeper input = some (others, rest) ∧
      (keyCare = .keep → SameKept care others members) := by
  have hdeeper : ∀ key, care key = .keep → deeper = depth := by
    intro key hkeep
    rcases hcares with hcares | hpass
    · exact hcares.2
    · cases hkeep.symm.trans (hpass key)
  have hnamed : ∀ {key front}, Named keyCare input key front → ∃ name other colon value,
      skipSpace input = some '"' :: name ∧ readString keyCare name = some (other, colon) ∧
      (keyCare = .keep → other = key) ∧ skipSpace colon = some ':' :: value ∧
      Blanks value front := by
    rintro key front ⟨hquote, hkey, hcolon, hfront⟩
    obtain ⟨other, hother, hsame⟩ := hkey.readString
    exact ⟨_, other, _, _, hquote.skipSpace_eq (by decide), hother, hsame,
      hcolon.skipSpace_eq (by decide), hfront⟩
  have hcare : ∀ {key other}, (keyCare = .keep → other = key) → care other = care key := by
    intro key other hsame
    rcases hcares with hcares | hpass
    · rw [hsame hcares.1]
    · rw [hpass, hpass]
  rw [readMembers]
  cases h with
  | last hname hvalue hback =>
      have hlt := hname.length_lt
      obtain ⟨name, key, colon, value, hskip, hkey, hsame, hcolon, hfront⟩ := hnamed hname
      obtain ⟨other, hother, hkept⟩ := ih.value hvalue (by omega)
        (hback.endsNumber (by simp [EndsNumber])) hfront (hdeeper _)
      rw [← hcare hsame] at hother
      refine ⟨[(key, other)], ?_, fun hkeep => .cons ⟨hsame hkeep, hkept⟩ .nil⟩
      simp [hskip, hkey, hcolon, hother, hback.skipSpace_eq (by decide)]
  | more hname hvalue hback hmembers =>
      have hlt := hname.length_lt
      have hrest := hvalue.length_lt
      have hnext := hback.length_le
      simp only [List.length_cons] at hnext
      obtain ⟨name, key, colon, value, hskip, hkey, hsame, hcolon, hfront⟩ := hnamed hname
      obtain ⟨other, hother, hkept⟩ := ih.value hvalue (by omega)
        (hback.endsNumber (by simp [EndsNumber])) hfront (hdeeper _)
      obtain ⟨others, hothers, hall⟩ := ih.members hmembers (by omega) hcares
      rw [← hcare hsame] at hother
      refine ⟨(key, other) :: others, ?_, fun hkeep => .cons ⟨hsame hkeep, hkept⟩ (hall hkeep)⟩
      simp [hskip, hkey, hcolon, hother, hback.skipSpace_eq (by decide), hothers]

theorem complete (fuel : Nat) : Complete fuel := by
  induction fuel with
  | zero => exact ⟨fun _ hfuel => by omega, fun _ hfuel => by omega, fun _ hfuel => by omega⟩
  | succ fuel ih =>
      exact ⟨fun h hfuel hrest _ _ => ih.value_succ h hfuel hrest,
        fun h hfuel _ => ih.items_succ h hfuel, fun h hfuel _ => ih.members_succ h hfuel⟩

/-! ## Whole inputs -/

/-- An input is read as a value exactly if it is the text of this value. -/
theorem read?_eq_some_iff : read? input = some json ↔ Whole input json := by
  constructor
  · intro h
    unfold read? at h
    split at h
    · next hread =>
      split at h
      · next hend =>
        cases h
        exact ⟨_, _, blanks_skipSpace _, (sound _).value hread,
          blanks_nil_iff.2 (List.isEmpty_iff.1 hend)⟩
      · cases h
    · cases h
  · rintro ⟨front, rest, hfront, hvalue, hback⟩
    have hle := hfront.length_le
    obtain ⟨other, hother, hsame⟩ := (complete (fuelFor input)).value hvalue
      (by unfold fuelFor; omega) (hback.endsNumber trivial) hfront fun _ => rfl
    rw [hsame rfl] at hother
    simp [read?, hother, blanks_nil_iff.1 hback]

variable {care : String → Care} {members : List (String × Json)}

theorem wholeObject_of_readObject? (h : readObject? care input = some members) :
    WholeObject care input members := by
  unfold readObject? at h
  split at h
  · next hbrace =>
    have hfront := hbrace ▸ blanks_skipSpace input
    split at h
    · next hclosed =>
      split at h
      · next hend =>
        cases h
        exact .empty hfront (hclosed ▸ blanks_skipSpace _)
          (blanks_nil_iff.2 (List.isEmpty_iff.1 hend))
      · cases h
    · split at h
      · next hmembers =>
        split at h
        · next hend =>
          cases h
          exact .members hfront (((sound _).members hmembers).of_blanks (blanks_skipSpace _))
            (blanks_nil_iff.2 (List.isEmpty_iff.1 hend))
        · cases h
      · cases h
  · cases h

theorem WholeObject.readObject? (h : WholeObject care input members) :
    ∃ others, readObject? care input = some others ∧ SameKept care others members := by
  cases h with
  | empty hfront hclosed hback =>
      refine ⟨[], ?_, .nil⟩
      simp [Json.readObject?, hfront.skipSpace_eq (by decide), hclosed.skipSpace_eq (by decide),
        blanks_nil_iff.1 hback]
  | members hfront hmembers hback =>
      have hinside := hfront.length_le
      obtain ⟨tail, hskip, hle, hmembers⟩ := hmembers.begins
      simp only [List.length_cons] at hinside hle
      obtain ⟨others, hothers, hsame⟩ := (complete (fuelFor input)).members hmembers
        (by simp only [List.length_cons]; unfold fuelFor; omega) (.inl ⟨rfl, rfl⟩)
      refine ⟨others, ?_, hsame rfl⟩
      simp [Json.readObject?, hfront.skipSpace_eq (by decide), hskip, hothers,
        blanks_nil_iff.1 hback]

/-- No number is an object. -/
theorem Literal.value?_ne_obj {literal : Literal} : literal.value? ≠ some (.obj members) := by
  intro hvalue
  simp only [Literal.value?, Literal.real?] at hvalue
  split at hvalue
  · split at hvalue
    · cases hvalue
    · split at hvalue
      · cases hvalue
      · simp at hvalue
  · simp at hvalue

/-- The text of an object may be read with less care for some of its members. -/
theorem Whole.object (h : Whole input (.obj members)) (care : String → Care) :
    WholeObject care input members := by
  obtain ⟨front, rest, hfront, hvalue, hback⟩ := h
  cases hvalue with
  | number _ _ hvalue => exact absurd (hvalue rfl) Literal.value?_ne_obj
  | noMembers _ h => exact .empty hfront h hback
  | obj hdepth h =>
      obtain rfl := Nat.succ.inj (hdepth rfl)
      exact .members hfront (h.skim .keep care) hback

/-- What begins with a brace is the text of an object, and of nothing else. -/
theorem WholeObject.eq_obj (h : WholeObject care input members) (hwhole : Whole input json) :
    ∃ others, json = .obj others := by
  obtain ⟨inside, hbrace⟩ : ∃ inside, skipSpace input = some '\x7b' :: inside := by
    cases h with
    | empty hfront _ _ | members hfront _ _ => exact ⟨_, hfront.skipSpace_eq (by decide)⟩
  obtain ⟨front, rest, hfront, hvalue, -⟩ := hwhole
  obtain ⟨c, tail, rfl, hspace, -⟩ := hvalue.begins
  obtain ⟨rfl, rfl⟩ : c = '\x7b' ∧ tail = inside := by
    simpa using (hfront.skipSpace_eq hspace).symm.trans hbrace
  cases hvalue with
  | noMembers | obj => exact ⟨_, rfl⟩
  | number hinput hspells _ =>
      obtain ⟨c, tail, rfl, hc⟩ := hspells.begins
      obtain rfl : '\x7b' = c := by simpa using (List.cons.inj hinput).1
      exact absurd hc (by decide)

/-- The text of anything else is not read as an object. -/
theorem Whole.readObject?_eq_none (h : Whole input json) (hother : ∀ members, json ≠ .obj members)
    (care : String → Care) : Json.readObject? care input = none := by
  refine Option.eq_none_iff_forall_ne_some.2 fun members hread => ?_
  obtain ⟨others, hobj⟩ := (wholeObject_of_readObject? hread).eq_obj h
  exact hother others hobj

end ShardNet.Json
