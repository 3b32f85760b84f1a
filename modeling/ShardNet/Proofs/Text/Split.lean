-- SUMMARY: The parts of a text are those of the library's splitting: they join to it, and have no separator in them.
import ShardNet.Text.Split

/-!
# Parts

Splitting at a character and joining with it undo each other.
-/

namespace ShardNet.Text

variable {isSeparator : Char → Bool} {c d : Char} {text part left right : List Char}

theorem split_eq_splitOnP : split isSeparator text = text.splitOnP isSeparator := by
  induction text with
  | nil => exact List.splitOnP_nil.symm
  | cons c rest ih =>
      have hprepend : ∀ parts : List (List Char), parts ≠ [] →
          prepend c parts = parts.modifyHead (c :: ·) := by
        intro parts hparts
        cases parts with
        | nil => exact absurd rfl hparts
        | cons => rfl
      rw [split, List.splitOnP_cons_eq_if_modifyHead,
        hprepend _ (split_ne_nil isSeparator rest), ih]

theorem split_eq_splitOn : split (· = c) text = text.splitOn c := by
  rw [split_eq_splitOnP, List.splitOn_eq_splitOnP]
  rfl

/-- No part has a separator in it. -/
theorem isSeparator_of_mem_split (hpart : part ∈ split isSeparator text) (hc : c ∈ part) :
    isSeparator c = false := by
  induction text generalizing part with
  | nil =>
      cases List.mem_singleton.1 hpart
      cases hc
  | cons d rest ih =>
      rw [split] at hpart
      split at hpart
      · rcases List.mem_cons.1 hpart with rfl | hpart
        · cases hc
        · exact ih hpart hc
      · next hd =>
        cases hrest : split isSeparator rest with
        | nil => exact absurd hrest (split_ne_nil isSeparator rest)
        | cons first others =>
            rw [hrest] at ih hpart
            rcases List.mem_cons.1 hpart with rfl | hpart
            · rcases List.mem_cons.1 hc with rfl | hc
              · exact Bool.eq_false_iff.2 hd
              · exact ih List.mem_cons_self hc
            · exact ih (List.mem_cons_of_mem _ hpart) hc

theorem notMem_of_mem_splitOn (hpart : part ∈ text.splitOn c) : c ∉ part := fun hc => by
  have hnone := isSeparator_of_mem_split (split_eq_splitOn ▸ hpart) hc
  simp at hnone

/-- A text with one separator is what stands before it and what stands behind it. -/
theorem splitOn_eq_pair_iff :
    text.splitOn c = [left, right] ↔ text = left ++ c :: right ∧ c ∉ left ∧ c ∉ right := by
  constructor
  · intro hsplit
    have hjoined : [c].intercalate (text.splitOn c) = text := List.intercalate_splitOn c
    rw [hsplit, List.intercalate_cons_cons, List.intercalate_singleton, List.append_assoc]
      at hjoined
    have hfree : ∀ part ∈ [left, right], c ∉ part :=
      fun part hmem => notMem_of_mem_splitOn (hsplit.symm ▸ hmem)
    exact ⟨hjoined.symm, hfree left (by simp), hfree right (by simp)⟩
  · rintro ⟨rfl, hleft, hright⟩
    have hjoined : left ++ c :: right = [c].intercalate [left, right] := by
      rw [List.intercalate_cons_cons, List.intercalate_singleton, List.append_assoc]
      rfl
    rw [hjoined]
    exact List.splitOn_intercalate c (by simp [hleft, hright]) (by simp)

theorem append_flatMap_cons (part : List Char) (parts : List (List Char)) :
    part ++ parts.flatMap (c :: ·) = [c].intercalate (part :: parts) := by
  induction parts generalizing part with
  | nil => rw [List.flatMap_nil, List.append_nil, List.intercalate_singleton]
  | cons next parts ih =>
      rw [List.flatMap_cons, List.cons_append, ih, List.intercalate_cons_cons, List.append_assoc]
      rfl

/-- Parts with a separator before each of them are told apart. -/
theorem flatMap_cons_injective {parts others : List (List Char)} (hparts : ∀ part ∈ parts, c ∉ part)
    (hothers : ∀ part ∈ others, c ∉ part)
    (hsame : parts.flatMap (c :: ·) = others.flatMap (c :: ·)) :
    parts = others := by
  have hsplit : ∀ parts : List (List Char), (∀ part ∈ parts, c ∉ part) →
      (parts.flatMap (c :: ·)).splitOn c = [] :: parts := by
    intro parts hfree
    have hjoined := append_flatMap_cons (c := c) [] parts
    rw [List.nil_append] at hjoined
    rw [hjoined]
    exact List.splitOn_intercalate c (by simpa using hfree) (List.cons_ne_nil [] parts)
  have hcut := hsplit parts hparts
  rw [hsame, hsplit others hothers] at hcut
  exact (List.cons.inj hcut).2.symm

end ShardNet.Text
