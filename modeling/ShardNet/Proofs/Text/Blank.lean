-- SUMMARY: Trimming takes away the blanks around a text.
import Mathlib.Data.List.DropRight
import ShardNet.Text.Blank

/-!
# Blanks around a text

`Padded` says of a text what stands in it between blanks, without a word on how the blanks are
found.
-/

namespace ShardNet.Text

variable {c : Char} {core other text : List Char}

/-- A text that is `core` with blanks around it. -/
def Padded (core text : List Char) : Prop :=
  ∃ left right, text = left ++ core ++ right ∧ (∀ c ∈ left, isBlank c) ∧
    ∀ c ∈ right, isBlank c

theorem padded_trim (text : List Char) : Padded (trim text) text := by
  refine ⟨text.takeWhile isBlank, (text.dropWhile isBlank).rtakeWhile isBlank, ?_,
    fun _ => List.mem_takeWhile_imp, fun _ => List.mem_rtakeWhile_imp⟩
  have hright : trim text ++ (text.dropWhile isBlank).rtakeWhile isBlank = text.dropWhile isBlank :=
    List.rdropWhile_append_rtakeWhile
  rw [List.append_assoc, hright, List.takeWhile_append_dropWhile]

/-- A text without blanks is found between the blanks around it. -/
theorem trim_of_padded (hcore : ∀ c ∈ core, isBlank c = false) (h : Padded core text) :
    trim text = core := by
  obtain ⟨left, right, rfl, hleft, hright⟩ := h
  cases core with
  | nil =>
      have hblank : ∀ c ∈ left ++ [] ++ right, isBlank c := by
        simpa [or_imp, forall_and] using ⟨hleft, hright⟩
      rw [trim, List.dropWhile_eq_nil_iff.2 hblank]
      rfl
  | cons first rest =>
      have hfirst : isBlank first = false := hcore first List.mem_cons_self
      have hfront :
          (left ++ first :: rest ++ right).dropWhile isBlank = first :: rest ++ right := by
        rw [List.append_assoc, List.dropWhile_append_of_pos hleft, List.cons_append,
          List.dropWhile_cons_of_neg (by simp [hfirst])]
      have hback :
          (first :: rest ++ right).reverse.dropWhile isBlank = (first :: rest).reverse := by
        rw [List.reverse_append, List.dropWhile_append_of_pos (by simpa using hright)]
        -- The last character of the core is no blank.
        refine List.dropWhile_eq_self_iff.2 fun hlength => ?_
        have hlast := hcore _ (List.mem_reverse.1 (List.getElem_mem hlength))
        exact fun hblank => Bool.false_ne_true (hlast.symm.trans hblank)
      rw [trim, hfront, hback, List.reverse_reverse]

theorem trim_eq_iff (hcore : ∀ c ∈ core, isBlank c = false) : trim text = core ↔ Padded core text :=
  ⟨fun h => h ▸ padded_trim text, trim_of_padded hcore⟩

theorem Padded.notMem (h : Padded core text) (hcore : c ∉ core) (hblank : isBlank c = false) :
    c ∉ text := by
  obtain ⟨left, right, rfl, hleft, hright⟩ := h
  have hnone : ∀ blanks : List Char, (∀ d ∈ blanks, isBlank d) → c ∉ blanks := by
    intro blanks hall hmem
    rw [hall c hmem] at hblank
    cases hblank
  simp [hcore, hnone left hleft, hnone right hright]

theorem toNat_of_isDigit (hdigit : c.isDigit) : 48 ≤ c.toNat ∧ c.toNat ≤ 57 := by
  simpa [Char.isDigit, UInt32.le_iff_toNat_le] using hdigit

theorem isBlank_of_isDigit (hdigit : c.isDigit) : isBlank c = false := by
  obtain ⟨hlow, hhigh⟩ := toNat_of_isDigit hdigit
  simp [isBlank, UInt32.le_iff_toNat_le, ← UInt32.toNat_inj]
  omega

end ShardNet.Text
