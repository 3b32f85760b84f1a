-- SUMMARY: Cutting a text at its separators.

/-!
# Splitting

A text falls into one part more than it has separators; parts may be empty.
-/

namespace ShardNet.Text

/-- Puts a character in front of the first part. -/
def prepend (c : Char) : List (List Char) → List (List Char)
  | [] => [[c]]
  | part :: rest => (c :: part) :: rest

/-- The parts of a text between its separators. -/
def split (isSeparator : Char → Bool) : List Char → List (List Char)
  | [] => [[]]
  | c :: rest =>
    if isSeparator c then [] :: split isSeparator rest else prepend c (split isSeparator rest)

theorem split_ne_nil (isSeparator : Char → Bool) (text : List Char) :
    split isSeparator text ≠ [] := by
  cases text with
  | nil => simp [split]
  | cons c rest =>
    simp only [split]
    split
    · simp
    · cases split isSeparator rest <;> simp [prepend]

end ShardNet.Text
