-- SUMMARY: Tables from unsigned integers to values, with the entries in ascending order of their keys.
import ShardNet.Unsigned

/-!
# Tables

A table holds at most one value for each key, and keeps its entries in ascending order of the
numbers that the keys stand for, whatever order they were inserted in. `insert` replaces the value
of a key that is there already.
-/

namespace ShardNet

/-- A finite map from unsigned integers, its entries in strictly ascending order. -/
structure Table (κ α : Type) [Unsigned κ] where
  entries : List (κ × α)
  ascending : entries.Pairwise fun a b => Unsigned.toNat a.1 < Unsigned.toNat b.1

namespace Table

variable {κ α : Type} [Unsigned κ]

def empty : Table κ α := ⟨[], .nil⟩

instance : Inhabited (Table κ α) := ⟨empty⟩

instance [BEq κ] [BEq α] : BEq (Table κ α) := ⟨fun a b => a.entries == b.entries⟩

@[ext] theorem ext {a b : Table κ α} (h : a.entries = b.entries) : a = b := by
  cases a; cases b; simp_all

/-- Puts an entry in its place, or in the place of the entry with the same key. -/
def insertEntry (key : κ) (value : α) : List (κ × α) → List (κ × α)
  | [] => [(key, value)]
  | (k, v) :: rest =>
    if Unsigned.toNat key < Unsigned.toNat k then (key, value) :: (k, v) :: rest
    else if Unsigned.toNat key = Unsigned.toNat k then (key, value) :: rest
    else (k, v) :: insertEntry key value rest

theorem mem_insertEntry {key : κ} {value : α} {entries : List (κ × α)} {e : κ × α}
    (h : e ∈ insertEntry key value entries) : e = (key, value) ∨ e ∈ entries := by
  induction entries with
  | nil => simpa [insertEntry] using h
  | cons head rest ih =>
    obtain ⟨k, v⟩ := head
    simp only [insertEntry] at h
    split at h
    · simpa using h
    · split at h
      · rcases List.mem_cons.1 h with h | h
        · exact .inl h
        · exact .inr (List.mem_cons_of_mem _ h)
      · rcases List.mem_cons.1 h with h | h
        · exact .inr (h ▸ List.mem_cons_self)
        · rcases ih h with h | h
          · exact .inl h
          · exact .inr (List.mem_cons_of_mem _ h)

theorem ascending_insertEntry {key : κ} {value : α} {entries : List (κ × α)}
    (h : entries.Pairwise fun a b => Unsigned.toNat a.1 < Unsigned.toNat b.1) :
    (insertEntry key value entries).Pairwise fun a b =>
      Unsigned.toNat a.1 < Unsigned.toNat b.1 := by
  induction entries with
  | nil => simp [insertEntry]
  | cons head rest ih =>
    obtain ⟨k, v⟩ := head
    obtain ⟨below, sorted⟩ := List.pairwise_cons.1 h
    simp only [insertEntry]
    split
    · next less =>
      refine List.pairwise_cons.2 ⟨fun e he => ?_, h⟩
      rcases List.mem_cons.1 he with rfl | he
      · exact less
      · exact Nat.lt_trans less (below e he)
    · split
      · next same =>
        exact List.pairwise_cons.2 ⟨fun e he => same ▸ below e he, sorted⟩
      · next notLess notSame =>
        refine List.pairwise_cons.2 ⟨fun e he => ?_, ih sorted⟩
        rcases mem_insertEntry he with rfl | he
        · simp only; omega
        · exact below e he

def insert (table : Table κ α) (key : κ) (value : α) : Table κ α :=
  ⟨insertEntry key value table.entries, ascending_insertEntry table.ascending⟩

/-- The table of a list of entries, the last one of each key. -/
def ofList (entries : List (κ × α)) : Table κ α :=
  entries.foldl (fun table entry => table.insert entry.1 entry.2) empty

/-- The values, in the order of their keys. -/
def values (table : Table κ α) : List α := table.entries.map (·.2)

end Table

end ShardNet
