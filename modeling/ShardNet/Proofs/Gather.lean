-- SUMMARY: When a reader that works item by item, or step by step, gets through to a result.
import Mathlib.Data.List.Forall2
import Mathlib.Data.Option.Basic

/-!
# Gathering

A reader that goes through a list takes all of its items, or nothing. A reader that works in steps
gives a result if each step does.
-/

namespace ShardNet

variable {α β : Type} {read? : α → Option β} {inputs : List α} {outputs : List β}

theorem mapM_eq_some_iff :
    inputs.mapM read? = some outputs ↔ inputs.map read? = outputs.map some := by
  induction inputs generalizing outputs with
  | nil => cases outputs <;> simp
  | cons input inputs ih =>
      cases outputs with
      | nil => simp [List.mapM_cons, Option.bind_eq_some_iff]
      | cons output outputs => simp [List.mapM_cons, Option.bind_eq_some_iff, ← ih]

theorem mapM_eq_some_iff_forall₂ : inputs.mapM read? = some outputs ↔
    List.Forall₂ (fun input output => read? input = some output) inputs outputs := by
  rw [mapM_eq_some_iff, ← List.forall₂_eq_eq_eq, List.forall₂_map_left_iff,
    List.forall₂_map_right_iff]

/-- What is gathered has been read from one of the inputs. -/
theorem mem_iff_of_mapM (h : inputs.mapM read? = some outputs) {output : β} :
    output ∈ outputs ↔ ∃ input ∈ inputs, read? input = some output := by
  rw [← List.mem_map, mapM_eq_some_iff.1 h, List.mem_map_of_injective (Option.some_injective _)]

theorem exists_of_mem_mapM (h : inputs.mapM read? = some outputs) {input : α}
    (hmem : input ∈ inputs) :
    ∃ output ∈ outputs, read? input = some output := by
  have hread : read? input ∈ outputs.map some := mapM_eq_some_iff.1 h ▸ List.mem_map_of_mem hmem
  obtain ⟨output, houtput, heq⟩ := List.mem_map.1 hread
  exact ⟨output, houtput, heq.symm⟩

theorem exists_mapM (hall : ∀ input ∈ inputs, ∃ output, read? input = some output) :
    ∃ outputs, inputs.mapM read? = some outputs := by
  induction inputs with
  | nil => exact ⟨[], rfl⟩
  | cons input inputs ih =>
      obtain ⟨⟨output, houtput⟩, hrest⟩ := List.forall_mem_cons.1 hall
      obtain ⟨outputs, houtputs⟩ := ih hrest
      exact ⟨output :: outputs, by simp [List.mapM_cons, houtput, houtputs]⟩

theorem bind_eq_ok_iff {ε : Type} {first : Except ε α} {next : α → Except ε β} {result : β} :
    (first >>= next) = .ok result ↔ ∃ value, first = .ok value ∧ next value = .ok result := by
  cases first <;> simp [bind, Except.bind]

theorem map_eq_ok_iff {ε : Type} {known : Except ε α} {change : α → β} {result : β} :
    known.map change = .ok result ↔ ∃ value, known = .ok value ∧ change value = result := by
  cases known <;> simp [Except.map]

end ShardNet
