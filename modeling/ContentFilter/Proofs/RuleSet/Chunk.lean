import Mathlib.Data.List.Basic
import Mathlib.Tactic.Common
import ContentFilter.RuleSet.Chunk

/-! # Slices of a list

Where the items of a list are found in its slices.

* `getElem?_slices`: the slice at a place.
* `getElem?_take_drop`: the items of a slice are those whose place falls into it.
* `Chunk.getElem?_cut`: the chunk at a place.
* `Chunk.flatMap_records_cut`: the records of all chunks are those that were cut.
-/

set_option autoImplicit false

namespace ContentFilter

variable {α : Type}

/-! ## Slices -/

theorem getElem?_slicesFrom (size : Nat) (hsize : 0 < size) (fuel : Nat) (l : List α)
    (hfuel : l.length ≤ fuel) (i : Nat) :
    (slicesFrom size fuel l)[i]? =
      if i * size < l.length then some ((l.drop (i * size)).take size) else none := by
  induction fuel generalizing l i with
  | zero =>
    obtain rfl := List.length_eq_zero_iff.1 (Nat.le_zero.1 hfuel)
    simp [slicesFrom]
  | succ fuel ih =>
    cases l with
    | nil => simp [slicesFrom]
    | cons x xs =>
      rw [slicesFrom]
      cases i with
      | zero => simp
      | succ i =>
        have hlength : ((x :: xs).drop size).length ≤ fuel := by
          rw [List.length_drop, List.length_cons] at *
          omega
        have hplace : size + i * size = (i + 1) * size := by rw [Nat.succ_mul, Nat.add_comm]
        rw [List.getElem?_cons_succ, ih _ hlength, List.drop_drop, List.length_drop, hplace]
        have hinside : i * size < (x :: xs).length - size ↔ (i + 1) * size < (x :: xs).length := by
          omega
        simp only [hinside]

theorem getElem?_slices (size : Nat) (hsize : 0 < size) (l : List α) (i : Nat) :
    (slices size l)[i]? =
      if i * size < l.length then some ((l.drop (i * size)).take size) else none :=
  getElem?_slicesFrom size hsize l.length l (Nat.le_refl _) i

theorem flatten_slicesFrom (size : Nat) (hsize : 0 < size) (fuel : Nat) (l : List α)
    (hfuel : l.length ≤ fuel) : (slicesFrom size fuel l).flatten = l := by
  induction fuel generalizing l with
  | zero =>
    obtain rfl := List.length_eq_zero_iff.1 (Nat.le_zero.1 hfuel)
    rfl
  | succ fuel ih =>
    cases l with
    | nil => rfl
    | cons x xs =>
      have hlength : ((x :: xs).drop size).length ≤ fuel := by
        rw [List.length_drop, List.length_cons] at *
        omega
      rw [slicesFrom, List.flatten_cons, ih _ hlength, List.take_append_drop]

/-- The items of a slice are those whose place falls into it. -/
theorem getElem?_take_drop (size i k : Nat) (l : List α) :
    ((l.drop (i * size)).take size)[k]? = if k < size then l[i * size + k]? else none := by
  rw [List.getElem?_take]
  simp only [List.getElem?_drop]

/-! ## Chunks -/

theorem Chunk.getElem?_cut (stem : Text) (size : Nat) (hsize : 0 < size) (records : List Record)
    (i : Nat) :
    (Chunk.cut stem size records)[i]? =
      if i * size < records.length then
        some ⟨nameOf stem i, (records.drop (i * size)).take size⟩
      else none := by
  rw [Chunk.cut, List.getElem?_mapIdx, getElem?_slices size hsize]
  split <;> rfl

/-- The records of all chunks, in order, are the records that were cut. -/
theorem Chunk.flatMap_records_cut (stem : Text) (size : Nat) (hsize : 0 < size)
    (records : List Record) : (Chunk.cut stem size records).flatMap Chunk.records = records := by
  have hparts : (Chunk.cut stem size records).map Chunk.records = slices size records := by
    refine List.ext_getElem? fun i => ?_
    simp [Chunk.cut, Function.comp_def]
  rw [List.flatMap_def, hparts, slices,
    flatten_slicesFrom size hsize records.length records (Nat.le_refl _)]

theorem Chunk.mem_cut {stem : Text} {size : Nat} (hsize : 0 < size) {records : List Record}
    {c : Chunk} (hc : c ∈ Chunk.cut stem size records) :
    ∃ i, i * size < records.length ∧
      c = ⟨nameOf stem i, (records.drop (i * size)).take size⟩ := by
  obtain ⟨i, hi⟩ := List.mem_iff_getElem?.1 hc
  rw [Chunk.getElem?_cut stem size hsize] at hi
  split at hi
  next hlt => exact ⟨i, hlt, (Option.some.inj hi).symm⟩
  next => cases hi

end ContentFilter
