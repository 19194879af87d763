import Mathlib.Algebra.Order.Floor.Div
import Mathlib.Data.List.Nodup
import ContentFilter.Proofs.RuleSet.Chunk
import ContentFilter.RuleSet.Build

/-! # Chunks as a partition

The chunks of a list of records hold each of its records in one place, as few chunks as the size
allows, under names that tell them apart. A size below one is refused.

* `Chunk.Partitions`: what a list of chunks is to a list of records.
* `Chunk.nodup_names_cut`: the names of chunks with one stem.
* `RuleSet.nodup_names_chunks`: the names of all chunks of a rule set.
* `Chunk.cut?_partitions`: the three together, for every size.
-/

set_option autoImplicit false

namespace ContentFilter

open Text

/-! ## Names -/

theorem Text.ofNat_injective : Function.Injective ofNat :=
  Function.LeftInverse.injective (g := natOfDigits) fun _ =>
    Nat.ofDigitChars_toDigits (by decide) (by decide)

namespace Chunk

theorem nameOf_injective (stem : Text) : Function.Injective (nameOf stem) := by
  intro i j h
  have htails : '_' :: ofNat i = '_' :: ofNat j := List.append_cancel_left h
  exact ofNat_injective (List.cons.inj htails).2

theorem names_cut (stem : Text) (size : Nat) (records : List Record) :
    (cut stem size records).map name =
      (List.range (cut stem size records).length).map (nameOf stem) := by
  refine List.ext_getElem? fun i => ?_
  rw [List.getElem?_map, List.getElem?_map, cut, List.getElem?_mapIdx, List.length_mapIdx]
  by_cases hi : i < (slices size records).length <;> simp [hi]

theorem exists_nameOf_eq (stem : Text) (size : Nat) (records : List Record) {n : Text}
    (h : n ∈ (cut stem size records).map name) : ∃ i, nameOf stem i = n := by
  rw [names_cut] at h
  obtain ⟨i, -, hi⟩ := List.mem_map.1 h
  exact ⟨i, hi⟩

theorem nodup_names_cut (stem : Text) (size : Nat) (records : List Record) :
    ((cut stem size records).map name).Nodup := by
  rw [names_cut]
  exact List.nodup_range.map (nameOf_injective stem)

/-! ## Sizes -/

/-- What chunks are to the records that they hold: there are as few of them as the size allows, all
of them are full but perhaps the last, and in order they hold the records, under the names that
their places give them. -/
structure Partitions (stem : Text) (size : Nat) (records : List Record) (chunks : List Chunk) :
    Prop where
  number : chunks.length = records.length ⌈/⌉ size
  full : ∀ i c, chunks[i]? = some c → i + 1 < chunks.length → c.size = size
  last : ∀ c, chunks.getLast? = some c → 1 ≤ c.size ∧ c.size ≤ size
  records_eq : chunks.flatMap Chunk.records = records
  named : chunks.map name = (List.range chunks.length).map (nameOf stem)
  distinct : (chunks.map name).Nodup

variable {stem : Text} {size : Nat} {records : List Record}

theorem length_cut_le_iff (hsize : 0 < size) (i : Nat) :
    (cut stem size records).length ≤ i ↔ records.length ≤ i * size := by
  rw [← List.getElem?_eq_none_iff, getElem?_cut stem size hsize]
  split
  next hlt => exact iff_of_false nofun (Nat.not_le_of_lt hlt)
  next hge => exact iff_of_true rfl (Nat.le_of_not_lt hge)

/-- The number of chunks is the length over the size, rounded up. -/
theorem length_cut (hsize : 0 < size) :
    (cut stem size records).length = records.length ⌈/⌉ size := by
  refine eq_of_forall_ge_iff fun i => ?_
  rw [length_cut_le_iff hsize, ceilDiv_le_iff_le_smul hsize, smul_eq_mul, Nat.mul_comm]

theorem size_of_getElem?_cut (hsize : 0 < size) {i : Nat} {c : Chunk}
    (hc : (cut stem size records)[i]? = some c) :
    i * size < records.length ∧ c.size = min size (records.length - i * size) := by
  rw [getElem?_cut stem size hsize] at hc
  split at hc
  next hlt =>
    obtain rfl := Option.some.inj hc
    exact ⟨hlt, by rw [Chunk.size, List.length_take, List.length_drop]⟩
  next => cases hc

theorem cut_partitions (stem : Text) (hsize : 0 < size) (records : List Record) :
    Partitions stem size records (cut stem size records) where
  number := length_cut hsize
  full := by
    intro i c hc hnext
    obtain ⟨-, hlength⟩ := size_of_getElem?_cut hsize hc
    -- the chunk behind it has a record, so this one has all that fit into it
    have hbehind : (i + 1) * size < records.length := by
      rw [← Nat.not_le, ← length_cut_le_iff hsize, Nat.not_le]
      exact hnext
    rw [Nat.succ_mul] at hbehind
    omega
  last := by
    intro c hc
    rw [List.getLast?_eq_getElem?] at hc
    obtain ⟨hlt, hlength⟩ := size_of_getElem?_cut hsize hc
    omega
  records_eq := flatMap_records_cut stem size hsize records
  named := names_cut stem size records
  distinct := nodup_names_cut stem size records

end Chunk

/-! ## Rule sets -/

/-- No chunk of the tables has the name of a downloaded one. -/
theorem RuleSet.nodup_names_chunks (config : Config) (tables : Tables) (entries : List Entry) :
    ((build config tables entries).chunks.map Chunk.name).Nodup := by
  rw [chunks, List.map_append]
  have hembedded := Chunk.nodup_names_cut embeddedStem config.embeddedChunkSize
  have hdownloaded := Chunk.nodup_names_cut downloadedStem config.downloadedChunkSize
  refine (hembedded _).append (hdownloaded _) (List.disjoint_left.2 fun n hn hn' => ?_)
  -- the two stems differ in their first characters
  obtain ⟨i, rfl⟩ := Chunk.exists_nameOf_eq embeddedStem _ _ hn
  obtain ⟨j, hj⟩ := Chunk.exists_nameOf_eq downloadedStem _ _ hn'
  exact absurd (List.cons.inj hj).1 (by decide)

namespace Chunk

/-- A size below one is refused, whatever the records. With any other size the chunks partition the
records, and all chunks of a rule set have names of their own. -/
theorem cut?_partitions (stem : Text) (size : Int) (records : List Record) :
    (size < 1 → cut? stem size records = .error ⟨size⟩) ∧
    (1 ≤ size → ∃ chunks, cut? stem size records = .ok chunks ∧
      Partitions stem size.toNat records chunks) ∧
    ∀ config tables entries,
      ((RuleSet.build config tables entries).chunks.map name).Nodup := by
  refine ⟨fun hsize => if_pos hsize, fun hsize => ?_, RuleSet.nodup_names_chunks⟩
  have hpos : 0 < size.toNat := by omega
  exact ⟨_, if_neg (by omega), cut_partitions stem hpos records⟩

def fiveRecords : List Record :=
  ["/a/", "/b/", "/c/", "/d/", "/e/"].map fun pattern =>
    ⟨{ urlFilter := pattern.toList }, { kind := .block }⟩

/-- Five records are refused in chunks of none, and make two pairs and a rest. -/
theorem cut?_partitions_fiveRecords :
    (0 : Int) < 1 ∧ cut? "ads".toList 0 fiveRecords = .error ⟨0⟩ ∧ (1 : Int) ≤ 2 ∧
      ∃ chunks, cut? "ads".toList 2 fiveRecords = .ok chunks ∧
        Partitions "ads".toList 2 fiveRecords chunks ∧ chunks.map Chunk.size = [2, 2, 1] := by
  have hnone := (cut?_partitions "ads".toList 0 fiveRecords).1 (by decide)
  obtain ⟨chunks, hcut, hpartitions⟩ := (cut?_partitions "ads".toList 2 fiveRecords).2.1 (by decide)
  have hchunks : cut "ads".toList 2 fiveRecords = chunks := Except.ok.inj hcut
  exact ⟨by decide, hnone, by decide, chunks, hcut, hpartitions, hchunks ▸ rfl⟩

end Chunk

end ContentFilter
