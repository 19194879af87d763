import Mathlib.Data.List.Basic
import Mathlib.Data.List.Nodup
import Mathlib.Tactic.Common
import ContentFilter.Json.Basic

/-! # The fields of an object

* `Json.field?_object`: the fields of an object, looked up by any lawful equality of keys.
* `Json.lookup_putField_self`, `Json.lookup_putField_of_ne`: setting a field leaves the others as they
  are.
* `Json.nodup_putField`, `Json.nodup_fieldsOfMembers`: the keys of an object are distinct.
* `Json.fieldsOfMembers_of_nodup`: members with distinct keys are the fields of their object.
-/

set_option autoImplicit false

namespace ContentFilter.Json

variable {S : Type} [DecidableEq S] {key other : S} {value : Json S} {fields : List (S × Json S)}

/-! ## Looking up a field -/

section

variable [BEq S] [LawfulBEq S]

theorem field?_object (key : S) (fields : List (S × Json S)) :
    (object fields).field? key = fields.lookup key := by
  rw [field?, lawful_beq_subsingleton instBEqOfDecidableEq ‹BEq S›]

/-! ## Setting a field -/

theorem lookup_putField_self (key : S) (value : Json S) (fields : List (S × Json S)) :
    (putField key value fields).lookup key = some value := by
  induction fields with
  | nil => exact List.lookup_cons_self
  | cons f fs ih =>
    rw [putField]
    split
    next => exact List.lookup_cons_self
    next hf =>
      rw [List.lookup_cons, beq_eq_false_iff_ne.2 (Ne.symm hf)]
      exact ih

theorem lookup_putField_of_ne (value : Json S) (fields : List (S × Json S)) (h : other ≠ key) :
    (putField key value fields).lookup other = fields.lookup other := by
  induction fields with
  | nil => rw [putField, List.lookup_cons, beq_eq_false_iff_ne.2 h]
  | cons f fs ih =>
    rw [putField]
    split
    next hf =>
      subst hf
      rw [List.lookup_cons, List.lookup_cons, beq_eq_false_iff_ne.2 h]
    next => rw [List.lookup_cons, List.lookup_cons, ih]

end

theorem mem_putField {f : S × Json S} (h : f ∈ putField key value fields) :
    f = (key, value) ∨ f ∈ fields := by
  induction fields with
  | nil => exact .inl (List.mem_singleton.1 h)
  | cons g gs ih =>
    rw [putField] at h
    split at h
    next =>
      rcases List.mem_cons.1 h with rfl | h
      · exact .inl rfl
      · exact .inr (List.mem_cons_of_mem g h)
    next =>
      rcases List.mem_cons.1 h with rfl | h
      · exact .inr List.mem_cons_self
      · exact (ih h).imp_right (List.mem_cons_of_mem g)

theorem putField_of_notMem (key : S) (value : Json S) (fields : List (S × Json S))
    (h : key ∉ fields.map Prod.fst) : putField key value fields = fields ++ [(key, value)] := by
  induction fields with
  | nil => rfl
  | cons f fs ih =>
    obtain ⟨hf, hfs⟩ : f.1 ≠ key ∧ key ∉ fs.map Prod.fst := by
      simpa [eq_comm] using h
    rw [putField, if_neg hf, ih hfs, List.cons_append]

/-- A field is set in its place when the key is there, and at the end otherwise. -/
theorem keys_putField (key : S) (value : Json S) (fields : List (S × Json S)) :
    (putField key value fields).map Prod.fst =
      if key ∈ fields.map Prod.fst then fields.map Prod.fst else fields.map Prod.fst ++ [key] := by
  induction fields with
  | nil => rfl
  | cons f fs ih =>
    rw [putField]
    by_cases hf : f.1 = key
    · rw [if_pos hf, List.map_cons, List.map_cons, if_pos (by simp [hf]), hf]
    · have hmem : key ∈ f.1 :: fs.map Prod.fst ↔ key ∈ fs.map Prod.fst := by simp [Ne.symm hf]
      rw [if_neg hf, List.map_cons, List.map_cons, ih, List.cons_append]
      simp only [hmem]
      split <;> rfl

theorem nodup_putField (h : (fields.map Prod.fst).Nodup) :
    ((putField key value fields).map Prod.fst).Nodup := by
  rw [keys_putField]
  split
  · exact h
  next hkey =>
    rw [← List.concat_eq_append]
    exact List.Nodup.concat hkey h

/-! ## The fields of members -/

theorem nodup_fieldsOfMembers (members : List (S × Json S)) :
    ((fieldsOfMembers members).map Prod.fst).Nodup := by
  suffices hgen : ∀ fields : List (S × Json S), (fields.map Prod.fst).Nodup →
      ((members.foldl (fun fields m => putField m.1 m.2 fields) fields).map Prod.fst).Nodup from
    hgen [] List.nodup_nil
  induction members with
  | nil => exact fun fields h => h
  | cons m ms ih => exact fun fields h => ih _ (nodup_putField h)

theorem mem_of_mem_fieldsOfMembers {members : List (S × Json S)} {f : S × Json S}
    (h : f ∈ fieldsOfMembers members) : f ∈ members := by
  suffices hgen : ∀ fields : List (S × Json S),
      f ∈ members.foldl (fun fields m => putField m.1 m.2 fields) fields →
        f ∈ fields ∨ f ∈ members from (hgen [] h).resolve_left List.not_mem_nil
  clear h
  induction members with
  | nil => exact fun fields h => .inl h
  | cons m ms ih =>
    intro fields h
    rcases ih _ h with h | h
    · rcases mem_putField h with rfl | h
      · exact .inr List.mem_cons_self
      · exact .inl h
    · exact .inr (List.mem_cons_of_mem m h)

/-- Members with distinct keys are the fields of their object. -/
theorem fieldsOfMembers_of_nodup (members : List (S × Json S))
    (h : (members.map Prod.fst).Nodup) : fieldsOfMembers members = members := by
  suffices hgen : ∀ done : List (S × Json S), ((done ++ members).map Prod.fst).Nodup →
      members.foldl (fun fields m => putField m.1 m.2 fields) done = done ++ members from
    hgen [] h
  clear h
  induction members with
  | nil => intro done _; rw [List.foldl_nil, List.append_nil]
  | cons m ms ih =>
    intro done hdone
    have hnew : m.1 ∉ done.map Prod.fst := by
      rw [List.map_append, List.map_cons, List.nodup_append] at hdone
      intro hm
      exact hdone.2.2 m.1 hm m.1 (by simp) rfl
    rw [List.foldl_cons, putField_of_notMem _ _ _ hnew, ih]
    · simp
    · simpa using hdone

end ContentFilter.Json
