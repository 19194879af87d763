import ContentFilter.Proofs.Json.Reader
import ContentFilter.Proofs.Storage.FileTree
import ContentFilter.Proofs.Text.Utf8
import ContentFilter.Storage.FlagFile

/-! # What is kept in the file of the switch

The file is read and written unless its bytes are no UTF-8 text, or a text that goes beyond a limit of
the reader of JSON. Everything else that can be in it counts as a switch that is not set. What has been
written is read again, and so are all other fields that the file had.

* `FlagFile.Contents`, `FlagFile.contents`: what can be in the file, and what is in it.
* `FlagFile.Legible`: the files that are read, with `FlagFile.stored?`, the switch in them.
* `FlagFile.contents_of_save`: what is in a file that has been written.
* `FlagFile.load_save_iff_legible`: reading and writing, for every file.
* `FlagFile.not_read_without_utf8`: a file that is neither read nor written.
-/

set_option autoImplicit false

namespace ContentFilter.FlagFile

open Text

/-! ## What is in the file -/

/-- What can be in the file: there is none, or none that can be opened; its bytes are no UTF-8 text; its
text is no JSON; it goes beyond a limit of the reader; it is a JSON value. -/
inductive Contents where
  | absent
  | garbled
  | malformed
  | exceeding (limit : Limit)
  | value (v : Json Utf16)

def contents (t : FileTree) : Contents :=
  match t.file path with
  | .error _ => .absent
  | .ok (content, _) =>
    match (decodeUtf8? content).map fun text => Json.parse text (S := Utf16) with
    | none => .garbled
    | some (.error .malformed) => .malformed
    | some (.error (.beyond l)) => .exceeding l
    | some (.ok v) => .value v

def Legible (t : FileTree) : Prop := contents t ≠ .garbled ∧ ∀ l, contents t ≠ .exceeding l

/-- The switch in the file: a truth value under its key in an object. -/
def stored? (t : FileTree) : Option Bool :=
  match contents t with
  | .value v => match v.field? key with
    | some (.bool b) => some b
    | _ => none
  | _ => none

/-- The fields of the object in the file; none when there is no object. -/
def heldFields (t : FileTree) : List (Utf16 × Json Utf16) :=
  match contents t with
  | .value (.object fields) => fields
  | _ => []

variable {t : FileTree}

theorem fields_eq_contents (t : FileTree) : fields t =
    match contents t with
    | .garbled => .error .notUtf8
    | .exceeding l => .error (.beyond l)
    | _ => .ok (heldFields t) := by
  unfold fields heldFields contents
  rcases t.file path with f | ⟨content, modified⟩
  · rfl
  · dsimp only
    rcases decodeUtf8? content with _ | text
    · rfl
    · simp only [Option.map_some, fieldsOf]
      rcases Json.parse text (S := Utf16) with (_ | l) | v
      · rfl
      · rfl
      · cases v <;> rfl

/-! ## Reading -/

theorem fields_eq_ok_iff {fs : List (Utf16 × Json Utf16)} :
    fields t = .ok fs ↔ Legible t ∧ fs = heldFields t := by
  rw [fields_eq_contents, Legible]
  cases contents t <;> simp [eq_comm]

theorem fields_eq_notUtf8_iff : fields t = .error .notUtf8 ↔ contents t = .garbled := by
  rw [fields_eq_contents]
  cases contents t <;> simp

theorem load_eq_bind (t : FileTree) (default : Bool) : load t default =
    (fields t).bind fun fs => match fs.lookup key with
      | some (.bool b) => .ok b
      | _ => .ok default := rfl

theorem stored?_eq : stored? t = match (heldFields t).lookup key with
    | some (.bool b) => some b
    | _ => none := by
  unfold stored? heldFields
  rcases contents t with _ | _ | _ | _ | v
  · rfl
  · rfl
  · rfl
  · rfl
  · cases v with
    | object fields => simp only [Json.field?_object]
    | _ => rfl

theorem load_of_fields (default : Bool) (h : fields t = .ok (heldFields t)) :
    load t default = .ok ((stored? t).getD default) := by
  rw [load_eq_bind, h, stored?_eq]
  simp only [Except.bind]
  split <;> rfl

/-- The switch is read from every legible file, and from no other. -/
theorem load_eq_ok_iff {default b : Bool} :
    load t default = .ok b ↔ Legible t ∧ b = (stored? t).getD default := by
  constructor
  · intro h
    cases hfields : fields t with
    | error f =>
      rw [load_eq_bind, hfields] at h
      cases h
    | ok fs =>
      obtain ⟨hlegible, rfl⟩ := fields_eq_ok_iff.1 hfields
      rw [load_of_fields default hfields] at h
      exact ⟨hlegible, (Except.ok.inj h).symm⟩
  · rintro ⟨hlegible, rfl⟩
    exact load_of_fields default (fields_eq_ok_iff.2 ⟨hlegible, rfl⟩)

theorem load_eq_notUtf8_iff {default : Bool} :
    load t default = .error .notUtf8 ↔ contents t = .garbled := by
  rw [← fields_eq_notUtf8_iff, load_eq_bind]
  cases fields t with
  | error f => simp [Except.bind]
  | ok fs =>
    refine ⟨fun h => ?_, nofun⟩
    simp only [Except.bind] at h
    split at h <;> cases h

/-! ## Writing -/

theorem plain_folder : FileTree.Plain folder := ⟨by decide, by decide, by decide⟩

theorem plain_name : FileTree.Plain "state.json".toList := ⟨by decide, by decide, by decide⟩

theorem plain_besideName : FileTree.Plain "state.tmp".toList := ⟨by decide, by decide, by decide⟩

/-- What is written: the former fields, with the switch set. -/
theorem save_eq_map (t : FileTree) (value : Bool) (now : Timestamp) : save t value now =
    (fields t).map fun fs => t.replaceFile folder "state.tmp".toList "state.json".toList
      (contentOf (Json.putField key (.bool value) fs)) now := by
  unfold save
  cases fields t <;> rfl

theorem readable_of_contents {v : Json Utf16} (h : contents t = .value v) :
    Json.Readable Json.nestingLimit v := by
  unfold contents at h
  split at h
  · cases h
  next content modified hfile =>
    cases htext : decodeUtf8? content with
    | none =>
      rw [htext] at h
      cases h
    | some text =>
      rw [htext, Option.map_some] at h
      split at h <;> cases h
      next v hparse => exact Json.readable_of_parse (Option.some.inj hparse)

/-- The former fields with the switch set keep within the limits of the reader. -/
theorem readable_putField (t : FileTree) (value : Bool) : Json.Readable Json.nestingLimit
    (.object (Json.putField key (.bool value) (heldFields t))) := by
  have hheld : Json.Readable Json.nestingLimit (.object (heldFields t)) := by
    unfold heldFields
    split
    next fields hcontents => exact readable_of_contents hcontents
    · exact .object List.nodup_nil (List.forall_mem_nil _)
  obtain ⟨hkeys, hfields⟩ := Json.readable_object_iff.1 hheld
  refine Json.readable_object_iff.2 ⟨Json.nodup_putField hkeys, fun f hf => ?_⟩
  rcases Json.mem_putField hf with rfl | hf
  · exact .bool _ value
  · exact hfields f hf

/-- What is in a file that has been written. -/
theorem contents_of_save {value : Bool} {now : Timestamp} {c : FileTree.Changed}
    (h : save t value now = .ok c) (hdone : c.done) : contents c.tree =
      .value (.object (Json.putField key (.bool value) (heldFields t))) := by
  rw [save_eq_map] at h
  obtain ⟨fs, hfields, rfl⟩ := Json.ok_of_map h
  obtain ⟨-, rfl⟩ := fields_eq_ok_iff.1 hfields
  -- the file has the text of an object within the limits of the reader, which is read as that object
  have hfile := FileTree.file_of_replaceFile plain_folder plain_besideName plain_name hdone
  have hparse := Json.parse_write Json.Layout.standard_indented (readable_putField t value)
  unfold contents path
  rw [hfile]
  simp only [contentOf, decodeUtf8?_encodeUtf8, Option.map_some, hparse]

theorem legible_of_value {v : Json Utf16} (h : contents t = .value v) : Legible t :=
  ⟨by rw [h]; nofun, by rw [h]; nofun⟩

/-- What has been written is read again, whatever the default. -/
theorem load_of_save {value : Bool} {now : Timestamp} {c : FileTree.Changed}
    (h : save t value now = .ok c) (hdone : c.done) (default : Bool) :
    load c.tree default = .ok value := by
  have hcontents := contents_of_save h hdone
  refine load_eq_ok_iff.2 ⟨legible_of_value hcontents, ?_⟩
  rw [stored?, hcontents]
  simp only [Json.field?, Json.lookup_putField_self, Option.getD_some]

/-- Every legible file is read and written, and no other. What has been written is read again,
whatever the default, and all other fields of an object that was in the file have their former
values. -/
theorem load_save_iff_legible (t : FileTree) :
    (∀ default b, load t default = .ok b ↔ Legible t ∧ b = (stored? t).getD default) ∧
    (∀ default, load t default = .error .notUtf8 ↔ contents t = .garbled) ∧
    (∀ value now, (∃ c, save t value now = .ok c) ↔ Legible t) ∧
    ∀ value now c, save t value now = .ok c → c.done →
      (∀ default, load c.tree default = .ok value) ∧
      ∃ after, contents c.tree = .value (.object after) ∧
        ∀ before, contents t = .value (.object before) →
          ∀ other, other ≠ key → after.lookup other = before.lookup other := by
  refine ⟨fun default b => load_eq_ok_iff, fun default => load_eq_notUtf8_iff,
    fun value now => ⟨?_, ?_⟩, fun value now c h hdone => ⟨load_of_save h hdone, ?_⟩⟩
  · rintro ⟨c, h⟩
    rw [save_eq_map] at h
    obtain ⟨fs, hfields, -⟩ := Json.ok_of_map h
    exact (fields_eq_ok_iff.1 hfields).1
  · intro hlegible
    rw [save_eq_map, fields_eq_ok_iff.2 ⟨hlegible, rfl⟩]
    exact ⟨_, rfl⟩
  · refine ⟨_, contents_of_save h hdone, fun before hbefore other hother => ?_⟩
    rw [Json.lookup_putField_of_ne _ _ hother, heldFields, hbefore]

/-- A file of one byte that starts no character is neither read nor written. -/
theorem not_read_without_utf8 :
    let t : FileTree := ⟨[([folder], .folder), (path, .file [0xFF] .epoch)]⟩
    load t true = .error .notUtf8 ∧ save t true .epoch = .error .notUtf8 := ⟨rfl, rfl⟩

end ContentFilter.FlagFile
