import ContentFilter.Proofs.Storage.FileTree
import ContentFilter.Storage.CacheFiles

/-! # The files of the cache

Something can be written for a key if its name can be that of a file, also with the ending of the
file that is written first. A write puts the payload into the file of its key and takes away the
file beside it; what is read for other keys stays as it is.

* `CacheFiles.besideName`, `CacheFiles.IsFileName`: names in the folder.
* `CacheFiles.Writable`, `CacheFiles.write_done_iff`: when something can be written.
* `CacheFiles.payload?`: what is read for a key.
* `CacheFiles.Tidy`, `CacheFiles.payload?_write`: what a write does to what is read.
-/

set_option autoImplicit false

namespace ContentFilter.CacheFiles

open Text FileTree

/-! ## Names of files -/

variable {key other name : Text}

/-- The name of the file that is written first. -/
def besideName (key : Text) : Text := sanitize key ++ ".tmp".toList

/-- Names that a file in the folder can have. -/
structure IsFileName (name : Text) : Prop where
  ne_nil : name ≠ []
  ne_dot : name ≠ ['.']
  plain : Plain name

theorem length_sanitize (key : Text) : (sanitize key).length = key.length := List.length_map _

theorem isSafe_of_mem_sanitize : ∀ c ∈ sanitize key, isSafe c = true := by
  intro c hc
  obtain ⟨d, -, rfl⟩ := List.mem_map.1 hc
  split_ifs with hd
  · exact hd
  · decide

theorem ascii_of_isSafe {c : Char} (h : isSafe c = true) : c.toNat < 0x80 ∧ c ≠ '\x00' := by
  refine ⟨?_, by rintro rfl; exact absurd h (by decide)⟩
  simp only [isSafe, Bool.or_eq_true, decide_eq_true_eq] at h
  rcases h with ((halphanum | rfl) | rfl) | rfl
  · delta Char.isAlphanum Char.isAlpha Char.isUpper Char.isLower Char.isDigit at halphanum
    have hval : c.val.toNat = c.toNat := rfl
    simp [UInt32.le_iff_toNat_le] at halphanum
    omega
  · decide
  · decide
  · decide

theorem length_encodeUtf8 {t : Text} (h : ∀ c ∈ t, isSafe c = true) :
    (encodeUtf8 t).length = t.length := by
  induction t with
  | nil => rfl
  | cons c cs ih =>
    obtain ⟨hc, hcs⟩ := List.forall_mem_cons.1 h
    have hone : encodeChar c = [UInt8.ofNat c.toNat] := by
      simp [encodeChar, (ascii_of_isSafe hc).1]
    rw [encodeUtf8, List.flatMap_cons, List.length_append, hone, List.length_singleton]
    have hrest := ih hcs
    rw [encodeUtf8] at hrest
    rw [hrest, List.length_cons, Nat.add_comm]

theorem plain_iff {t : Text} (h : ∀ c ∈ t, isSafe c = true) :
    Plain t ↔ t ≠ above ∧ t.length ≤ longestName := by
  have hnamed : t.contains '\x00' = false := by
    rw [Bool.eq_false_iff, ne_eq, List.contains_iff_mem]
    exact fun hmem => (ascii_of_isSafe (h _ hmem)).2 rfl
  constructor
  · rintro ⟨hne, hshort, -⟩
    exact ⟨hne, length_encodeUtf8 h ▸ hshort⟩
  · rintro ⟨hne, hshort⟩
    exact ⟨hne, (length_encodeUtf8 h).symm ▸ hshort, hnamed⟩

theorem plain_folder : Plain folder := ⟨by decide, by decide, by decide⟩

theorem isFileName_sanitize_iff : IsFileName (sanitize key) ↔
    sanitize key ∉ [[], ['.'], above] ∧ key.length ≤ longestName := by
  simp only [List.mem_cons, List.not_mem_nil, or_false, not_or]
  constructor
  · rintro ⟨hnil, hdot, hplain⟩
    obtain ⟨habove, hshort⟩ := (plain_iff isSafe_of_mem_sanitize).1 hplain
    exact ⟨⟨hnil, hdot, habove⟩, length_sanitize key ▸ hshort⟩
  · rintro ⟨⟨hnil, hdot, habove⟩, hshort⟩
    exact ⟨hnil, hdot, (plain_iff isSafe_of_mem_sanitize).2
      ⟨habove, (length_sanitize key).symm ▸ hshort⟩⟩

/-- A key for which something can be written: its name can be that of a file, and so can the longer
one. -/
def Writable (key : Text) : Prop := sanitize key ∉ [[], ['.'], above] ∧ key.length ≤ 251

instance (key : Text) : Decidable (Writable key) := inferInstanceAs (Decidable (_ ∧ _))

theorem Writable.isFileName (h : Writable key) : IsFileName (sanitize key) :=
  isFileName_sanitize_iff.2 ⟨h.1, Nat.le_trans h.2 (by decide)⟩

theorem isSafe_of_mem_besideName : ∀ c ∈ besideName key, isSafe c = true := by
  rw [besideName, List.forall_mem_append]
  exact ⟨isSafe_of_mem_sanitize, List.all_eq_true.1 (by decide)⟩

theorem length_besideName (key : Text) : (besideName key).length = key.length + 4 := by
  rw [besideName, List.length_append, length_sanitize]
  rfl

theorem Writable.plain_beside (h : Writable key) : Plain (besideName key) := by
  refine (plain_iff isSafe_of_mem_besideName).2 ⟨fun habove => ?_, ?_⟩
  · have hlength := length_besideName key
    rw [habove] at hlength
    simp [above] at hlength
  · rw [length_besideName]
    exact Nat.add_le_add_right h.2 4

/-! ## Paths -/

theorem pathFor_eq (h : sanitize key ∉ [[], ['.']]) : pathFor key = [folder, sanitize key] := by
  have hname : ((sanitize key).isEmpty || decide (sanitize key = ['.'])) = false := by
    simpa [not_or] using h
  simp only [pathFor, hname]
  rfl

theorem besidePath_eq (h : sanitize key ∉ [[], ['.']]) :
    besidePath key = [folder, besideName key] := by
  rw [besidePath, pathFor_eq h]
  rfl

theorem pathFor_of_mem (h : sanitize key ∈ [[], ['.']]) : pathFor key = [folder] := by
  have hname : ((sanitize key).isEmpty || decide (sanitize key = ['.'])) = true := by
    simpa using h
  simp only [pathFor, hname]
  rfl

theorem IsFileName.notMem (h : IsFileName name) : name ∉ [[], ['.']] := by
  simp [h.ne_nil, h.ne_dot]

variable {t : FileTree} {payload : Bytes} {now : Timestamp}

theorem write_eq_replaceFile (h : Writable key) : write t key payload now =
    t.replaceFile folder (besideName key) (sanitize key) payload now := by
  rw [write, pathFor_eq h.isFileName.notMem, besidePath_eq h.isFileName.notMem]
  rfl

/-- Where the path of a key leads to the folder, or to the root, nothing is written for it. -/
theorem not_write_done_of_folder
    (h : ∀ u : FileTree, u.node? [folder] = some .folder →
      ∃ place, u.locate (pathFor key) = .ok place ∧ u.node? place = some .folder) :
    ¬ (write t key payload now).done := by
  intro hdone
  obtain ⟨hmade, hrest⟩ := Changed.andThen_done_iff.1 hdone
  obtain ⟨hwrite, hmove⟩ := Changed.andThen_done_iff.1 hrest
  obtain ⟨s, hs⟩ := attempt_done_iff.1 hwrite
  obtain ⟨u, hu⟩ := attempt_done_iff.1 hmove
  rw [attempt_of_ok hs] at hu
  have hfolder := node?_of_writeFile hs (node?_of_ensureFolder plain_folder hmade)
  obtain ⟨place, hlocate, hplace⟩ := h s hfolder
  exact not_move_of_folder hlocate hplace hu

/-- Something is written for writable keys only. -/
theorem writable_of_done (hdone : (write t key payload now).done) : Writable key := by
  by_contra hkey
  by_cases hname : sanitize key ∈ [[], ['.']]
  · refine absurd hdone (not_write_done_of_folder fun u hu => ⟨[folder], ?_, hu⟩)
    rw [pathFor_of_mem hname, locate_folder plain_folder]
  by_cases habove : sanitize key = above
  · refine absurd hdone (not_write_done_of_folder fun u hu => ⟨[], ?_, rfl⟩)
    rw [pathFor_eq hname, habove, locate_above plain_folder hu]
  -- what is left are names that are too long with the ending of the file beside
  have hlong : 251 < key.length := by
    by_contra hshort
    refine hkey ⟨?_, by omega⟩
    simpa [habove] using hname
  obtain ⟨hmade, hrest⟩ := Changed.andThen_done_iff.1 hdone
  obtain ⟨s, hs⟩ := attempt_done_iff.1 (Changed.andThen_done_iff.1 hrest).1
  obtain ⟨place, hlocate, -⟩ := exists_of_writeFile hs
  rw [besidePath_eq hname] at hlocate
  refine not_locate_of_long plain_folder (node?_of_ensureFolder plain_folder hmade) ?_ hlocate
  rw [length_encodeUtf8 isSafe_of_mem_besideName, length_besideName]
  exact Nat.add_lt_add_right hlong 4

/-! ## What is read -/

/-- What is read for a key, without the time. -/
def payload? (t : FileTree) (key : Text) : Option Bytes := (read? t key).map CacheEntry.payload

/-- The content of a file. -/
def contentOf? : Option FileNode → Option Bytes
  | some (.file content _) => some content
  | _ => none

theorem payload?_eq_some_iff {content : Bytes} : payload? t key = some content ↔
    ∃ place modified, t.locate (pathFor key) = .ok place ∧
      t.node? place = some (.file content modified) := by
  simp only [payload?, read?, file, bind, Except.bind]
  cases t.locate (pathFor key) with
  | error f => simp
  | ok place =>
    rcases hnode : t.node? place with _ | (_ | ⟨held, modified⟩) <;> simp [hnode]

/-- In a folder that is not there nothing is read. -/
theorem payload?_of_missing (h : t.node? [folder] = none) (key : Text) : payload? t key = none := by
  rw [Option.eq_none_iff_forall_ne_some]
  intro content hcontent
  obtain ⟨place, modified, hlocate, hnode⟩ := payload?_eq_some_iff.1 hcontent
  by_cases hname : sanitize key ∈ [[], ['.']]
  · rw [pathFor_of_mem hname, locate_folder plain_folder] at hlocate
    obtain rfl := Except.ok.inj hlocate
    rw [h] at hnode
    cases hnode
  · rw [pathFor_eq hname] at hlocate
    exact not_locate_of_missing plain_folder h hlocate

variable (hfolder : t.node? [folder] = some .folder)
include hfolder

/-- What is read in the folder is in the file with the name of the key. -/
theorem payload?_eq_contentOf? (hname : IsFileName (sanitize key)) :
    payload? t key = contentOf? (t.node? [folder, sanitize key]) := by
  refine Option.ext fun content => ?_
  rw [payload?_eq_some_iff, pathFor_eq hname.notMem, locate_file plain_folder hname.plain hfolder]
  rcases hnode : t.node? [folder, sanitize key] with _ | (_ | ⟨held, modified⟩) <;>
    simp [contentOf?, hnode]

/-- Under a name that no file can have nothing is read. -/
theorem payload?_of_not_isFileName (hname : ¬ IsFileName (sanitize key)) :
    payload? t key = none := by
  rw [Option.eq_none_iff_forall_ne_some]
  intro content hcontent
  obtain ⟨place, modified, hlocate, hnode⟩ := payload?_eq_some_iff.1 hcontent
  by_cases hdot : sanitize key ∈ [[], ['.']]
  · rw [pathFor_of_mem hdot, locate_folder plain_folder] at hlocate
    obtain rfl := Except.ok.inj hlocate
    rw [hfolder] at hnode
    cases hnode
  rw [pathFor_eq hdot] at hlocate
  by_cases habove : sanitize key = above
  · rw [habove, locate_above plain_folder hfolder] at hlocate
    obtain rfl := Except.ok.inj hlocate
    cases hnode
  · refine not_locate_of_long plain_folder hfolder ?_ hlocate
    by_contra hshort
    rw [length_encodeUtf8 isSafe_of_mem_sanitize, length_sanitize] at hshort
    refine hname (isFileName_sanitize_iff.2 ⟨?_, by omega⟩)
    simpa [habove] using hdot

omit hfolder

/-! ## What is written -/

/-- There is nothing in the folder unless the folder is there. -/
def Tidy (t : FileTree) : Prop :=
  t.node? [folder] = none → ∀ name, t.node? [folder, name] = none

theorem node?_folder_write (hdone : (write t key payload now).done) :
    (write t key payload now).tree.node? [folder] = some .folder := by
  have hkey := writable_of_done hdone
  rw [write_eq_replaceFile hkey] at hdone ⊢
  exact node?_folder_replaceFile plain_folder hkey.plain_beside hkey.isFileName.plain hdone

theorem tidy_write (hdone : (write t key payload now).done) :
    Tidy (write t key payload now).tree := by
  intro hnone
  rw [node?_folder_write hdone] at hnone
  cases hnone

/-- What a write does to what is read: its own file has the payload, the file beside it is gone, and
every other file is as before. -/
theorem payload?_write (ht : Tidy t) (hdone : (write t key payload now).done) (other : Text) :
    payload? (write t key payload now).tree other =
      if sanitize other = sanitize key then some payload
      else if sanitize other = besideName key then none
      else payload? t other := by
  have hkey := writable_of_done hdone
  have hafter := node?_folder_write hdone
  rw [write_eq_replaceFile hkey] at hdone hafter ⊢
  obtain ⟨hfile, -, -⟩ :=
    (replaceFile_done_iff plain_folder hkey.plain_beside hkey.isFileName.plain).1 hdone
  by_cases hname : IsFileName (sanitize other)
  · have hbefore : payload? t other = contentOf? (t.node? [folder, sanitize other]) := by
      rcases hnode : t.node? [folder] with _ | (_ | ⟨held, modified⟩)
      · rw [payload?_of_missing hnode, ht hnode]
        rfl
      · exact payload?_eq_contentOf? hnode hname
      · exact absurd hnode (hfile held modified)
    rw [payload?_eq_contentOf? hafter hname, hbefore,
      node?_replaceFile plain_folder hkey.plain_beside hkey.isFileName.plain hdone]
    split_ifs <;> rfl
  · have hbefore : payload? t other = none := by
      rcases hnode : t.node? [folder] with _ | (_ | ⟨held, modified⟩)
      · exact payload?_of_missing hnode other
      · exact payload?_of_not_isFileName hnode hname
      · exact absurd hnode (hfile held modified)
    have hne : sanitize other ≠ sanitize key := fun heq => hname (heq ▸ hkey.isFileName)
    rw [payload?_of_not_isFileName hafter hname, hbefore, if_neg hne, ite_self]

/-- A write comes to its end for a writable key, if there are no folders where its files are to be
and no file where the folder is to be. -/
theorem write_done_iff : (write t key payload now).done ↔ Writable key ∧
    (∀ held modified, t.node? [folder] ≠ some (.file held modified)) ∧
    t.node? [folder, besideName key] ≠ some .folder ∧
    t.node? [folder, sanitize key] ≠ some .folder := by
  constructor
  · intro hdone
    have hkey := writable_of_done hdone
    rw [write_eq_replaceFile hkey,
      replaceFile_done_iff plain_folder hkey.plain_beside hkey.isFileName.plain] at hdone
    exact ⟨hkey, hdone⟩
  · rintro ⟨hkey, hroom⟩
    rwa [write_eq_replaceFile hkey,
      replaceFile_done_iff plain_folder hkey.plain_beside hkey.isFileName.plain]

theorem node?_write_ne_folder (hdone : (write t key payload now).done) {name : Text}
    (h : t.node? [folder, name] ≠ some .folder) :
    (write t key payload now).tree.node? [folder, name] ≠ some .folder := by
  have hkey := writable_of_done hdone
  rw [write_eq_replaceFile hkey] at hdone ⊢
  rw [node?_replaceFile plain_folder hkey.plain_beside hkey.isFileName.plain hdone]
  split_ifs
  · simp
  · simp
  · exact h

end ContentFilter.CacheFiles
