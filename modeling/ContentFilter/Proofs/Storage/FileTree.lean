import Mathlib.Data.List.Basic
import Mathlib.Tactic.Common
import ContentFilter.Storage.FileTree

/-! # Files in a folder below the root

A name that is neither two dots nor too long is looked up as it is, and what is put at one place is
found there and nowhere else.

* `FileTree.node?_put_self`, `FileTree.node?_put_of_ne`, `FileTree.node?_remove_of_ne`: what is
  found at a place after a change.
* `FileTree.Plain`: names that are looked up as they are, with `FileTree.locate_folder` and
  `FileTree.locate_file`.
* `FileTree.ensureFolder_eq`: a folder that was to be there is there, unless there is a file.
* `FileTree.replaceFile`: a file is written beside another and moved into its place, with
  `FileTree.node?_replaceFile`, what is in the folder then, and `FileTree.replaceFile_done_iff`,
  when it can be done.
-/

set_option autoImplicit false

namespace ContentFilter.FileTree

open Text

/-! ## Places after a change -/

variable {t : FileTree} {place other : Path}

theorem lookup_filter_of_ne (nodes : List (Path × FileNode)) (h : other ≠ place) :
    (nodes.filter fun e => e.1 != place).lookup other = nodes.lookup other := by
  induction nodes with
  | nil => rfl
  | cons e es ih =>
    rw [List.filter_cons]
    split
    next => rw [List.lookup_cons, List.lookup_cons, ih]
    next he =>
      have hplace : e.1 = place := by simpa using he
      rw [ih, List.lookup_cons, hplace, beq_eq_false_iff_ne.2 h]

theorem node?_put_self (n : FileNode) (h : place ≠ []) : (t.put place n).node? place = some n := by
  have hplace : place.isEmpty = false := by simpa using h
  rw [node?, hplace, if_neg Bool.false_ne_true, put, List.lookup_cons_self]

theorem node?_put_of_ne (n : FileNode) (h : other ≠ place) :
    (t.put place n).node? other = t.node? other := by
  rw [node?, node?, put, List.lookup_cons, beq_eq_false_iff_ne.2 h]
  simp only [lookup_filter_of_ne _ h]

theorem lookup_filter_self (nodes : List (Path × FileNode)) (place : Path) :
    (nodes.filter fun e => e.1 != place).lookup place = none := by
  rw [List.lookup_eq_none_iff]
  intro e he
  have hne : e.1 ≠ place := by simpa using (List.mem_filter.1 he).2
  simpa using Ne.symm hne

theorem node?_remove_self (h : place ≠ []) : (t.remove place).node? place = none := by
  have hplace : place.isEmpty = false := by simpa using h
  rw [node?, hplace, if_neg Bool.false_ne_true, remove]
  exact lookup_filter_self t.nodes place

theorem node?_remove_of_ne (h : other ≠ place) : (t.remove place).node? other = t.node? other := by
  rw [node?, node?, remove, lookup_filter_of_ne _ h]

/-! ## Names -/

/-- Names that are looked up as they are. -/
structure Plain (name : Text) : Prop where
  notAbove : name ≠ above
  short : (encodeUtf8 name).length ≤ longestName
  named : name.contains '\x00' = false

variable {folder name : Text}

theorem encodeUtf8_append (a b : Text) : encodeUtf8 (a ++ b) = encodeUtf8 a ++ encodeUtf8 b :=
  List.flatMap_append

theorem follow_cons (hname : Plain name) (h : t.node? place = some .folder) (names : Path) :
    t.follow place (name :: names) = t.follow (place ++ [name]) names := by
  rw [follow, h]
  simp only [if_neg (Nat.not_lt.2 hname.short), if_neg hname.notAbove]

theorem locate_folder (hfolder : Plain folder) : t.locate [folder] = .ok [folder] := by
  have hshort : (encodeUtf8 folder).length ≤ longestPath := Nat.le_trans hfolder.short (by decide)
  have hnamed : ([folder].any fun name => name.contains '\x00') = false := by
    simpa using hfolder.named
  rw [locate, hnamed, if_neg Bool.false_ne_true, join, List.intercalate_singleton,
    if_neg (Nat.not_lt.2 hshort), follow_cons hfolder rfl]
  rfl

/-- A name in a folder below the root is followed from there. -/
theorem locate_eq_follow (hfolder : Plain folder) (hshort : (encodeUtf8 name).length ≤ longestName)
    (hnamed : name.contains '\x00' = false) :
    t.locate [folder, name] = t.follow [folder] [name] := by
  have hlength : (encodeUtf8 (join ['/'] [folder, name])).length ≤ longestPath := by
    have hslash : (encodeUtf8 ['/']).length = 1 := rfl
    have hfirst := hfolder.short
    have hbound : longestName + 1 + longestName ≤ longestPath := by decide
    rw [join, List.intercalate_cons_cons, List.intercalate_singleton, encodeUtf8_append,
      encodeUtf8_append, List.length_append, List.length_append, hslash]
    omega
  have hpath : ([folder, name].any fun name => name.contains '\x00') = false := by
    rw [List.any_cons, List.any_cons, hfolder.named, hnamed]
    rfl
  rw [locate, hpath, if_neg Bool.false_ne_true, if_neg (Nat.not_lt.2 hlength),
    follow_cons hfolder rfl, List.nil_append]

theorem locate_file (hfolder : Plain folder) (hname : Plain name)
    (h : t.node? [folder] = some .folder) : t.locate [folder, name] = .ok [folder, name] := by
  rw [locate_eq_follow hfolder hname.short hname.named, follow_cons hname h]
  rfl

/-- Two dots lead back to the root. -/
theorem locate_above (hfolder : Plain folder) (h : t.node? [folder] = some .folder) :
    t.locate [folder, above] = .ok [] := by
  rw [locate_eq_follow hfolder (by decide) (by decide), follow, h]
  rfl

theorem follow_of_locate (hfolder : Plain folder) (h : t.locate [folder, name] = .ok place) :
    t.follow [folder] [name] = .ok place := by
  unfold locate at h
  split at h
  · cases h
  · split at h
    · cases h
    · rwa [follow_cons hfolder rfl, List.nil_append] at h

theorem not_locate_of_long (hfolder : Plain folder) (h : t.node? [folder] = some .folder)
    (hlong : longestName < (encodeUtf8 name).length) : t.locate [folder, name] ≠ .ok place := by
  intro hlocate
  have hfollow := follow_of_locate hfolder hlocate
  rw [follow, h] at hfollow
  simp [hlong] at hfollow

/-- Nothing is found in a folder that is not there. -/
theorem not_locate_of_missing (hfolder : Plain folder) (h : t.node? [folder] = none) :
    t.locate [folder, name] ≠ .ok place := by
  intro hlocate
  have hfollow := follow_of_locate hfolder hlocate
  rw [follow, h] at hfollow
  cases hfollow

/-! ## Changes that have been made -/

variable {change : FileTree → Except FileFault FileTree}

theorem Changed.andThen_of_done {c : Changed} (h : c.done) (next : FileTree → Changed) :
    c.andThen next = next c.tree := by
  obtain ⟨tree, fault⟩ := c
  cases fault with
  | none => rfl
  | some f => exact absurd h Bool.false_ne_true

theorem Changed.andThen_done_iff {c : Changed} {next : FileTree → Changed} :
    (c.andThen next).done ↔ c.done ∧ (next c.tree).done := by
  obtain ⟨tree, fault⟩ := c
  cases fault with
  | none => simp [Changed.andThen, Changed.done]
  | some f => simp [Changed.andThen, Changed.done]

theorem attempt_of_ok {s : FileTree} (h : change t = .ok s) : t.attempt change = ⟨s, none⟩ := by
  rw [attempt, h]

theorem attempt_of_error {f : FileFault} (h : change t = .error f) :
    t.attempt change = ⟨t, some f⟩ := by
  rw [attempt, h]

theorem attempt_done_iff : (t.attempt change).done ↔ ∃ s, change t = .ok s := by
  cases h : change t with
  | ok s => simp [attempt_of_ok h, Changed.done]
  | error f => simp [attempt_of_error h, Changed.done]

theorem makeOne_eq (hfolder : Plain folder) : t.makeOne [folder] =
    match t.node? [folder] with
    | none => .ok (t.put [folder] .folder)
    | some _ => .error .occupied := by
  rw [makeOne, locate_folder hfolder]
  simp only [bind, Except.bind]
  cases t.node? [folder] <;> rfl

theorem makeFolder_eq (hfolder : Plain folder) : t.makeFolder [folder] =
    match t.node? [folder] with
    | none => ⟨t.put [folder] .folder, none⟩
    | some _ => ⟨t, some .occupied⟩ := by
  have hmake := makeOne_eq (t := t) hfolder
  unfold makeFolder makeAlong attempt
  dsimp only [List.take_succ_cons, List.take_zero, List.length_cons, List.length_nil]
  cases hnode : t.node? [folder] with
  | none => simp [hmake, hnode]
  | some n => simp [hmake, hnode]

theorem isFolder_eq (hfolder : Plain folder) :
    t.isFolder [folder] = decide (t.node? [folder] = some .folder) := by
  rw [isFolder, locate_folder hfolder]

/-- A folder below the root is made where there is nothing, and left alone where it is. -/
theorem ensureFolder_eq (hfolder : Plain folder) : t.ensureFolder [folder] =
    match t.node? [folder] with
    | none => ⟨t.put [folder] .folder, none⟩
    | some .folder => ⟨t, none⟩
    | some (.file _ _) => ⟨t, some .occupied⟩ := by
  have hmade : (t.put [folder] .folder).node? [folder] = some .folder :=
    node?_put_self _ (List.cons_ne_nil _ _)
  unfold ensureFolder Changed.orFolder
  rw [makeFolder_eq hfolder]
  rcases hnode : t.node? [folder] with _ | (_ | ⟨content, modified⟩)
  · simp [isFolder_eq hfolder, hmade]
  · simp [isFolder_eq hfolder, hnode]
  · simp [isFolder_eq hfolder, hnode]

/-- A folder below the root can be had unless there is a file. -/
theorem ensureFolder_done_iff (hfolder : Plain folder) : (t.ensureFolder [folder]).done ↔
    ∀ content modified, t.node? [folder] ≠ some (.file content modified) := by
  rw [ensureFolder_eq hfolder]
  rcases t.node? [folder] with _ | (_ | ⟨content, modified⟩) <;> simp [Changed.done]

/-- A folder that was to be there is there. -/
theorem node?_of_ensureFolder (hfolder : Plain folder) (h : (t.ensureFolder [folder]).done) :
    (t.ensureFolder [folder]).tree.node? [folder] = some .folder := by
  rw [ensureFolder_eq hfolder] at h ⊢
  rcases hnode : t.node? [folder] with _ | (_ | ⟨content, modified⟩)
  · exact node?_put_self _ (List.cons_ne_nil _ _)
  · exact hnode
  · simp [hnode, Changed.done] at h

theorem node?_ensureFolder_of_ne (hfolder : Plain folder) (h : other ≠ [folder]) :
    (t.ensureFolder [folder]).tree.node? other = t.node? other := by
  rw [ensureFolder_eq hfolder]
  rcases t.node? [folder] with _ | (_ | ⟨content, modified⟩)
  · exact node?_put_of_ne _ h
  · rfl
  · rfl

/-! ## Files that have been replaced -/

variable {beside : Text} {content : Bytes} {now : Timestamp}

theorem file_eq_ok (hfolder : Plain folder) (hname : Plain name)
    (h : t.node? [folder] = some .folder)
    (hfile : t.node? [folder, name] = some (.file content now)) :
    t.file [folder, name] = .ok (content, now) := by
  rw [file, locate_file hfolder hname h]
  simp only [bind, Except.bind, hfile]

theorem placeForFile_eq (hfolder : Plain folder) (hname : Plain name)
    (h : t.node? [folder] = some .folder) : t.placeForFile [folder, name] =
      if t.node? [folder, name] = some .folder then .error .isFolder else .ok [folder, name] := by
  rw [placeForFile, locate_file hfolder hname h]
  rfl

/-- A file can be written where no folder is. -/
theorem writeFile_eq (hfolder : Plain folder) (hname : Plain name)
    (h : t.node? [folder] = some .folder) : t.writeFile [folder, name] content now =
      if t.node? [folder, name] = some .folder then .error .isFolder
      else .ok (t.put [folder, name] (.file content now)) := by
  rw [writeFile, placeForFile_eq hfolder hname h]
  split <;> rfl

/-- A file can be moved to where no folder is. -/
theorem move_eq (hfolder : Plain folder) (hbeside : Plain beside)
    (hname : Plain name) (h : t.node? [folder] = some .folder)
    (hfile : t.node? [folder, beside] = some (.file content now)) :
    t.move [folder, beside] [folder, name] =
      if t.node? [folder, name] = some .folder then .error .isFolder
      else .ok ((t.remove [folder, beside]).put [folder, name] (.file content now)) := by
  rw [move, file_eq_ok hfolder hbeside h hfile, placeForFile_eq hfolder hname h,
    locate_file hfolder hbeside h]
  by_cases hplace : t.node? [folder, name] = some .folder
  · rw [if_pos hplace, if_pos hplace]
    rfl
  · rw [if_neg hplace, if_neg hplace]
    rfl

/-- Writes a file beside another and moves it into its place. -/
def replaceFile (t : FileTree) (folder beside name : Text) (content : Bytes) (now : Timestamp) :
    Changed :=
  (t.ensureFolder [folder]).andThen fun t =>
    (t.attempt fun t => t.writeFile [folder, beside] content now).andThen fun t =>
      t.attempt fun t => t.move [folder, beside] [folder, name]

theorem replaceFile_eq (hfolder : Plain folder) (hbeside : Plain beside) (hname : Plain name)
    (hdone : (t.ensureFolder [folder]).done) :
    t.replaceFile folder beside name content now =
      let made := (t.ensureFolder [folder]).tree
      let begun := made.put [folder, beside] (.file content now)
      if made.node? [folder, beside] = some .folder then ⟨made, some .isFolder⟩
      else if begun.node? [folder, name] = some .folder then ⟨begun, some .isFolder⟩
      else ⟨(begun.remove [folder, beside]).put [folder, name] (.file content now), none⟩ := by
  have hmade := node?_of_ensureFolder hfolder hdone
  rw [replaceFile, Changed.andThen_of_done hdone]
  generalize (t.ensureFolder [folder]).tree = made at hmade
  dsimp only
  split_ifs with hfirst hsecond
  · have hwrite : made.writeFile [folder, beside] content now = .error .isFolder := by
      rw [writeFile_eq hfolder hbeside hmade, if_pos hfirst]
    rw [attempt_of_error hwrite]
    rfl
  all_goals
    have hwrite : made.writeFile [folder, beside] content now =
        .ok (made.put [folder, beside] (.file content now)) := by
      rw [writeFile_eq hfolder hbeside hmade, if_neg hfirst]
    have hthere : (made.put [folder, beside] (.file content now)).node? [folder] =
        some .folder := by
      rw [node?_put_of_ne _ (by simp), hmade]
    have hmove := move_eq hfolder hbeside hname hthere (node?_put_self _ (List.cons_ne_nil _ _))
    rw [attempt_of_ok hwrite, Changed.andThen_of_done rfl]
  · rw [if_pos hsecond] at hmove
    exact attempt_of_error hmove
  · rw [if_neg hsecond] at hmove
    exact attempt_of_ok hmove

/-- A file can be replaced when no folder is where it is to be, nor where it is written first, and
no file where its folder is to be. -/
theorem replaceFile_done_iff (hfolder : Plain folder) (hbeside : Plain beside)
    (hname : Plain name) :
    (t.replaceFile folder beside name content now).done ↔
      (∀ held modified, t.node? [folder] ≠ some (.file held modified)) ∧
      t.node? [folder, beside] ≠ some .folder ∧ t.node? [folder, name] ≠ some .folder := by
  rw [← ensureFolder_done_iff hfolder]
  have hsame : ∀ n, (t.ensureFolder [folder]).tree.node? [folder, n] = t.node? [folder, n] :=
    fun n => node?_ensureFolder_of_ne hfolder (by simp)
  constructor
  · intro h
    have hdone : (t.ensureFolder [folder]).done := (Changed.andThen_done_iff.1 h).1
    rw [replaceFile_eq hfolder hbeside hname hdone] at h
    dsimp only at h
    split_ifs at h with hfirst hsecond
    · exact absurd h Bool.false_ne_true
    · exact absurd h Bool.false_ne_true
    · rw [hsame] at hfirst
      refine ⟨hdone, hfirst, ?_⟩
      by_cases hname : name = beside
      · rwa [hname]
      · rwa [node?_put_of_ne _ (by simpa using hname), hsame] at hsecond
  · rintro ⟨hdone, hfirst, hsecond⟩
    rw [replaceFile_eq hfolder hbeside hname hdone]
    dsimp only
    rw [if_neg (by rwa [hsame]), if_neg]
    · rfl
    · by_cases hname : name = beside
      · rw [hname, node?_put_self _ (List.cons_ne_nil _ _)]
        simp
      · rwa [node?_put_of_ne _ (by simpa using hname), hsame]

theorem tree_replaceFile (hfolder : Plain folder) (hbeside : Plain beside) (hname : Plain name)
    (h : (t.replaceFile folder beside name content now).done) :
    (t.replaceFile folder beside name content now).tree =
      ((((t.ensureFolder [folder]).tree.put [folder, beside] (.file content now)).remove
        [folder, beside]).put [folder, name] (.file content now)) := by
  have hdone : (t.ensureFolder [folder]).done := (Changed.andThen_done_iff.1 h).1
  rw [replaceFile_eq hfolder hbeside hname hdone] at h ⊢
  dsimp only at h ⊢
  split_ifs at h ⊢
  · exact absurd h Bool.false_ne_true
  · exact absurd h Bool.false_ne_true
  · rfl

theorem node?_folder_replaceFile (hfolder : Plain folder) (hbeside : Plain beside)
    (hname : Plain name) (h : (t.replaceFile folder beside name content now).done) :
    (t.replaceFile folder beside name content now).tree.node? [folder] = some .folder := by
  have hdone : (t.ensureFolder [folder]).done := (Changed.andThen_done_iff.1 h).1
  have hne : ∀ n : Text, [folder] ≠ [folder, n] := by simp
  rw [tree_replaceFile hfolder hbeside hname h, node?_put_of_ne _ (hne name),
    node?_remove_of_ne (hne beside), node?_put_of_ne _ (hne beside),
    node?_of_ensureFolder hfolder hdone]

/-- In the folder of a file that has been replaced, the file has the new content, nothing is left
beside it, and all else is as before. -/
theorem node?_replaceFile (hfolder : Plain folder) (hbeside : Plain beside) (hname : Plain name)
    (h : (t.replaceFile folder beside name content now).done) (n : Text) :
    (t.replaceFile folder beside name content now).tree.node? [folder, n] =
      if n = name then some (.file content now) else if n = beside then none
      else t.node? [folder, n] := by
  have hne : ∀ {a b : Text}, a ≠ b → [folder, a] ≠ [folder, b] := by simp
  rw [tree_replaceFile hfolder hbeside hname h]
  split_ifs with hn hb
  · rw [hn, node?_put_self _ (List.cons_ne_nil _ _)]
  · rw [node?_put_of_ne _ (hne hn), hb, node?_remove_self (List.cons_ne_nil _ _)]
  · rw [node?_put_of_ne _ (hne hn), node?_remove_of_ne (hne hb), node?_put_of_ne _ (hne hb),
      node?_ensureFolder_of_ne hfolder (by simp)]

/-- A file that has been replaced has the new content. -/
theorem file_of_replaceFile (hfolder : Plain folder) (hbeside : Plain beside) (hname : Plain name)
    (h : (t.replaceFile folder beside name content now).done) :
    (t.replaceFile folder beside name content now).tree.file [folder, name] =
      .ok (content, now) := by
  refine file_eq_ok hfolder hname (node?_folder_replaceFile hfolder hbeside hname h) ?_
  rw [node?_replaceFile hfolder hbeside hname h, if_pos rfl]

/-! ## Changes that cannot be made -/

variable {p q : Path} {s : FileTree}

/-- A file that has been written is where its path leads to, and no folder was there. -/
theorem exists_of_writeFile (h : t.writeFile p content now = .ok s) :
    ∃ place, t.locate p = .ok place ∧ t.node? place ≠ some .folder ∧
      s = t.put place (.file content now) := by
  simp only [writeFile, placeForFile, bind, Except.bind] at h
  split at h
  · cases h
  next target htarget =>
    obtain rfl := Except.ok.inj h
    split at htarget
    · cases htarget
    next place hlocate =>
      split at htarget
      · cases htarget
      next hother =>
        obtain rfl := Except.ok.inj htarget
        exact ⟨place, hlocate, hother, rfl⟩

/-- No folder is lost when a file is written. -/
theorem node?_of_writeFile (h : t.writeFile p content now = .ok s)
    (hfolder : t.node? place = some .folder) : s.node? place = some .folder := by
  obtain ⟨found, -, hother, rfl⟩ := exists_of_writeFile h
  have hne : place ≠ found := fun heq => hother (heq ▸ hfolder)
  rw [node?_put_of_ne _ hne, hfolder]

/-- A file is not moved to where a folder is. -/
theorem not_move_of_folder (hlocate : t.locate q = .ok place)
    (hfolder : t.node? place = some .folder) : t.move p q ≠ .ok s := by
  intro h
  simp only [move, placeForFile, hlocate, hfolder, bind, Except.bind] at h
  split at h
  · cases h
  · split at h
    · cases h
    · cases h

end ContentFilter.FileTree
