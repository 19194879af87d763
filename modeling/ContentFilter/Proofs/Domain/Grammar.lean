import ContentFilter.Proofs.Domain.Plain

/-! # The grammar of plain names

A plain name is made of labels with single dots between them. The pass over the characters of a text
accepts exactly these names, and those with one line feed behind them.

* `Domain.IsLabel`, `Domain.IsDotted`: the grammar, with `Domain.isDotted_iff`, its reading by the
  pieces between the dots.
* `Domain.LabelStart`: what has been read of a label, with `Domain.completes_iff`, what completes
  it.
* `Domain.isPlain_iff_dotted`: what is accepted, and when that is the grammar.
* `Domain.isPlain_line_feed`: a text that is accepted against it.
-/

set_option autoImplicit false

namespace ContentFilter.Domain

open Text

/-! ## The grammar -/

/-- A letter of the lower case, a digit or a hyphen. -/
def IsLabelPart (c : Char) : Prop := ('a' ≤ c ∧ c ≤ 'z') ∨ ('0' ≤ c ∧ c ≤ '9') ∨ c = '-'

/-- Between 1 and 63 letters, digits and hyphens, with no hyphen at either end. -/
structure IsLabel (l : Text) : Prop where
  ne_nil : l ≠ []
  short : l.length ≤ 63
  parts : ∀ c ∈ l, IsLabelPart c
  opening : l.head? ≠ some '-'
  closing : l.getLast? ≠ some '-'

/-- One or more labels with single dots between them. -/
def IsDotted (t : Text) : Prop := ∃ ls, ls ≠ [] ∧ (∀ l ∈ ls, IsLabel l) ∧ t = ofLabels ls

theorem isLabelPart_iff {c : Char} : IsLabelPart c ↔ isLabelChar c = true ∨ c = '-' := by
  simp [IsLabelPart, isLabelChar, or_assoc]

theorem not_isLabelPart_dot : ¬ IsLabelPart '.' := by
  rw [isLabelPart_iff]
  decide

theorem not_isLabelPart_feed : ¬ IsLabelPart '\n' := by
  rw [isLabelPart_iff]
  decide

variable {t p : Text}

theorem isDotted_iff : IsDotted t ↔ ∀ l ∈ labels t, IsLabel l := by
  constructor
  · rintro ⟨ls, hne, hls, rfl⟩
    have hdots : ∀ l ∈ ls, '.' ∉ l := fun l hl hdot => not_isLabelPart_dot ((hls l hl).parts _ hdot)
    rwa [labels, ofLabels, split_join hne hdots]
  · intro h
    exact ⟨labels t, labels_ne_nil t, h, (ofLabels_labels t).symm⟩

theorem isDotted_singleton (h : '.' ∉ p) : IsDotted p ↔ IsLabel p := by
  rw [isDotted_iff, labels, split_of_notMem h, List.forall_mem_singleton]

theorem isDotted_append_dot (h : '.' ∉ p) (u : Text) :
    IsDotted (p ++ '.' :: u) ↔ IsLabel p ∧ IsDotted u := by
  rw [isDotted_iff, labels_append_dot, List.forall_mem_append, ← isDotted_iff, ← isDotted_iff,
    isDotted_singleton h]

theorem IsDotted.parts (h : IsDotted t) : ∀ c ∈ t, IsLabelPart c ∨ c = '.' := by
  obtain ⟨ls, -, hls, rfl⟩ := h
  intro c hc
  rcases mem_of_mem_join hc with hdot | ⟨l, hl, hmem⟩
  · exact .inr hdot
  · exact .inl ((hls l hl).parts c hmem)

/-- What stands before the first dot of a dotted name is the start of a label. -/
theorem IsDotted.exists_label (h : IsDotted (p ++ t)) (hp : '.' ∉ p) :
    ∃ rest, IsLabel (p ++ rest) := by
  by_cases ht : '.' ∈ t
  · obtain ⟨a, b, rfl, ha⟩ := List.eq_append_cons_of_mem ht
    have hdot : '.' ∉ p ++ a := by simp [hp, ha]
    rw [← List.append_assoc, isDotted_append_dot hdot] at h
    exact ⟨a, h.1⟩
  · have hdot : '.' ∉ p ++ t := by simp [hp, ht]
    exact ⟨t, (isDotted_singleton hdot).1 h⟩

/-! ## One pass over a name -/

/-- What can have been read of a label. -/
structure LabelStart (p : Text) : Prop where
  short : p.length ≤ 63
  parts : ∀ c ∈ p, IsLabelPart c
  opening : p.head? ≠ some '-'

theorem labelStart_nil : LabelStart [] := ⟨by decide, List.forall_mem_nil _, nofun⟩

/-- What stands at the front of a label is a start of it. -/
theorem IsLabel.start {rest : Text} (h : IsLabel (p ++ rest)) (hp : p ≠ []) : LabelStart p := by
  refine ⟨?_, fun c hc => h.parts c (List.mem_append_left rest hc), ?_⟩
  · have hshort := h.short
    rw [List.length_append] at hshort
    omega
  · cases p with
    | nil => exact absurd rfl hp
    | cons d ds => exact h.opening

theorem LabelStart.notMem (h : LabelStart p) : '.' ∉ p :=
  fun hdot => not_isLabelPart_dot (h.parts _ hdot)

/-- A label that has been started can go on with a character of a label, if there is room for it and
it is no hyphen in front. -/
theorem LabelStart.concat_iff {c : Char} (h : LabelStart p) (hc : IsLabelPart c) :
    LabelStart (p ++ [c]) ↔ p.length < 63 ∧ (p = [] → c ≠ '-') := by
  constructor
  · rintro ⟨hshort, -, hopening⟩
    rw [List.length_append, List.length_singleton] at hshort
    refine ⟨hshort, ?_⟩
    rintro rfl rfl
    exact hopening rfl
  · rintro ⟨hlength, hhyphen⟩
    refine ⟨by rwa [List.length_append, List.length_singleton], ?_, ?_⟩
    · exact List.forall_mem_append.2 ⟨h.parts, List.forall_mem_singleton.2 hc⟩
    · cases p with
      | nil => simpa using hhyphen rfl
      | cons d ds => exact h.opening

/-- What has been read is a label when it neither is empty nor ends in a hyphen. -/
theorem LabelStart.isLabel_iff (h : LabelStart p) :
    IsLabel p ↔ 0 < p.length ∧ p.getLast? ≠ some '-' := by
  constructor
  · exact fun hlabel => ⟨List.length_pos_iff.2 hlabel.ne_nil, hlabel.closing⟩
  · rintro ⟨hpos, hclosing⟩
    exact ⟨List.length_pos_iff.1 hpos, h.short, h.parts, h.opening, hclosing⟩

/-- A dotted name, or one with a line feed behind it. -/
def IsDottedLine (t : Text) : Prop := IsDotted t ∨ ∃ u, IsDotted u ∧ t = u ++ ['\n']

/-- The line feed behind a name stands behind every start of the name. -/
theorem isDottedLine_append (hfeed : '\n' ∉ p) : IsDottedLine (p ++ t) ↔
    IsDotted (p ++ t) ∨ ∃ v, t = v ++ ['\n'] ∧ IsDotted (p ++ v) := by
  refine or_congr_right ⟨?_, ?_⟩
  · rintro ⟨u, hu, heq⟩
    rcases List.eq_nil_or_concat t with rfl | ⟨v, c, rfl⟩
    · rw [List.append_nil] at heq
      exact absurd (by simp [heq]) hfeed
    · rw [List.concat_eq_append, ← List.append_assoc] at heq
      obtain ⟨rfl, hc⟩ := List.append_inj' heq rfl
      exact ⟨v, by rw [List.concat_eq_append, hc], hu⟩
  · rintro ⟨v, rfl, hv⟩
    exact ⟨p ++ v, hv, (List.append_assoc p v ['\n']).symm⟩

theorem LabelStart.isDottedLine_append (h : LabelStart p) : IsDottedLine (p ++ t) ↔
    IsDotted (p ++ t) ∨ ∃ v, t = v ++ ['\n'] ∧ IsDotted (p ++ v) :=
  Domain.isDottedLine_append fun hfeed => not_isLabelPart_feed (h.parts _ hfeed)

theorem LabelStart.isDottedLine_self (h : LabelStart p) : IsDottedLine p ↔ IsLabel p := by
  have hline := h.isDottedLine_append (t := [])
  rw [List.append_nil, isDotted_singleton h.notMem] at hline
  simpa using hline

theorem LabelStart.isDottedLine_dot (h : LabelStart p) (u : Text) :
    IsDottedLine (p ++ '.' :: u) ↔ IsLabel p ∧ IsDottedLine u := by
  rw [h.isDottedLine_append, isDotted_append_dot h.notMem, IsDottedLine, and_or_left]
  refine or_congr_right ⟨?_, ?_⟩
  · rintro ⟨v, hv, hdotted⟩
    rcases List.cons_eq_append_iff.1 hv with ⟨-, hdot⟩ | ⟨v, rfl, rfl⟩
    · exact absurd (List.cons.inj hdot).1 (by decide)
    · rw [isDotted_append_dot h.notMem] at hdotted
      exact ⟨hdotted.1, v, hdotted.2, rfl⟩
  · rintro ⟨hlabel, v, hv, rfl⟩
    exact ⟨'.' :: v, rfl, (isDotted_append_dot h.notMem v).2 ⟨hlabel, hv⟩⟩

/-- In a dotted name a character of a label goes on with the label that has been started. -/
theorem LabelStart.of_isDottedLine {c : Char} (h : LabelStart p) (hc : IsLabelPart c) {u : Text}
    (hline : IsDottedLine (p ++ c :: u)) : LabelStart (p ++ [c]) := by
  have hdot : '.' ∉ p ++ [c] := by
    have hne : '.' ≠ c := fun heq => not_isLabelPart_dot (heq ▸ hc)
    simp [h.notMem, hne]
  have hfeed : '\n' ∉ p ++ [c] := by
    have hne : '\n' ≠ c := fun heq => not_isLabelPart_feed (heq ▸ hc)
    have hmem : '\n' ∉ p := fun hmem => not_isLabelPart_feed (h.parts _ hmem)
    simp [hmem, hne]
  rw [List.append_cons, Domain.isDottedLine_append hfeed] at hline
  have hlabel : ∃ rest, IsLabel (p ++ [c] ++ rest) := by
    rcases hline with hdotted | ⟨v, -, hdotted⟩
    · exact hdotted.exists_label hdot
    · exact hdotted.exists_label hdot
  obtain ⟨rest, hlabel⟩ := hlabel
  exact hlabel.start (by simp)

/-- Nothing but a line feed at the end of a text is passed over. -/
theorem LabelStart.isDottedLine_other {c : Char} (h : LabelStart p) (hc : ¬ IsLabelPart c)
    (hdot : c ≠ '.') (u : Text) :
    IsDottedLine (p ++ c :: u) ↔ c = '\n' ∧ u = [] ∧ IsLabel p := by
  have hout : ∀ v : Text, ¬ IsDotted (p ++ c :: v) := fun v hv =>
    (hv.parts c (by simp)).elim hc hdot
  rw [h.isDottedLine_append, or_iff_right (hout u), ← isDotted_singleton h.notMem]
  constructor
  · rintro ⟨v, hv, hdotted⟩
    rcases List.cons_eq_append_iff.1 hv with ⟨rfl, hfeed⟩ | ⟨v, rfl, rfl⟩
    · obtain ⟨rfl, rfl⟩ := List.cons.inj hfeed
      rw [List.append_nil] at hdotted
      exact ⟨rfl, rfl, hdotted⟩
    · exact absurd hdotted (hout v)
  · rintro ⟨rfl, rfl, hdotted⟩
    exact ⟨[], rfl, by rwa [List.append_nil]⟩

/-- What completes the start of a label makes a dotted name of it. The induction goes along the rest
of the name; what has been read of the label grows with it and starts anew behind a dot. -/
theorem completes_iff (h : LabelStart p) :
    completes p.length (p.getLast? = some '-') t = true ↔ IsDottedLine (p ++ t) := by
  induction t generalizing p with
  | nil =>
    rw [List.append_nil, h.isDottedLine_self, h.isLabel_iff]
    simp [completes]
  | cons c u ih =>
    -- letters, digits and hyphens are read in one way: the label goes on where it can
    have hpart : IsLabelPart c → (LabelStart (p ++ [c]) ∧
        completes (p.length + 1) (c = '-') u = true ↔ IsDottedLine (p ++ c :: u)) := by
      intro hc
      have hstep : LabelStart (p ++ [c]) →
          (completes (p.length + 1) (c = '-') u = true ↔ IsDottedLine (p ++ c :: u)) := by
        intro hstart
        simpa using ih hstart
      constructor
      · exact fun hu => (hstep hu.1).1 hu.2
      · intro hline
        have hstart := h.of_isDottedLine hc hline
        exact ⟨hstart, (hstep hstart).2 hline⟩
    have hbegun : p ≠ [] ↔ 0 < p.length := List.length_pos_iff.symm
    have hroom : longestLabel = 63 := rfl
    rw [completes, hroom]
    split_ifs with hdot hletter hhyphen
    · subst hdot
      rw [h.isDottedLine_dot, h.isLabel_iff, ← List.nil_append u, ← ih labelStart_nil]
      simp [and_assoc]
    · have hne : c ≠ '-' := by
        rintro rfl
        exact absurd hletter (by decide)
      have hc : IsLabelPart c := isLabelPart_iff.2 (.inl hletter)
      rw [← hpart hc, h.concat_iff hc]
      simp [hne]
    · subst hhyphen
      have hc : IsLabelPart '-' := isLabelPart_iff.2 (.inr rfl)
      rw [← hpart hc, h.concat_iff hc]
      simp [hbegun, and_left_comm, and_assoc]
    · have hout : ¬ IsLabelPart c := by
        rw [isLabelPart_iff, not_or]
        exact ⟨hletter, hhyphen⟩
      rw [h.isDottedLine_other hout hdot, h.isLabel_iff]
      simp [and_assoc]

/-! ## Plain names -/

theorem isPlain_iff_isDottedLine (t : Text) : isPlain t = true ↔ IsDottedLine t :=
  completes_iff labelStart_nil

/-- The names of the grammar are accepted, and the same names with one line feed behind them. So a
text is accepted in keeping with the grammar exactly when it is no such name with a line feed. -/
theorem isPlain_iff_dotted (t : Text) :
    (isPlain t = true ↔ IsDotted t ∨ ∃ u, IsDotted u ∧ t = u ++ ['\n']) ∧
      ((isPlain t = true ↔ IsDotted t) ↔ ¬ ∃ u, IsDotted u ∧ t = u ++ ['\n']) := by
  have hfeed : ∀ u, IsDotted u → ¬ IsDotted (u ++ ['\n']) := fun u _ hu =>
    (hu.parts '\n' (by simp)).elim not_isLabelPart_feed (by decide)
  refine ⟨isPlain_iff_isDottedLine t, ?_⟩
  rw [isPlain_iff_isDottedLine, IsDottedLine]
  constructor
  · rintro hiff ⟨u, hu, rfl⟩
    exact hfeed u hu (hiff.1 (.inr ⟨u, hu, rfl⟩))
  · exact fun hnone => or_iff_left hnone

/-- A name with a line feed behind it is accepted. -/
theorem isPlain_line_feed : isPlain "a\n".toList = true ∧ ¬ IsDotted "a\n".toList := by
  refine ⟨by decide, fun h => ?_⟩
  exact (h.parts '\n' (by decide)).elim not_isLabelPart_feed (by decide)

end ContentFilter.Domain
