import ContentFilter.Proofs.Rule.Line

/-! # Lines without their domains

The modifier with the domains can be taken off a rule. What is left is the same rule for all pages,
as long as the line is still read as a network rule with that pattern.

* `Modifiers.ofText_without`: modifiers without the domains.
* `Line.Confined`: a line with one list of domains, with `Line.Freed` for what is left without it.
* `Line.ofText_of_freed`: what is left is read as the same rule for all pages.
-/

set_option autoImplicit false

namespace ContentFilter

open Text

/-! ## Modifiers -/

namespace Modifier

/-- A modifier with another name says nothing about domains. -/
theorem scope?_of_read? {entry : Text} {o : Option Modifier}
    (hentry : startsWith (lower (strip entry)) domainsMark = false) (h : read? entry = some o) :
    scope? o = none := by
  rw [read?] at h
  split at h
  · cases h
  · obtain rfl := Option.some.inj h
    rw [ofName?, hentry, if_neg Bool.false_ne_true]
    split
    · rfl
    · cases resourceNames.lookup (lower (strip entry)) <;> rfl

theorem read?_domains {entry t : Text} {s : DomainScope}
    (hentry : lower (strip entry) = domainsMark ++ t) (hlists : s.Lists '|' t) :
    read? entry = some (some (.domains s)) := by
  have hsome : (domainsMark ++ t).isEmpty = false := rfl
  rw [read?, hentry, hsome, if_neg Bool.false_ne_true, ofName?_domains hlists]

end Modifier

namespace Modifiers

theorem ofText_join {entries : List Text} (h : ∀ e ∈ entries, ',' ∉ e) :
    ofText (join [','] entries) = (entries.filterMap Modifier.read?).foldl note {} := by
  rw [ofText, foldl_add]
  cases entries with
  | nil => rfl
  | cons e entries => rw [split_join (by simp) h]

/-- White space behind the modifiers does not matter. -/
theorem ofText_dropEndWhile (t : Text) : ofText (dropEndWhile isBlank t) = ofText t := by
  obtain ⟨u, ht, hu⟩ := exists_eq_dropEndWhile_append isBlank t
  have hcomma : ',' ∉ u := fun hmem => absurd (hu ',' hmem) (by decide)
  obtain ⟨init, last, hsplit, happend⟩ := split_append hcomma (dropEndWhile isBlank t)
  have hlast : ∀ m : Modifiers, m.add (last ++ u) = m.add last := fun m => by
    rw [add, add, strip, strip, dropAroundWhile_append hu]
  rw [← ht] at happend
  rw [ofText, ofText, hsplit, happend, List.foldl_append, List.foldl_append]
  exact (hlast _).symm

/-- What does not speak of domains leaves them as they are. -/
theorem foldl_note_withScope {os : List (Option Modifier)} (h : os.filterMap Modifier.scope? = [])
    (s : DomainScope) (m : Modifiers) :
    os.foldl note { m with scope := s } = { os.foldl note m with scope := s } := by
  induction os generalizing m with
  | nil => rfl
  | cons o os ih =>
    rcases o with - | (p | t | s')
    · exact ih (by simpa [Modifier.scope?] using h) (m.note none)
    · exact ih (by simpa [Modifier.scope?] using h) (m.note (some (.party p)))
    · exact ih (by simpa [Modifier.scope?] using h) (m.note (some (.resource t)))
    · simp [Modifier.scope?] at h

variable {left right : List Text} {entry t : Text} {s : DomainScope}

/-- A list of domains changes the scope alone, which is not confined without it. -/
theorem ofText_without (hcommas : ∀ e ∈ left ++ entry :: right, ',' ∉ e)
    (hentry : lower (strip entry) = Modifier.domainsMark ++ t) (hlists : s.Lists '|' t)
    (hothers : ∀ e ∈ left ++ right, startsWith (lower (strip e)) Modifier.domainsMark = false) :
    ofText (join [','] (left ++ entry :: right)) =
        { ofText (join [','] (left ++ right)) with scope := s } ∧
      (ofText (join [','] (left ++ right))).scope = {} := by
  have hnone : ((left ++ right).filterMap Modifier.read?).filterMap Modifier.scope? = [] := by
    rw [List.filterMap_eq_nil_iff]
    intro o ho
    obtain ⟨e, he, hread⟩ := List.mem_filterMap.mp ho
    exact Modifier.scope?_of_read? (hothers e he) hread
  have hright : (right.filterMap Modifier.read?).filterMap Modifier.scope? = [] := by
    rw [List.filterMap_append, List.filterMap_append, List.append_eq_nil_iff] at hnone
    exact hnone.2
  have hrest : ∀ e ∈ left ++ right, ',' ∉ e := fun e he =>
    hcommas e (((List.sublist_cons_self entry right).append_left left).subset he)
  rw [ofText_join hcommas, ofText_join hrest]
  constructor
  · rw [List.filterMap_append, List.filterMap_append, List.foldl_append, List.foldl_append,
      List.filterMap_cons_some (Modifier.read?_domains hentry hlists), List.foldl_cons]
    exact foldl_note_withScope hright s _
  · rw [scope_foldl, hnone]
    rfl

end Modifiers

/-! ## Lines that share what stands before the dollar sign -/

namespace Line

variable {head tail t : Text}

/-- What can stand behind a pattern: nothing, or a dollar sign and what follows it. -/
def IsTail (tail : Text) : Prop := tail = [] ∨ ∃ t, tail = '$' :: t

theorem isException_append (htail : IsTail tail) :
    isException (head ++ tail) = isException head := by
  unfold isException
  obtain rfl | ⟨t, rfl⟩ := htail
  · rw [List.append_nil]
  · rcases head with - | ⟨c, - | ⟨d, cs⟩⟩
    · rfl
    · simp [startsWith, List.isPrefixOf]
    · rfl

theorem body_append (htail : IsTail tail) : body (head ++ tail) = body head ++ tail := by
  rw [body, body, isException_append htail]
  split
  next hmark =>
    rw [isException, startsWith, List.isPrefixOf_iff_prefix] at hmark
    exact List.drop_append_of_le_length hmark.length_le
  · rfl

theorem opensHosts_append (htail : IsTail tail) : OpensHosts (head ++ tail) ↔ OpensHosts head := by
  obtain rfl | ⟨t, rfl⟩ := htail
  · rw [List.append_nil]
  · exact opensHosts_append_cons (by decide) (by decide) head t

/-- With another tail a line is still a network rule, unless it makes a cosmetic marker or a comment,
or the pattern ends elsewhere. -/
theorem IsNetwork.of_tail (h : IsNetwork (head ++ '$' :: t)) (hhead : head ≠ [])
    (hfeed : '\n' ∉ head ++ '$' :: t) (htail : IsTail tail) (hcomment : head ++ tail ≠ ['#'])
    (hcosmetic : isException head = false → cosmeticMarker? (head ++ tail) = none)
    (hcut : isException head = false →
      (splitModifiers (head ++ tail)).1 = (splitModifiers (head ++ '$' :: t)).1) :
    IsNetwork (head ++ tail) := by
  have hdollar : IsTail ('$' :: t) := .inr ⟨t, rfl⟩
  have hopens : OpensHosts (head ++ tail) ↔ OpensHosts (head ++ '$' :: t) :=
    (opensHosts_append htail).trans (opensHosts_append hdollar).symm
  have hmark : isException (head ++ '$' :: t) = isException head := isException_append hdollar
  constructor
  case ne_nil => simp [hhead]
  case comment =>
    have hold := h.comment
    obtain ⟨c, cs, rfl⟩ := List.exists_cons_of_ne_nil hhead
    cases cs with
    | nil =>
      obtain rfl | ⟨u, rfl⟩ := htail
      · have hc : c ≠ '#' := by simpa using hcomment
        simpa [startsWith, List.isPrefixOf, hc] using hold
      · simpa [startsWith, List.isPrefixOf] using hold
    | cons d cs => simpa [startsWith, List.isPrefixOf] using hold
  case header =>
    obtain ⟨c, cs, rfl⟩ := List.exists_cons_of_ne_nil hhead
    exact h.header
  case cosmetic => rwa [isException_append htail]
  case hosts =>
    intro hnone
    rw [isException_append htail] at hnone
    refine hostsNames?_eq_none (hopens.not.mpr ?_)
    exact not_opensHosts (h.hosts (hmark.trans hnone)) hfeed (c := '$') (by simp) (by decide)
      (by decide)
  case regex =>
    intro hnone
    rw [isException_append htail] at hnone
    rw [hcut hnone]
    exact h.regex (hmark.trans hnone)

/-- A line is cut as what stands behind the mark of an exception is. -/
theorem eq_append_body (l : Text) : ∃ mark, l = mark ++ body l ∧ mark.getLast? ≠ some '\\' := by
  rw [body]
  split
  next hmark =>
    rw [isException, startsWith, List.isPrefixOf_iff_prefix] at hmark
    obtain ⟨t, rfl⟩ := hmark
    exact ⟨"@@".toList, rfl, by decide⟩
  · exact ⟨[], rfl, by decide⟩

theorem getLast?_body_ne (h : head.getLast? ≠ some '\\') : (body head).getLast? ≠ some '\\' := by
  obtain ⟨mark, hhead, -⟩ := eq_append_body head
  intro hlast
  rw [hhead, List.getLast?_append, hlast] at h
  exact h rfl

theorem dollarsEscaped_body (h : DollarsEscaped head) : DollarsEscaped (body head) := by
  obtain ⟨mark, hhead, hmark⟩ := eq_append_body head
  intro u v huv
  have hlast := h (mark ++ u) v (by rw [List.append_assoc, ← huv, ← hhead])
  rw [List.getLast?_append] at hlast
  cases hu : u.getLast? with
  | none => exact absurd (by simpa [hu] using hlast) hmark
  | some c => simpa [hu] using hlast

/-! ## Lines with a list of domains -/

/-- A line with a list of domains among its modifiers that is no entry of a hosts file. Before the
dollar sign stands `head`, and the other modifiers are those of `left` and `right`. -/
structure Confined (line head : Text) (left : List Text) (entry : Text) (right : List Text)
    (s : DomainScope) : Prop where
  text : strip line = head ++ '$' :: join [','] (left ++ entry :: right)
  feed : '\n' ∉ line
  hosts : hostsNames? (strip line) = none
  cut : head.getLast? ≠ some '\\'
  entries : ∀ e ∈ left ++ entry :: right, ',' ∉ e ∧ DollarsEscaped e
  domains : ∃ t, lower (strip entry) = Modifier.domainsMark ++ t ∧ s.Lists '|' t
  others : ∀ e ∈ left ++ right, startsWith (lower (strip e)) Modifier.domainsMark = false

/-- The lines that are left when a modifier is taken off, `others` being the other ones. They must not
make a cosmetic marker, for which exceptions are not searched. With the last modifier the dollar
sign can go too, where nothing of the pattern is white space at the end of the line, stands behind
another dollar sign or makes a comment. -/
inductive Freed (head : Text) (others : List Text) : Text → Prop
  | modifier (hmarker : isException head = true ∨
      cosmeticMarker? (strip (head ++ '$' :: join [','] others)) = none) :
      Freed head others (head ++ '$' :: join [','] others)
  | sign (hnone : others = []) (hstrip : strip head = head) (hdollars : DollarsEscaped head)
      (hcomment : head ≠ ['#']) : Freed head others head

variable {line shorter entry : Text} {left right others : List Text} {s : DomainScope}

/-- What is left has the same pattern, with the other modifiers behind it. -/
theorem Freed.exists_tail (h : Freed head others shorter)
    (hstart : ∀ c, head.head? = some c → isBlank c = false) (hcut : head.getLast? ≠ some '\\')
    (hescaped : ∀ e ∈ others, DollarsEscaped e)
    (hmarker : isException head = false → cosmeticMarker? head = none) :
    ∃ tail, strip shorter = head ++ tail ∧ IsTail tail ∧ head ++ tail ≠ ['#'] ∧
      (isException head = false → cosmeticMarker? (head ++ tail) = none) ∧
      (splitModifiers (body head ++ tail)).1 = body head ∧
      modifiersOf (body head ++ tail) = Modifiers.ofText (join [','] others) := by
  cases h with
  | modifier hnone =>
    have hstrip : strip (head ++ '$' :: join [','] others) =
        head ++ '$' :: dropEndWhile isBlank (join [','] others) :=
      dropAroundWhile_append_cons hstart (by decide) _
    -- white space that has stood before a later modifier may be cut off now
    have hoptions : DollarsEscaped (dropEndWhile isBlank (join [','] others)) := by
      obtain ⟨u, hu, -⟩ := exists_eq_dropEndWhile_append isBlank (join [','] others)
      exact (hu ▸ dollarsEscaped_join hescaped : DollarsEscaped (_ ++ u)).of_append
    have hcomment : head ++ '$' :: dropEndWhile isBlank (join [','] others) ≠ ['#'] := by
      intro heq
      have hdollar : '$' ∈ ['#'] := heq ▸ List.mem_append_right head List.mem_cons_self
      exact absurd hdollar (by decide)
    rw [hstrip] at hnone
    refine ⟨_, hstrip, .inr ⟨_, rfl⟩, hcomment, fun hblock => ?_, ?_, ?_⟩
    · exact hnone.resolve_left (by simp [hblock])
    · rw [splitModifiers_append (getLast?_body_ne hcut) hoptions]
    · rw [modifiersOf, splitModifiers_append (getLast?_body_ne hcut) hoptions]
      exact Modifiers.ofText_dropEndWhile _
  | sign hnone hstrip hdollars hcomment =>
    have hself := splitModifiers_eq_self (dollarsEscaped_body hdollars)
    refine ⟨[], ?_⟩
    rw [List.append_nil, List.append_nil, modifiersOf, hself, hnone]
    exact ⟨hstrip, .inl rfl, hcomment, hmarker, rfl, rfl⟩

namespace Confined

variable {floor : Nat} {r : NetworkRule} {more : List Rule} {ignored : Nat}

theorem splitModifiers_eq (h : Confined line head left entry right s) :
    splitModifiers (body head ++ '$' :: join [','] (left ++ entry :: right)) =
      (body head, some (join [','] (left ++ entry :: right))) :=
  splitModifiers_append (getLast?_body_ne h.cut)
    (dollarsEscaped_join fun e he => (h.entries e he).2)

theorem dollarsEscaped_others (h : Confined line head left entry right s) :
    ∀ e ∈ left ++ right, DollarsEscaped e := fun e he =>
  (h.entries e (((List.sublist_cons_self entry right).append_left left).subset he)).2

theorem isBlank_of_head? (h : Confined line head left entry right s) {c : Char}
    (hc : head.head? = some c) : isBlank c = false := by
  have hfirst : (strip line).head? = some c := by
    rw [h.text, List.head?_append, hc]
    rfl
  exact head?_dropAroundWhile hfirst

/-- The parts of a line that holds a rule: its pattern is not empty, and the modifiers belong to the
rule. -/
theorem isNetwork (h : Confined line head left entry right s) (hfloor : 1 ≤ floor)
    (hrule : ofText floor line = .rules (.network r) more ignored) :
    head ≠ [] ∧ IsNetwork (head ++ '$' :: join [','] (left ++ entry :: right)) ∧
      ofNetwork floor (isException head)
          (body head ++ '$' :: join [','] (left ++ entry :: right)) =
        .rules (.network r) more ignored := by
  have hdollar : IsTail ('$' :: join [','] (left ++ entry :: right)) := .inr ⟨_, rfl⟩
  have hnetwork := isNetwork_of_ofText hrule h.hosts
  rw [ofText_eq_ofNetwork hnetwork, h.text, isException_append hdollar,
    body_append hdollar] at hrule
  rw [h.text] at hnetwork
  refine ⟨?_, hnetwork, hrule⟩
  rintro rfl
  have hshort : NetworkRule.significantLength (networkRule (isException [])
      (body [] ++ '$' :: join [','] (left ++ entry :: right))).pattern < floor := by
    rw [networkRule, h.splitModifiers_eq]
    exact hfloor
  rw [ofNetwork_eq, if_pos hshort] at hrule
  cases hrule

end Confined

/-- Without its list of domains a line is read as the same rule for all pages. -/
theorem ofText_of_freed {floor : Nat} (hfloor : 1 ≤ floor)
    (hline : Confined line head left entry right s) {r : NetworkRule} {more : List Rule}
    {ignored : Nat} (hrule : ofText floor line = .rules (.network r) more ignored)
    (hfreed : Freed head (left ++ right) shorter) :
    r.scope = s ∧ more = [] ∧
      ofText floor shorter = .rules (.network { r with scope := {} }) [] ignored := by
  obtain ⟨t, hentry, hlists⟩ := hline.domains
  obtain ⟨hmodifiers, hfree⟩ := Modifiers.ofText_without (fun e he => (hline.entries e he).1) hentry
    hlists hline.others
  obtain ⟨hhead, hnetwork, hread⟩ := hline.isNetwork hfloor hrule
  have hsplit := hline.splitModifiers_eq
  have hfeed : '\n' ∉ head ++ '$' :: join [','] (left ++ entry :: right) := by
    rw [← hline.text]
    exact fun hmem => hline.feed ((dropAroundWhile_sublist isBlank line).subset hmem)
  have hmarker : isException head = false → cosmeticMarker? head = none := fun hblock =>
    cosmeticMarker?_eq_none_of_append
      (hnetwork.cosmetic ((isException_append (.inr ⟨_, rfl⟩)).trans hblock))
  obtain ⟨tail, hstrip, htail, hcomment, hcosmetic, hcut, hothers⟩ :=
    hfreed.exists_tail (fun c => hline.isBlank_of_head?) hline.cut hline.dollarsEscaped_others
      hmarker
  -- both lines are cut behind the same head, so they differ in their modifiers alone
  generalize join [','] (left ++ entry :: right) = options at *
  have hleft : IsNetwork (strip shorter) := by
    rw [hstrip]
    refine hnetwork.of_tail hhead hfeed htail hcomment hcosmetic fun hblock => ?_
    have hbody : body head = head := by
      rw [body, hblock]
      rfl
    rw [hbody] at hcut hsplit
    rw [hcut, hsplit]
  have hwhole : modifiersOf (body head ++ '$' :: options) = Modifiers.ofText options := by
    rw [modifiersOf, hsplit]
  have hsame : networkRule (isException head) (body head ++ tail) =
      { networkRule (isException head) (body head ++ '$' :: options) with scope := {} } := by
    rw [networkRule, networkRule, hcut, hsplit, hothers, hwhole, hmodifiers, hfree]
  rw [ofNetwork_eq] at hread
  split at hread
  · cases hread
  next hlong =>
  obtain ⟨rfl, rfl, rfl⟩ : networkRule (isException head) (body head ++ '$' :: options) = r ∧
      [] = more ∧ (modifiersOf (body head ++ '$' :: options)).ignored = ignored := by
    simpa using hread
  refine ⟨by rw [networkRule, hwhole, hmodifiers], rfl, ?_⟩
  rw [ofText_eq_ofNetwork hleft, hstrip, isException_append htail, body_append htail, ofNetwork_eq,
    hsame, if_neg hlong, hothers, hwhole, hmodifiers]

end Line

end ContentFilter
