import ContentFilter.Proofs.Domain.Plain
import ContentFilter.Proofs.Text.Cut
import ContentFilter.Rule.Modifier

/-! # What modifiers come to

A rule is cut at its last dollar sign that stands behind no backslash. Of its modifiers each counts
for itself: they add resource types, set the party or the domains, or are passed over.

* `DollarsEscaped`, `splitModifiers_append`: where a rule is cut.
* `DomainScope.Lists`, `DomainScope.ofText_of_lists`: lists of domains.
* `Modifiers.mem_resourceTypes_foldl`, `Modifiers.party_foldl`, `Modifiers.scope_foldl`,
  `Modifiers.ignored_foldl`: what a list of modifiers comes to.
-/

set_option autoImplicit false

namespace ContentFilter

open Text

/-! ## The dollar sign -/

/-- Every dollar sign of a text stands behind a backslash. -/
def DollarsEscaped (t : Text) : Prop := ∀ u v, t = u ++ '$' :: v → u.getLast? = some '\\'

theorem dollarsEscaped_of_notMem {t : Text} (h : '$' ∉ t) : DollarsEscaped t := by
  rintro u v rfl
  exact absurd (by simp) h

theorem DollarsEscaped.of_append {t u : Text} (h : DollarsEscaped (t ++ u)) : DollarsEscaped t := by
  rintro v w rfl
  exact h v (w ++ u) (by simp)

theorem DollarsEscaped.append_cons {t u : Text} {c : Char} (ht : DollarsEscaped t)
    (hu : DollarsEscaped u) (hc : c ≠ '$') : DollarsEscaped (t ++ c :: u) := by
  intro v w h
  rcases List.append_eq_append_iff.mp h with ⟨between, rfl, hrest⟩ | ⟨between, rfl, hrest⟩
  · cases between with
    | nil => exact absurd (List.cons.inj hrest).1 hc
    | cons d between =>
      obtain ⟨rfl, rfl⟩ := List.cons.inj hrest
      have hlast := hu between w rfl
      rw [List.getLast?_append, List.getLast?_cons, hlast]
      rfl
  · cases between with
    | nil => exact absurd (List.cons.inj hrest).1.symm hc
    | cons d between =>
      obtain ⟨rfl, -⟩ := List.cons.inj hrest
      exact ht v between rfl

theorem dollarsEscaped_join {pieces : List Text} (h : ∀ piece ∈ pieces, DollarsEscaped piece) :
    DollarsEscaped (join [','] pieces) := by
  induction pieces with
  | nil => exact dollarsEscaped_of_notMem List.not_mem_nil
  | cons p pieces ih =>
    obtain ⟨hp, hrest⟩ := List.forall_mem_cons.mp h
    cases pieces with
    | nil => rwa [join_singleton]
    | cons q qs =>
      rw [join_cons_cons]
      exact hp.append_cons (ih hrest) (by decide)

theorem findDollar_cons {c : Char} (hc : c ≠ '$') (behind cs : Text) :
    findDollar behind (c :: cs) = findDollar (c :: behind) cs := by
  rw [findDollar]
  all_goals
    intros
    simp_all

/-- A text whose dollar signs are escaped is passed as a whole. -/
theorem findDollar_reverse_append {t : Text} (h : DollarsEscaped t) (behind rest : Text) :
    findDollar behind (t.reverse ++ rest) = findDollar (t ++ behind) rest := by
  induction hlength : t.length using Nat.strong_induction_on generalizing t behind with
  | _ n ih =>
    rcases List.eq_nil_or_concat t with rfl | ⟨u, c, rfl⟩
    · rfl
    rw [List.concat_eq_append] at h hlength ⊢
    by_cases hc : c = '$'
    · -- the backslash before the dollar sign is passed with it
      subst hc
      obtain ⟨v, rfl⟩ := List.getLast?_eq_some_iff.mp (h u [] rfl)
      have hreverse : (v ++ ['\\'] ++ ['$']).reverse ++ rest =
          '$' :: '\\' :: (v.reverse ++ rest) := by
        simp
      have hv : DollarsEscaped v := h.of_append.of_append
      rw [hreverse, findDollar, ih v.length (by simp [← hlength]) hv _ rfl]
      simp
    · have hreverse : (u ++ [c]).reverse ++ rest = c :: (u.reverse ++ rest) := by simp
      rw [hreverse, findDollar_cons hc, ih u.length (by simp [← hlength]) h.of_append _ rfl]
      simp

/-- The search ends at a dollar sign that no backslash precedes. -/
theorem findDollar_dollar {head : Text} (hhead : head.getLast? ≠ some '\\') (behind : Text) :
    findDollar behind ('$' :: head.reverse) = some (head, behind) := by
  rw [← List.head?_reverse] at hhead
  rw [← List.reverse_reverse head]
  generalize head.reverse = start at hhead
  rw [List.reverse_reverse, findDollar]
  rintro cs rfl
  exact hhead rfl

/-- A rule is cut at a dollar sign that is not escaped, when all dollar signs behind it are. -/
theorem splitModifiers_append {head options : Text} (hhead : head.getLast? ≠ some '\\')
    (hoptions : DollarsEscaped options) :
    splitModifiers (head ++ '$' :: options) = (head, some options) := by
  have hreverse : (head ++ '$' :: options).reverse = options.reverse ++ '$' :: head.reverse := by
    simp
  rw [splitModifiers, hreverse, findDollar_reverse_append hoptions, List.append_nil,
    findDollar_dollar hhead]

theorem splitModifiers_eq_self {t : Text} (h : DollarsEscaped t) :
    splitModifiers t = (t, none) := by
  have hnone := findDollar_reverse_append h [] []
  rw [List.append_nil, List.append_nil] at hnone
  rw [splitModifiers, hnone]
  rfl

/-! ## Lists of domains -/

namespace DomainScope

/-- An entry of a list of domains: a name, behind a tilde when it is excluded. -/
def entryText (e : Bool × Text) : Text := if e.1 then '~' :: e.2 else e.2

/-- A text lists the domains of a scope, all of them plain names, in any order. -/
def Lists (s : DomainScope) (sep : Char) (t : Text) : Prop :=
  ∃ entries : List (Bool × Text), t = join [sep] (entries.map entryText) ∧
    (∀ e ∈ entries, Domain.IsPlainName e.2) ∧
    (∀ d, d ∈ s.included ↔ (false, d) ∈ entries) ∧ ∀ d, d ∈ s.excluded ↔ (true, d) ∈ entries

theorem mem_entryText {e : Bool × Text} (he : Domain.IsPlainName e.2) {c : Char}
    (hc : c ∈ entryText e) : c = '~' ∨ Domain.IsPlainChar c := by
  unfold entryText at hc
  split at hc
  · exact (List.mem_cons.mp hc).imp_right he.isPlainChar
  · exact .inr (he.isPlainChar hc)

theorem Lists.mem {s : DomainScope} {sep : Char} {t : Text} (h : s.Lists sep t) {c : Char}
    (hc : c ∈ t) : c = sep ∨ c = '~' ∨ Domain.IsPlainChar c := by
  obtain ⟨entries, rfl, hplain, -⟩ := h
  refine (mem_of_mem_join hc).imp_right ?_
  rintro ⟨piece, hpiece, hmem⟩
  obtain ⟨e, he, rfl⟩ := List.mem_map.mp hpiece
  exact mem_entryText (hplain e he) hmem

theorem Lists.isPlainName {s : DomainScope} {sep : Char} {t : Text} (h : s.Lists sep t) :
    (∀ d ∈ s.included, Domain.IsPlainName d) ∧ ∀ d ∈ s.excluded, Domain.IsPlainName d := by
  obtain ⟨entries, -, hplain, hincluded, hexcluded⟩ := h
  exact ⟨fun d hd => hplain _ ((hincluded d).mp hd), fun d hd => hplain _ ((hexcluded d).mp hd)⟩

theorem add_entryText (s : DomainScope) {e : Bool × Text} (he : Domain.IsPlainName e.2) :
    s.add (entryText e) =
      if e.1 then { s with excluded := s.excluded.insert e.2 }
      else { s with included := s.included.insert e.2 } := by
  obtain ⟨excluded, d⟩ := e
  have hsome : d.isEmpty = false := by simpa using he.ne_nil
  have hstrip : strip (entryText (excluded, d)) = entryText (excluded, d) := by
    refine strip_eq_self fun c hc => ?_
    rcases mem_entryText he hc with rfl | hplain
    · decide
    · exact hplain.isBlank_eq
  rw [add, hstrip]
  cases excluded with
  | true => simp [entryText, he.2, hsome]
  | false =>
    have htilde : ∀ rest, d ≠ '~' :: rest := by
      rintro rest rfl
      exact absurd (he.isPlainChar List.mem_cons_self) (by decide)
    have hentry : entryText (false, d) = d := rfl
    rw [hentry]
    split
    next rest => exact absurd rfl (htilde rest)
    · simp [he.2, hsome]

theorem mem_foldl_add {entries : List (Bool × Text)}
    (hplain : ∀ e ∈ entries, Domain.IsPlainName e.2) (s : DomainScope) (d : Text) :
    (d ∈ ((entries.map entryText).foldl add s).included ↔
        d ∈ s.included ∨ (false, d) ∈ entries) ∧
      (d ∈ ((entries.map entryText).foldl add s).excluded ↔
        d ∈ s.excluded ∨ (true, d) ∈ entries) := by
  induction entries generalizing s with
  | nil => simp
  | cons e entries ih =>
    obtain ⟨he, hrest⟩ := List.forall_mem_cons.mp hplain
    rw [List.map_cons, List.foldl_cons, add_entryText s he]
    obtain ⟨hincluded, hexcluded⟩ := ih hrest _
    rw [hincluded, hexcluded]
    obtain ⟨excluded, name⟩ := e
    cases excluded <;> simp [SortedSet.mem_insert, or_assoc, or_left_comm]

/-- A list of plain names is read as the scope that it lists. -/
theorem ofText_of_lists {s : DomainScope} {sep : Char} {t : Text}
    (hsep : ¬ Domain.IsPlainChar sep) (htilde : sep ≠ '~') (h : s.Lists sep t) :
    ofText sep t = s := by
  obtain ⟨entries, rfl, hplain, hincluded, hexcluded⟩ := h
  have hpieces : (split sep (join [sep] (entries.map entryText))).foldl add {} =
      (entries.map entryText).foldl add {} := by
    cases entries with
    | nil => rfl
    | cons e entries =>
      rw [split_join (by simp)]
      intro piece hpiece hmem
      obtain ⟨e, he, rfl⟩ := List.mem_map.mp hpiece
      exact (mem_entryText (hplain e he) hmem).elim htilde hsep
  rw [ofText, hpieces]
  have hmem := mem_foldl_add hplain {}
  generalize (entries.map entryText).foldl add {} = read at hmem
  obtain ⟨included, excluded⟩ := read
  obtain ⟨included', excluded'⟩ := s
  have hnone : ∀ d, d ∉ (∅ : SortedSet Text) := SortedSet.not_mem_empty
  rw [DomainScope.mk.injEq]
  refine ⟨SortedSet.ext fun d => ?_, SortedSet.ext fun d => ?_⟩
  · rw [(hmem d).1, hincluded, or_iff_right (hnone d)]
  · rw [(hmem d).2, hexcluded, or_iff_right (hnone d)]

end DomainScope

/-! ## Modifiers -/

namespace Modifier

/-- What an entry of a list of modifiers says. A blank entry says nothing, and `none` stands for a
name that is not known. -/
def read? (entry : Text) : Option (Option Modifier) :=
  if (lower (strip entry)).isEmpty then none else some (ofName? (lower (strip entry)))

theorem ofName?_domains {t : Text} {s : DomainScope} (hlists : s.Lists '|' t) :
    ofName? (domainsMark ++ t) = some (.domains s) := by
  have hmark : startsWith (domainsMark ++ t) domainsMark = true := by
    rw [startsWith, List.isPrefixOf_iff_prefix]
    exact List.prefix_append _ _
  rw [ofName?, hmark, if_pos rfl, List.drop_left,
    DomainScope.ofText_of_lists (by decide) (by decide) hlists]

def resource? : Option Modifier → Option ResourceType
  | some (.resource t) => some t
  | _ => none

def party? : Option Modifier → Option Party
  | some (.party p) => some p
  | _ => none

def scope? : Option Modifier → Option DomainScope
  | some (.domains s) => some s
  | _ => none

end Modifier

namespace Modifiers

/-- Takes note of a modifier, or of a name that is not known. -/
def note (m : Modifiers) : Option Modifier → Modifiers
  | some modifier => m.apply modifier
  | none => { m with ignored := m.ignored + 1 }

theorem foldl_add (m : Modifiers) (entries : List Text) :
    entries.foldl add m = (entries.filterMap Modifier.read?).foldl note m := by
  induction entries generalizing m with
  | nil => rfl
  | cons entry entries ih =>
    rw [List.foldl_cons, ih, List.filterMap_cons, add, Modifier.read?]
    by_cases hblank : (lower (strip entry)).isEmpty = true
    · rw [if_pos hblank, if_pos hblank]
    · rw [if_neg hblank, if_neg hblank]
      cases Modifier.ofName? (lower (strip entry)) <;> rfl

variable (m : Modifiers) (os : List (Option Modifier))

theorem mem_resourceTypes_foldl (t : ResourceType) : t ∈ (os.foldl note m).resourceTypes ↔
    t ∈ m.resourceTypes ∨ t ∈ os.filterMap Modifier.resource? := by
  induction os generalizing m with
  | nil => simp
  | cons o os ih =>
    rw [List.foldl_cons, ih]
    rcases o with - | (p | u | s) <;>
      simp [note, apply, Modifier.resource?, SortedSet.mem_insert, or_assoc, or_left_comm]

theorem party_foldl :
    (os.foldl note m).party = (os.filterMap Modifier.party?).getLast?.getD m.party := by
  induction os generalizing m with
  | nil => rfl
  | cons o os ih =>
    rw [List.foldl_cons, ih]
    rcases o with - | (p | u | s) <;>
      simp [note, apply, Modifier.party?, List.getLast?_cons]

theorem scope_foldl :
    (os.foldl note m).scope = (os.filterMap Modifier.scope?).getLast?.getD m.scope := by
  induction os generalizing m with
  | nil => rfl
  | cons o os ih =>
    rw [List.foldl_cons, ih]
    rcases o with - | (p | u | s) <;>
      simp [note, apply, Modifier.scope?, List.getLast?_cons]

theorem ignored_foldl : (os.foldl note m).ignored = m.ignored + os.countP Option.isNone := by
  induction os generalizing m with
  | nil => rfl
  | cons o os ih =>
    rw [List.foldl_cons, ih]
    rcases o with - | (p | u | s)
    · rw [List.countP_cons_of_pos rfl]
      simp only [note]
      omega
    all_goals rfl

end Modifiers

end ContentFilter
