import ContentFilter.Proofs.Domain.Plain
import ContentFilter.Url.Basic

/-! # URLs by their parts

A URL is written from a scheme, a text in front of the host, the host, a port, a path, a query and a
fragment. A part may hold every delimiter that does not end it: the text in front of the host has
colons and at signs in it, the path has two slashes in a row, the query and the fragment are whole
URLs. The host and the path are found as they were written all the same.

* `Url.IsFree`: texts of visible characters in which some marks do not occur.
* `Url.isHost_of_isPlain`: plain names, in any letter case, are hosts.
* `Url.Written`, `Url.Written.text`: the parts, and the URL that they make.
* `Url.Written.parse?_text`: its authority and its path.
* `Url.Written.host?_authority`: its host, in lower case.
-/

set_option autoImplicit false

namespace ContentFilter

open Text

namespace Url

/-! ## Visible characters -/

/-- The characters of ASCII that are neither spaces nor controls. -/
def IsVisible (c : Char) : Prop := 0x20 < c.toNat ∧ c.toNat < 0x7F

instance (c : Char) : Decidable (IsVisible c) := inferInstanceAs (Decidable (_ ∧ _))

/-- A text of visible characters in which none of the marks occurs. -/
def IsFree (marks t : Text) : Prop := ∀ c ∈ t, IsVisible c ∧ c ∉ marks

instance (marks t : Text) : Decidable (IsFree marks t) :=
  List.decidableBAll (fun c => IsVisible c ∧ c ∉ marks) t

theorem IsVisible.isDropped_eq {c : Char} (hc : IsVisible c) : isDropped c = false := by
  rw [Bool.eq_false_iff]
  intro hdropped
  simp only [isDropped, Bool.or_eq_true, decide_eq_true_eq] at hdropped
  rcases hdropped with (rfl | rfl) | rfl <;> exact absurd hc (by decide)

/-- No visible character looks like a delimiter that it is not. -/
theorem IsVisible.isLookalike_eq {c : Char} (hc : IsVisible c) : isLookalike c = false := by
  have hfar : ∀ n ∈ delimiterLookalikes, 0x7F ≤ n := by decide
  rw [Bool.eq_false_iff]
  intro hlike
  have := hfar c.toNat (List.contains_iff_mem.mp hlike)
  have := hc.2
  omega

theorem isVisible_of_isAlphanum {c : Char} (hc : c.isAlphanum = true) : IsVisible c := by
  delta Char.isAlphanum Char.isAlpha Char.isUpper Char.isLower Char.isDigit at hc
  have hval : c.val.toNat = c.toNat := rfl
  simp [UInt32.le_iff_toNat_le] at hc
  unfold IsVisible
  omega

theorem isVisible_of_isSchemeChar {c : Char} (hc : isSchemeChar c = true) : IsVisible c := by
  simp only [isSchemeChar, Bool.or_eq_true, decide_eq_true_eq] at hc
  rcases hc with ((hc | rfl) | rfl) | rfl
  · exact isVisible_of_isAlphanum hc
  all_goals decide

namespace IsFree

variable {marks t : Text}

theorem mono {others : Text} (h : IsFree marks t) (hsub : others ⊆ marks) : IsFree others t :=
  fun c hc => (h c hc).imp_right fun hmarks hothers => hmarks (hsub hothers)

theorem isVisible (h : IsFree marks t) {c : Char} (hc : c ∈ t) : IsVisible c := (h c hc).1

theorem notMem (h : IsFree marks t) {m : Char} (hm : m ∈ marks) : m ∉ t := fun ht => (h m ht).2 hm

/-- A kind of characters that are all among the marks does not occur. -/
theorem kind_eq_false {p : Char → Bool} (h : IsFree marks t) (hp : ∀ c, p c = true → c ∈ marks) :
    ∀ c ∈ t, p c = false := by
  intro c hc
  rw [Bool.eq_false_iff]
  exact fun hkind => (h c hc).2 (hp c hkind)

end IsFree

theorem isFree_append {marks t u : Text} :
    IsFree marks (t ++ u) ↔ IsFree marks t ∧ IsFree marks u := List.forall_mem_append

theorem isFree_cons {marks t : Text} {c : Char} :
    IsFree marks (c :: t) ↔ (IsVisible c ∧ c ∉ marks) ∧ IsFree marks t := List.forall_mem_cons

/-! ## The parts of a URL -/

/-- A part that may be missing, behind the mark that announces it. -/
def announced (mark : Char) : Option Text → Text
  | none => []
  | some t => mark :: t

/-- A part that may be missing, in front of the mark that ends it. -/
def ended (mark : Char) : Option Text → Text
  | none => []
  | some t => t ++ [mark]

theorem head?_announced {mark c : Char} {part : Option Text}
    (h : (announced mark part).head? = some c) : c = mark := by
  cases part with
  | none => exact absurd h (by simp [announced])
  | some t => exact (Option.some.inj h).symm

section

variable {marks : Text} {mark : Char} {part : Option Text}

theorem isFree_announced (hmark : IsVisible mark ∧ mark ∉ marks)
    (hpart : ∀ t ∈ part, IsFree marks t) : IsFree marks (announced mark part) := by
  cases part with
  | none => simp [announced, IsFree]
  | some t => exact isFree_cons.mpr ⟨hmark, hpart t rfl⟩

theorem isFree_ended (hmark : IsVisible mark ∧ mark ∉ marks)
    (hpart : ∀ t ∈ part, IsFree marks t) : IsFree marks (ended mark part) := by
  cases part with
  | none => simp [ended, IsFree]
  | some t => exact isFree_append.mpr ⟨hpart t rfl, isFree_cons.mpr ⟨hmark, by simp [IsFree]⟩⟩

end

/-- What may not occur between the two slashes and the path. -/
def authorityMarks : Text := ['/', '?', '#', '[', ']']

/-- What may not occur in a host. -/
def hostMarks : Text := authorityMarks ++ ['@', ':', '%']

/-- The hosts that can be written as they are. -/
def IsHost (t : Text) : Prop := t ≠ [] ∧ IsFree hostMarks t

instance (t : Text) : Decidable (IsHost t) := inferInstanceAs (Decidable (_ ∧ _))

/-- A plain name, in any letter case, is a host. -/
theorem isHost_of_isPlain {t : Text} (hvisible : ∀ c ∈ t, IsVisible c)
    (hplain : Domain.isPlain (lower t) = true) : IsHost t := by
  have hmarks : ∀ m ∈ hostMarks, (m.toNat < 0x80 ∧ ¬ ('A' ≤ m ∧ m ≤ 'Z')) ∧
      ¬ (Domain.IsPlainChar m ∨ m = '\n') := forall_mem_of_all (by decide)
  refine ⟨?_, fun c hc => ⟨hvisible c hc, fun hmark => ?_⟩⟩
  · rintro rfl
    exact absurd hplain (by decide)
  · obtain ⟨hascii, hother⟩ := hmarks c hmark
    have hsmall : IsSmall c := isSmall_of_ascii hascii.1 hascii.2
    exact hother (Domain.mem_of_isPlain hplain c (mem_lower hsmall hc))

/-- The parts that a URL is written from. -/
structure Written where
  scheme : Text
  userinfo : Option Text
  host : Text
  port : Option Text
  path : Text
  query : Option Text
  fragment : Option Text
  isScheme_scheme : isScheme scheme = true
  isFree_userinfo : ∀ t ∈ userinfo, IsFree authorityMarks t
  isHost_host : IsHost host
  isDigit_port : ∀ t ∈ port, t.all Char.isDigit = true
  path_rooted : path = [] ∨ path.head? = some '/'
  isFree_path : IsFree ['?', '#'] path
  isFree_query : ∀ t ∈ query, IsFree ['#'] t
  isFree_fragment : ∀ t ∈ fragment, IsFree [] t

namespace Written

/-- What stands between the two slashes and the path. -/
def authority (w : Written) : Text := ended '@' w.userinfo ++ (w.host ++ announced ':' w.port)

/-- The path and what follows it. -/
def rest (w : Written) : Text := w.path ++ announced '?' w.query ++ announced '#' w.fragment

def text (w : Written) : Text := w.scheme ++ ':' :: '/' :: '/' :: (w.authority ++ w.rest)

variable (w : Written)

/-! ## Which characters stand where -/

theorem isSchemeChar_scheme {c : Char} (hc : c ∈ w.scheme) : isSchemeChar c = true := by
  have hscheme := w.isScheme_scheme
  unfold isScheme at hscheme
  split at hscheme
  · exact absurd hscheme Bool.false_ne_true
  · rw [Bool.and_eq_true, List.all_eq_true] at hscheme
    exact hscheme.2 c hc

theorem isFree_port {marks : Text} (hmarks : ∀ m ∈ marks, m.isDigit = false) :
    ∀ t ∈ w.port, IsFree marks t := by
  intro t ht c hc
  have hdigit := List.all_eq_true.mp (w.isDigit_port t ht) c hc
  refine ⟨isVisible_of_isAlphanum (by simp [Char.isAlphanum, hdigit]), fun hmark => ?_⟩
  exact absurd hdigit (by simp [hmarks c hmark])

/-- The marks that do not occur in a host, but for the colon, do not occur behind the at sign. -/
theorem isFree_host_port : IsFree (authorityMarks ++ ['@']) (w.host ++ announced ':' w.port) :=
  isFree_append.mpr ⟨w.isHost_host.2.mono (by decide),
    isFree_announced (by decide) (w.isFree_port (forall_mem_of_all (by decide)))⟩

theorem isFree_authority : IsFree authorityMarks w.authority :=
  isFree_append.mpr ⟨isFree_ended (by decide) w.isFree_userinfo,
    w.isFree_host_port.mono (List.subset_append_left _ _)⟩

theorem isFree_path_query : IsFree ['#'] (w.path ++ announced '?' w.query) :=
  isFree_append.mpr ⟨w.isFree_path.mono (by simp), isFree_announced (by decide) w.isFree_query⟩

theorem isVisible_text {c : Char} (hc : c ∈ w.text) : IsVisible c := by
  have hrest : IsFree [] w.rest := isFree_append.mpr ⟨w.isFree_path_query.mono (by simp),
    isFree_announced (by decide) w.isFree_fragment⟩
  have hafter : IsFree [] (':' :: '/' :: '/' :: (w.authority ++ w.rest)) := by
    have hauthority : IsFree [] w.authority := w.isFree_authority.mono (by simp)
    exact isFree_append (t := [':', '/', '/']).mpr
      ⟨by decide, isFree_append.mpr ⟨hauthority, hrest⟩⟩
  rcases List.mem_append.mp hc with hscheme | hc
  · exact isVisible_of_isSchemeChar (w.isSchemeChar_scheme hscheme)
  · exact hafter.isVisible hc

theorem eq_of_head?_path {c : Char} (h : w.path.head? = some c) : c = '/' := by
  rcases w.path_rooted with hempty | hslash
  · simp [hempty] at h
  · exact Option.some.inj (h.symm.trans hslash)

theorem endsAuthority_of_head?_rest {c : Char} (h : w.rest.head? = some c) :
    endsAuthority c = true := by
  have hmark : c = '/' ∨ c = '?' ∨ c = '#' := by
    rw [rest, List.append_assoc, List.head?_append, Option.or_eq_some_iff, List.head?_append,
      Option.or_eq_some_iff] at h
    rcases h with hpath | ⟨-, hquery | ⟨-, hfragment⟩⟩
    · exact .inl (w.eq_of_head?_path hpath)
    · exact .inr (.inl (head?_announced hquery))
    · exact .inr (.inr (head?_announced hfragment))
  rcases hmark with rfl | rfl | rfl <;> rfl

/-! ## Reading a URL -/

theorem clean_text : clean w.text = w.text := by
  have hstart : w.text.dropWhile (fun c => c.toNat ≤ 0x20) = w.text := by
    rw [List.dropWhile_eq_self_iff]
    exact fun hne => by simpa using (w.isVisible_text (List.getElem_mem hne)).1
  rw [clean, hstart, List.filter_eq_self]
  intro c hc
  rw [(w.isVisible_text hc).isDropped_eq]
  rfl

theorem afterScheme_text : afterScheme w.text = '/' :: '/' :: (w.authority ++ w.rest) := by
  have hcolon : ∀ c ∈ w.scheme, decide (c = ':') = false := by
    intro c hc
    rw [decide_eq_false_iff_not]
    rintro rfl
    exact absurd (w.isSchemeChar_scheme hc) (by decide)
  have hbefore : before (· = ':') w.text = w.scheme := before_append hcolon (by simp)
  have hafter : after? (· = ':') w.text = some ('/' :: '/' :: (w.authority ++ w.rest)) :=
    after?_append_cons hcolon rfl _
  simp only [afterScheme, hafter, hbefore, w.isScheme_scheme, if_true]

theorem readAuthority_text :
    readAuthority ('/' :: '/' :: (w.authority ++ w.rest)) = (w.authority, w.rest) := by
  have hauthority : ∀ c ∈ w.authority, endsAuthority c = false := by
    refine w.isFree_authority.kind_eq_false fun c hc => ?_
    simp only [endsAuthority, Bool.or_eq_true, decide_eq_true_eq] at hc
    rcases hc with (rfl | rfl) | rfl <;> decide
  rw [readAuthority, before_append hauthority fun _ => w.endsAuthority_of_head?_rest,
    dropWhile_not_append hauthority fun _ => w.endsAuthority_of_head?_rest]

theorem readPath_rest : readPath w.rest = w.path := by
  have hquery : before (· = '#') w.rest = w.path ++ announced '?' w.query :=
    before_append (w.isFree_path_query.kind_eq_false (by simp)) fun c hc =>
      decide_eq_true (head?_announced hc)
  have hpath : before (· = '?') (w.path ++ announced '?' w.query) = w.path :=
    before_append (w.isFree_path.kind_eq_false (by simp)) fun c hc =>
      decide_eq_true (head?_announced hc)
  rw [readPath, hquery, hpath]

theorem bracketsFit_authority : bracketsFit w.authority = true := by
  have hopen : w.authority.contains '[' = false := by
    simpa using w.isFree_authority.notMem (by decide : '[' ∈ authorityMarks)
  have hclose : w.authority.contains ']' = false := by
    simpa using w.isFree_authority.notMem (by decide : ']' ∈ authorityMarks)
  rw [bracketsFit, hopen, hclose]
  rfl

/-- The authority and the path of a URL are read as they are written. -/
theorem parse?_text : parse? w.text = some ⟨w.authority, w.path⟩ := by
  have hlike : w.authority.any isLookalike = false := by
    rw [List.any_eq_false]
    exact fun c hc => by simp [(w.isFree_authority.isVisible hc).isLookalike_eq]
  simp only [parse?, w.clean_text, w.afterScheme_text, w.readAuthority_text,
    w.bracketsFit_authority, hlike, w.readPath_rest, Bool.not_false, Bool.and_self, if_true]

/-! ## The host -/

/-- The last at sign of an authority is the one in front of the host. -/
theorem hostAndPort_authority : hostAndPort w.authority = w.host ++ announced ':' w.port := by
  have hat : ∀ c ∈ w.host ++ announced ':' w.port, decide (c = '@') = false :=
    w.isFree_host_port.kind_eq_false (by simp)
  rw [hostAndPort, authority]
  cases w.userinfo with
  | none => exact afterLast_eq_self hat
  | some t =>
    rw [ended, List.append_assoc, List.singleton_append]
    exact afterLast_append_cons rfl hat t

theorem writtenHost_authority : writtenHost w.authority = w.host := by
  have hbracket : after? (· = '[') (w.host ++ announced ':' w.port) = none :=
    after?_eq_none (w.isFree_host_port.kind_eq_false (by simp [authorityMarks]))
  have hcolon : before (· = ':') (w.host ++ announced ':' w.port) = w.host :=
    before_append (w.isHost_host.2.kind_eq_false (by simp [hostMarks])) fun c hc =>
      decide_eq_true (head?_announced hc)
  simp only [writtenHost, w.hostAndPort_authority, hbracket, hcolon]

/-- The host of a URL is read in lower case. -/
theorem host?_authority (path : Text) : host? ⟨w.authority, path⟩ = some (lower w.host) := by
  have hpercent : ∀ c ∈ w.host, decide (c = '%') = false :=
    w.isHost_host.2.kind_eq_false (by simp [hostMarks])
  have hzone : w.host.dropWhile (· != '%') = [] :=
    List.dropWhile_eq_nil_iff.mpr fun c hc => by simpa using hpercent c hc
  have hne : ¬ w.host.isEmpty = true := by simpa using w.isHost_host.1
  simp only [host?, w.writtenHost_authority, if_neg hne, before_eq_self hpercent, hzone,
    List.append_nil]

end Written

end Url

end ContentFilter
