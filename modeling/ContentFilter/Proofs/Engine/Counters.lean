import Mathlib.Algebra.Ring.Nat
import ContentFilter.Domain.SuffixTable
import ContentFilter.Engine.Counters
import ContentFilter.Proofs.Text.Cut
import ContentFilter.Proofs.Text.Lower

/-! # What the counters come to

Something blocked is counted first, and then its host is looked for. A malformed URL has no host that
could be told, so recording it comes to an end in between.

* `Url.Malformed`, `Url.parse?_eq_none_iff`: URLs that cannot be read.
* `Counters.Breaks`, `Counters.record_step`, `Counters.record_returns_iff`: one record.
* `Counters.recordAll`, `Counters.recordAll_totals`: one record after the other.
* `Counters.record_run`: what records come to, and which of them come to an end in between.
-/

set_option autoImplicit false

namespace ContentFilter

open Text

/-! ## Malformed URLs -/

namespace Url

/-- The authority that a text announces. -/
def authorityOf (t : Text) : Text := (readAuthority (afterScheme (clean t))).1

/-- The brackets of the authority do not enclose an address, or one of its characters would turn into
a delimiter. -/
def Malformed (t : Text) : Prop :=
  bracketsFit (authorityOf t) = false ∨ ∃ c ∈ authorityOf t, isLookalike c = true

theorem parse?_eq_none_iff {t : Text} : parse? t = none ↔ Malformed t := by
  unfold parse?
  dsimp only
  rw [Malformed, authorityOf]
  generalize readAuthority (afterScheme (clean t)) = parts
  cases hfit : bracketsFit parts.1 <;> simp

theorem after?_sublist {p : Char → Bool} {t rest : Text} (h : after? p t = some rest) :
    rest.Sublist t := by
  induction t with
  | nil => exact absurd h (by simp [after?])
  | cons c cs ih =>
    rw [after?] at h
    split at h
    · rw [Option.some.inj h]
      exact List.sublist_cons_self c rest
    · exact (ih h).cons c

theorem afterScheme_sublist (t : Text) : (afterScheme t).Sublist t := by
  unfold afterScheme
  split
  next rest hrest =>
    split
    · exact after?_sublist hrest
    · exact List.Sublist.refl t
  · exact List.Sublist.refl t

theorem authorityOf_sublist (t : Text) : (authorityOf t).Sublist t := by
  have hread : ∀ u : Text, (readAuthority u).1.Sublist u := by
    intro u
    unfold readAuthority
    split
    next cs =>
      exact ((List.takeWhile_sublist _).trans (List.sublist_cons_self _ cs)).trans
        (List.sublist_cons_self _ _)
    · exact List.nil_sublist _
  have hclean : (clean t).Sublist t := List.filter_sublist.trans (List.dropWhile_sublist _)
  exact (hread _).trans ((afterScheme_sublist _).trans hclean)

/-- Brackets and the characters that turn into delimiters are all that makes a URL malformed. -/
theorem not_malformed {t : Text} (h : ∀ c ∈ t, c ≠ '[' ∧ c ≠ ']' ∧ isLookalike c = false) :
    ¬ Malformed t := by
  have hauthority : ∀ c ∈ authorityOf t, c ≠ '[' ∧ c ≠ ']' ∧ isLookalike c = false :=
    fun c hc => h c ((authorityOf_sublist t).subset hc)
  have hopen : (authorityOf t).contains '[' = false := by
    rw [Bool.eq_false_iff, ne_eq, List.contains_iff_mem]
    exact fun hmem => (hauthority _ hmem).1 rfl
  have hclose : (authorityOf t).contains ']' = false := by
    rw [Bool.eq_false_iff, ne_eq, List.contains_iff_mem]
    exact fun hmem => (hauthority _ hmem).2.1 rfl
  rintro (hfit | ⟨c, hc, hlookalike⟩)
  · have hfits : bracketsFit (authorityOf t) = true := by
      rw [bracketsFit, hopen, hclose]
      rfl
    rw [hfits] at hfit
    exact absurd hfit (by decide)
  · exact absurd hlookalike (by simp [(hauthority c hc).2.2])

theorem host?_ne_nil {u : Url} {host : Text} (h : u.host? = some host) : host ≠ [] := by
  unfold host? at h
  dsimp only at h
  split at h
  · exact absurd h (by simp)
  next hsome =>
    rintro rfl
    obtain ⟨hbefore, hbehind⟩ := List.append_eq_nil_iff.mp (Option.some.inj h)
    have hcut : before (· = '%') (writtenHost u.authority) = [] := by
      by_contra hne
      exact lower_ne_nil hne hbefore
    apply hsome
    rw [List.isEmpty_iff, ← List.takeWhile_append_dropWhile (p := (· != '%'))
      (l := writtenHost u.authority), hbehind, List.append_nil, ← hcut, before]
    congr 1

end Url

theorem HostParts.registered?_ne_nil {p : HostParts} {name : Text} (h : p.registered? = some name) :
    name ≠ [] := by
  unfold registered? at h
  split at h
  · exact absurd h (by simp)
  · rw [← Option.some.inj h]
    simp

namespace Counters

/-! ## One record -/

/-- A URL whose host cannot be told. -/
def Breaks (place : Text) : Prop := occursIn "://".toList place = true ∧ Url.Malformed place

variable (c : Counters) (split? : Text → Option HostParts) (count : Int) {place : Text}

theorem hostOf_eq_error_iff : hostOf place = .error () ↔ Breaks place := by
  rw [Breaks, ← Url.parse?_eq_none_iff, hostOf]
  split
  next hmark =>
    rw [and_iff_right hmark]
    cases Url.parse? place <;> simp
  next hmark => exact iff_of_false (by simp) fun h => hmark h.1

theorem hostOf_ne_nil {host : Text} (h : hostOf place = .ok (some host)) : host ≠ [] := by
  unfold hostOf at h
  split at h
  · split at h
    · exact Url.host?_ne_nil (Except.ok.inj h)
    · exact absurd h (by simp)
  · dsimp only at h
    split at h
    · exact absurd h (by simp)
    next hsome =>
      rw [← Option.some.inj (Except.ok.inj h)]
      simpa using hsome

/-- Where the host cannot be told the items have been counted, and nothing else is done. -/
theorem record_of_breaks (h : Breaks place) : c.record split? count place = (c.add count, false) := by
  have hsome : ¬ place.isEmpty = true := by
    intro hnone
    rw [List.isEmpty_iff.mp hnone] at h
    exact absurd h.1 (by decide)
  rw [record, if_neg hsome, hostOf_eq_error_iff.mpr h]

/-- A record adds its items, and the last domain stays or is another one, wherever the record comes
to an end. -/
theorem record_step (place : Text) :
    (c.record split? count place).1.blocked = c.blocked + count.toNat ∧
      ((c.record split? count place).1.lastDomain = c.lastDomain ∨
        (c.record split? count place).1.lastDomain ≠ []) := by
  unfold record
  split
  · exact ⟨rfl, .inl rfl⟩
  · split
    · exact ⟨rfl, .inl rfl⟩
    · exact ⟨rfl, .inl rfl⟩
    next host hhost =>
      split
      · exact ⟨rfl, .inl rfl⟩
      next parts _ =>
        refine ⟨rfl, .inr ?_⟩
        show parts.registered?.getD host ≠ []
        cases hregistered : parts.registered? with
        | none => exact hostOf_ne_nil hhost
        | some name => exact HostParts.registered?_ne_nil hregistered

/-- Where every name of a host can be cut, only a malformed URL makes a record end in between. -/
theorem record_returns_iff {split? : Text → Option HostParts}
    (hsplit : ∀ host, ∃ parts, split? host = some parts) {place : Text} :
    (c.record split? count place).2 = true ↔ ¬ Breaks place := by
  rw [← hostOf_eq_error_iff]
  unfold record
  split
  next hnone =>
    obtain rfl := List.isEmpty_iff.mp hnone
    exact iff_of_true rfl nofun
  · cases hhost : hostOf place with
    | error _ => exact iff_of_false Bool.false_ne_true (not_not_intro rfl)
    | ok host? =>
      refine iff_of_true ?_ nofun
      cases host? with
      | none => rfl
      | some host =>
        obtain ⟨parts, hparts⟩ := hsplit host
        simp only [hparts]

/-! ## One record after the other -/

/-- What is recorded: a number of items, and where they were blocked. -/
structure Call where
  count : Int
  place : Text

/-- The counters after records; one that comes to an end in between leaves what it has counted. -/
def recordAll (calls : List Call) : Counters :=
  calls.foldl (fun c call => (c.record split? call.count call.place).1) c

theorem recordAll_totals (calls : List Call) :
    (c.recordAll split? calls).blocked =
        c.blocked + (calls.map fun call => call.count.toNat).sum ∧
      ((c.recordAll split? calls).lastDomain = c.lastDomain ∨
        (c.recordAll split? calls).lastDomain ≠ []) := by
  induction calls generalizing c with
  | nil => exact ⟨rfl, .inl rfl⟩
  | cons call calls ih =>
    obtain ⟨hblocked, hlast⟩ := record_step c split? call.count call.place
    obtain ⟨hrest, hend⟩ := ih (c.record split? call.count call.place).1
    refine ⟨?_, ?_⟩
    · rw [List.map_cons, List.sum_cons, ← Nat.add_assoc, ← hblocked]
      exact hrest
    · rcases hend with hend | hend
      · exact hlast.imp hend.trans fun hne heq => hne (hend ▸ heq)
      · exact .inr hend

/-- What records come to, where the name of every host can be cut. Each adds its items, none below
zero, so the number of blocked items never falls, and the last domain stays or is a name that is not
empty. A record comes to its end exactly when its place is not a malformed URL; for such a URL it has
counted the items and does nothing else. A text without brackets and without characters that turn
into delimiters is no such URL. -/
theorem record_run {split? : Text → Option HostParts}
    (hsplit : ∀ host, ∃ parts, split? host = some parts) (calls : List Call) :
    (c.recordAll split? calls).blocked =
        c.blocked + (calls.map fun call => call.count.toNat).sum ∧
      c.blocked ≤ (c.recordAll split? calls).blocked ∧
      ((c.recordAll split? calls).lastDomain = c.lastDomain ∨
        (c.recordAll split? calls).lastDomain ≠ []) ∧
      ((∀ done call later, calls = done ++ call :: later →
          ((c.recordAll split? done).record split? call.count call.place).2 = true) ↔
        ∀ call ∈ calls, ¬ Breaks call.place) ∧
      (∀ count place, Breaks place → c.record split? count place = (c.add count, false)) ∧
      ∀ place : Text, (∀ d ∈ place, d ≠ '[' ∧ d ≠ ']' ∧ Url.isLookalike d = false) →
        ¬ Breaks place := by
  obtain ⟨hblocked, hlast⟩ := recordAll_totals c split? calls
  refine ⟨hblocked, hblocked ▸ Nat.le_add_right _ _, hlast, ?_,
    fun count place => record_of_breaks c split? count,
    fun place hplain hbreaks => Url.not_malformed hplain hbreaks.2⟩
  constructor
  · intro hall call hcall
    obtain ⟨done, later, hsplit'⟩ := List.append_of_mem hcall
    exact (record_returns_iff _ call.count hsplit).mp (hall done call later hsplit')
  · rintro hall done call later rfl
    exact (record_returns_iff _ call.count hsplit).mpr (hall call (by simp))

/-- A page below a registered name, a page whose address has a bracket that is not closed, and a
number of items below zero. -/
def threeCalls : List Call :=
  [⟨2, "https://ads.shop.co.uk/banner".toList⟩, ⟨1, "http://[".toList⟩, ⟨-5, "Cdn.Example.".toList⟩]

/-- The second record ends in between, the third one goes on. -/
theorem record_run_threeCalls :
    (∀ host, ∃ parts, SuffixRules.bundled.split? host = some parts) ∧
      ({} : Counters).recordAll SuffixRules.bundled.split? threeCalls =
        { blocked := 3, lastDomain := "cdn.example".toList } ∧
      ¬ ∀ done call later, threeCalls = done ++ call :: later →
        ((({} : Counters).recordAll SuffixRules.bundled.split? done).record
          SuffixRules.bundled.split? call.count call.place).2 = true := by
  have hsplit : ∀ host, ∃ parts, SuffixRules.bundled.split? host = some parts :=
    fun host => ⟨_, rfl⟩
  have hreturns := (record_run ({} : Counters) hsplit threeCalls).2.2.2.1
  have hbreaks : Breaks "http://[".toList := hostOf_eq_error_iff.mp (by decide)
  refine ⟨hsplit, by decide +kernel, fun hall => ?_⟩
  exact hreturns.mp hall ⟨1, "http://[".toList⟩ (by simp [threeCalls]) hbreaks

/-- A bracket that is not closed makes a record end with the number alone changed. -/
theorem record_ends_at_open_bracket :
    ({} : Counters).record SuffixRules.bundled.split? 1 "http://[".toList =
      ({ blocked := 1 }, false) := by decide

end Counters

end ContentFilter
