import ContentFilter.Matcher
import ContentFilter.Proofs.Domain.Pruning
import ContentFilter.Proofs.Domain.Registered

/-! # What the fallback covers

The fallback keeps only the domains that no other one covers, and looks the candidates of a host up
among them. It finds a host exactly when a domain of the whole list covers it.

* `Matcher.IsListed`: the domains that a list names.
* `Matcher.matchesDomain_iff`: what the fallback looks for.
* `Matcher.matchesDomain_ofTables_iff_covers`: the fallback finds what a listed domain covers.
-/

set_option autoImplicit false

namespace ContentFilter.Matcher

open Text Domain SuffixRules

/-- A list names a domain when one of its entries has it for its normal form. What is empty and the
names of the machine itself do not count. -/
def IsListed (domains : List Text) (d : Text) : Prop :=
  d ∈ domains.map normalize ∧ d ≠ [] ∧ d ∉ localNames

instance (domains : List Text) (d : Text) : Decidable (IsListed domains d) :=
  inferInstanceAs (Decidable (_ ∧ _))

theorem mem_distinctNames_iff_isListed {domains : List Text} {d : Text} :
    d ∈ distinctNames domains ↔ IsListed domains d := by
  rw [mem_distinctNames, IsListed, isLocal]
  simp

/-- The fallback looks for a domain that covers the host. -/
theorem matchesDomain_iff {m : Matcher} {host : Text} : m.matchesDomain host = true ↔
    normalize host ≠ [] ∧ ∃ d ∈ m.domains, Covers d (normalize host) := by
  simp only [matchesDomain, List.any_eq_true, List.contains_iff_mem, mem_candidates]
  constructor
  · rintro ⟨d, ⟨hhost, hcovers⟩, hd⟩
    exact ⟨hhost, d, hd, hcovers⟩
  · rintro ⟨hhost, d, hd, hcovers⟩
    exact ⟨d, ⟨hhost, hcovers⟩, hd⟩

theorem matchesDomain_ofTables_iff_kept {s : SuffixRules} {domains keywords : List Text}
    {host : Text} : (ofTables s domains keywords).matchesDomain host = true ↔
      normalize host ≠ [] ∧ ∃ k ∈ (s.prune domains).1, Covers k (normalize host) := by
  simp only [matchesDomain_iff, ofTables, SortedSet.mem_ofList]

/-- The fallback finds a host exactly when a domain of the list covers it, though it keeps only some
of them. Nothing is assumed of the suffixes but that a number belongs to no registered name. -/
theorem matchesDomain_ofTables_iff_covers {s : SuffixRules}
    (hs : ∀ n, OfDigits n → s.registered? n = none) (domains keywords : List Text) (host : Text) :
    (ofTables s domains keywords).matchesDomain host = true ↔
      normalize host ≠ [] ∧ ∃ d, IsListed domains d ∧ Covers d (normalize host) := by
  rw [matchesDomain_ofTables_iff_kept]
  refine and_congr_right fun _ => ?_
  constructor
  · rintro ⟨k, hk, hcovers⟩
    exact ⟨k, mem_distinctNames_iff_isListed.mp (mem_prune.mp hk).1, hcovers⟩
  · rintro ⟨d, hd, hcovers⟩
    obtain ⟨k, hk, hkd⟩ := exists_kept_covers hs (mem_distinctNames_iff_isListed.mpr hd)
    exact ⟨k, hk, hkd.trans hcovers⟩

/-- A chain of domains, of which all but the first are left out, a suffix, a number and a name of
the machine itself. -/
def chainedDomains : List Text :=
  ["Ads.example.com.", "b.ads.example.com", "a.b.ads.example.com", "co.uk", " 10.0.0.1",
    "local"].map String.toList

/-- Domains that are left out still count, and numbers cover no longer ones. -/
theorem matchesDomain_chainedDomains :
    (∀ n, OfDigits n → SuffixRules.bundled.registered? n = none) ∧
      (SuffixRules.bundled.prune chainedDomains).2 = 2 ∧
      (ofTables .bundled chainedDomains []).matchesDomain "x.a.b.ads.example.com".toList = true ∧
      (ofTables .bundled chainedDomains []).matchesDomain "Shop.co.uk.".toList = true ∧
      (ofTables .bundled chainedDomains []).matchesDomain "9.10.0.0.1".toList = false ∧
      (ofTables .bundled chainedDomains []).matchesDomain "printer.local".toList = false := by
  have hs : ∀ n, OfDigits n → SuffixRules.bundled.registered? n = none := fun n hn =>
    SuffixTable.registered?_eq_none_of_ofDigits SuffixTable.sparesNumbers_excerpt hn
  have hiff := matchesDomain_ofTables_iff_covers hs chainedDomains []
  have hnone : ∀ host ∈ ["9.10.0.0.1".toList, "printer.local".toList],
      ∀ d ∈ chainedDomains.map normalize, d ∉ localNames → ¬ Covers d (normalize host) := by
    decide +kernel
  have huncovered : ∀ host ∈ ["9.10.0.0.1".toList, "printer.local".toList],
      (ofTables .bundled chainedDomains []).matchesDomain host = false := by
    intro host hhost
    rw [Bool.eq_false_iff, ne_eq, hiff]
    rintro ⟨-, d, ⟨hd, -, hremote⟩, hcovers⟩
    exact hnone host hhost d hd hremote hcovers
  refine ⟨hs, by decide +kernel, (hiff _).mpr ?_, (hiff _).mpr ?_, huncovered _ (by simp),
    huncovered _ (by simp)⟩
  · exact ⟨by decide +kernel, "a.b.ads.example.com".toList, by decide +kernel, by decide +kernel⟩
  · exact ⟨by decide +kernel, "co.uk".toList, by decide +kernel, by decide +kernel⟩

end ContentFilter.Matcher
