import ContentFilter.Proofs.Matcher.Coverage
import ContentFilter.Proofs.Url.Written

/-! # The parts of a URL that decide

The fallback looks at the host and at the path of a URL. What else is written in it, names of the
list included, does not change the decision.

* `Url.Written.requestPath`: the path that is asked for.
* `Matcher.matchesDomain_congr`: a host decides whatever the case of its letters is.
* `Matcher.host_and_path_decide`: which URLs are blocked.
-/

set_option autoImplicit false

namespace ContentFilter

open Text Domain

/-- The path that is asked for, which is the root when none is written. -/
def Url.Written.requestPath (w : Url.Written) : Text := if w.path.isEmpty then ['/'] else w.path

namespace Matcher

variable (m : Matcher)

theorem matchesDomain_congr {host host' : Text} (h : lower host = lower host') :
    m.matchesDomain host = m.matchesDomain host' := by
  have hname : normalize host = normalize host' := by
    rw [Domain.normalize, Domain.normalize, h]
  rw [matchesDomain, matchesDomain, candidates, candidates, hname]

/-- The decision about a URL is the one about its host and its path. -/
theorem blocksUrl_text (w : Url.Written) : m.blocksUrl w.text = m.blocks w.host w.requestPath := by
  have hhost : m.matchesDomain (lower w.host) = m.matchesDomain w.host :=
    m.matchesDomain_congr (lower_lower w.host)
  rw [blocksUrl, w.parse?_text]
  simp only [w.host?_authority, blocks, hhost, Url.Written.requestPath]

/-- A URL is blocked for its host and its path: the decision is the one about the two, URLs that
agree in them are decided alike, and a URL is blocked only when a listed domain covers its host or a
keyword occurs in its path. -/
theorem host_and_path_decide (w : Url.Written) :
    m.blocksUrl w.text = m.blocks w.host w.requestPath ∧
      (∀ w' : Url.Written, lower w'.host = lower w.host → w'.path = w.path →
        m.blocksUrl w'.text = m.blocksUrl w.text) ∧
      (m.blocksUrl w.text = true ↔
        (normalize w.host ≠ [] ∧ ∃ d ∈ m.domains, Covers d (normalize w.host)) ∨
          ∃ k ∈ m.pathKeywords, occursIn k (lower w.requestPath) = true) := by
  refine ⟨m.blocksUrl_text w, fun w' hhost hpath => ?_, ?_⟩
  · have hrequest : w'.requestPath = w.requestPath := by
      rw [Url.Written.requestPath, Url.Written.requestPath, hpath]
    rw [blocksUrl_text, blocksUrl_text, blocks, blocks, m.matchesDomain_congr hhost, hrequest]
  · rw [blocksUrl_text, blocks, Bool.or_eq_true, matchesDomain_iff, matchesPath, List.any_eq_true]

/-- A fallback with one domain and one keyword. -/
def onlyAds : Matcher := ⟨SortedSet.ofList ["ads.example".toList], ["sponsor".toList]⟩

/-- A shop whose URL names the listed domain wherever it can. -/
def disguisedShop : Url.Written where
  scheme := "x-App+1.0".toList
  userinfo := some "ads.example:80@ads.example".toList
  host := "Shop.Example".toList
  port := some "8443".toList
  path := "/a//b:c@ads.example".toList
  query := some "u=http://ads.example/sponsor?x".toList
  fragment := some "#?@ads.example/sponsor".toList
  isScheme_scheme := by decide
  isFree_userinfo := by decide
  isHost_host := Url.isHost_of_isPlain (forall_mem_of_all (by decide)) (by decide)
  isDigit_port := by decide
  path_rooted := .inr rfl
  isFree_path := by decide
  isFree_query := by decide
  isFree_fragment := by decide

/-- The shop whose URL has a host and a path only. -/
def plainShop : Url.Written where
  scheme := "https".toList
  userinfo := none
  host := "shop.example".toList
  port := none
  path := "/a//b:c@ads.example".toList
  query := none
  fragment := none
  isScheme_scheme := by decide
  isFree_userinfo := by decide
  isHost_host := Url.isHost_of_isPlain (forall_mem_of_all (by decide)) (by decide)
  isDigit_port := by decide
  path_rooted := .inr rfl
  isFree_path := by decide
  isFree_query := by decide
  isFree_fragment := by decide

/-- The listed domain does not count in front of the host or behind the path. -/
theorem host_and_path_decide_disguisedShop :
    disguisedShop.text = ("x-App+1.0://ads.example:80@ads.example@Shop.Example:8443" ++
        "/a//b:c@ads.example?u=http://ads.example/sponsor?x##?@ads.example/sponsor").toList ∧
      onlyAds.blocksUrl disguisedShop.text = false ∧
      onlyAds.blocksUrl plainShop.text = onlyAds.blocksUrl disguisedShop.text := by
  obtain ⟨hparts, halike, -⟩ := onlyAds.host_and_path_decide disguisedShop
  refine ⟨by decide +kernel, ?_, halike plainShop (by decide) rfl⟩
  rw [hparts]
  decide +kernel

end Matcher

end ContentFilter
