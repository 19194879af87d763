import ContentFilter.Domain.SuffixTable
import ContentFilter.Proofs.Domain.Tails
import ContentFilter.Proofs.Text.Lower

/-! # Numbers in a table of suffixes

A number is a host without a scheme, a port and the like, and its last label is compared with the
rules of a table as it is. It therefore belongs to no registered name, unless some rule is about
numbers.

* `SuffixTable.sparesNumbers`: no rule is about numbers.
* `SuffixTable.hostLabels_of_ofDigits`: the host that a number names.
* `SuffixTable.registered?_eq_none_of_ofDigits`: numbers belong to no registered name.
-/

set_option autoImplicit false

namespace ContentFilter.SuffixTable

open Text Domain

/-! ## Rules -/

/-- Whether no rule is about names whose last label has digits only. -/
def sparesNumbers (s : SuffixTable) : Bool :=
  s.rules.all fun r => match r with
    | [] => true
    | l :: _ => l != ['*'] && !l.all isDigit

theorem descend_eq_nil {label : Text} {rules : List (List Text)}
    (h : ∀ r ∈ rules, r.head? ≠ some label) : descend label rules = [] := by
  rw [descend, List.filterMap_eq_nil_iff]
  intro r hr
  cases r with
  | nil => rfl
  | cons l ls => exact if_neg fun hl => h _ hr (congrArg some hl)

theorem isDot_of_isDigit {c : Char} (h : isDigit c = true) : isDot c = false := by
  have hdot : c ≠ '.' := by
    rintro rfl
    exact absurd h (by decide)
  rcases (isDigit_iff c).mp h with hascii | ⟨r, hr, -, hlow, hhigh⟩
  · simp [isDot, hdot]
    omega
  · have hfull := (digitRanges_apart r hr).2.2
    have h1 := hfull 0x3002 (by simp)
    have h2 := hfull 0xFF0E (by simp)
    have h3 := hfull 0xFF61 (by simp)
    simp [isDot, hdot]
    omega

/-! ## Hosts -/

section

variable {t : Text}

theorem dropScheme_eq_self (hslash : '/' ∉ t) (hcolon : ':' ∉ t) : dropScheme t = t := by
  have hdouble : startsWith t "//".toList = false := startsWith_eq_false (by simp) hslash
  have hmark : startsWith (t.dropWhile isSchemeChar) "://".toList = false :=
    startsWith_eq_false (by simp) fun hmem => hcolon ((List.dropWhile_sublist _).subset hmem)
  simp only [dropScheme, hdouble, hmark, Bool.and_false, Bool.false_eq_true, if_false]

theorem hostPart_eq_self (h : ∀ c ∈ ['/', ':', '?', '#', '@'], c ∉ t) : hostPart t = t := by
  have hne : ∀ c ∈ ['/', ':', '?', '#', '@'], ∀ d ∈ t, d ≠ c := fun c hc d hd heq =>
    h c hc (heq ▸ hd)
  have hbefore : before (fun c => c = '/' || c = '?' || c = '#') t = t :=
    before_eq_self fun c hc => by
      simp [hne '/' (by simp) c hc, hne '?' (by simp) c hc, hne '#' (by simp) c hc]
  have hafter : afterLast (· = '@') t = t := afterLast_eq_self fun c hc => by
    simp [hne '@' (by simp) c hc]
  rw [hostPart, dropScheme_eq_self (h '/' (by simp)) (h ':' (by simp)), hbefore, hafter]

/-- The host that a number names is the number, without the dots behind it. -/
theorem hostLabels_of_ofDigits (ht : OfDigits t) :
    hostLabels t = labels (dropEndWhile isDot t) := by
  have hmarks : ∀ c ∈ ['/', ':', '?', '#', '@', '['], c ∉ t := fun c hc =>
    have hother : ∀ c ∈ ['/', ':', '?', '#', '@', '['], isDigit c = false ∧ c ≠ '.' :=
      forall_mem_of_all (by decide)
    ht.notMem (hother c hc).1 (hother c hc).2
  have hhost : hostPart t = t :=
    hostPart_eq_self fun c hc => hmarks c (List.mem_append_left ['['] hc)
  have hopen : startsWith t ['['] = false := startsWith_eq_false (by simp) (hmarks '[' (by simp))
  have hbefore : before (fun c => c = ':') t = t := before_eq_self fun c hc => by
    have hcolon : c ≠ ':' := fun heq => hmarks ':' (by simp) (heq ▸ hc)
    simp [hcolon]
  have hstrip : strip t = t := strip_eq_self fun c hc => by
    rcases ht c hc with h | rfl
    · exact isBlank_of_isDigit h
    · decide
  have hdots : ∀ c ∈ dropEndWhile isDot t, (if isDot c then '.' else c) = c := by
    intro c hc
    rcases ht c ((dropEndWhile_sublist _ t).subset hc) with h | rfl
    · rw [isDot_of_isDigit h]
      simp
    · rfl
  simp only [hostLabels, hhost, hopen, hbefore, hstrip, List.map_congr_left hdots, List.map_id',
    Bool.false_and, Bool.false_eq_true, if_false]

end

/-! ## Registered names -/

theorem comparable_of_isDigit {l : Text} (h : ∀ c ∈ l, isDigit c = true) : comparable l = l := by
  have hlower : lower l = l := lower_eq_self fun c hc => isSmall_of_isDigit (h c hc)
  have hletter : 'x' ∉ l := fun hmem => absurd (h 'x' hmem) (by decide)
  have hencoded : startsWith l "xn--".toList = false := startsWith_eq_false (by simp) hletter
  simp only [comparable, hlower, hencoded, Bool.false_eq_true, if_false]

theorem suffixSize_eq_zero {s : SuffixTable} (hs : s.sparesNumbers = true) {ls : List Text}
    (hls : ∀ l ∈ ls, ∀ c ∈ l, isDigit c = true) : s.suffixSize ls = 0 := by
  have hrules : ∀ r ∈ s.rules, ∀ l ∈ r.head?, l ≠ ['*'] ∧ ∃ c ∈ l, isDigit c = false := by
    intro r hr l hl
    have hspared := List.all_eq_true.mp hs r hr
    cases r with
    | nil => cases hl
    | cons m ms =>
      obtain rfl : m = l := Option.some.inj hl
      simpa using hspared
  cases hrev : ls.reverse with
  | nil => rw [suffixSize, hrev, suffixSizeFrom]
  | cons l more =>
    have hdigits : ∀ c ∈ l, isDigit c = true := hls l (List.mem_reverse.mp (by simp [hrev]))
    have hkey : descend l s.rules = [] := descend_eq_nil fun r hr hl => by
      obtain ⟨-, c, hc, hother⟩ := hrules r hr l hl
      exact absurd (hdigits c hc) (by simp [hother])
    have hstar : descend ['*'] s.rules = [] :=
      descend_eq_nil fun r hr hl => (hrules r hr ['*'] hl).1 rfl
    rw [suffixSize, hrev, suffixSizeFrom, comparable_of_isDigit hdigits]
    simp [goesOn, hkey, hstar]

/-- Numbers belong to no registered name, unless a rule is about numbers. -/
theorem registered?_eq_none_of_ofDigits {s : SuffixTable} (hs : s.sparesNumbers = true) {t : Text}
    (ht : OfDigits t) : s.toRules.registered? t = none := by
  have hdigits : ∀ l ∈ hostLabels t, ∀ c ∈ l, isDigit c = true := by
    intro l hl c hc
    rw [hostLabels_of_ofDigits ht] at hl
    obtain ⟨hmem, hdot⟩ := mem_of_mem_split hl c hc
    exact (ht c ((dropEndWhile_sublist _ t).subset hmem)).resolve_right hdot
  simp [SuffixRules.registered?, HostParts.registered?, toRules, split,
    suffixSize_eq_zero hs hdigits, ofLabels, join]

theorem sparesNumbers_excerpt : excerpt.sparesNumbers = true := by decide +kernel

end ContentFilter.SuffixTable
