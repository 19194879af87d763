import ContentFilter.Proofs.Domain.Plain
import ContentFilter.Proofs.Pattern.UrlFilter
import ContentFilter.Proofs.Regex.Rename

/-! # The regular expression for a domain

The rule for a domain accepts the URLs whose host is the domain or ends with a dot and the domain,
whatever the port and the path are. Its expression does not tell a line feed from a space, so that
the path may have line feeds in it.

* `Url.IsWeb`: web addresses with a given host.
* `Pattern.accepts_forDomain_iff`: the addresses that the rule for a domain accepts.
* `Pattern.search_forDomain_iff`: its expression finds something in the same addresses.
-/

set_option autoImplicit false

namespace ContentFilter

open Text Regex Domain

/-! ## Web addresses -/

namespace Url

/-- A colon and digits, or nothing. -/
def IsPort (t : Text) : Prop :=
  t = [] ∨ ∃ digits, t = ':' :: digits ∧ ∀ c ∈ digits, isDigit c = true

/-- A scheme of the web, the host, a port if there is one, and a path. -/
def IsWeb (host url : Text) : Prop := ∃ scheme port path, url = scheme ++ (host ++ (port ++ path)) ∧
  (scheme = "http://".toList ∨ scheme = "https://".toList) ∧ IsPort port ∧ path.head? = some '/'

end Url

/-! ## Letters of plain names -/

theorem fold_eq_self {c : Char} (hc : IsPlainChar c) : fold c = c := by
  rw [fold, if_pos hc.ascii.1]
  exact toLower_eq_self hc.ascii.2

theorem sameLetter_plain {c d : Char} (hc : IsPlainChar c) (hd : IsPlainChar d) :
    sameLetter c d = true ↔ c = d := by
  rw [sameLetter, fold_eq_self hc, fold_eq_self hd, decide_eq_true_iff]

theorem sameLetters_plain {t part : Text} (h : SameLetters t part) (ht : ∀ c ∈ t, IsPlainChar c)
    (hpart : ∀ c ∈ part, IsPlainChar c) : t = part := by
  induction h with
  | nil => rfl
  | cons hletter _ ih =>
    obtain ⟨hc, ht⟩ := List.forall_mem_cons.mp ht
    obtain ⟨hd, hpart⟩ := List.forall_mem_cons.mp hpart
    rw [(sameLetter_plain hc hd).mp hletter, ih ht hpart]

namespace Pattern

/-! ## Plain patterns -/

theorem tokens_of_isPlainName {d : Text} (hd : IsPlainName d) : tokens d = d.map .literal :=
  have hmarks : ∀ c ∈ ['\\', '*', '^'], ¬ IsPlainChar c := forall_mem_of_all (by decide)
  tokens_eq_map fun c hc => hd.notMem (hmarks c hc)

theorem notMem_separators {d : Text} (hd : IsPlainName d) : ∀ c ∈ ['/', ':', '?'], c ∉ d :=
  have hmarks : ∀ c ∈ ['/', ':', '?'], ¬ IsPlainChar c := forall_mem_of_all (by decide)
  fun c hc => hd.notMem (hmarks c hc)

/-! ## Line feeds -/

/-- A space for a line feed, and any other character for itself. -/
def spaced (c : Char) : Char := if c = '\n' then ' ' else c

theorem spaced_eq_self {c : Char} (hc : c ≠ '\n') : spaced c = c := if_neg hc

theorem map_spaced {t : Text} (ht : '\n' ∉ t) : t.map spaced = t := by
  have hself : t.map spaced = t.map id :=
    List.map_congr_left fun c hc => spaced_eq_self fun heq => ht (heq ▸ hc)
  rw [hself, List.map_id]

theorem notMem_map_spaced (t : Text) : '\n' ∉ t.map spaced := by
  simp only [List.mem_map, not_exists, not_and]
  intro c _ heq
  unfold spaced at heq
  split at heq
  · exact absurd heq (by decide)
  · contradiction

theorem apply_spaced {p : Char → Bool} (h : p ' ' = p '\n') (d : Char) : p (spaced d) = p d := by
  unfold spaced
  split
  next hd => rw [hd, h]
  next => rfl

theorem blind_char {c : Char} (hfeed : c ≠ '\n') (hspace : c ≠ ' ') :
    (Regex.char c).Blind spaced := by
  refine apply_spaced (p := sameLetter c) ?_
  have hnone : ∀ p, IsMark p → c ≠ p → sameLetter c p = false := fun p hp hc => by
    rw [sameLetter_comm, Bool.eq_false_iff, ne_eq, sameLetter_mark hp]
    exact hc
  rw [hnone '\n' (by decide) hfeed, hnone ' ' (by decide) hspace]

theorem blind_chain {f : Char → Char} {items : List Regex} (h : ∀ r ∈ items, r.Blind f) :
    (chain items).Blind f := by
  induction items with
  | nil => trivial
  | cons r rs ih => exact ⟨h r (by simp), ih fun q hq => h q (by simp [hq])⟩

theorem blind_letters {t : Text} (hfeed : '\n' ∉ t) (hspace : ' ' ∉ t) :
    ∀ r ∈ t.map Regex.char, r.Blind spaced := by
  intro r hr
  obtain ⟨c, hc, rfl⟩ := List.mem_map.mp hr
  exact blind_char (fun heq => hfeed (heq ▸ hc)) fun heq => hspace (heq ▸ hc)

theorem blind_schemeItems : ∀ r ∈ schemeItems, r.Blind spaced := by
  rw [schemeItems]
  refine List.forall_mem_append.mpr ⟨blind_letters (by decide) (by decide), ?_⟩
  refine List.forall_mem_append.mpr ⟨?_, blind_letters (by decide) (by decide)⟩
  exact List.forall_mem_singleton.mpr ⟨nofun, blind_char (by decide) (by decide)⟩

theorem blind_labelItems : ∀ r ∈ labelItems, r.Blind spaced := by
  rw [labelItems]
  refine List.forall_mem_cons.mpr ⟨⟨nofun, ?_⟩, List.forall_mem_singleton.mpr ?_⟩
  · exact apply_spaced (by decide)
  · exact blind_char (by decide) (by decide)

/-- The expression for a domain does not tell a line feed from a space. -/
theorem blind_forDomain {d : Text} (hd : IsPlainName d) :
    (chain (anchored true false (innerItems (NetworkRule.forDomain d)))).Blind spaced := by
  have hletters : (tokens d).map Token.regex = d.map Regex.char := by
    rw [tokens_of_isPlainName hd, List.map_map]
    rfl
  have hlead : ∀ r ∈ leadItems .domain, r.Blind spaced := by
    refine List.forall_mem_append.mpr ⟨blind_schemeItems, List.forall_mem_singleton.mpr ⟨nofun, ?_⟩⟩
    exact blind_chain blind_labelItems
  have hseparator : separatorSet.Blind spaced := apply_spaced (by decide)
  have hitems : anchored true false (innerItems (NetworkRule.forDomain d)) =
      start :: (leadItems .domain ++ (d.map Regex.char ++ [separatorSet])) := by
    simp [anchored, innerItems, NetworkRule.forDomain, hletters]
  rw [hitems]
  refine blind_chain (List.forall_mem_cons.mpr ⟨trivial, ?_⟩)
  refine List.forall_mem_append.mpr ⟨hlead, List.forall_mem_append.mpr ⟨?_, ?_⟩⟩
  · exact blind_letters (hd.notMem (by decide)) (hd.notMem (by decide))
  · exact List.forall_mem_singleton.mpr hseparator

end Pattern

/-! ## The parts of an address -/

namespace Url

theorem IsWeb.map_spaced {host url : Text} (hhost : IsPlainName host) (h : IsWeb host url) :
    IsWeb host (url.map Pattern.spaced) := by
  obtain ⟨scheme, port, path, rfl, hscheme, hport, hpath⟩ := h
  have hschemeFeed : '\n' ∉ scheme := by rcases hscheme with rfl | rfl <;> decide
  have hportFeed : '\n' ∉ port := by
    rcases hport with rfl | ⟨digits, rfl, hdigits⟩
    · exact List.not_mem_nil
    · rw [List.mem_cons, not_or]
      exact ⟨by decide, fun hmem => absurd (hdigits _ hmem) (by decide)⟩
  refine ⟨scheme, port, path.map Pattern.spaced, ?_, hscheme, hport, ?_⟩
  · simp only [List.map_append, Pattern.map_spaced hschemeFeed,
      Pattern.map_spaced (hhost.notMem (by decide)), Pattern.map_spaced hportFeed]
  · rw [List.head?_map, hpath]
    rfl

end Url

namespace Pattern

theorem sameLetter_behind_http {c d : Char} {more scheme rest rest' : Text}
    (hscheme : SameLetters ("http".toList ++ c :: more) scheme)
    (h : scheme ++ rest' = "http".toList ++ d :: rest) : sameLetter c d = true := by
  obtain ⟨p, q, rfl, hp, hq⟩ := sameLetters_append.mp hscheme
  obtain ⟨e, q, hletter, -, rfl⟩ := List.forall₂_cons_left_iff.mp hq
  rw [List.append_assoc] at h
  obtain ⟨-, hbehind⟩ := List.append_inj h hp.length_eq.symm
  obtain ⟨rfl, -⟩ := List.cons.inj hbehind
  exact hletter

/-- An address has one scheme only. -/
theorem scheme_unique {scheme scheme' rest rest' : Text}
    (hscheme : scheme = "http://".toList ∨ scheme = "https://".toList) (hscheme' : IsScheme scheme')
    (h : scheme' ++ rest' = scheme ++ rest) : scheme' = scheme ∧ rest' = rest := by
  rcases hscheme with rfl | rfl
  · rcases hscheme' with hhttp | hhttps
    · exact List.append_inj h hhttp.length_eq.symm
    · exact absurd (sameLetter_behind_http hhttps h) (by decide)
  · rcases hscheme' with hhttp | hhttps
    · exact absurd (sameLetter_behind_http hhttp h) (by decide)
    · exact List.append_inj h hhttps.length_eq.symm

/-- Labels and a part without separators, with a separator behind them, are the host of an address:
the colon before a port cannot be among the labels, since no dot stands behind it. -/
theorem labels_append_eq_host {host port path labels part after : Text} {g : Char}
    (hhost : ∀ c ∈ ['/', ':', '?'], c ∉ host) (hport : Url.IsPort port)
    (hpath : path.head? = some '/') (hlabels : labels = [] ∨ IsLabels labels)
    (hpart : ∀ c ∈ ['/', ':', '?'], c ∉ part) (hg : IsSeparator g)
    (h : labels ++ (part ++ g :: after) = host ++ (port ++ path)) : labels ++ part = host := by
  obtain ⟨tail, rfl⟩ := List.head?_eq_some_iff.mp hpath
  have hgap : g ∉ host := hhost g (by simpa [IsSeparator] using hg)
  rcases hport with rfl | ⟨digits, rfl, hdigits⟩
  · have hslash : '/' ∉ labels := by
      rcases hlabels with rfl | ⟨l, rfl, -, hl⟩
      · exact List.not_mem_nil
      · simp [hl]
    have hsplit : (labels ++ part) ++ g :: after = host ++ '/' :: tail := by simpa using h
    exact (eq_of_append_cons_eq (by simp [hslash, hpart]) hgap hsplit).1
  · have hcolon : ':' ∉ labels := by
      intro hmem
      rcases hlabels with rfl | ⟨l, rfl, -, hl⟩
      · exact absurd hmem List.not_mem_nil
      have hmem' : ':' ∈ l := by simpa using hmem
      obtain ⟨l₁, l₂, rfl, hl₁⟩ := List.eq_append_cons_of_mem hmem'
      have hhead : l₁ ++ ':' :: (l₂ ++ '.' :: (part ++ g :: after)) =
          host ++ ':' :: (digits ++ '/' :: tail) := by simpa using h
      obtain ⟨-, -, htail⟩ := eq_of_append_cons_eq hl₁ (hhost ':' (by simp)) hhead
      have hdot : '.' ∉ digits := fun hdigit => absurd (hdigits '.' hdigit) (by decide)
      have hslash : '/' ∉ l₂ := fun hin => hl (by simp [hin])
      exact absurd (eq_of_append_cons_eq hslash hdot htail).2.1 (by decide)
    have hsplit : (labels ++ part) ++ g :: after = host ++ ':' :: (digits ++ '/' :: tail) := by
      simpa using h
    exact (eq_of_append_cons_eq (by simp [hcolon, hpart]) hgap hsplit).1

/-! ## What the expression finds -/

section

variable {d host url : Text}

/-- A colon or a slash stands behind the host of an address. -/
theorem exists_separator_behind_host {port path : Text} (hport : Url.IsPort port)
    (hpath : path.head? = some '/') : ∃ g after, port ++ path = g :: after ∧ IsSeparator g := by
  rcases hport with rfl | ⟨digits, rfl, -⟩
  · obtain ⟨tail, rfl⟩ := List.head?_eq_some_iff.mp hpath
    exact ⟨'/', tail, rfl, .inl rfl⟩
  · exact ⟨':', digits ++ path, rfl, .inr (.inl rfl)⟩

/-- The rule for a domain accepts the addresses of the domain and of all names that end with a dot
and the domain. -/
theorem accepts_forDomain_iff (hd : IsPlainName d) (hhost : IsPlainName host)
    (hurl : Url.IsWeb host url) :
    (NetworkRule.forDomain d).Accepts url ↔ host = d ∨ '.' :: d <:+ host := by
  obtain ⟨scheme, port, path, rfl, hscheme, hport, hpath⟩ := hurl
  constructor
  · rintro ⟨_, part, _, after, heq, hadmits, hpart, ⟨g, rfl, hg⟩, -⟩
    obtain ⟨scheme', labels, rfl, hscheme', hlabels⟩ := hadmits
    have hletters : SameLetters d part := by
      rwa [NetworkRule.forDomain, tokens_of_isPlainName hd, matches_literals] at hpart
    have hmarks : ∀ c ∈ ['/', ':', '?'], c ∉ part := fun c hc =>
      have hmark : ∀ c ∈ ['/', ':', '?'], IsMark c := forall_mem_of_all (by decide)
      notMem_of_sameLetters hletters (hmark c hc) (notMem_separators hd c hc)
    have hbehind : scheme' ++ (labels ++ (part ++ g :: after)) =
        scheme ++ (host ++ (port ++ path)) := by simpa using heq.symm
    obtain ⟨rfl, hrest⟩ := scheme_unique hscheme hscheme' hbehind
    obtain rfl : labels ++ part = host :=
      labels_append_eq_host (notMem_separators hhost) hport hpath hlabels hmarks hg hrest
    obtain rfl : d = part := sameLetters_plain hletters (fun c hc => hd.isPlainChar hc)
      fun c hc => hhost.isPlainChar (List.mem_append_right labels hc)
    rcases hlabels with rfl | ⟨l, rfl, -, -⟩
    · exact .inl rfl
    · exact .inr ⟨l, by simp⟩
  · intro hcovered
    obtain ⟨g, after, hrest, hg⟩ := exists_separator_behind_host hport hpath
    have haccepts : ∀ labels, labels = [] ∨ IsLabels labels → host = labels ++ d →
        (NetworkRule.forDomain d).Accepts (scheme ++ (host ++ (port ++ path))) := by
      intro labels hlabels hsplit
      refine ⟨scheme ++ labels, d, [g], after, by simp [hsplit, hrest], ?_, ?_, ⟨g, rfl, hg⟩, nofun⟩
      · exact ⟨scheme, labels, rfl, hscheme.imp sameLetters_of_eq sameLetters_of_eq, hlabels⟩
      · rw [NetworkRule.forDomain, tokens_of_isPlainName hd, matches_literals]
        exact sameLetters_of_eq rfl
    rcases hcovered with rfl | ⟨above, rfl⟩
    · exact haccepts [] (.inl rfl) rfl
    · refine haccepts (above ++ ['.']) (.inr ⟨above, rfl, ?_, ?_⟩) (by simp)
      · rintro rfl
        exact hhost.head?_ne_dot rfl
      · exact fun hslash => notMem_separators hhost '/' (by simp) (List.mem_append_left _ hslash)

/-- The expression for the rule of a domain can be read, and it finds something in the addresses of
the domain and of all names that end with a dot and the domain. -/
theorem search_forDomain_iff (hd : IsPlainName d) :
    ∃ re, Regex.parse (NetworkRule.forDomain d).urlFilter = .ok re ∧ ∀ {host url : Text},
      IsPlainName host → Url.IsWeb host url →
        (re.search url = true ↔ host = d ∨ '.' :: d <:+ host) := by
  have hcomplete : isComplete (NetworkRule.forDomain d).pattern = true :=
    isComplete_of_notMem (hd.notMem (by decide))
  have hread : Spells nestingLimit (NetworkRule.forDomain d).urlFilter _ :=
    spells_urlFilter hcomplete
  refine ⟨_, hread.parse, fun {host url} hhost hurl => ?_⟩
  have hspaced := search_map (blind_forDomain hd) url
  rw [← accepts_forDomain_iff hd hhost (hurl.map_spaced hhost),
    ← search_items_iff_accepts _ (notMem_map_spaced url)]
  exact Bool.eq_iff_iff.mp hspaced.symm

end

end Pattern

end ContentFilter
