import ContentFilter.Proofs.Regex.Match
import ContentFilter.Record.Basic

/-! # The tokens of a pattern

A pattern is read from left to right as tokens, and each of them is written as one item of a regular
expression, so that the expression takes exactly what the tokens match.

* `Pattern.tokens`: the tokens of a pattern.
* `Pattern.Matches`: the texts that tokens match.
* `Pattern.tokens_eq_map`, `Pattern.matches_literals`: patterns of literals.
* `Pattern.spells_toRegex`: the expression for a pattern is put together from those for its tokens.
* `Pattern.takes_tokens`: it takes the texts that the tokens match.
-/

set_option autoImplicit false

namespace ContentFilter.Pattern

open Text Regex

/-! ## Tokens -/

/-- What a pattern is made of. -/
inductive Token where
  | literal (c : Char)
  | run
  | separator
  deriving DecidableEq, Repr

/-- What a character stands for that no backslash precedes. -/
def Token.ofChar (c : Char) : Token :=
  if c = '*' then .run else if c = '^' then .separator else .literal c

/-- The tokens of a pattern. -/
def tokens : Text → List Token
  | [] => []
  | '\\' :: c :: cs => .literal c :: tokens cs
  | c :: cs => .ofChar c :: tokens cs

/-- Whether every backslash that is not itself behind one has a character behind it. -/
def isComplete : Text → Bool
  | [] => true
  | '\\' :: _ :: cs => isComplete cs
  | c :: cs => c != '\\' && isComplete cs

/-! ## Matching -/

/-- The characters that a separator can be. -/
def IsSeparator (c : Char) : Prop := c = '/' ∨ c = ':' ∨ c = '?'

/-- The texts that tokens match: literals stand for their letter in either case, and runs for any
text. -/
inductive Matches : List Token → Text → Prop where
  | nil : Matches [] []
  | literal {c d : Char} {others : List Token} {t : Text} (letter : sameLetter c d = true)
      (rest : Matches others t) : Matches (.literal c :: others) (d :: t)
  | run {others : List Token} {t : Text} (skipped : Text) (rest : Matches others t) :
      Matches (.run :: others) (skipped ++ t)
  | separator {d : Char} {others : List Token} {t : Text} (separates : IsSeparator d)
      (rest : Matches others t) : Matches (.separator :: others) (d :: t)

/-! ## Literals -/

section

variable {t : Text}

theorem isComplete_of_notMem (h : '\\' ∉ t) : isComplete t = true := by
  induction t using isComplete.induct with
  | case1 => rfl
  | case2 c cs ih => exact absurd List.mem_cons_self h
  | case3 c cs hescape ih =>
    rw [List.mem_cons, not_or] at h
    rw [isComplete, ih h.2, Bool.and_true, bne_iff_ne]
    · exact fun hc => h.1 hc.symm
    · exact hescape

theorem tokens_eq_map (h : ∀ c ∈ ['\\', '*', '^'], c ∉ t) : tokens t = t.map .literal := by
  induction t using tokens.induct with
  | case1 => rfl
  | case2 c cs ih => exact absurd List.mem_cons_self (h '\\' (by simp))
  | case3 c cs hescape ih =>
    have hother : ∀ d ∈ ['\\', '*', '^'], d ≠ c ∧ d ∉ cs := fun d hd => by
      simpa only [List.mem_cons, not_or] using h d hd
    have hliteral : Token.ofChar c = .literal c := by
      rw [Token.ofChar, if_neg (hother '*' (by simp)).1.symm, if_neg (hother '^' (by simp)).1.symm]
    rw [tokens, hliteral, ih fun d hd => (hother d hd).2, List.map_cons]
    exact hescape

theorem matches_literals {part : Text} : Matches (t.map .literal) part ↔ SameLetters t part := by
  induction t generalizing part with
  | nil =>
    rw [SameLetters, List.forall₂_nil_left_iff]
    constructor
    · rintro ⟨⟩
      rfl
    · rintro rfl
      exact .nil
  | cons c cs ih =>
    rw [SameLetters, List.forall₂_cons_left_iff, List.map_cons]
    constructor
    · rintro (_ | ⟨hletter, hrest⟩)
      exact ⟨_, _, hletter, ih.mp hrest, rfl⟩
    · rintro ⟨d, rest, hletter, hrest, rfl⟩
      exact .literal hletter (ih.mpr hrest)

end

/-! ## Expressions -/

def separatorSet : Regex := .set false (['/', ':', '?'].map fun c => (c, c))

def Token.regex : Token → Regex
  | literal c => .char c
  | run => .iterate .greedy 0 none .any
  | separator => separatorSet

theorem isAlphanum_of_not_isAlphanumeric {c : Char} (hc : isAlphanumeric c = false) :
    c.isAlphanum = false := by
  by_cases hascii : c.toNat < 0x80
  · rwa [isAlphanumeric, if_pos hascii] at hc
  · have hval : c.val.toNat = c.toNat := rfl
    delta Char.isAlphanum Char.isAlpha Char.isUpper Char.isLower Char.isDigit
    simp [UInt32.le_iff_toNat_le]
    omega

theorem notMem_marks_of_isAlphanumeric {c : Char} (hc : isAlphanumeric c = true) : c ∉ marks := by
  intro hmem
  have hmarks : ∀ d ∈ marks, isAlphanumeric d = false := forall_mem_of_all (by decide)
  rw [hmarks c hmem] at hc
  exact absurd hc Bool.false_ne_true

theorem notMem_marks_of_not_special {c : Char} (hspecial : c ∉ specials) (hrun : c ≠ '*')
    (hseparator : c ≠ '^') (hescape : c ≠ '\\') : c ∉ marks := by
  intro hmem
  have hmarks : ∀ d ∈ marks, d ∈ specials ∨ d = '*' ∨ d = '^' ∨ d = '\\' :=
    forall_mem_of_all (by decide)
  obtain h | h | h | h := hmarks c hmem
  · exact hspecial h
  · exact hrun h
  · exact hseparator h
  · exact hescape h

section

variable {depth : Nat}

theorem item_separatorText : Item depth separators separatorSet := item_separators

/-- An escaped character is written as the literal it stands for. -/
theorem item_literal (c : Char) :
    Item depth (if isAlphanumeric c then [c] else ['\\', c]) (.char c) := by
  by_cases hc : isAlphanumeric c = true
  · rw [if_pos hc]
    exact item_plain (notMem_marks_of_isAlphanumeric hc)
  · rw [if_neg hc]
    exact item_escaped (isAlphanum_of_not_isAlphanumeric (by simpa using hc))

theorem reads_expand {c : Char} (hc : c ≠ '\\') :
    Reads depth (expand c) (Token.ofChar c).regex := by
  unfold expand Token.ofChar
  by_cases hrun : c = '*'
  · rw [if_pos hrun, if_pos hrun]
    exact item_any.repeated rfl fun rest => rfl
  rw [if_neg hrun, if_neg hrun]
  by_cases hseparator : c = '^'
  · rw [if_pos hseparator, if_pos hseparator]
    exact item_separatorText.reads
  rw [if_neg hseparator, if_neg hseparator]
  by_cases hspecial : c ∈ specials
  · rw [if_pos (List.contains_iff_mem.mpr hspecial)]
    have halphanum : ∀ d ∈ specials, d.isAlphanum = false := forall_mem_of_all (by decide)
    exact (item_escaped (halphanum c hspecial)).reads
  · rw [if_neg (by simpa using hspecial)]
    exact (item_plain (notMem_marks_of_not_special hspecial hrun hseparator hc)).reads

theorem spells_toRegex {t : Text} (ht : isComplete t = true) :
    Spells depth (toRegex t) ((tokens t).map Token.regex) := by
  induction t using toRegex.induct with
  | case1 => exact .nil
  | case2 c cs ih =>
    rw [isComplete] at ht
    exact .cons (item_literal c).reads (ih ht)
  | case3 c cs hescape ih =>
    have hparts : (c != '\\' && isComplete cs) = true := by
      rw [← ht, isComplete]
      exact hescape
    obtain ⟨hc, hcs⟩ := Bool.and_eq_true_iff.mp hparts
    rw [toRegex, tokens]
    · exact .cons (reads_expand (bne_iff_ne.mp hc)) (ih hcs)
    · exact hescape
    · exact hescape

end

/-! ## What the expressions take -/

section

variable {size : Nat}

theorem takes_separatorSet :
    Takes size (Regex.run size separatorSet) fun part => ∃ d, part = [d] ∧ IsSeparator d := by
  refine (takes_step _).congr fun part _ => exists_congr fun d => and_congr_right fun _ => ?_
  have hset : inSet (['/', ':', '?'].map fun c => (c, c)) d = true ↔ d ∈ ['/', ':', '?'] :=
    inSet_marks (forall_mem_of_all (by decide)) d
  rw [bne_iff_ne, ne_eq, Bool.not_eq_false, hset, IsSeparator]
  simp only [List.mem_cons, List.not_mem_nil, or_false]

/-- The expressions for tokens take what the tokens match. -/
theorem takes_tokens (ts : List Token) :
    Takes size (Regex.run size (chain (ts.map Token.regex))) (Matches ts) := by
  induction ts with
  | nil =>
    refine takes_empty.congr fun part _ => ?_
    constructor
    · rintro rfl
      exact .nil
    · rintro ⟨⟩
      rfl
  | cons t ts ih =>
    cases t with
    | literal c =>
      refine (takes_seq (takes_step (sameLetter c)) ih).congr fun part _ => ?_
      constructor
      · rintro ⟨_, q, rfl, ⟨d, rfl, hd⟩, hq⟩
        exact .literal hd hq
      · intro hpart
        cases hpart with
        | @literal _ d _ t hd ht => exact ⟨[d], t, rfl, ⟨d, rfl, hd⟩, ht⟩
    | run =>
      refine (takes_seq (takes_many _ rfl 0) ih).congr fun part hline => ?_
      constructor
      · rintro ⟨p, q, rfl, -, hq⟩
        exact .run p hq
      · intro hpart
        cases hpart with
        | @run _ t skipped ht =>
          refine ⟨skipped, t, rfl, ⟨Nat.zero_le _, fun d hd => ?_⟩, ht⟩
          rw [bne_iff_ne]
          rintro rfl
          exact hline (List.mem_append_left _ hd)
    | separator =>
      refine (takes_seq takes_separatorSet ih).congr fun part _ => ?_
      constructor
      · rintro ⟨_, q, rfl, ⟨d, rfl, hd⟩, hq⟩
        exact .separator hd hq
      · intro hpart
        cases hpart with
        | @separator d _ t hd ht => exact ⟨[d], t, rfl, ⟨d, rfl, hd⟩, ht⟩

end

end ContentFilter.Pattern
