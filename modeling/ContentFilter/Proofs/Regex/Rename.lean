import ContentFilter.Regex.Basic
import Mathlib.Tactic.Common

/-! # Characters that an expression does not tell apart

An expression that treats a character as it treats another one finds something in a text exactly
when it finds something in the text with the one put for the other.

* `Regex.Blind`: expressions that do not tell the new characters from the old ones.
* `Regex.search_map`: such an expression finds something in both texts or in none.
-/

set_option autoImplicit false

namespace ContentFilter.Regex

open Text

/-- An expression that treats every character as it treats the one that is put for it. A repetition
that keeps what it took is no such expression: where its rounds end is not looked at here. -/
def Blind (f : Char → Char) : Regex → Prop
  | empty => True
  | char c => ∀ d, sameLetter c (f d) = sameLetter c d
  | any => ∀ d, f d = '\n' ↔ d = '\n'
  | set _ ranges => ∀ d, inSet ranges (f d) = inSet ranges d
  | start => True
  | finish => ∀ d, f d = '\n' ↔ d = '\n'
  | seq first second => first.Blind f ∧ second.Blind f
  | alt first second => first.Blind f ∧ second.Blind f
  | iterate greed _ _ body => greed ≠ .possessive ∧ body.Blind f

def Place.map (f : Char → Char) (p : Place) : Place := ⟨p.offset, p.rest.map f⟩

variable {f : Char → Char}

/-- Continuations that succeed at the same places. -/
def Agree (f : Char → Char) (go go' : Place → Option Place) : Prop :=
  ∀ p, (go' (p.map f)).isSome = (go p).isSome

theorem agree_some : Agree f some some := fun _ => rfl

theorem agree_none : Agree f (fun _ => none) fun _ => none := fun _ => rfl

/-- A matcher that succeeds at the same places when what follows does. -/
def Ignores (f : Char → Char) (m : Matcher) : Prop :=
  ∀ (here : Place) {go go' : Place → Option Place}, Agree f go go' →
    (m (here.map f) go').isSome = (m here go).isSome

theorem Agree.ite {go go' other other' : Place → Option Place} (hgo : Agree f go go')
    (hother : Agree f other other') (n : Nat) :
    Agree f (fun p => if p.offset = n then go p else other p)
      fun p => if p.offset = n then go' p else other' p := by
  intro p
  show (if p.offset = n then go' (p.map f) else other' (p.map f)).isSome =
    (if p.offset = n then go p else other p).isSome
  split
  · exact hgo p
  · exact hother p

/-! ## Single characters -/

theorem ignores_step {p : Char → Bool} (hp : ∀ d, p (f d) = p d) : Ignores f (step p) := by
  intro here go go' hgo
  obtain ⟨offset, rest⟩ := here
  cases rest with
  | nil => rfl
  | cons c cs =>
    simp only [step, Place.map, List.map_cons, hp]
    split
    · exact hgo ⟨offset + 1, cs⟩
    · rfl

theorem atFinish_map (hf : ∀ d, f d = '\n' ↔ d = '\n') (here : Place) :
    atFinish (here.map f) = atFinish here := by
  obtain ⟨offset, rest⟩ := here
  rw [Bool.eq_iff_iff]
  simp [atFinish, Place.map, List.map_eq_cons_iff, hf]

/-! ## Repetition -/

theorem Ignores.canStay_map {m : Matcher} (hm : Ignores f m) (here : Place) :
    canStay m (here.map f) = canStay m here :=
  hm here (agree_some.ite agree_none here.offset)

theorem Ignores.rounds {m : Matcher} (hm : Ignores f m) (lazily : Bool)
    {go go' : Place → Option Place} (hgo : Agree f go go') (fuel needed : Nat)
    (allowed : Option Nat) (here : Place) :
    (Regex.rounds m lazily go' fuel needed allowed (here.map f)).isSome =
      (Regex.rounds m lazily go fuel needed allowed here).isSome := by
  induction fuel generalizing needed allowed here with
  | zero => rfl
  | succ fuel ih =>
    rw [Regex.rounds, Regex.rounds, hm.canStay_map]
    cases oneLess? allowed with
    | none =>
      dsimp only
      split
      · exact hgo here
      · rfl
    | some left =>
      -- behind a round that moves on come the other rounds, behind one that does not the rest
      have hleft : Agree f (fun _ => go here) fun _ => go' (here.map f) := fun _ => hgo here
      have hround := hm here (hleft.ite
        (ih (if needed = 0 || canStay m here then 0 else needed - 1) left) here.offset)
      dsimp only
      split
      · split
        · simp only [Option.orElse_eq_or, Option.isSome_or, hgo here]
          exact congrArg _ hround
        · simp only [Option.orElse_eq_or, Option.isSome_or, hgo here]
          exact congrArg (· || _) hround
      · exact hround

/-! ## Expressions -/

theorem ignores_run {r : Regex} (hr : r.Blind f) (size : Nat) : Ignores f (run size r) := by
  induction r with
  | empty => exact fun here _ _ hgo => hgo here
  | char c => exact ignores_step hr
  | any =>
    refine ignores_step fun d => ?_
    rw [Bool.eq_iff_iff, bne_iff_ne, bne_iff_ne, ne_eq, hr d]
  | set negated ranges => exact ignores_step fun d => by rw [hr d]
  | start =>
    intro here go go' hgo
    exact hgo.ite agree_none 0 here
  | finish =>
    intro here go go' hgo
    simp only [run, atFinish_map hr]
    split
    · exact hgo here
    · rfl
  | seq first second ihfirst ihsecond =>
    exact fun here go go' hgo => ihfirst hr.1 here fun p => ihsecond hr.2 p hgo
  | alt first second ihfirst ihsecond =>
    intro here go go' hgo
    simp only [run, Option.orElse_eq_or, Option.isSome_or, ihfirst hr.1 here hgo,
      ihsecond hr.2 here hgo]
  | iterate greed least most body ih =>
    intro here go go' hgo
    cases greed with
    | greedy => exact (ih hr.2).rounds false hgo (size + 1) least most here
    | lazy => exact (ih hr.2).rounds true hgo (size + 1) least most here
    | possessive => exact absurd rfl hr.1

/-! ## Searching -/

theorem searchFrom_map {r : Regex} (hr : r.Blind f) (size offset : Nat) (cs : Text) :
    r.searchFrom size offset (cs.map f) = r.searchFrom size offset cs := by
  have hhere : ∀ offset cs, (run size r ⟨offset, cs.map f⟩ some).isSome =
      (run size r ⟨offset, cs⟩ some).isSome := fun offset cs =>
    ignores_run hr size ⟨offset, cs⟩ agree_some
  induction cs generalizing offset with
  | nil => rfl
  | cons c cs ih =>
    have hcons := hhere offset (c :: cs)
    rw [List.map_cons] at hcons ⊢
    rw [searchFrom, searchFrom, hcons, ih]

/-- An expression that does not tell the new characters from the old ones finds something in both
texts or in none. -/
theorem search_map {r : Regex} (hr : r.Blind f) (t : Text) : r.search (t.map f) = r.search t := by
  rw [search, search, List.length_map, searchFrom_map hr]

end ContentFilter.Regex
