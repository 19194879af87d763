import ContentFilter.Regex.Parser
import ContentFilter.Proofs.Text.CaseFold
import Mathlib.Tactic.Common

/-! # What a written expression is read as

A sequence of items, some of them repeated, is read item by item, when each of them can be told from
a repetition mark by its first character.

* `Regex.chain`: items one after another.
* `Regex.Reads`: a text is read as an item, whatever follows that is no repetition mark.
* `Regex.Spells`: a text is put together from such texts.
* `Regex.Spells.parse`, `Regex.Spells.group`: it is read as the chain of its items.
-/

set_option autoImplicit false

namespace ContentFilter.Regex

open Text

/-! ## Pieces -/

def chain (items : List Regex) : Regex := items.foldr seq empty

def opensItem (c : Char) : Bool := c ∉ ['*', '+', '?', '{', '|', ')']

theorem mark?_of_opensItem {c : Char} (h : opensItem c = true) (rest : Text) :
    mark? (c :: rest) = .ok none := by
  unfold mark?
  split
  case h_5 => rfl
  all_goals
    next heq =>
      obtain ⟨rfl, -⟩ := List.cons.inj heq
      exact absurd h (by decide)

/-- A text is read as an item, and what stands behind it is left. -/
structure Item (depth : Nat) (t : Text) (r : Regex) : Prop where
  opens : ∃ c cs, t = c :: cs ∧ opensItem c = true
  read : ∀ fuel rest, 3 * t.length ≤ fuel → readItem fuel depth (t ++ rest) = .ok (r, rest)

/-- A text is read as an item of a sequence, repeated or not. -/
structure Reads (depth : Nat) (t : Text) (r : Regex) : Prop where
  opens : ∃ c cs, t = c :: cs ∧ opensItem c = true
  read : ∀ fuel rest, 3 * t.length ≤ fuel → mark? rest = .ok none →
    readSequence (fuel + 1) depth (t ++ rest) =
      (readSequence fuel depth rest).map fun p => (seq r p.1, p.2)

/-- A sequence ends here. -/
structure Closes (depth : Nat) (rest : Text) : Prop where
  unmarked : mark? rest = .ok none
  stops : ∀ fuel, readSequence (fuel + 1) depth rest = .ok (empty, rest)

section

variable {depth : Nat}

theorem closes_nil (depth : Nat) : Closes depth [] := ⟨rfl, fun _ => rfl⟩

theorem closes_parenthesis (depth : Nat) (rest : Text) : Closes depth (')' :: rest) :=
  ⟨rfl, fun _ => rfl⟩

theorem readSequence_cons {c : Char} (hc : opensItem c = true) (cs : Text) (fuel depth : Nat) :
    readSequence (fuel + 1) depth (c :: cs) = (do
      let (item, rest) ← readItem fuel depth (c :: cs)
      let (item, rest) ← repeated item rest
      let (others, rest) ← readSequence fuel depth rest
      .ok (seq item others, rest)) := by
  have hbar : c ≠ '|' := by
    rintro rfl
    exact absurd hc (by decide)
  have hclose : c ≠ ')' := by
    rintro rfl
    exact absurd hc (by decide)
  rw [readSequence]
  · exact nofun
  · rintro rest ⟨⟩
    exact hbar rfl
  · rintro rest ⟨⟩
    exact hclose rfl

theorem readGreed_of_unmarked {rest : Text} (h : mark? rest = .ok none) :
    readGreed rest = (.greedy, rest) := by
  unfold readGreed
  split
  · exact absurd h nofun
  · exact absurd h nofun
  · rfl

theorem Item.reads {t : Text} {r : Regex} (h : Item depth t r) : Reads depth t r := by
  refine ⟨h.opens, fun fuel rest hfuel hrest => ?_⟩
  obtain ⟨c, cs, rfl, hc⟩ := h.opens
  have hread := h.read fuel rest hfuel
  rw [List.cons_append] at hread ⊢
  rw [readSequence_cons hc, hread]
  simp only [repeated, hrest, bind, Except.bind]
  cases readSequence fuel depth rest <;> rfl

theorem Item.repeated {t mark : Text} {r : Regex} (h : Item depth t r) (hr : isAnchor r = false)
    {least : Nat} {most : Option Nat}
    (hmark : ∀ rest, mark? (mark ++ rest) = .ok (some (least, most, rest))) :
    Reads depth (t ++ mark) (iterate .greedy least most r) := by
  obtain ⟨c, cs, rfl, hc⟩ := h.opens
  refine ⟨⟨c, cs ++ mark, rfl, hc⟩, fun fuel rest hfuel hrest => ?_⟩
  have hread := h.read fuel (mark ++ rest) (by simp at hfuel ⊢; omega)
  rw [List.append_assoc]
  rw [List.cons_append] at hread ⊢
  rw [readSequence_cons hc, hread]
  simp only [Regex.repeated, hmark, hr, readGreed_of_unmarked hrest, bind, Except.bind,
    Bool.false_eq_true, if_false]
  cases readSequence fuel depth rest <;> rfl

/-! ## Sequences -/

/-- A text is put together from the texts of items. -/
inductive Spells (depth : Nat) : Text → List Regex → Prop where
  | nil : Spells depth [] []
  | cons {t rest : Text} {r : Regex} {items : List Regex} (first : Reads depth t r)
      (others : Spells depth rest items) : Spells depth (t ++ rest) (r :: items)

theorem Reads.spells {t : Text} {r : Regex} (h : Reads depth t r) : Spells depth t [r] := by
  have hone := Spells.cons h .nil
  rwa [List.append_nil] at hone

theorem Item.spells {t : Text} {r : Regex} (h : Item depth t r) : Spells depth t [r] :=
  h.reads.spells

theorem Spells.append {t t' : Text} {items items' : List Regex} (h : Spells depth t items)
    (h' : Spells depth t' items') : Spells depth (t ++ t') (items ++ items') := by
  induction h with
  | nil => exact h'
  | cons first _ ih =>
    rw [List.append_assoc]
    exact .cons first ih

/-- What is put together from the texts of items opens no repetition mark. -/
theorem Spells.mark?_append {t rest : Text} {items : List Regex} (h : Spells depth t items)
    (hrest : mark? rest = .ok none) : mark? (t ++ rest) = .ok none := by
  cases h with
  | nil => exact hrest
  | cons first others =>
    obtain ⟨c, cs, rfl, hc⟩ := first.opens
    exact mark?_of_opensItem hc _

theorem Spells.readSequence_append {t rest : Text} {items : List Regex} (h : Spells depth t items)
    (hrest : Closes depth rest) : ∀ fuel, 3 * t.length < fuel →
      readSequence fuel depth (t ++ rest) = .ok (chain items, rest) := by
  induction h with
  | nil =>
    intro fuel hfuel
    cases fuel with
    | zero => exact absurd hfuel (Nat.not_lt_zero _)
    | succ fuel => exact hrest.stops fuel
  | @cons t behind r items first others ih =>
    intro fuel hfuel
    obtain ⟨c, cs, hopens, -⟩ := first.opens
    have hpos : 0 < t.length := by simp [hopens]
    rw [List.length_append] at hfuel
    obtain ⟨fuel, rfl⟩ : ∃ k, fuel = k + 1 := ⟨fuel - 1, by omega⟩
    have hmark : mark? (behind ++ rest) = .ok none := others.mark?_append hrest.unmarked
    rw [List.append_assoc, first.read fuel _ (by omega) hmark, ih fuel (by omega)]
    rfl

/-- A text put together from the texts of items is read as their chain. -/
theorem Spells.parse {t : Text} {items : List Regex} (h : Spells nestingLimit t items) :
    parse t = .ok (chain items) := by
  have hread := h.readSequence_append (closes_nil nestingLimit) (3 * t.length + 2) (by omega)
  rw [List.append_nil] at hread
  simp only [Regex.parse, readAlternatives, hread, bind, Except.bind]
  rfl

/-- A group is read as what it holds. -/
theorem Spells.group {t : Text} {items : List Regex} (h : Spells depth t items) :
    Item (depth + 1) ('(' :: (t ++ [')'])) (chain items) := by
  refine ⟨⟨'(', _, rfl, rfl⟩, fun fuel rest hfuel => ?_⟩
  simp only [List.length_cons, List.length_append, List.length_nil] at hfuel
  obtain ⟨fuel, rfl⟩ : ∃ k, fuel = k + 2 := ⟨fuel - 2, by omega⟩
  have hread := h.readSequence_append (closes_parenthesis depth rest) fuel (by omega)
  rw [List.cons_append, List.append_assoc, readItem]
  simp only [mark?_of_opensItem (show opensItem '(' = true from rfl), readAlternatives, hread,
    List.cons_append, List.nil_append, bind, Except.bind, Option.isSome_none, Bool.false_eq_true,
    if_false]
  rfl

/-! ## Items -/

/-- An item without items inside. -/
theorem Item.of_readItem {c : Char} {cs : Text} {r : Regex} (hc : opensItem c = true)
    (hread : ∀ fuel rest, readItem (fuel + 1) depth (c :: (cs ++ rest)) = .ok (r, rest)) :
    Item depth (c :: cs) r := by
  refine ⟨⟨c, cs, rfl, hc⟩, fun fuel rest hfuel => ?_⟩
  rw [List.length_cons] at hfuel
  obtain ⟨fuel, rfl⟩ : ∃ k, fuel = k + 1 := ⟨fuel - 1, by omega⟩
  exact hread fuel rest

/-- The characters that can mean something other than themselves. -/
def marks : Text := ['*', '+', '?', '{', '|', ')', '(', '[', '.', '^', '$', '\\']

theorem opensItem_of_notMem_marks {c : Char} (hc : c ∉ marks) : opensItem c = true := by
  have hmarks : ∀ d ∈ ['*', '+', '?', '{', '|', ')'], d ∈ marks := forall_mem_of_all (by decide)
  exact decide_eq_true fun hmem => hc (hmarks c hmem)

theorem item_plain {c : Char} (hc : c ∉ marks) : Item depth [c] (char c) := by
  have hopens := opensItem_of_notMem_marks hc
  refine .of_readItem hopens fun fuel rest => ?_
  rw [List.nil_append, readItem]
  · simp only [mark?_of_opensItem hopens, bind, Except.bind, Option.isSome_none,
      Bool.false_eq_true, if_false]
  -- The other forms of an item open with a mark.
  all_goals
    rintro rfl
    exact absurd hc (by decide)

theorem item_escaped {c : Char} (hc : c.isAlphanum = false) : Item depth ['\\', c] (char c) := by
  refine .of_readItem rfl fun fuel rest => ?_
  rw [List.singleton_append, readItem]
  simp [mark?_of_opensItem (show opensItem '\\' = true from rfl), readEscape, hc, bind, Except.bind]

theorem item_any : Item depth ['.'] any :=
  .of_readItem rfl fun _ _ => rfl

theorem item_start : Item depth ['^'] start :=
  .of_readItem rfl fun _ _ => rfl

theorem item_finish : Item depth ['$'] finish :=
  .of_readItem rfl fun _ _ => rfl

theorem item_noSlash : Item depth ['[', '^', '/', ']'] (set true [('/', '/')]) :=
  .of_readItem rfl fun _ _ => rfl

theorem item_separators : Item depth ['[', '/', ':', '?', ']']
    (set false [('/', '/'), (':', ':'), ('?', '?')]) :=
  .of_readItem rfl fun _ _ => rfl

end

end ContentFilter.Regex
