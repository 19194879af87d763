/-! # Finite sets in ascending order

A finite set is kept as the list of its members in strictly ascending order, so two sets with the
same members are equal as values.

* `SortedSet`: the type, with `SortedSet.ofList`, `SortedSet.insert`, `SortedSet.map` and membership.
* `SortedSet.mem_insert`, `SortedSet.mem_ofList`: what the sets hold.
* `SortedSet.ext`: sets with the same members are equal.
* `SortedSet.ofList_toList`: listing the members and collecting them again gives the same set.
-/

set_option autoImplicit false

namespace ContentFilter

open Std

/-- A finite set, as the list of its members in strictly ascending order. -/
structure SortedSet (α : Type) [Ord α] where
  toList : List α
  sorted : toList.Pairwise fun a b => compare a b = .lt
  deriving DecidableEq

namespace SortedSet

variable {α : Type} [Ord α]

def empty : SortedSet α := ⟨[], .nil⟩

instance : EmptyCollection (SortedSet α) := ⟨empty⟩

instance : Inhabited (SortedSet α) := ⟨empty⟩

instance : Membership α (SortedSet α) := ⟨fun s a => a ∈ s.toList⟩

instance [DecidableEq α] (a : α) (s : SortedSet α) : Decidable (a ∈ s) :=
  inferInstanceAs (Decidable (a ∈ s.toList))

def isEmpty (s : SortedSet α) : Bool := s.toList.isEmpty

/-- Puts a member at its place in an ascending list. -/
def insertInto (a : α) : List α → List α
  | [] => [a]
  | b :: bs => match compare a b with
    | .lt => a :: b :: bs
    | .eq => b :: bs
    | .gt => b :: insertInto a bs

theorem mem_of_mem_insertInto {a x : α} {l : List α} (h : x ∈ insertInto a l) : x = a ∨ x ∈ l := by
  induction l with
  | nil => simpa [insertInto] using h
  | cons b bs ih =>
    unfold insertInto at h
    split at h
    · simpa using h
    · exact .inr h
    · rcases List.mem_cons.1 h with rfl | h
      · simp
      · rcases ih h with rfl | h
        · exact .inl rfl
        · simp [h]

theorem pairwise_insertInto [TransOrd α] (a : α) {l : List α}
    (hl : l.Pairwise fun x y => compare x y = .lt) :
    (insertInto a l).Pairwise fun x y => compare x y = .lt := by
  induction l with
  | nil => simp [insertInto]
  | cons b bs ih =>
    obtain ⟨hb, hbs⟩ := List.pairwise_cons.1 hl
    unfold insertInto
    split
    next h =>
      refine List.pairwise_cons.2 ⟨fun x hx => ?_, hl⟩
      rcases List.mem_cons.1 hx with rfl | hx
      · exact h
      · exact TransCmp.lt_trans h (hb x hx)
    next => exact hl
    next h =>
      refine List.pairwise_cons.2 ⟨fun x hx => ?_, ih hbs⟩
      rcases mem_of_mem_insertInto hx with rfl | hx
      · exact OrientedCmp.lt_of_gt h
      · exact hb x hx

theorem mem_toList {a : α} {s : SortedSet α} : a ∈ s.toList ↔ a ∈ s := Iff.rfl

theorem not_mem_empty (a : α) : a ∉ (empty : SortedSet α) := List.not_mem_nil

theorem mem_insertInto [LawfulEqOrd α] {a x : α} {l : List α} :
    x ∈ insertInto a l ↔ x = a ∨ x ∈ l := by
  refine ⟨mem_of_mem_insertInto, fun h => ?_⟩
  induction l with
  | nil => simpa [insertInto] using h
  | cons b bs ih =>
    unfold insertInto
    split
    next => simpa using h
    next he =>
      have hab : a = b := LawfulEqCmp.eq_of_compare he
      subst hab
      rcases h with rfl | h
      · simp
      · exact h
    next =>
      rcases h with rfl | h
      · exact List.mem_cons_of_mem _ (ih (.inl rfl))
      · rcases List.mem_cons.1 h with rfl | h
        · simp
        · exact List.mem_cons_of_mem _ (ih (.inr h))

variable [TransOrd α]

def insert (a : α) (s : SortedSet α) : SortedSet α :=
  ⟨insertInto a s.toList, pairwise_insertInto a s.sorted⟩

def ofList (l : List α) : SortedSet α := l.foldr insert empty

def map {β : Type} [Ord β] [TransOrd β] (f : α → β) (s : SortedSet α) : SortedSet β :=
  ofList (s.toList.map f)

/-! ## Membership -/

variable [LawfulEqOrd α]

theorem mem_insert {a x : α} {s : SortedSet α} : x ∈ s.insert a ↔ x = a ∨ x ∈ s := mem_insertInto

theorem mem_ofList {a : α} {l : List α} : a ∈ ofList l ↔ a ∈ l := by
  induction l with
  | nil => exact ⟨fun h => absurd h (not_mem_empty a), fun h => absurd h List.not_mem_nil⟩
  | cons b bs ih =>
    rw [show ofList (b :: bs) = (ofList bs).insert b from rfl, mem_insert, ih, List.mem_cons]

/-! ## Equality -/

theorem eq_of_pairwise {l m : List α} (hl : l.Pairwise fun x y => compare x y = .lt)
    (hm : m.Pairwise fun x y => compare x y = .lt) (h : ∀ a, a ∈ l ↔ a ∈ m) : l = m := by
  induction l generalizing m with
  | nil =>
    cases m with
    | nil => rfl
    | cons b bs => exact absurd ((h b).2 (by simp)) List.not_mem_nil
  | cons a as ih =>
    cases m with
    | nil => exact absurd ((h a).1 (by simp)) List.not_mem_nil
    | cons b bs =>
      obtain ⟨ha, has⟩ := List.pairwise_cons.1 hl
      obtain ⟨hb, hbs⟩ := List.pairwise_cons.1 hm
      have hself : ∀ x : α, compare x x ≠ .lt := fun x => by simp
      have hab : a = b := by
        rcases List.mem_cons.1 ((h a).1 (by simp)) with heq | hmem
        · exact heq
        · rcases List.mem_cons.1 ((h b).2 (by simp)) with heq | hmem'
          · exact heq.symm
          · exact absurd (TransCmp.lt_trans (hb a hmem) (ha b hmem')) (hself b)
      subst hab
      refine congrArg (a :: ·) (ih has hbs fun x => ⟨fun hx => ?_, fun hx => ?_⟩)
      · rcases List.mem_cons.1 ((h x).1 (List.mem_cons_of_mem _ hx)) with rfl | hx'
        · exact absurd (ha x hx) (hself x)
        · exact hx'
      · rcases List.mem_cons.1 ((h x).2 (List.mem_cons_of_mem _ hx)) with rfl | hx'
        · exact absurd (hb x hx) (hself x)
        · exact hx'

theorem ext {s t : SortedSet α} (h : ∀ a, a ∈ s ↔ a ∈ t) : s = t := by
  obtain ⟨l, hl⟩ := s
  obtain ⟨m, hm⟩ := t
  have hlm : l = m := eq_of_pairwise hl hm h
  subst hlm
  rfl

theorem ofList_toList (s : SortedSet α) : ofList s.toList = s := ext fun _ => mem_ofList

end SortedSet

end ContentFilter
