import Mathlib.Algebra.Ring.Parity
import Mathlib.Data.List.DropRight
import ContentFilter.Proofs.Pattern.Token
import ContentFilter.Proofs.Rule.Slashes

/-! # Escaped dollar signs

The reader of patterns takes backslashes from the left in pairs with what stands behind them, so a
character is escaped when an odd number of backslashes stands directly before it. The search for the
dollar sign before the modifiers comes from the right and asks only whether one stands there.

* `Escapes`, `Pattern.toRegex_append_cons`: what an escape is to the reader of patterns.
* `Rounds`, `rounds_iff`: the rounds of the search, and that they come to an end.
* `CutsAtLast`, `existsUnique_cutsAtLast`: the cut at the last dollar sign that is not escaped.
* `cutsAtLast_splitModifiers_iff`: when the search finds that dollar sign.
-/

set_option autoImplicit false

namespace ContentFilter

open Text

/-! ## Escapes -/

/-- The number of backslashes at the end of a text. -/
def backslashesAtEnd (t : Text) : Nat := (t.rtakeWhile (· == '\\')).length

/-- What stands behind this text is escaped. -/
def Escapes (t : Text) : Prop := Odd (backslashesAtEnd t)

instance (t : Text) : Decidable (Escapes t) := inferInstanceAs (Decidable (Odd _))

theorem not_escapes_nil : ¬ Escapes [] := by decide

/-- A backslash escapes what stands behind it, unless it is escaped itself. -/
theorem escapes_concat (t : Text) (c : Char) : Escapes (t ++ [c]) ↔ c = '\\' ∧ ¬ Escapes t := by
  by_cases hc : c = '\\'
  · have hcount : backslashesAtEnd (t ++ [c]) = backslashesAtEnd t + 1 := by
      simp [backslashesAtEnd, hc]
    rw [Escapes, hcount, Nat.odd_add_one, and_iff_right hc]
    rfl
  · have hcount : backslashesAtEnd (t ++ [c]) = 0 := by
      simp [backslashesAtEnd, hc]
    simp [Escapes, hcount, hc]

theorem Escapes.getLast? {t : Text} (h : Escapes t) : t.getLast? = some '\\' := by
  rcases List.eq_nil_or_concat t with rfl | ⟨u, c, rfl⟩
  · exact absurd h not_escapes_nil
  · rw [List.concat_eq_append] at h ⊢
    rw [((escapes_concat u c).mp h).1, List.getLast?_concat]

/-- A dollar sign behind another one that escapes nothing is escaped by what stands between them. -/
theorem Escapes.getLast?_of_append_cons {t u : Text} {c : Char} (hc : c ≠ '\\')
    (h : Escapes (t ++ c :: u)) : u.getLast? = some '\\' := by
  have hlast := h.getLast?
  rw [List.getLast?_append, List.getLast?_cons, Option.some_or] at hlast
  cases hu : u.getLast? with
  | none => simp [hu, hc] at hlast
  | some d => simpa [hu] using hlast

namespace Pattern

theorem isComplete_cons {c : Char} (hc : c ≠ '\\') (t : Text) :
    isComplete (c :: t) = isComplete t := by
  rw [isComplete]
  · simp [hc]
  · exact fun _ _ heq _ => hc heq

theorem toRegex_cons {c : Char} (hc : c ≠ '\\') (t : Text) :
    toRegex (c :: t) = expand c ++ toRegex t := by
  rw [toRegex]
  exact fun _ _ heq _ => hc heq

/-- At the end of what is complete a backslash waits for the character behind it. -/
theorem isComplete_concat (t : Text) (c : Char) :
    isComplete (t ++ [c]) = (c != '\\' || !isComplete t) := by
  induction t using isComplete.induct with
  | case1 => by_cases hc : c = '\\' <;> simp [isComplete, hc]
  | case2 d t ih => simpa only [List.cons_append, isComplete] using ih
  | case3 d t hescape ih =>
    by_cases hd : d = '\\'
    · -- a backslash that is not before a character is the last one
      subst hd
      cases t with
      | nil => cases c != '\\' <;> rfl
      | cons e u => exact absurd rfl (hescape e u rfl)
    · rw [List.cons_append, isComplete_cons hd, isComplete_cons hd, ih]

theorem escapes_iff_isComplete (t : Text) : Escapes t ↔ isComplete t = false := by
  induction t using List.reverseRecOn with
  | nil => exact iff_of_false not_escapes_nil (by decide)
  | append_singleton t c ih =>
    rw [escapes_concat, ih, isComplete_concat]
    cases isComplete t <;> simp

theorem toRegex_append {t : Text} (ht : isComplete t = true) (u : Text) :
    toRegex (t ++ u) = toRegex t ++ toRegex u := by
  induction t using toRegex.induct with
  | case1 => rfl
  | case2 c t ih =>
    rw [isComplete] at ht
    simp only [List.cons_append, toRegex, ih ht, List.append_assoc]
  | case3 c t hescape ih =>
    have hc : c ≠ '\\' := by
      rintro rfl
      cases t with
      | nil => exact absurd ht (by decide)
      | cons d t => exact hescape d t rfl rfl
    rw [isComplete_cons hc] at ht
    rw [List.cons_append, toRegex_cons hc, toRegex_cons hc, ih ht, List.append_assoc]

/-- An escaped character is read together with the backslash before it, as the literal it is; where
nothing is escaped the reader starts anew. -/
theorem toRegex_append_cons (t u : Text) (c : Char) : toRegex (t ++ c :: u) =
    if Escapes t then
      toRegex t.dropLast ++ (if isAlphanumeric c then [c] else ['\\', c]) ++ toRegex u
    else toRegex t ++ toRegex (c :: u) := by
  split
  next hescapes =>
    obtain ⟨v, rfl⟩ := List.getLast?_eq_some_iff.mp hescapes.getLast?
    have hcomplete : isComplete v = true := by
      have hv := ((escapes_concat v '\\').mp hescapes).2
      rwa [escapes_iff_isComplete, Bool.not_eq_false] at hv
    rw [List.dropLast_concat, List.append_assoc, List.singleton_append, toRegex_append hcomplete,
      toRegex, List.append_assoc]
  next hescapes =>
    rw [escapes_iff_isComplete, Bool.not_eq_false] at hescapes
    exact toRegex_append hescapes (c :: u)

end Pattern

/-! ## Rounds of the search -/

/-- The rounds of the search for a dollar sign. Each looks for the last one in what is left of a
text, of which `behind` has been passed. Where a backslash stands before it, the next round goes on
before that backslash. -/
inductive Rounds : (left behind : Text) → Text × Option Text → Prop
  | absent {left behind : Text} (hleft : '$' ∉ left) : Rounds left behind (left ++ behind, none)
  | found {head options behind : Text} (hoptions : '$' ∉ options)
      (hhead : head.getLast? ≠ some '\\') :
      Rounds (head ++ '$' :: options) behind (head, some (options ++ behind))
  | passed {head options behind : Text} {r : Text × Option Text} (hoptions : '$' ∉ options)
      (rest : Rounds head ('\\' :: '$' :: options ++ behind) r) :
      Rounds (head ++ ['\\'] ++ '$' :: options) behind r

/-- A text is cut at its last dollar sign. -/
theorem exists_last_dollar {t : Text} (h : '$' ∈ t) :
    ∃ head options, t = head ++ '$' :: options ∧ '$' ∉ options := by
  obtain ⟨u, v, hreverse, hu⟩ := List.eq_append_cons_of_mem (List.mem_reverse.mpr h)
  refine ⟨v.reverse, u.reverse, ?_, by simpa using hu⟩
  rw [← List.reverse_reverse t, hreverse]
  simp

theorem exists_rounds (left behind : Text) : ∃ r, Rounds left behind r := by
  induction hlength : left.length using Nat.strong_induction_on generalizing left behind with
  | _ n ih =>
    by_cases hdollar : '$' ∈ left
    · obtain ⟨head, options, rfl, hoptions⟩ := exists_last_dollar hdollar
      by_cases hhead : head.getLast? = some '\\'
      · obtain ⟨head, rfl⟩ := List.getLast?_eq_some_iff.mp hhead
        obtain ⟨r, hr⟩ := ih head.length (by simp [← hlength]) head
          ('\\' :: '$' :: options ++ behind) rfl
        exact ⟨r, .passed hoptions hr⟩
      · exact ⟨_, .found hoptions hhead⟩
    · exact ⟨_, .absent hdollar⟩

/-- What a search comes to in a text. -/
def cutOf (t : Text) : Option (Text × Text) → Text × Option Text
  | some (pattern, modifiers) => (pattern, some modifiers)
  | none => (t, none)

theorem splitModifiers_eq_cutOf (t : Text) :
    splitModifiers t = cutOf t (findDollar [] t.reverse) := by
  rw [splitModifiers]
  cases findDollar [] t.reverse <;> rfl

theorem findDollar_reverse_dollar {options : Text} (hoptions : '$' ∉ options) (head behind : Text) :
    findDollar behind (head ++ '$' :: options).reverse =
      findDollar (options ++ behind) ('$' :: head.reverse) := by
  have hreverse : (head ++ '$' :: options).reverse = options.reverse ++ '$' :: head.reverse := by
    simp
  rw [hreverse, findDollar_reverse_append (dollarsEscaped_of_notMem hoptions)]

theorem Rounds.eq_cutOf {left behind : Text} {r : Text × Option Text} (h : Rounds left behind r) :
    r = cutOf (left ++ behind) (findDollar behind left.reverse) := by
  induction h with
  | @absent left behind hleft =>
    have hpassed := findDollar_reverse_append (dollarsEscaped_of_notMem hleft) behind []
    rw [List.append_nil] at hpassed
    rw [hpassed]
    rfl
  | @found head options behind hoptions hhead =>
    rw [findDollar_reverse_dollar hoptions, findDollar_dollar hhead]
    rfl
  | @passed head options behind r hoptions rest ih =>
    rw [findDollar_reverse_dollar hoptions, List.reverse_append, List.reverse_singleton,
      List.singleton_append, findDollar, ih]
    simp

/-- The search comes to an end in every text, and then the text is cut as it says. -/
theorem rounds_iff {t : Text} {r : Text × Option Text} :
    Rounds t [] r ↔ splitModifiers t = r := by
  have hcut : ∀ r, Rounds t [] r → splitModifiers t = r := by
    intro r hr
    rw [hr.eq_cutOf, List.append_nil, splitModifiers_eq_cutOf]
  refine ⟨hcut r, ?_⟩
  rintro rfl
  obtain ⟨r, hr⟩ := exists_rounds t []
  rwa [hcut r hr]

/-! ## The cut at the last dollar sign that is not escaped -/

/-- A text is cut at its last dollar sign that is not escaped, if it has one. -/
inductive CutsAtLast : Text → Text × Option Text → Prop
  | whole {t : Text} (h : ∀ u v, t = u ++ '$' :: v → Escapes u) : CutsAtLast t (t, none)
  | cut {p o : Text} (hp : ¬ Escapes p) (ho : ∀ u v, o = u ++ '$' :: v → Escapes (p ++ '$' :: u)) :
      CutsAtLast (p ++ '$' :: o) (p, some o)

theorem concat_eq_append_cons {t u v : Text} {c d : Char} (h : t ++ [c] = u ++ d :: v) :
    (t = u ∧ c = d ∧ v = []) ∨ ∃ w, v = w ++ [c] ∧ t = u ++ d :: w := by
  rcases List.eq_nil_or_concat v with rfl | ⟨w, e, rfl⟩
  · obtain ⟨rfl, hlast⟩ := List.append_inj' h rfl
    exact .inl ⟨rfl, (List.cons.inj hlast).1, rfl⟩
  · rw [List.concat_eq_append, ← List.cons_append, ← List.append_assoc] at h
    obtain ⟨rfl, hlast⟩ := List.append_inj' h rfl
    obtain ⟨rfl, -⟩ := List.cons.inj hlast
    exact .inr ⟨w, List.concat_eq_append, rfl⟩

theorem exists_cutsAtLast (t : Text) : ∃ r, CutsAtLast t r := by
  induction t using List.reverseRecOn with
  | nil => exact ⟨_, .whole (by simp)⟩
  | append_singleton t c ih =>
    by_cases hdollar : c = '$' ∧ ¬ Escapes t
    · obtain ⟨rfl, hescapes⟩ := hdollar
      exact ⟨_, .cut hescapes (by simp)⟩
    · -- the last character does not end the search, so it goes to the part behind the cut
      have hescapes : c = '$' → Escapes t := fun hc => by
        by_contra hno
        exact hdollar ⟨hc, hno⟩
      obtain ⟨r, hr⟩ := ih
      cases hr with
      | whole h =>
        refine ⟨_, .whole fun u v huv => ?_⟩
        rcases concat_eq_append_cons huv with ⟨rfl, hc, -⟩ | ⟨w, -, hw⟩
        · exact hescapes hc
        · exact h u w hw
      | @cut p o hp ho =>
        rw [List.append_assoc, List.cons_append]
        refine ⟨_, .cut hp fun u v huv => ?_⟩
        rcases concat_eq_append_cons huv with ⟨rfl, hc, -⟩ | ⟨w, -, hw⟩
        · exact hescapes hc
        · exact ho u w hw

theorem cutsAtLast_none_iff {t u : Text} :
    CutsAtLast t (u, none) ↔ u = t ∧ ∀ v w, t = v ++ '$' :: w → Escapes v := by
  constructor
  · rintro ⟨h⟩
    exact ⟨rfl, h⟩
  · rintro ⟨rfl, h⟩
    exact .whole h

theorem cutsAtLast_some_iff {t p o : Text} : CutsAtLast t (p, some o) ↔
    t = p ++ '$' :: o ∧ ¬ Escapes p ∧ ∀ u v, o = u ++ '$' :: v → Escapes (p ++ '$' :: u) := by
  constructor
  · rintro ⟨-⟩
    exact ⟨rfl, ‹_›, ‹_›⟩
  · rintro ⟨rfl, hp, ho⟩
    exact .cut hp ho

/-- Of two cuts of one text neither is before the other. -/
theorem length_le_of_cuts {p o q u : Text} (heq : p ++ '$' :: o = q ++ '$' :: u)
    (hq : ¬ Escapes q) (ho : ∀ v w, o = v ++ '$' :: w → Escapes (p ++ '$' :: v)) :
    q.length ≤ p.length := by
  rcases List.append_eq_append_iff.mp heq with ⟨between, rfl, hrest⟩ | ⟨between, rfl, -⟩
  · cases between with
    | nil => simp
    | cons d between =>
      obtain ⟨rfl, hbehind⟩ := List.cons.inj hrest
      exact absurd (ho between u hbehind) hq
  · simp

theorem CutsAtLast.eq {t : Text} {r s : Text × Option Text} (hr : CutsAtLast t r)
    (hs : CutsAtLast t s) : r = s := by
  obtain ⟨p, _ | o⟩ := r <;> obtain ⟨q, _ | u⟩ := s
  · rw [(cutsAtLast_none_iff.mp hr).1, (cutsAtLast_none_iff.mp hs).1]
  · obtain ⟨rfl, hq, -⟩ := cutsAtLast_some_iff.mp hs
    exact absurd ((cutsAtLast_none_iff.mp hr).2 q u rfl) hq
  · obtain ⟨rfl, hp, -⟩ := cutsAtLast_some_iff.mp hr
    exact absurd ((cutsAtLast_none_iff.mp hs).2 p o rfl) hp
  · obtain ⟨rfl, hp, ho⟩ := cutsAtLast_some_iff.mp hr
    obtain ⟨heq, hq, hu⟩ := cutsAtLast_some_iff.mp hs
    have hlength : p.length = q.length :=
      (length_le_of_cuts heq.symm hp hu).antisymm (length_le_of_cuts heq hq ho)
    obtain ⟨rfl, hrest⟩ := List.append_inj heq hlength
    rw [(List.cons.inj hrest).2]

theorem existsUnique_cutsAtLast (t : Text) : ∃! r, CutsAtLast t r := by
  obtain ⟨r, hr⟩ := exists_cutsAtLast t
  exact ⟨r, hr, fun s hs => hs.eq hr⟩

/-- A cut at a dollar sign that no backslash precedes is the one that the search finds. -/
theorem CutsAtLast.splitModifiers_eq {t : Text} {r : Text × Option Text} (h : CutsAtLast t r)
    (hplain : ∀ p o, r = (p, some o) → p.getLast? ≠ some '\\') : splitModifiers t = r := by
  cases h with
  | whole h => exact splitModifiers_eq_self fun u v huv => (h u v huv).getLast?
  | cut hp ho =>
    refine splitModifiers_append (hplain _ _ rfl) fun u v huv => ?_
    exact (ho u v huv).getLast?_of_append_cons (by decide)

/-- The search ends at a dollar sign that no backslash precedes. -/
theorem getLast?_of_splitModifiers {t p o : Text} (h : splitModifiers t = (p, some o)) :
    p.getLast? ≠ some '\\' := by
  rcases exists_cut_or_dollarsEscaped t with hescaped | ⟨head, options, rfl, hhead, hoptions⟩
  · rw [splitModifiers_eq_self hescaped] at h
    simp at h
  · rw [splitModifiers_append hhead hoptions, Prod.mk.injEq] at h
    exact h.1 ▸ hhead

/-- How a rule is cut. The reader of patterns takes a character as escaped when an odd number of
backslashes stands before it. There is one cut at the last dollar sign that is not escaped in this
way. The search for a dollar sign comes to an end in every text. It finds that cut exactly when no
backslash at all stands before that dollar sign. -/
theorem cutsAtLast_splitModifiers_iff (t : Text) :
    (∀ u c v, t = u ++ c :: v → Pattern.toRegex t =
        if Escapes u then
          Pattern.toRegex u.dropLast ++ (if isAlphanumeric c then [c] else ['\\', c]) ++
            Pattern.toRegex v
        else Pattern.toRegex u ++ Pattern.toRegex (c :: v)) ∧
      (∃! r, CutsAtLast t r) ∧
      (∀ r, Rounds t [] r ↔ splitModifiers t = r) ∧
      (CutsAtLast t (splitModifiers t) ↔
        ∀ p o, CutsAtLast t (p, some o) → p.getLast? ≠ some '\\') := by
  refine ⟨?_, existsUnique_cutsAtLast t, fun r => rounds_iff, ?_⟩
  · rintro u c v rfl
    exact Pattern.toRegex_append_cons u v c
  · constructor
    · intro hsplit p o hcut
      exact getLast?_of_splitModifiers (hsplit.eq hcut)
    · intro hplain
      obtain ⟨r, hr⟩ := exists_cutsAtLast t
      have hfound : splitModifiers t = r := by
        refine hr.splitModifiers_eq ?_
        rintro p o rfl
        exact hplain p o hr
      rwa [hfound]

/-- Two backslashes before a dollar sign leave it as it is to the reader of patterns, and the search
passes it. -/
theorem dollar_passed_behind_two_backslashes :
    CutsAtLast "ads\\\\$script".toList ("ads\\\\".toList, some "script".toList) ∧
      splitModifiers "ads\\\\$script".toList = ("ads\\\\$script".toList, none) ∧
      ¬ CutsAtLast "ads\\\\$script".toList (splitModifiers "ads\\\\$script".toList) := by
  have hcut : CutsAtLast "ads\\\\$script".toList ("ads\\\\".toList, some "script".toList) := by
    refine cutsAtLast_some_iff.mpr ⟨rfl, by decide, fun u v huv => ?_⟩
    have hnone : '$' ∉ "script".toList := by decide
    exact absurd (huv ▸ List.mem_append_right u List.mem_cons_self) hnone
  have hpassed : splitModifiers "ads\\\\$script".toList = ("ads\\\\$script".toList, none) := rfl
  refine ⟨hcut, hpassed, fun hsplit => ?_⟩
  have hsame := hsplit.eq hcut
  rw [hpassed] at hsame
  exact absurd hsame (by decide)

end ContentFilter
