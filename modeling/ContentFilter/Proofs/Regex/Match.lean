import ContentFilter.Proofs.Regex.Read

/-! # What an expression matches

Matching tries the choices of an expression in order until what follows succeeds. Whether it
succeeds at all depends only on the texts that the expression can take. Line feeds are kept out of
the texts that are searched, so that the end of a line is the end of the text.

* `Regex.Takes`: a matcher takes some text from a place, one of a kind, and goes on behind it.
* `Regex.takes_many`, `Regex.takes_optional`: repeated characters, and items that may be left out.
* `Regex.search_anchored_iff`: searching for items that may be bound to the ends of the text.
-/

set_option autoImplicit false

namespace ContentFilter.Regex

open Text

/-! ## Sets -/

/-- A set of marks holds those characters and no others. -/
theorem inSet_marks {marks : List Char} (hmarks : ∀ p ∈ marks, IsMark p) (c : Char) :
    inSet (marks.map fun p => (p, p)) c = true ↔ c ∈ marks := by
  simp only [inSet, List.any_eq_true, List.mem_map, Bool.and_eq_true, decide_eq_true_eq]
  constructor
  · rintro ⟨n, hn, r, ⟨p, hp, rfl⟩, hlow, hhigh⟩
    obtain rfl : p.toNat = n := Nat.le_antisymm hlow hhigh
    rwa [(mem_foldVariants_mark (hmarks p hp)).mp hn]
  · intro hc
    exact ⟨c.toNat, (mem_foldVariants_mark (hmarks c hc)).mpr rfl, (c, c), ⟨c, hc, rfl⟩,
      Nat.le_refl _, Nat.le_refl _⟩

/-! ## Taking texts -/

/-- A matcher for a text of `size` characters, none a line feed, takes a text of a kind and goes on
behind it. -/
def Takes (size : Nat) (m : Matcher) (kind : Text → Prop) : Prop :=
  ∀ (here : Place) (go : Place → Option Place), here.offset + here.rest.length = size →
    '\n' ∉ here.rest → ((m here go).isSome = true ↔ ∃ part rest, here.rest = part ++ rest ∧
      kind part ∧ (go ⟨here.offset + part.length, rest⟩).isSome = true)

section

variable {size : Nat}

theorem Takes.congr {m : Matcher} {kind kind' : Text → Prop} (h : Takes size m kind)
    (hkind : ∀ part, '\n' ∉ part → (kind part ↔ kind' part)) : Takes size m kind' := by
  intro here go hsize hline
  rw [h here go hsize hline]
  have hpart : ∀ part rest, here.rest = part ++ rest → (kind part ↔ kind' part) := by
    intro part rest heq
    refine hkind part fun hmem => hline ?_
    rw [heq]
    exact List.mem_append_left rest hmem
  constructor
  · rintro ⟨part, rest, heq, hk, hgo⟩
    exact ⟨part, rest, heq, (hpart part rest heq).mp hk, hgo⟩
  · rintro ⟨part, rest, heq, hk, hgo⟩
    exact ⟨part, rest, heq, (hpart part rest heq).mpr hk, hgo⟩

theorem takes_step (p : Char → Bool) :
    Takes size (step p) fun part => ∃ d, part = [d] ∧ p d = true := by
  intro here go _ _
  obtain ⟨offset, rest⟩ := here
  unfold step
  dsimp only
  cases rest with
  | nil => simp
  | cons c cs =>
    dsimp only
    by_cases hc : p c = true
    · rw [if_pos hc]
      constructor
      · intro hgo
        exact ⟨[c], cs, rfl, ⟨c, rfl, hc⟩, hgo⟩
      · rintro ⟨_, rest, heq, ⟨d, rfl, -⟩, hgo⟩
        obtain ⟨rfl, rfl⟩ := List.cons.inj heq
        exact hgo
    · rw [if_neg hc]
      constructor
      · intro hnone
        exact absurd hnone nofun
      · rintro ⟨_, rest, heq, ⟨d, rfl, hd⟩, -⟩
        obtain ⟨rfl, -⟩ := List.cons.inj heq
        exact absurd hd hc

theorem takes_empty : Takes size (run size empty) fun part => part = [] := by
  intro here go _ _
  constructor
  · intro hgo
    exact ⟨[], here.rest, rfl, rfl, by simpa [run] using hgo⟩
  · rintro ⟨part, rest, heq, rfl, hgo⟩
    rw [List.nil_append] at heq
    subst heq
    simpa [run] using hgo

theorem takes_seq {first second : Regex} {kind kind' : Text → Prop}
    (hfirst : Takes size (run size first) kind) (hsecond : Takes size (run size second) kind') :
    Takes size (run size (seq first second))
      fun part => ∃ p q, part = p ++ q ∧ kind p ∧ kind' q := by
  intro here go hsize hline
  rw [run, hfirst here _ hsize hline]
  have hbehind : ∀ p rest, here.rest = p ++ rest →
      here.offset + p.length + rest.length = size ∧ '\n' ∉ rest := by
    intro p rest heq
    rw [heq, List.length_append] at hsize
    rw [heq] at hline
    exact ⟨by omega, fun hmem => hline (List.mem_append_right p hmem)⟩
  constructor
  · rintro ⟨p, rest, heq, hp, hrest⟩
    rw [hsecond _ go (hbehind p rest heq).1 (hbehind p rest heq).2] at hrest
    obtain ⟨q, rest', hrest, hq, hgo⟩ := hrest
    dsimp only at hrest hgo
    refine ⟨p ++ q, rest', by rw [heq, hrest, List.append_assoc], ⟨p, q, rfl, hp, hq⟩, ?_⟩
    rwa [List.length_append, ← Nat.add_assoc]
  · rintro ⟨_, rest, heq, ⟨p, q, rfl, hp, hq⟩, hgo⟩
    rw [List.append_assoc] at heq
    refine ⟨p, q ++ rest, heq, hp, ?_⟩
    rw [hsecond _ go (hbehind p _ heq).1 (hbehind p _ heq).2]
    refine ⟨q, rest, rfl, hq, ?_⟩
    rwa [List.length_append, ← Nat.add_assoc] at hgo

/-! ## Repetition -/

theorem canStay_step (p : Char → Bool) (here : Place) : canStay (step p) here = false := by
  unfold canStay step
  split
  · rfl
  · split
    · simp
    · rfl

section

variable (p : Char → Bool) (go : Place → Option Place) (fuel offset needed : Nat)

theorem rounds_nil : rounds (step p) false go (fuel + 1) needed none ⟨offset, []⟩ =
    if needed = 0 then go ⟨offset, []⟩ else none := by
  simp [rounds, oneLess?, step]

theorem rounds_cons (c : Char) (cs : Text) :
    rounds (step p) false go (fuel + 1) needed none ⟨offset, c :: cs⟩ =
      if needed = 0 then
        (if p c then rounds (step p) false go fuel 0 none ⟨offset + 1, cs⟩ else none).orElse
          fun _ => go ⟨offset, c :: cs⟩
      else if p c then rounds (step p) false go fuel (needed - 1) none ⟨offset + 1, cs⟩
      else none := by
  by_cases hneeded : needed = 0
  · simp [rounds, oneLess?, step, hneeded]
  · simp [rounds, oneLess?, step, hneeded, canStay_step]

end

/-- As many characters of one kind as there are, but no fewer than some number. There is fuel for one
more round than there are characters. -/
theorem rounds_step_isSome (p : Char → Bool) (go : Place → Option Place) (rest : Text) :
    ∀ offset fuel needed, rest.length < fuel →
      ((rounds (step p) false go fuel needed none ⟨offset, rest⟩).isSome = true ↔
        ∃ part rest', rest = part ++ rest' ∧ (needed ≤ part.length ∧ ∀ d ∈ part, p d = true) ∧
          (go ⟨offset + part.length, rest'⟩).isSome = true) := by
  induction rest with
  | nil =>
    intro offset fuel needed hfuel
    obtain ⟨fuel, rfl⟩ : ∃ k, fuel = k + 1 := ⟨fuel - 1, by omega⟩
    rw [rounds_nil]
    constructor
    · intro hgo
      split at hgo
      next hzero => exact ⟨[], [], rfl, ⟨by omega, by simp⟩, hgo⟩
      next => exact absurd hgo nofun
    · rintro ⟨part, rest', heq, ⟨hleast, -⟩, hgo⟩
      obtain ⟨rfl, rfl⟩ := List.append_eq_nil_iff.mp heq.symm
      rw [if_pos (by simpa using hleast)]
      exact hgo
  | cons c cs ih =>
    intro offset fuel needed hfuel
    obtain ⟨fuel, rfl⟩ : ∃ k, fuel = k + 1 := ⟨fuel - 1, by omega⟩
    rw [List.length_cons] at hfuel
    have hnext := ih (offset + 1) fuel (needed - 1) (by omega)
    -- Either nothing is taken, or the first character and what the next round takes.
    have hsplit : (∃ part rest', c :: cs = part ++ rest' ∧
          (needed ≤ part.length ∧ ∀ d ∈ part, p d = true) ∧
          (go ⟨offset + part.length, rest'⟩).isSome = true) ↔
        (needed = 0 ∧ (go ⟨offset, c :: cs⟩).isSome = true) ∨
          (p c = true ∧ (rounds (step p) false go fuel (needed - 1) none
            ⟨offset + 1, cs⟩).isSome = true) := by
      rw [hnext]
      constructor
      · rintro ⟨part, rest', heq, ⟨hleast, hall⟩, hgo⟩
        cases part with
        | nil =>
          rw [List.nil_append] at heq
          subst heq
          exact .inl ⟨by simpa using hleast, hgo⟩
        | cons d part =>
          obtain ⟨rfl, rfl⟩ := List.cons.inj heq
          rw [List.length_cons] at hleast hgo
          refine .inr ⟨hall c (by simp), part, rest', rfl, ⟨by omega, fun d hd => ?_⟩, ?_⟩
          · exact hall d (by simp [hd])
          · rwa [show offset + 1 + part.length = offset + (part.length + 1) by omega]
      · rintro (⟨hzero, hgo⟩ | ⟨hc, part, rest', rfl, ⟨hleast, hall⟩, hgo⟩)
        · exact ⟨[], c :: cs, rfl, ⟨by simp [hzero], by simp⟩, hgo⟩
        · refine ⟨c :: part, rest', rfl, ⟨by rw [List.length_cons]; omega, ?_⟩, ?_⟩
          · simpa [hc] using hall
          · rwa [List.length_cons, show offset + (part.length + 1) = offset + 1 + part.length by omega]
    rw [hsplit, rounds_cons]
    by_cases hneeded : needed = 0
    · subst hneeded
      by_cases hc : p c = true
      · simp [hc, or_comm]
      · simp [hc]
    · by_cases hc : p c = true
      · simp [hneeded, hc]
      · simp [hneeded, hc]

theorem takes_many (p : Char → Bool) {body : Regex} (hbody : run size body = step p) (least : Nat) :
    Takes size (run size (iterate .greedy least none body))
      fun part => least ≤ part.length ∧ ∀ d ∈ part, p d = true := by
  intro here go hsize _
  rw [run, hbody]
  exact rounds_step_isSome p go here.rest here.offset (size + 1) least (by omega)

/-- An item that takes something, or nothing in its place. -/
theorem takes_optional {body : Regex} {kind : Text → Prop} (h : Takes size (run size body) kind)
    (hkind : ∀ part, kind part → part ≠ []) :
    Takes size (run size (iterate .greedy 0 (some 1) body)) fun part => part = [] ∨ kind part := by
  intro here go hsize hline
  have hrounds : run size (iterate .greedy 0 (some 1) body) here go =
      (run size body here fun p => if p.offset = here.offset then go here
        else rounds (run size body) false go size 0 (some 0) p).orElse fun _ => go here := by
    simp [run, rounds, oneLess?]
  -- A round that takes something is the only one.
  have hround : ∀ part rest, here.rest = part ++ rest → kind part →
      (if here.offset + part.length = here.offset then go here
        else rounds (run size body) false go size 0 (some 0) ⟨here.offset + part.length, rest⟩) =
        go ⟨here.offset + part.length, rest⟩ := by
    intro part rest heq hpart
    have hpos : 0 < part.length := List.length_pos_iff.mpr (hkind part hpart)
    rw [heq, List.length_append] at hsize
    obtain ⟨n, rfl⟩ : ∃ n, size = n + 1 := ⟨size - 1, by omega⟩
    rw [if_neg (by omega)]
    simp [rounds, oneLess?]
  rw [hrounds, Option.orElse_eq_or, Option.isSome_or, Bool.or_eq_true, h here _ hsize hline]
  constructor
  · rintro (⟨part, rest, heq, hpart, hgo⟩ | hgo)
    · dsimp only at hgo
      rw [hround part rest heq hpart] at hgo
      exact ⟨part, rest, heq, .inr hpart, hgo⟩
    · exact ⟨[], here.rest, rfl, .inl rfl, hgo⟩
  · rintro ⟨part, rest, heq, rfl | hpart, hgo⟩
    · rw [List.nil_append] at heq
      subst heq
      exact .inr hgo
    · refine .inl ⟨part, rest, heq, hpart, ?_⟩
      dsimp only
      rw [hround part rest heq hpart]
      exact hgo

/-! ## Chains -/

theorem run_chain_append (first second : List Regex) :
    run size (chain (first ++ second)) = run size (seq (chain first) (chain second)) := by
  induction first with
  | nil => rfl
  | cons r first ih =>
    have hrest : run size (chain (first ++ second)) =
        fun here go => run size (chain first) here fun p => run size (chain second) p go := ih
    funext here go
    show run size r here (fun p => run size (chain (first ++ second)) p go) =
      run size r here fun p => run size (chain first) p fun q => run size (chain second) q go
    rw [hrest]

theorem takes_chain_append {first second : List Regex} {kind kind' : Text → Prop}
    (hfirst : Takes size (run size (chain first)) kind)
    (hsecond : Takes size (run size (chain second)) kind') :
    Takes size (run size (chain (first ++ second)))
      fun part => ∃ p q, part = p ++ q ∧ kind p ∧ kind' q := by
  rw [run_chain_append]
  exact takes_seq hfirst hsecond

theorem takes_chain_singleton {r : Regex} {kind : Text → Prop} (h : Takes size (run size r) kind) :
    Takes size (run size (chain [r])) kind := by
  refine (takes_seq h takes_empty).congr fun part _ => ?_
  constructor
  · rintro ⟨p, _, rfl, hp, rfl⟩
    rwa [List.append_nil]
  · intro hpart
    exact ⟨part, [], (List.append_nil part).symm, hpart, rfl⟩

theorem takes_letters (cs : Text) :
    Takes size (run size (chain (cs.map char))) (SameLetters cs) := by
  induction cs with
  | nil =>
    refine takes_empty.congr fun part _ => ?_
    rw [SameLetters, List.forall₂_nil_left_iff]
  | cons c cs ih =>
    refine (takes_seq (takes_step (sameLetter c)) ih).congr fun part _ => ?_
    rw [SameLetters, List.forall₂_cons_left_iff]
    constructor
    · rintro ⟨_, q, rfl, ⟨d, rfl, hd⟩, hq⟩
      exact ⟨d, q, hd, hq, rfl⟩
    · rintro ⟨d, q, hd, hq, rfl⟩
      exact ⟨[d], q, rfl, ⟨d, rfl, hd⟩, hq⟩

/-! ## Searching -/

theorem searchFrom_iff (r : Regex) (size : Nat) (cs : Text) : ∀ offset,
    r.searchFrom size offset cs = true ↔ ∃ before rest, cs = before ++ rest ∧
      (run size r ⟨offset + before.length, rest⟩ some).isSome = true := by
  induction cs with
  | nil =>
    intro offset
    rw [searchFrom, Bool.or_false]
    constructor
    · intro hrun
      exact ⟨[], [], rfl, hrun⟩
    · rintro ⟨before, rest, heq, hrun⟩
      obtain ⟨rfl, rfl⟩ := List.append_eq_nil_iff.mp heq.symm
      exact hrun
  | cons c cs ih =>
    intro offset
    rw [searchFrom, Bool.or_eq_true, ih (offset + 1)]
    constructor
    · rintro (hrun | ⟨before, rest, rfl, hrun⟩)
      · exact ⟨[], c :: cs, rfl, hrun⟩
      · refine ⟨c :: before, rest, rfl, ?_⟩
        rwa [List.length_cons, show offset + (before.length + 1) = offset + 1 + before.length by omega]
    · rintro ⟨before, rest, heq, hrun⟩
      cases before with
      | nil =>
        rw [List.nil_append] at heq
        subst heq
        exact .inl hrun
      | cons d before =>
        obtain ⟨rfl, rfl⟩ := List.cons.inj heq
        refine .inr ⟨before, rest, rfl, ?_⟩
        rwa [show offset + 1 + before.length = offset + (before.length + 1) by omega]

theorem search_iff (r : Regex) (t : Text) :
    r.search t = true ↔ ∃ before rest, t = before ++ rest ∧
      (run t.length r ⟨before.length, rest⟩ some).isSome = true := by
  rw [search, searchFrom_iff]
  simp only [Nat.zero_add]

/-- Items, bound to the start and to the end of a text where that is asked for. -/
def anchored (first last : Bool) (items : List Regex) : List Regex :=
  (if first then [start] else []) ++ (items ++ if last then [finish] else [])

theorem run_start_isSome (first : Bool) (items : List Regex) (offset : Nat) (rest : Text) :
    (run size (chain ((if first then [start] else []) ++ items))
        ⟨offset, rest⟩ some).isSome = true ↔
      (first = true → offset = 0) ∧ (run size (chain items) ⟨offset, rest⟩ some).isSome = true := by
  cases first with
  | false => simp
  | true =>
    by_cases hoffset : offset = 0
    · simp [chain, run, hoffset]
    · simp [chain, run, hoffset]

theorem run_finish_isSome (last : Bool) {offset : Nat} {rest : Text} (hline : '\n' ∉ rest) :
    (run size (chain (if last then [finish] else [])) ⟨offset, rest⟩ some).isSome = true ↔
      (last = true → rest = []) := by
  cases last with
  | false => simp [chain, run]
  | true =>
    have hfeed : rest ≠ ['\n'] := by
      rintro rfl
      exact hline (List.mem_singleton_self _)
    by_cases hrest : rest = []
    · simp [chain, run, atFinish, hrest]
    · simp [chain, run, atFinish, hrest, hfeed]

/-- Searching for items one after another, which may be bound to either end of the text. -/
theorem search_anchored_iff {items : List Regex} {kind : Text → Prop} {t : Text}
    (hitems : Takes t.length (run t.length (chain items)) kind) (hline : '\n' ∉ t)
    (first last : Bool) :
    (chain (anchored first last items)).search t = true ↔ ∃ before part after,
      t = before ++ part ++ after ∧ (first = true → before = []) ∧ kind part ∧
        (last = true → after = []) := by
  have hfrom : ∀ before rest, t = before ++ rest →
      ((run t.length (chain (anchored first last items)) ⟨before.length, rest⟩ some).isSome = true ↔
        (first = true → before = []) ∧ ∃ part after, rest = part ++ after ∧ kind part ∧
          (last = true → after = [])) := by
    intro before rest heq
    have hrest : '\n' ∉ rest := by
      rw [heq, List.mem_append, not_or] at hline
      exact hline.2
    have hsize : before.length + rest.length = t.length := by rw [heq, List.length_append]
    rw [anchored, run_start_isSome, run_chain_append, run, hitems _ _ hsize hrest,
      List.length_eq_zero_iff]
    refine and_congr_right fun _ => exists_congr fun part => exists_congr fun after => ?_
    refine and_congr_right fun (hsplit : rest = part ++ after) => and_congr_right fun _ => ?_
    rw [hsplit, List.mem_append, not_or] at hrest
    exact run_finish_isSome last hrest.2
  rw [search_iff]
  constructor
  · rintro ⟨before, rest, heq, hrun⟩
    obtain ⟨hfirst, part, after, rfl, hpart, hlast⟩ := (hfrom before rest heq).mp hrun
    exact ⟨before, part, after, by rw [heq, List.append_assoc], hfirst, hpart, hlast⟩
  · rintro ⟨before, part, after, heq, hfirst, hpart, hlast⟩
    rw [List.append_assoc] at heq
    refine ⟨before, part ++ after, heq, (hfrom before _ heq).mpr ?_⟩
    exact ⟨hfirst, part, after, rfl, hpart, hlast⟩

end

end ContentFilter.Regex
