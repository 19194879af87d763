import ContentFilter.Proofs.Json.RoundTrip

/-! # What the reader gives

What is read keeps within the limits of the reader, so its text is read again (`Json.parse_write`).

* `Json.readable_of_readNumber`: numbers.
* `Json.readable_of_read`: one more value, item or member.
* `Json.readable_of_parse`: whole texts.
-/

set_option autoImplicit false

namespace ContentFilter.Json

open Text

variable {S : Type} {depth : Nat} {t rest : Text} {n : Number}

/-! ## Numbers -/

theorem whole_of_readWhole {whole : Text} (h : readWhole t = some (whole, rest)) : Whole whole := by
  cases t with
  | nil => cases h
  | cons c cs =>
    rw [readWhole] at h
    split at h
    · obtain ⟨rfl, -⟩ := Prod.mk.inj (Option.some.inj h)
      exact .inl rfl
    next hzero =>
      split at h
      next hdigit =>
        obtain ⟨rfl, -⟩ := Prod.mk.inj (Option.some.inj h)
        refine .inr ⟨c, _, rfl, hzero, fun d hd => ?_⟩
        rcases List.mem_cons.1 hd with rfl | hd
        · exact hdigit
        · exact List.mem_takeWhile_imp hd
      · cases h

theorem readable_of_wholeOf {negative : Bool} {whole : Text} (hwhole : Whole whole)
    (h : wholeOf negative whole = .ok n) : Readable depth (ofNumber n : Json S) := by
  have hne : whole ≠ [] := by
    rcases hwhole with rfl | ⟨d, ds, rfl, -⟩
    · exact List.cons_ne_nil _ _
    · exact List.cons_ne_nil _ _
  unfold wholeOf Limit.wholeNumber at h
  split at h
  next n hn =>
    split at hn
    · cases hn
    next hdigits =>
      obtain rfl := Except.ok.inj hn
      obtain rfl := Except.ok.inj h
      have hlength := (length_ofNat_natOfDigits hwhole.isDigit hne).trans (Nat.not_lt.1 hdigits)
      refine .int depth ?_
      cases negative
      · exact hlength
      · rwa [if_pos rfl, Int.natAbs_neg, Int.natAbs_natCast]
  · cases h

theorem readable_of_readUnsigned {negative : Bool} (h : readUnsigned negative t = .ok (n, rest)) :
    Readable depth (ofNumber n : Json S) := by
  unfold readUnsigned at h
  cases hread : readWhole t with
  | none =>
    rw [hread] at h
    cases h
  | some r =>
    obtain ⟨whole, after⟩ := r
    rw [hread] at h
    simp only [orMalformed, bind, Except.bind] at h
    split at h
    · cases hvalue : wholeOf negative whole with
      | error f =>
        rw [hvalue] at h
        cases h
      | ok w =>
        rw [hvalue] at h
        obtain ⟨rfl, -⟩ := Prod.mk.inj (Except.ok.inj h)
        exact readable_of_wholeOf (whole_of_readWhole hread) hvalue
    · obtain ⟨rfl, -⟩ := Prod.mk.inj (Except.ok.inj h)
      exact .real depth (Decimal.wellFormed_toBinary64 _)

theorem readable_of_readNumber (h : readNumber t = .ok (n, rest)) :
    Readable depth (ofNumber n : Json S) := by
  unfold readNumber at h
  split at h
  · obtain ⟨rfl, -⟩ := Prod.mk.inj (Except.ok.inj h)
    exact .real depth nofun
  · split at h
    · obtain ⟨rfl, -⟩ := Prod.mk.inj (Except.ok.inj h)
      exact .real depth nofun
    · split at h
      · obtain ⟨rfl, -⟩ := Prod.mk.inj (Except.ok.inj h)
        exact .real depth nofun
      · split at h <;> exact readable_of_readUnsigned h

/-! ## Values -/

variable [UnicodeString S] [DecidableEq S] {v : Json S}

theorem ok_of_bind {ε α β : Type} {x : Except ε α} {f : α → Except ε β} {b : β}
    (h : x >>= f = .ok b) : ∃ a, x = .ok a ∧ f a = .ok b := by
  cases x with
  | error e => cases h
  | ok a => exact ⟨a, rfl, h⟩

variable (S) in
/-- Whatever is read with the given fuel keeps within the limits. -/
structure Reads (fuel : Nat) : Prop where
  value : ∀ {depth t rest} {v : Json S}, readValue fuel depth t = .ok (v, rest) → Readable depth v
  items : ∀ {depth t rest} {vs : List (Json S)}, readItems fuel depth t = .ok (vs, rest) →
    ∀ v ∈ vs, Readable depth v
  members : ∀ {depth t rest} {ms : List (S × Json S)}, readMembers fuel depth t = .ok (ms, rest) →
    ∀ m ∈ ms, Readable depth m.2

theorem reads_zero : Reads S 0 := ⟨nofun, nofun, nofun⟩

theorem Reads.value_succ {fuel : Nat} (ih : Reads S fuel)
    (h : readValue (fuel + 1) depth t = .ok (v, rest)) : Readable depth v := by
  unfold readValue at h
  split at h
  · obtain ⟨r, -, hr⟩ := ok_of_map h
    obtain ⟨rfl, -⟩ := Prod.mk.inj hr
    exact .text depth r.1
  · split at h
    · cases h
    · split at h
      · obtain ⟨rfl, -⟩ := Prod.mk.inj (Except.ok.inj h)
        exact .array (List.forall_mem_nil _)
      · obtain ⟨r, hread, hr⟩ := ok_of_map h
        obtain ⟨rfl, -⟩ := Prod.mk.inj hr
        exact .array (ih.items hread)
  · split at h
    · cases h
    · split at h
      · obtain ⟨rfl, -⟩ := Prod.mk.inj (Except.ok.inj h)
        exact .object List.nodup_nil (List.forall_mem_nil _)
      · obtain ⟨r, hread, hr⟩ := ok_of_map h
        obtain ⟨rfl, -⟩ := Prod.mk.inj hr
        exact .object (nodup_fieldsOfMembers _) fun m hm =>
          ih.members hread m (mem_of_mem_fieldsOfMembers hm)
  · obtain ⟨rfl, -⟩ := Prod.mk.inj (Except.ok.inj h)
    exact .null depth
  · obtain ⟨rfl, -⟩ := Prod.mk.inj (Except.ok.inj h)
    exact .bool depth true
  · obtain ⟨rfl, -⟩ := Prod.mk.inj (Except.ok.inj h)
    exact .bool depth false
  · obtain ⟨r, hread, hr⟩ := ok_of_map h
    obtain ⟨rfl, -⟩ := Prod.mk.inj hr
    exact readable_of_readNumber hread

theorem Reads.items_succ {fuel : Nat} (ih : Reads S fuel) {vs : List (Json S)}
    (h : readItems (fuel + 1) depth t = .ok (vs, rest)) : ∀ v ∈ vs, Readable depth v := by
  rw [readItems] at h
  obtain ⟨⟨v, after⟩, hvalue, h⟩ := ok_of_bind h
  have hv := ih.value hvalue
  dsimp only at h
  split at h
  · obtain ⟨rfl, -⟩ := Prod.mk.inj (Except.ok.inj h)
    exact List.forall_mem_singleton.2 hv
  · obtain ⟨⟨ws, after⟩, hitems, h⟩ := ok_of_bind h
    obtain ⟨rfl, -⟩ := Prod.mk.inj (Except.ok.inj h)
    exact List.forall_mem_cons.2 ⟨hv, ih.items hitems⟩
  · cases h

theorem Reads.members_succ {fuel : Nat} (ih : Reads S fuel) {ms : List (S × Json S)}
    (h : readMembers (fuel + 1) depth t = .ok (ms, rest)) : ∀ m ∈ ms, Readable depth m.2 := by
  unfold readMembers at h
  split at h
  · obtain ⟨⟨key, after⟩, -, h⟩ := ok_of_bind h
    dsimp only at h
    split at h
    · obtain ⟨⟨v, after⟩, hvalue, h⟩ := ok_of_bind h
      have hv := ih.value hvalue
      dsimp only at h
      split at h
      · obtain ⟨rfl, -⟩ := Prod.mk.inj (Except.ok.inj h)
        exact List.forall_mem_singleton.2 hv
      · obtain ⟨⟨ms, after⟩, hmembers, h⟩ := ok_of_bind h
        obtain ⟨rfl, -⟩ := Prod.mk.inj (Except.ok.inj h)
        exact List.forall_mem_cons.2 ⟨hv, ih.members hmembers⟩
      · cases h
    · cases h
  · cases h

theorem readable_of_read (fuel : Nat) : Reads S fuel := by
  induction fuel with
  | zero => exact reads_zero
  | succ fuel ih => exact ⟨ih.value_succ, ih.items_succ, ih.members_succ⟩

/-! ## Texts -/

/-- What is read keeps within the limits of the reader. -/
theorem readable_of_parse (h : parse t S = .ok v) : Readable nestingLimit v := by
  obtain ⟨⟨w, after⟩, hread, h⟩ := ok_of_bind h
  dsimp only at h
  split at h
  · obtain rfl := Except.ok.inj h
    exact (readable_of_read _).value hread
  · cases h

end ContentFilter.Json
