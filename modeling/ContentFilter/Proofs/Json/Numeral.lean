import ContentFilter.Json.Parser
import ContentFilter.Json.Printer
import ContentFilter.Proofs.Number.Decimal
import ContentFilter.Proofs.Text.Cut
import ContentFilter.Proofs.Text.Digit

/-! # Reading back numbers

The numeral of a number is read as that number, whatever follows it that could not belong to a
numeral.

* `Json.Stops`: what can follow a numeral.
* `Json.readUnsigned_numeral`: the three forms of a numeral all have the value of its digits.
* `Json.readNumber_realText`, `Json.readNumber_ofInt`: the two kinds of numbers.
-/

set_option autoImplicit false

namespace ContentFilter.Json

open Text Binary64

/-! ## Tokens -/

/-- What can follow a numeral without belonging to it. -/
def Stops (rest : Text) : Prop :=
  ∀ c, rest.head? = some c → c.isDigit = false ∧ c ≠ '.' ∧ c ≠ 'e' ∧ c ≠ 'E'

/-- Digits before the point: a lone zero, or digits of which the first is not zero. -/
def Whole (digits : Text) : Prop :=
  digits = ['0'] ∨ ∃ d ds, digits = d :: ds ∧ d ≠ '0' ∧ ∀ c ∈ digits, c.isDigit

variable {whole fraction digits rest : Text}

theorem Stops.notDigit (h : Stops rest) : ∀ c, rest.head? = some c → c.isDigit = false :=
  fun c hc => (h c hc).1

theorem readWhole_append (hwhole : Whole whole)
    (hrest : ∀ c, rest.head? = some c → c.isDigit = false) :
    readWhole (whole ++ rest) = some (whole, rest) := by
  rcases hwhole with rfl | ⟨d, ds, rfl, hd, hall⟩
  · rfl
  · have hds : ∀ c ∈ ds, c.isDigit := fun c hc => hall c (by simp [hc])
    rw [List.cons_append, readWhole, if_neg hd, if_pos (hall d (by simp)),
      takeWhile_append_eq hds hrest, dropWhile_append_eq hds hrest]

theorem readFraction_append (hne : fraction ≠ []) (hdigits : ∀ c ∈ fraction, c.isDigit)
    (hrest : ∀ c, rest.head? = some c → c.isDigit = false) :
    readFraction ('.' :: (fraction ++ rest)) = (some fraction, rest) := by
  have hsome : fraction.isEmpty = false := by simpa using hne
  simp only [readFraction, takeWhile_append_eq hdigits hrest, dropWhile_append_eq hdigits hrest,
    hsome, Bool.false_eq_true, if_false]

theorem readFraction_of_ne (hrest : ∀ c, rest.head? = some c → c ≠ '.') :
    readFraction rest = (none, rest) := by
  unfold readFraction
  split
  next cs => exact absurd rfl (hrest '.' rfl)
  · rfl

theorem readExponent_of_ne (hrest : ∀ c, rest.head? = some c → c ≠ 'e' ∧ c ≠ 'E') :
    readExponent rest = (none, rest) := by
  cases rest with
  | nil => rfl
  | cons c cs =>
    obtain ⟨hlower, hupper⟩ := hrest c rfl
    simp [readExponent, hlower, hupper]

theorem Whole.isDigit (hwhole : Whole whole) : ∀ c ∈ whole, c.isDigit := by
  rcases hwhole with rfl | ⟨d, ds, rfl, -, hall⟩
  · exact List.forall_mem_singleton.2 rfl
  · exact hall

/-- The digits of an exponent, filled up to two. -/
def exponentDigits (n : Nat) : Text :=
  if (ofNat n).length < 2 then '0' :: ofNat n else ofNat n

theorem exponentDigits_spec (n : Nat) : exponentDigits n ≠ [] ∧
    (∀ c ∈ exponentDigits n, c.isDigit) ∧ natOfDigits (exponentDigits n) = n := by
  have hdigits : ∀ c ∈ ofNat n, c.isDigit := fun c => isDigit_of_mem_ofNat
  unfold exponentDigits
  split
  · refine ⟨List.cons_ne_nil _ _, ?_, ?_⟩
    · simpa using hdigits
    · exact (natOfDigits_zeros_append 1 (ofNat n)).trans (natOfDigits_ofNat n)
  · exact ⟨Nat.toDigits_ne_nil, hdigits, natOfDigits_ofNat n⟩

/-- An exponent is read with its sign, whatever follows its digits. -/
theorem readExponent_exponentText (e : Int)
    (hrest : ∀ c, rest.head? = some c → c.isDigit = false) :
    readExponent ('e' :: (exponentText e ++ rest)) = (some e, rest) := by
  obtain ⟨hne, hdigits, hvalue⟩ := exponentDigits_spec e.natAbs
  have hsome : (exponentDigits e.natAbs).isEmpty = false := by simpa using hne
  have htext : exponentText e = (if e < 0 then '-' else '+') :: exponentDigits e.natAbs := rfl
  have hsigned : Numeral.signed ((if e < 0 then '-' else '+') :: (exponentDigits e.natAbs ++ rest)) =
      (decide (e < 0), exponentDigits e.natAbs ++ rest) := by
    by_cases he : e < 0 <;> simp [he, Numeral.signed]
  have hexponent : (if e < 0 then -(e.natAbs : Int) else e.natAbs) = e := by
    split <;> omega
  rw [htext, List.cons_append, readExponent, hsigned]
  simp only [takeWhile_append_eq hdigits hrest, dropWhile_append_eq hdigits hrest, hsome, hvalue,
    decide_eq_true_eq, hexponent]
  simp

/-! ## Unsigned numbers -/

variable {e : Int}

theorem readUnsigned_whole (negative : Bool) (hwhole : Whole whole) (hrest : Stops rest) :
    readUnsigned negative (whole ++ rest) =
      (wholeOf negative whole).map fun v => (v, rest) := by
  rw [readUnsigned, readWhole_append hwhole hrest.notDigit]
  simp only [orMalformed, bind, Except.bind, readFraction_of_ne fun c hc => (hrest c hc).2.1,
    readExponent_of_ne fun c hc => (hrest c hc).2.2]
  cases wholeOf negative whole <;> rfl

/-- A numeral with a fraction and without an exponent. -/
theorem readUnsigned_fraction (negative : Bool) (hwhole : Whole whole) (hne : fraction ≠ [])
    (hdigits : ∀ c ∈ fraction, c.isDigit) (hrest : Stops rest) :
    readUnsigned negative (whole ++ '.' :: (fraction ++ rest)) =
      .ok (.real (Decimal.toBinary64 ⟨negative, natOfDigits (whole ++ fraction), -fraction.length⟩),
        rest) := by
  have hpoint : ∀ c, ('.' :: (fraction ++ rest)).head? = some c → c.isDigit = false := by
    rintro c ⟨⟩
    rfl
  rw [readUnsigned, readWhole_append hwhole hpoint]
  simp only [orMalformed, bind, Except.bind, readFraction_append hne hdigits hrest.notDigit,
    readExponent_of_ne fun c hc => (hrest c hc).2.2]
  simp [Decimal.ofParts]

/-- A numeral with an exponent, and with a fraction when it has digits for one. -/
theorem readUnsigned_exponent (negative : Bool) (hwhole : Whole whole)
    (hdigits : ∀ c ∈ fraction, c.isDigit) (hrest : Stops rest) :
    readUnsigned negative (whole ++ ((if fraction.isEmpty then [] else '.' :: fraction) ++
        'e' :: (exponentText e ++ rest))) =
      .ok (.real (Decimal.toBinary64
        ⟨negative, natOfDigits (whole ++ fraction), e - fraction.length⟩), rest) := by
  have he : ∀ c, ('e' :: (exponentText e ++ rest)).head? = some c → c.isDigit = false := by
    rintro c ⟨⟩
    rfl
  by_cases hne : fraction = []
  · subst hne
    have hfraction : readFraction ('e' :: (exponentText e ++ rest)) =
        (none, 'e' :: (exponentText e ++ rest)) := rfl
    rw [List.isEmpty_nil, if_pos rfl, List.nil_append, readUnsigned, readWhole_append hwhole he]
    simp only [orMalformed, bind, Except.bind, hfraction, readExponent_exponentText e hrest.notDigit]
    simp [Decimal.ofParts]
  · have hsome : fraction.isEmpty = false := by simpa using hne
    have hpoint : ∀ c, ('.' :: (fraction ++ 'e' :: (exponentText e ++ rest))).head? = some c →
        c.isDigit = false := by
      rintro c ⟨⟩
      rfl
    rw [hsome, if_neg Bool.false_ne_true, List.cons_append, readUnsigned,
      readWhole_append hwhole hpoint]
    simp only [orMalformed, bind, Except.bind, readFraction_append hne hdigits he,
      readExponent_exponentText e hrest.notDigit]
    simp [Decimal.ofParts]

/-! ## Numerals -/

/-- The digits of a numeral: at least one, and the first is not zero. -/
structure Significant (digits : Text) : Prop where
  isDigit : ∀ c ∈ digits, c.isDigit
  first : ∃ d ds, digits = d :: ds ∧ d ≠ '0'

theorem Significant.length_pos (h : Significant digits) : 0 < digits.length := by
  obtain ⟨d, ds, hds, -⟩ := h.first
  simp [hds]

/-- A head of such digits can stand before the point, followed by zeros or not. -/
theorem Significant.isWhole_take (h : Significant digits) {n : Nat} (hn : 0 < n) (k : Nat) :
    Whole (digits.take n ++ List.replicate k '0') := by
  obtain ⟨d, ds, hds, hd⟩ := h.first
  obtain ⟨n, rfl⟩ : ∃ m, n = m + 1 := ⟨n - 1, by omega⟩
  refine .inr ⟨d, ds.take n ++ List.replicate k '0', by simp [hds], hd, fun c hc => ?_⟩
  rcases List.mem_append.1 hc with hc | hc
  · exact h.isDigit c (List.mem_of_mem_take hc)
  · rw [List.eq_of_mem_replicate hc]
    rfl

theorem Significant.isDigit_drop (h : Significant digits) (n : Nat) :
    ∀ c ∈ digits.drop n, c.isDigit := fun c hc => h.isDigit c (List.mem_of_mem_drop hc)

/-- A numeral below one: the zeros before its digits count in the exponent only. -/
theorem readUnsigned_belowOne (negative : Bool) (h : Significant digits) (hrest : Stops rest)
    (k : Nat) : readUnsigned negative
      ("0.".toList ++ List.replicate k '0' ++ digits ++ rest) =
      .ok (.real (Decimal.toBinary64
        ⟨negative, natOfDigits digits, -(k + digits.length : Nat)⟩), rest) := by
  have hne : List.replicate k '0' ++ digits ≠ [] :=
    List.append_ne_nil_of_right_ne_nil _ (List.length_pos_iff.1 h.length_pos)
  have hdigits : ∀ c ∈ List.replicate k '0' ++ digits, c.isDigit := by
    intro c hc
    rcases List.mem_append.1 hc with hc | hc
    · rw [List.eq_of_mem_replicate hc]
      rfl
    · exact h.isDigit c hc
  have hvalue : natOfDigits (['0'] ++ (List.replicate k '0' ++ digits)) = natOfDigits digits := by
    rw [← List.append_assoc]
    exact natOfDigits_zeros_append (k + 1) digits
  have hread := readUnsigned_fraction negative (.inl rfl) hne hdigits hrest
  rw [hvalue, List.length_append, List.length_replicate] at hread
  rw [← hread]
  simp

/-- A numeral whose point stands behind its digits: the zeros before the point count in the
coefficient. -/
theorem readUnsigned_integral (negative : Bool) (h : Significant digits) (hrest : Stops rest)
    (k : Nat) : readUnsigned negative (digits ++ List.replicate k '0' ++ '.' :: ('0' :: rest)) =
      .ok (.real (Decimal.toBinary64 ⟨negative, natOfDigits digits, k⟩), rest) := by
  have hlength := h.length_pos
  have hwhole : Whole (digits ++ List.replicate k '0') := by
    simpa using h.isWhole_take hlength k
  have hvalue : natOfDigits (digits ++ List.replicate k '0' ++ ['0']) =
      natOfDigits digits * 10 ^ (k + 1) := by
    rw [List.append_assoc, ← natOfDigits_append_zeros, List.replicate_succ']
  have hread := readUnsigned_fraction negative hwhole (List.cons_ne_nil '0' [])
    (List.forall_mem_singleton.2 rfl) hrest
  have hexponent : -(['0'].length : Int) + (k + 1 : Nat) = k := by
    rw [List.length_singleton]
    omega
  rwa [hvalue, Decimal.toBinary64_mul_pow, hexponent] at hread

/-- A numeral whose point stands between its digits. -/
theorem readUnsigned_between (negative : Bool) (h : Significant digits) (hrest : Stops rest)
    {n : Nat} (hpos : 0 < n) (hn : n < digits.length) :
    readUnsigned negative (digits.take n ++ '.' :: (digits.drop n ++ rest)) =
      .ok (.real (Decimal.toBinary64
        ⟨negative, natOfDigits digits, -(digits.length - n : Nat)⟩), rest) := by
  have hne : digits.drop n ≠ [] := by
    rw [ne_eq, List.drop_eq_nil_iff]
    omega
  have hwhole : Whole (digits.take n) := by simpa using h.isWhole_take hpos 0
  have hread := readUnsigned_fraction negative hwhole hne (h.isDigit_drop n) hrest
  rwa [List.take_append_drop, List.length_drop] at hread

/-- In each of its forms a numeral has the value of its digits. -/
theorem readUnsigned_numeral (negative : Bool) (h : Significant digits) (hrest : Stops rest) :
    readUnsigned negative (numeral digits e ++ rest) =
      .ok (.real (Decimal.toBinary64
        ⟨negative, natOfDigits digits, e + 1 - digits.length⟩), rest) := by
  have hlength := h.length_pos
  unfold numeral
  split
  next hposition =>
    -- the exponent is below zero, or the point stands behind or between the digits
    split
    next hneg =>
      have hexponent : -(((-e - 1).toNat + digits.length : Nat) : Int) = e + 1 - digits.length := by
        omega
      rw [readUnsigned_belowOne negative h hrest, hexponent]
    next hneg =>
      dsimp only
      split
      next hnone =>
        have hle : digits.length ≤ e.toNat + 1 := by simpa using hnone
        have hexponent : ((e.toNat + 1 - digits.length : Nat) : Int) = e + 1 - digits.length := by
          omega
        have hread := readUnsigned_integral negative h hrest (e.toNat + 1 - digits.length)
        rw [hexponent] at hread
        rw [← hread, List.take_of_length_le hle]
        simp
      next hsome =>
        have hlt : e.toNat + 1 < digits.length := by simpa using hsome
        have hexponent : -((digits.length - (e.toNat + 1) : Nat) : Int) = e + 1 - digits.length := by
          omega
        have hread := readUnsigned_between negative h hrest (Nat.succ_pos _) hlt
        rw [hexponent] at hread
        rw [← hread, Nat.sub_eq_zero_of_le hlt.le]
        simp
  next hscientific =>
    have hwhole : Whole (digits.take 1) := by simpa using h.isWhole_take Nat.one_pos 0
    have hexponent : e - ((digits.length - 1 : Nat) : Int) = e + 1 - digits.length := by omega
    have hread := readUnsigned_exponent (e := e) negative hwhole (h.isDigit_drop 1) hrest
    rw [List.take_append_drop, List.length_drop, hexponent] at hread
    rw [← hread]
    simp

/-! ## Real numbers -/

theorem eq_dropEndWhile_append_zeros (t : Text) :
    ∃ k, t = dropEndWhile (· = '0') t ++ List.replicate k '0' := by
  refine ⟨(t.reverse.takeWhile (· = '0')).length, ?_⟩
  have hzeros : t.reverse.takeWhile (· = '0') =
      List.replicate (t.reverse.takeWhile (· = '0')).length '0' :=
    List.eq_replicate_of_mem fun c hc => by simpa using List.mem_takeWhile_imp hc
  calc t = (t.reverse.takeWhile (· = '0') ++ t.reverse.dropWhile (· = '0')).reverse := by
        rw [List.takeWhile_append_dropWhile, List.reverse_reverse]
    _ = dropEndWhile (· = '0') t ++ (t.reverse.takeWhile (· = '0')).reverse := by
        rw [List.reverse_append, dropEndWhile]
    _ = _ := by rw [hzeros, List.reverse_replicate, List.length_replicate]

/-- The digits of a positive number without the zeros at their end. -/
theorem significant_dropEndWhile {c : Nat} (hc : 0 < c) :
    Significant (dropEndWhile (· = '0') (ofNat c)) := by
  obtain ⟨k, hk⟩ := eq_dropEndWhile_append_zeros (ofNat c)
  obtain ⟨d, ds, hds, hd⟩ := ofNat_eq_cons hc
  have hdigits : ∀ x ∈ dropEndWhile (· = '0') (ofNat c), x.isDigit := fun x hx =>
    isDigit_of_mem_ofNat (n := c) (by rw [hk]; exact List.mem_append_left _ hx)
  refine ⟨hdigits, ?_⟩
  cases htrimmed : dropEndWhile (· = '0') (ofNat c) with
  | nil =>
    -- all digits would be zeros, the first one too
    have hmem : d ∈ List.replicate k '0' := by
      rw [htrimmed, List.nil_append] at hk
      rw [← hk, hds]
      exact List.mem_cons_self
    exact absurd (List.eq_of_mem_replicate hmem) hd
  | cons x xs =>
    rw [htrimmed, hds, List.cons_append] at hk
    exact ⟨x, xs, rfl, (List.cons.inj hk).1 ▸ hd⟩

variable {units : Nat}

theorem toBinary64_coefficient_pos {d : Decimal} (hpos : 0 < units)
    (h : d.toBinary64 = .finite false units) : 0 < d.coefficient := by
  obtain ⟨s, c, e⟩ := d
  rw [Nat.pos_iff_ne_zero]
  rintro rfl
  rw [Decimal.toBinary64_eq, if_pos rfl] at h
  obtain ⟨-, rfl⟩ := Binary64.finite.inj h
  exact absurd hpos (Nat.lt_irrefl 0)

/-- The sign of a numeral goes to the number. -/
theorem toBinary64_signed {d : Decimal} (h : d.toBinary64 = .finite false units)
    (negative : Bool) :
    Decimal.toBinary64 ⟨negative, d.coefficient, d.exponent⟩ = .finite negative units := by
  obtain ⟨s, c, e⟩ := d
  rw [Decimal.toBinary64_negative] at h ⊢
  cases hunsigned : Decimal.toBinary64 ⟨false, c, e⟩ with
  | finite t n =>
    rw [hunsigned] at h
    obtain ⟨-, rfl⟩ := Binary64.finite.inj h
    rfl
  | infinite t =>
    rw [hunsigned] at h
    cases h
  | nan =>
    rw [hunsigned] at h
    cases h

/-- The numeral of a finite number is read as that number. -/
theorem readUnsigned_unitsText (negative : Bool) (h : Representable units) (hrest : Stops rest) :
    readUnsigned negative (unitsText units ++ rest) =
      .ok (.real (.finite negative units), rest) := by
  unfold unitsText
  split
  next hzero =>
    subst hzero
    exact readUnsigned_fraction negative (.inl rfl) (List.cons_ne_nil '0' [])
      (List.forall_mem_singleton.2 rfl) hrest
  next hzero =>
    have hpos : 0 < units := Nat.pos_of_ne_zero hzero
    have hshortest := toBinary64_shortest h hpos
    dsimp only
    generalize shortest units = d at hshortest ⊢
    have hc := toBinary64_coefficient_pos hpos hshortest
    obtain ⟨k, hk⟩ := eq_dropEndWhile_append_zeros (ofNat d.coefficient)
    have hsignificant := significant_dropEndWhile hc
    generalize dropEndWhile (· = '0') (ofNat d.coefficient) = digits at hk hsignificant
    have hvalue : natOfDigits digits * 10 ^ k = d.coefficient := by
      rw [← natOfDigits_append_zeros, ← hk, natOfDigits_ofNat]
    have hexponent : d.exponent + (ofNat d.coefficient).length - 1 + 1 - digits.length =
        d.exponent + k := by
      rw [hk, List.length_append, List.length_replicate]
      omega
    rw [readUnsigned_numeral negative hsignificant hrest, hexponent,
      ← Decimal.toBinary64_mul_pow, hvalue, toBinary64_signed hshortest]

/-! ## Signed numbers -/

theorem cons_of_readUnsigned {negative : Bool} {t : Text} {r : Number × Text}
    (h : readUnsigned negative t = .ok r) : ∃ d cs, t = d :: cs ∧ d.isDigit := by
  cases t with
  | nil => cases h
  | cons c cs =>
    refine ⟨c, cs, rfl, ?_⟩
    by_contra hc
    have hzero : c ≠ '0' := by
      rintro rfl
      exact hc rfl
    rw [readUnsigned, readWhole, if_neg hzero, if_neg hc] at h
    cases h

theorem readNumber_of_isDigit {d : Char} (hd : d.isDigit) (cs : Text) :
    readNumber (d :: cs) = readUnsigned false (d :: cs) := by
  have hN : 'N' ≠ d := ne_of_isDigit hd (by decide)
  have hI : 'I' ≠ d := ne_of_isDigit hd (by decide)
  have hminus : '-' ≠ d := ne_of_isDigit hd (by decide)
  unfold readNumber
  split
  next h => simp [startsWith, hN] at h
  · split
    next h => simp [startsWith, hI] at h
    · split
      next h => simp [startsWith, hminus] at h
      · split
        next h => exact absurd (List.cons.inj h).1.symm hminus
        · rfl

theorem readNumber_minus {d : Char} (hd : d.isDigit) (cs : Text) :
    readNumber ('-' :: d :: cs) = readUnsigned true (d :: cs) := by
  have hI : 'I' ≠ d := ne_of_isDigit hd (by decide)
  simp [readNumber, startsWith, hI]

theorem readNumber_of_readUnsigned {t : Text} {r : Number × Text}
    (h : readUnsigned false t = .ok r) : readNumber t = .ok r := by
  obtain ⟨d, cs, rfl, hd⟩ := cons_of_readUnsigned h
  rw [readNumber_of_isDigit hd, h]

theorem readNumber_minus_of_readUnsigned {t : Text} {r : Number × Text}
    (h : readUnsigned true t = .ok r) : readNumber ('-' :: t) = .ok r := by
  obtain ⟨d, cs, rfl, hd⟩ := cons_of_readUnsigned h
  rw [readNumber_minus hd, h]

/-- The text of a number in double precision is read as that number. -/
theorem readNumber_realText {x : Binary64} (hx : x.WellFormed) (hrest : Stops rest) :
    readNumber (realText x ++ rest) = .ok (.real x, rest) := by
  match x with
  | .nan => rfl
  | .infinite false => rfl
  | .infinite true => rfl
  | .finite false units =>
    exact readNumber_of_readUnsigned (readUnsigned_unitsText false (hx _ _ rfl) hrest)
  | .finite true units =>
    exact readNumber_minus_of_readUnsigned (readUnsigned_unitsText true (hx _ _ rfl) hrest)

theorem whole_ofNat (n : Nat) : Whole (ofNat n) := by
  rcases Nat.eq_zero_or_pos n with rfl | hn
  · exact .inl rfl
  · obtain ⟨d, ds, hds, hd⟩ := ofNat_eq_cons hn
    exact .inr ⟨d, ds, hds, hd, fun c => isDigit_of_mem_ofNat⟩

theorem readUnsigned_ofNat (negative : Bool) {n : Nat} (hn : (ofNat n).length ≤ Limit.digitLimit)
    (hrest : Stops rest) :
    readUnsigned negative (ofNat n ++ rest) =
      .ok (.int (if negative then -n else n), rest) := by
  rw [readUnsigned_whole negative (whole_ofNat n) hrest, wholeOf, Limit.wholeNumber,
    if_neg (Nat.not_lt.2 hn), natOfDigits_ofNat]
  rfl

/-- The text of a whole number is read as that number, unless it has too many digits. -/
theorem readNumber_ofInt {n : Int} (hn : (ofNat n.natAbs).length ≤ Limit.digitLimit)
    (hrest : Stops rest) : readNumber (Text.ofInt n ++ rest) = .ok (.int n, rest) := by
  cases n with
  | ofNat n => exact readNumber_of_readUnsigned (readUnsigned_ofNat false hn hrest)
  | negSucc n => exact readNumber_minus_of_readUnsigned (readUnsigned_ofNat true hn hrest)

end ContentFilter.Json
