import ContentFilter.Proofs.Record.Payload
import ContentFilter.Proofs.Text.Digit

/-! # Long numerals in payloads

A JSON array whose first object opens with a whole number of too many digits is not refused: its
reader gives up at the number, whatever stands behind it.

* `Json.readNumber_of_long`: the number itself.
* `Payload.decode_of_long`: the payload.
-/

set_option autoImplicit false

namespace ContentFilter

open Text

variable {d : Char} {ds : Text}

namespace Json

theorem readUnsigned_of_long (hfirst : d ≠ '0') (hdigits : ∀ c ∈ d :: ds, c.isDigit)
    (hlong : Limit.digitLimit ≤ ds.length) (rest : Text) :
    readUnsigned false (d :: ds ++ '}' :: rest) = .error (.beyond (.digits (ds.length + 1))) := by
  have hwhole : Whole (d :: ds) := .inr ⟨d, ds, rfl, hfirst, hdigits⟩
  have hlimit : wholeOf false (d :: ds) = .error (.beyond (.digits (ds.length + 1))) := by
    have hlt : Limit.digitLimit < ds.length + 1 := by omega
    simp [wholeOf, Limit.wholeNumber, hlt]
  rw [readUnsigned_whole false hwhole (stops_cons (by decide) rest), hlimit]
  rfl

theorem readNumber_of_long (hfirst : d ≠ '0') (hdigits : ∀ c ∈ d :: ds, c.isDigit)
    (hlong : Limit.digitLimit ≤ ds.length) (rest : Text) :
    readNumber (d :: ds ++ '}' :: rest) = .error (.beyond (.digits (ds.length + 1))) := by
  rw [List.cons_append, readNumber_of_isDigit (hdigits d (by simp)), ← List.cons_append,
    readUnsigned_of_long hfirst hdigits hlong]

theorem readValue_of_long (hfirst : d ≠ '0') (hdigits : ∀ c ∈ d :: ds, c.isDigit)
    (hlong : Limit.digitLimit ≤ ds.length) (fuel depth : Nat) (rest : Text) :
    readValue (S := Text) (fuel + 1) depth (d :: ds ++ '}' :: rest) =
      .error (.beyond (.digits (ds.length + 1))) := by
  have hother : ∀ c ∈ openings, c.isDigit = false := forall_mem_of_all (by decide)
  have hmem : d ∉ openings := fun hmem => absurd (hdigits d (by simp)) (by simp [hother d hmem])
  rw [List.cons_append, readValue_of_notMem hmem, ← List.cons_append,
    readNumber_of_long hfirst hdigits hlong]
  rfl

/-- The text of an array whose first object opens with a number. -/
def numeralFirst (numeral rest : Text) : Text :=
  "[\x7b\"n\":".toList ++ (numeral ++ '}' :: rest)

theorem parse_of_long (hfirst : d ≠ '0') (hdigits : ∀ c ∈ d :: ds, c.isDigit)
    (hlong : Limit.digitLimit ≤ ds.length) (rest : Text) :
    parse (numeralFirst (d :: ds) rest) = .error (.beyond (.digits (ds.length + 1))) := by
  have hne : ∀ c : Char, c.isDigit = false → d ≠ c := fun c hc =>
    (ne_of_isDigit (hdigits d (by simp)) hc).symm
  have hspace : isSpace d = false := by simp +decide [isSpace, hne]
  -- the reader gets to the number through an array, an object and its first member
  have hvalue : ∀ fuel depth, readValue (S := Text) (fuel + 1) depth (d :: ds ++ '}' :: rest) =
      .error (.beyond (.digits (ds.length + 1))) := fun fuel depth =>
    readValue_of_long hfirst hdigits hlong fuel depth rest
  have hname : readString (S := Text) ('n' :: '"' :: ':' :: (d :: ds ++ '}' :: rest)) =
      some (['n'], ':' :: (d :: ds ++ '}' :: rest)) := rfl
  have hcolon : skipSpace (':' :: (d :: ds ++ '}' :: rest)) = ':' :: (d :: ds ++ '}' :: rest) := rfl
  have hskip : skipSpace (d :: ds ++ '}' :: rest) = d :: ds ++ '}' :: rest := by
    simp [skipSpace, hspace]
  have hmembers : ∀ fuel depth, readMembers (S := Text) (fuel + 2) depth
      ('"' :: 'n' :: '"' :: ':' :: (d :: ds ++ '}' :: rest)) =
        .error (.beyond (.digits (ds.length + 1))) := by
    intro fuel depth
    rw [readMembers, hname]
    simp only [orMalformed, bind, Except.bind]
    rw [hcolon]
    simp only [hskip, hvalue]
  have hitems : ∀ fuel depth, readItems (S := Text) (fuel + 4) (depth + 1)
      ('{' :: '"' :: 'n' :: '"' :: ':' :: (d :: ds ++ '}' :: rest)) =
        .error (.beyond (.digits (ds.length + 1))) := by
    intro fuel depth
    have hobject := readValue_object (S := Text) (fuel + 2) depth (List.forall_mem_nil _)
      ('n' :: '"' :: ':' :: (d :: ds ++ '}' :: rest))
    rw [List.nil_append] at hobject
    rw [readItems, hobject, hmembers]
    rfl
  have hlength : 6 ≤ (numeralFirst (d :: ds) rest).length :=
    calc 6 = "[\x7b\"n\":".toList.length := rfl
      _ ≤ (numeralFirst (d :: ds) rest).length := (List.prefix_append _ _).length_le
  obtain ⟨fuel, hfuel⟩ : ∃ fuel, 2 * (numeralFirst (d :: ds) rest).length + 2 = fuel + 5 :=
    ⟨2 * (numeralFirst (d :: ds) rest).length - 3, by omega⟩
  have htext : skipSpace (numeralFirst (d :: ds) rest) =
      '[' :: '{' :: '"' :: 'n' :: '"' :: ':' :: (d :: ds ++ '}' :: rest) := rfl
  have harray := readValue_array (S := Text) (fuel + 4) 987 (List.forall_mem_nil _) (c := '{')
    ('"' :: 'n' :: '"' :: ':' :: (d :: ds ++ '}' :: rest)) rfl (by decide)
  rw [List.nil_append] at harray
  rw [parse, hfuel, htext, nestingLimit, harray, hitems]
  rfl

end Json

/-- A payload that opens with such a number cannot be read, though it may well follow the notation. -/
theorem Payload.decode_of_long (floor : Nat) (hfirst : d ≠ '0') (hdigits : ∀ c ∈ d :: ds, c.isDigit)
    (hlong : Limit.digitLimit ≤ ds.length) (rest : Text) :
    decode floor (encodeUtf8 (Json.numeralFirst (d :: ds) rest)) =
      .error (.beyond (.digits (ds.length + 1))) := by
  have hmark : (Json.numeralFirst (d :: ds) rest).head? ≠ some '\uFEFF' := by
    show some '[' ≠ some '\uFEFF'
    decide
  have hopens : opensArray (Json.numeralFirst (d :: ds) rest) = true := rfl
  rw [decode_encodeUtf8 floor hmark, decodeText, hopens, if_pos rfl, Json.read,
    Json.parse_of_long hfirst hdigits hlong]
  rfl

end ContentFilter
