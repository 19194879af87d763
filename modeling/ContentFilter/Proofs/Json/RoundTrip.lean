import ContentFilter.Proofs.Json.Fields
import ContentFilter.Proofs.Json.Numeral
import ContentFilter.Proofs.Json.Quoted

/-! # Reading back what has been written

A value within the limits of the reader is read back from its text in any layout that sets items apart
by commas, keys from their values by colons, and has only white space besides.

* `Json.Readable`: the values within the limits of the reader.
* `Json.Layout.Standard`: the layouts.
* `Json.Readable.readsBack`: the reader takes exactly the text of such a value.
* `Json.parse_write`: its text is read as the value.
-/

set_option autoImplicit false

namespace ContentFilter.Json

open Text UnicodeString

variable {S : Type}

/-! ## Values -/

/-- The values within the limits of the reader, nested no deeper than a bound. The keys of an object are
distinct. -/
inductive Readable : Nat → Json S → Prop
  | null (depth : Nat) : Readable depth .null
  | bool (depth : Nat) (b : Bool) : Readable depth (.bool b)
  | int (depth : Nat) {n : Int} (hdigits : (ofNat n.natAbs).length ≤ Limit.digitLimit) :
      Readable depth (.int n)
  | real (depth : Nat) {x : Binary64} (hx : x.WellFormed) : Readable depth (.real x)
  | text (depth : Nat) (s : S) : Readable depth (.text s)
  | array {depth : Nat} {items : List (Json S)} (hitems : ∀ v ∈ items, Readable depth v) :
      Readable (depth + 1) (.array items)
  | object {depth : Nat} {fields : List (S × Json S)} (hkeys : (fields.map Prod.fst).Nodup)
      (hfields : ∀ f ∈ fields, Readable depth f.2) : Readable (depth + 1) (.object fields)

theorem Readable.mono {d e : Nat} {v : Json S} (hv : Readable d v) (h : d ≤ e) : Readable e v := by
  induction hv generalizing e with
  | null d => exact .null e
  | bool d b => exact .bool e b
  | int d hdigits => exact .int e hdigits
  | real d hx => exact .real e hx
  | text d t => exact .text e t
  | array hitems ih =>
    obtain ⟨e, rfl⟩ : ∃ k, e = k + 1 := ⟨e - 1, by omega⟩
    exact .array fun v hv => ih v hv (by omega)
  | object hkeys hfields ih =>
    obtain ⟨e, rfl⟩ : ∃ k, e = k + 1 := ⟨e - 1, by omega⟩
    exact .object hkeys fun f hf => ih f hf (by omega)

theorem readable_object_iff {depth : Nat} {fields : List (S × Json S)} :
    Readable (depth + 1) (.object fields) ↔
      (fields.map Prod.fst).Nodup ∧ ∀ f ∈ fields, Readable depth f.2 := by
  constructor
  · rintro (_ | _ | _ | _ | _ | _ | ⟨hkeys, hfields⟩)
    exact ⟨hkeys, hfields⟩
  · rintro ⟨hkeys, hfields⟩
    exact .object hkeys hfields

variable [UnicodeString S]

/-! ## Layouts -/

namespace Layout

/-- Layouts of commas and colons with white space behind them. -/
structure Standard (l : Layout) : Prop where
  comma : ∃ blank, l.betweenItems = ',' :: blank ∧ ∀ c ∈ blank, isSpace c
  colon : ∃ blank, l.afterKey = ':' :: blank ∧ ∀ c ∈ blank, isSpace c

theorem standard_compact : compact.Standard :=
  ⟨⟨[], rfl, List.forall_mem_nil _⟩, [], rfl, List.forall_mem_nil _⟩

theorem standard_indented : indented.Standard :=
  ⟨⟨[], rfl, List.forall_mem_nil _⟩, [' '], rfl, List.forall_mem_singleton.2 rfl⟩

/-- What stands between two items at a level. -/
def separator (l : Layout) (level : Nat) : Text := l.betweenItems ++ l.newLine level

def memberText (l : Layout) (level : Nat) (f : S × Json S) : Text :=
  quote f.1 ++ l.afterKey ++ write l level f.2

end Layout

variable (l : Layout) (level : Nat)

theorem writeItems_eq_map (items : List (Json S)) :
    writeItems l level items = items.map (write l level) := by
  induction items with
  | nil => rfl
  | cons v vs ih => rw [writeItems, ih, List.map_cons]

theorem writeFields_eq_map (fields : List (S × Json S)) :
    writeFields l level fields = fields.map (l.memberText level) := by
  induction fields with
  | nil => rfl
  | cons f fs ih => rw [writeFields, ih, List.map_cons, Layout.memberText]

theorem enclose_cons (opening closing : Char) (first : Text) (others : List Text) :
    l.enclose level opening closing (first :: others) =
      opening :: (l.newLine (level + 1) ++ (join (l.separator (level + 1)) (first :: others) ++
        (l.newLine level ++ [closing]))) := by
  simp [Layout.enclose, Layout.separator]

theorem write_array (v : Json S) (vs : List (Json S)) :
    write l level (.array (v :: vs)) =
      '[' :: (l.newLine (level + 1) ++ (join (l.separator (level + 1))
        ((v :: vs).map (write l (level + 1))) ++ (l.newLine level ++ [']']))) := by
  rw [write, writeItems_eq_map, List.map_cons, enclose_cons]

theorem write_object (f : S × Json S) (fs : List (S × Json S)) :
    write l level (.object (f :: fs)) =
      '{' :: (l.newLine (level + 1) ++ (join (l.separator (level + 1))
        ((f :: fs).map (l.memberText (level + 1))) ++ (l.newLine level ++ ['}']))) := by
  rw [write, writeFields_eq_map, List.map_cons, enclose_cons]

/-! ## White space -/

variable {l level}

theorem skipSpace_append {blank : Text} (hblank : ∀ c ∈ blank, isSpace c) (t : Text) :
    skipSpace (blank ++ t) = skipSpace t := List.dropWhile_append_of_pos hblank

theorem skipSpace_cons {c : Char} (hc : isSpace c = false) (cs : Text) :
    skipSpace (c :: cs) = c :: cs := List.dropWhile_cons_of_neg (by simp [hc])

theorem isSpace_newLine : ∀ c ∈ l.newLine level, isSpace c := by
  unfold Layout.newLine
  split
  · exact List.forall_mem_nil _
  · intro c hc
    rcases List.mem_cons.1 hc with rfl | hc
    · rfl
    · rw [List.eq_of_mem_replicate hc]
      rfl

/-- What stands behind the last item ends in its bracket. -/
theorem skipSpace_newLine {c : Char} (hc : isSpace c = false) (rest : Text) :
    skipSpace (l.newLine level ++ c :: rest) = c :: rest := by
  rw [skipSpace_append isSpace_newLine, skipSpace_cons hc]

/-- What stands between two items is a comma and white space. -/
theorem skipSpace_separator (hl : l.Standard) (level : Nat) (t : Text) :
    ∃ tail, skipSpace (l.separator level ++ t) = ',' :: tail ∧ skipSpace tail = skipSpace t := by
  obtain ⟨blank, hcomma, hblank⟩ := hl.comma
  refine ⟨blank ++ (l.newLine level ++ t), ?_, ?_⟩
  · rw [Layout.separator, hcomma, List.cons_append, List.cons_append, skipSpace_cons rfl,
      List.append_assoc]
  · rw [skipSpace_append hblank, skipSpace_append isSpace_newLine]

theorem length_separator_pos (hl : l.Standard) (level : Nat) : 0 < (l.separator level).length := by
  obtain ⟨blank, hcomma, -⟩ := hl.comma
  simp [Layout.separator, hcomma]

theorem stops_cons {c : Char} (hc : c.isDigit = false ∧ c ≠ '.' ∧ c ≠ 'e' ∧ c ≠ 'E') (rest : Text) :
    Stops (c :: rest) := by
  rintro d ⟨⟩
  exact hc

theorem stops_newLine {c : Char} (hc : c.isDigit = false ∧ c ≠ '.' ∧ c ≠ 'e' ∧ c ≠ 'E')
    (rest : Text) : Stops (l.newLine level ++ c :: rest) := by
  unfold Layout.newLine
  split
  · exact stops_cons hc rest
  · exact stops_cons (by decide) _

theorem stops_separator (hl : l.Standard) (t : Text) : Stops (l.separator level ++ t) := by
  obtain ⟨blank, hcomma, -⟩ := hl.comma
  rw [Layout.separator, hcomma]
  exact stops_cons (by decide) _

/-! ## Reading values -/

variable [DecidableEq S]

/-- The reader takes exactly the text of a value, whatever follows that could not belong to a
numeral. -/
def ReadsBack (l : Layout) (depth : Nat) (v : Json S) : Prop :=
  ∀ (level fuel : Nat) (rest : Text), Stops rest → 2 * (write l level v).length ≤ fuel →
    readValue fuel depth (write l level v ++ rest) = .ok (v, rest)

/-- The characters with which a value starts that is no number. -/
def openings : List Char := ['"', '[', '{', 'n', 't', 'f']

/-- The characters besides digits with which a number starts. -/
def numeralOpenings : List Char := ['-', 'N', 'I']

theorem readValue_of_notMem {c : Char} (hc : c ∉ openings) (fuel depth : Nat) (cs : Text) :
    readValue (fuel + 1) depth (c :: cs) =
      (readNumber (c :: cs)).map fun r => ((ofNumber r.1 : Json S), r.2) := by
  rw [readValue]
  all_goals
    rintro _ ⟨⟩
    exact hc (by decide)

theorem cons_of_readNumber {t : Text} {r : Number × Text} (h : readNumber t = .ok r) :
    ∃ c cs, t = c :: cs ∧ (c.isDigit ∨ c ∈ numeralOpenings) := by
  have hname : ∀ {name : Text} {c : Char}, name.head? = some c → startsWith t name →
      ∃ cs, t = c :: cs := by
    intro name c hhead hstarts
    obtain ⟨cs, rfl⟩ := List.isPrefixOf_iff_prefix.1 hstarts
    obtain ⟨tail, rfl⟩ : ∃ tail, name = c :: tail := List.head?_eq_some_iff.1 hhead
    exact ⟨tail ++ cs, rfl⟩
  unfold readNumber at h
  split at h
  next hstarts =>
    obtain ⟨cs, rfl⟩ := hname (c := 'N') rfl hstarts
    exact ⟨'N', cs, rfl, .inr (by decide)⟩
  · split at h
    next hstarts =>
      obtain ⟨cs, rfl⟩ := hname (c := 'I') rfl hstarts
      exact ⟨'I', cs, rfl, .inr (by decide)⟩
    · split at h
      next hstarts =>
        obtain ⟨cs, rfl⟩ := hname (c := '-') rfl hstarts
        exact ⟨'-', cs, rfl, .inr (by decide)⟩
      · split at h
        · exact ⟨'-', _, rfl, .inr (by decide)⟩
        · obtain ⟨d, cs, hcs, hd⟩ := cons_of_readUnsigned h
          exact ⟨d, cs, hcs, .inl hd⟩

theorem readValue_of_readNumber {t rest : Text} {n : Number} (h : readNumber t = .ok (n, rest))
    (fuel depth : Nat) : readValue (fuel + 1) depth t = .ok ((ofNumber n : Json S), rest) := by
  obtain ⟨c, cs, rfl, hc⟩ := cons_of_readNumber h
  have hother : ∀ c ∈ openings, c.isDigit = false ∧ c ∉ numeralOpenings :=
    forall_mem_of_all (by decide)
  have hmem : c ∉ openings := by
    intro hmem
    obtain ⟨hdigit, hnumeral⟩ := hother c hmem
    rcases hc with hc | hc
    · exact absurd hc (by simp [hdigit])
    · exact hnumeral hc
  rw [readValue_of_notMem hmem, h]
  rfl

theorem ok_of_map {ε α β : Type} {x : Except ε α} {f : α → β} {b : β} (h : x.map f = .ok b) :
    ∃ a, x = .ok a ∧ b = f a := by
  cases x with
  | error e => cases h
  | ok a => exact ⟨a, rfl, (Except.ok.inj h).symm⟩

/-- A text that is read as a value starts with no white space and with no closing bracket. -/
theorem cons_of_readValue {fuel depth : Nat} {t : Text} {r : Json S × Text}
    (h : readValue fuel depth t = .ok r) :
    ∃ c cs, t = c :: cs ∧ isSpace c = false ∧ c ≠ ']' := by
  have hopening : ∀ c ∈ openings, isSpace c = false ∧ c ≠ ']' := forall_mem_of_all (by decide)
  have hnumeral : ∀ c ∈ numeralOpenings, isSpace c = false ∧ c ≠ ']' :=
    forall_mem_of_all (by decide)
  cases fuel with
  | zero => cases h
  | succ fuel =>
    cases t with
    | nil => cases h
    | cons c cs =>
      refine ⟨c, cs, rfl, ?_⟩
      by_cases hc : c ∈ openings
      · exact hopening c hc
      · rw [readValue_of_notMem hc] at h
        obtain ⟨r, hread, -⟩ := ok_of_map h
        obtain ⟨_, _, ⟨⟩, hd | hd⟩ := cons_of_readNumber hread
        · have hne : ∀ d : Char, d.isDigit = false → c ≠ d := fun d h => (ne_of_isDigit hd h).symm
          exact ⟨by simp +decide [isSpace, hne], hne ']' rfl⟩
        · exact hnumeral c hd

section

variable {l : Layout} {depth : Nat} {v : Json S}

/-- The text of a value that reads back starts with no white space and with no closing bracket. -/
theorem ReadsBack.cons (hv : ReadsBack l depth v) (level : Nat) :
    ∃ c cs, write l level v = c :: cs ∧ isSpace c = false ∧ c ≠ ']' := by
  have hread := hv level _ [] nofun le_rfl
  rw [List.append_nil] at hread
  exact cons_of_readValue hread

theorem ReadsBack.skipSpace (hv : ReadsBack l depth v) (level : Nat) (rest : Text) :
    skipSpace (write l level v ++ rest) = write l level v ++ rest := by
  obtain ⟨c, cs, hcs, hc, -⟩ := hv.cons level
  rw [hcs, List.cons_append, skipSpace_cons hc]

theorem ReadsBack.skipSpace_join (hv : ReadsBack l depth v) (level : Nat) (vs : List (Json S))
    (sep rest : Text) :
    Json.skipSpace (join sep ((v :: vs).map (write l level)) ++ rest) =
      join sep ((v :: vs).map (write l level)) ++ rest := by
  obtain ⟨tail, htail⟩ := join_cons_eq_append sep (write l level v) (vs.map (write l level))
  rw [List.map_cons, htail, List.append_assoc, hv.skipSpace]

/-- Items between commas, up to the bracket behind the last. -/
theorem readItems_join (hl : l.Standard) (level lower : Nat) (rest : Text) (v : Json S)
    (vs : List (Json S)) (hback : ∀ w ∈ v :: vs, ReadsBack l depth w) :
    ∀ fuel, 2 * (join (l.separator level) ((v :: vs).map (write l level))).length < fuel →
      readItems fuel depth (join (l.separator level) ((v :: vs).map (write l level)) ++
        (l.newLine lower ++ ']' :: rest)) = .ok (v :: vs, rest) := by
  induction vs generalizing v with
  | nil =>
    intro fuel hfuel
    obtain ⟨fuel, rfl⟩ : ∃ k, fuel = k + 1 := ⟨fuel - 1, by omega⟩
    rw [List.map_cons, List.map_nil, join_singleton] at hfuel ⊢
    rw [readItems, hback v (by simp) level fuel _ (stops_newLine (by decide) _) (by omega)]
    simp only [bind, Except.bind, skipSpace_newLine (c := ']') rfl]
  | cons w ws ih =>
    intro fuel hfuel
    obtain ⟨fuel, rfl⟩ : ∃ k, fuel = k + 1 := ⟨fuel - 1, by omega⟩
    have hws : ∀ x ∈ w :: ws, x ∈ v :: w :: ws := fun x hx => List.mem_cons_of_mem v hx
    have hrest := ih w (fun x hx => hback x (hws x hx)) fuel
    have hskip := (hback w (by simp)).skipSpace_join level ws (l.separator level)
      (l.newLine lower ++ ']' :: rest)
    obtain ⟨tail, htail, hcomma⟩ := skipSpace_separator hl level
      (join (l.separator level) ((w :: ws).map (write l level)) ++ (l.newLine lower ++ ']' :: rest))
    -- the fuel that is spent on an item is made up for by the separator behind it
    have hlength := length_separator_pos hl level
    rw [List.map_cons, List.map_cons, join_cons_cons, ← List.map_cons] at hfuel ⊢
    simp only [List.length_append] at hfuel
    rw [readItems, List.append_assoc, List.append_assoc,
      hback v (by simp) level fuel _ (stops_separator hl _) (by omega)]
    simp only [bind, Except.bind, htail, hcomma, hskip, hrest (by omega)]

/-- The key and the value of the next member are read, and then what follows them decides. -/
theorem readMembers_memberText (hl : l.Standard) (level fuel : Nat) (f : S × Json S) (rest : Text)
    (hback : ReadsBack l depth f.2) (hrest : Stops rest)
    (hfuel : 2 * (l.memberText level f).length ≤ fuel) :
    readMembers (fuel + 1) depth (l.memberText level f ++ rest) =
      match Json.skipSpace rest with
      | '}' :: rest => .ok ([f], rest)
      | ',' :: rest =>
        (readMembers fuel depth (Json.skipSpace rest)).map fun r => (f :: r.1, r.2)
      | _ => .error .malformed := by
  obtain ⟨blank, hcolon, hblank⟩ := hl.colon
  have hlength : (write l level f.2).length ≤ (l.memberText level f).length := by
    simp only [Layout.memberText, List.length_append]
    omega
  have htext : l.memberText level f ++ rest =
      '"' :: ((units f.1).flatMap escapeUnit ++ '"' :: ':' :: (blank ++ (write l level f.2 ++ rest))) := by
    simp [Layout.memberText, quote, hcolon]
  have hskip : Json.skipSpace (':' :: (blank ++ (write l level f.2 ++ rest))) =
      ':' :: (blank ++ (write l level f.2 ++ rest)) := rfl
  rw [htext, readMembers, readString_escape]
  simp only [orMalformed, bind, Except.bind, hskip, skipSpace_append hblank, hback.skipSpace,
    hback level fuel rest hrest (by omega)]
  rcases Json.skipSpace rest with _ | ⟨c, tail⟩
  · rfl
  · by_cases hbrace : c = '}'
    · rw [hbrace]
      rfl
    · by_cases hcomma : c = ','
      · subst hcomma
        cases hread : readMembers (S := S) fuel depth (Json.skipSpace tail) <;>
          simp [hread, Except.map]
      · simp [hbrace, hcomma]

theorem readMembers_join (hl : l.Standard) (level lower : Nat) (rest : Text) (f : S × Json S)
    (fs : List (S × Json S)) (hback : ∀ g ∈ f :: fs, ReadsBack l depth g.2) :
    ∀ fuel, 2 * (join (l.separator level) ((f :: fs).map (l.memberText level))).length < fuel →
      readMembers fuel depth (join (l.separator level) ((f :: fs).map (l.memberText level)) ++
        (l.newLine lower ++ '}' :: rest)) = .ok (f :: fs, rest) := by
  induction fs generalizing f with
  | nil =>
    intro fuel hfuel
    obtain ⟨fuel, rfl⟩ : ∃ k, fuel = k + 1 := ⟨fuel - 1, by omega⟩
    rw [List.map_cons, List.map_nil, join_singleton] at hfuel ⊢
    rw [readMembers_memberText hl level fuel f _ (hback f (by simp))
      (stops_newLine (by decide) _) (by omega)]
    simp only [skipSpace_newLine (c := '}') rfl]
  | cons g gs ih =>
    intro fuel hfuel
    obtain ⟨fuel, rfl⟩ : ∃ k, fuel = k + 1 := ⟨fuel - 1, by omega⟩
    have hgs : ∀ x ∈ g :: gs, x ∈ f :: g :: gs := fun x hx => List.mem_cons_of_mem f hx
    have hrest := ih g (fun x hx => hback x (hgs x hx)) fuel
    have hskip : Json.skipSpace (join (l.separator level) ((g :: gs).map (l.memberText level)) ++
        (l.newLine lower ++ '}' :: rest)) =
          join (l.separator level) ((g :: gs).map (l.memberText level)) ++
            (l.newLine lower ++ '}' :: rest) := by
      obtain ⟨tail, htail⟩ := join_cons_eq_append (l.separator level) (l.memberText level g)
        (gs.map (l.memberText level))
      rw [List.map_cons, htail]
      rfl
    obtain ⟨tail, htail, hcomma⟩ := skipSpace_separator hl level
      (join (l.separator level) ((g :: gs).map (l.memberText level)) ++
        (l.newLine lower ++ '}' :: rest))
    have hlength := length_separator_pos hl level
    rw [List.map_cons, List.map_cons, join_cons_cons, ← List.map_cons] at hfuel ⊢
    simp only [List.length_append] at hfuel
    rw [List.append_assoc, List.append_assoc,
      readMembers_memberText hl level fuel f _ (hback f (by simp)) (stops_separator hl _) (by omega)]
    simp only [htail, hcomma, hskip, hrest (by omega)]
    rfl

theorem readValue_array (fuel depth : Nat) {blank : Text} (hblank : ∀ c ∈ blank, isSpace c) {c : Char}
    (cs : Text) (hspace : isSpace c = false) (hc : c ≠ ']') :
    readValue (fuel + 1) (depth + 1) ('[' :: (blank ++ c :: cs)) =
      (readItems fuel depth (c :: cs)).map fun r => ((.array r.1 : Json S), r.2) := by
  rw [readValue, skipSpace_append hblank, skipSpace_cons hspace]
  split
  next h => exact absurd (List.cons.inj h).1 hc
  · rfl

theorem readValue_object (fuel depth : Nat) {blank : Text} (hblank : ∀ c ∈ blank, isSpace c)
    (cs : Text) :
    readValue (fuel + 1) (depth + 1) ('{' :: (blank ++ '"' :: cs)) =
      (readMembers fuel depth ('"' :: cs)).map fun r =>
        ((.object (fieldsOfMembers r.1) : Json S), r.2) := by
  rw [readValue, skipSpace_append hblank, skipSpace_cons rfl]
  rfl

/-- A number with one text. -/
theorem readsBack_of_readNumber {n : Number} {t : Text}
    (htext : ∀ level, write l level (ofNumber n : Json S) = t)
    (hread : ∀ rest, Stops rest → readNumber (t ++ rest) = .ok (n, rest)) :
    ReadsBack l depth (ofNumber n : Json S) := by
  intro level fuel rest hrest hfuel
  obtain ⟨c, cs, hcs, -⟩ := cons_of_readNumber (hread [] nofun)
  rw [List.append_nil] at hcs
  rw [htext, hcs, List.length_cons] at hfuel
  obtain ⟨fuel, rfl⟩ : ∃ k, fuel = k + 1 := ⟨fuel - 1, by omega⟩
  rw [htext, readValue_of_readNumber (hread rest hrest)]

/-- A value with one text that is read as it is. -/
theorem readsBack_of_text {t : Text} (htext : ∀ level, write l level v = t) (ht : 0 < t.length)
    (hread : ∀ fuel rest, readValue (fuel + 1) depth (t ++ rest) = .ok (v, rest)) :
    ReadsBack l depth v := by
  intro level fuel rest _ hfuel
  rw [htext] at hfuel ⊢
  obtain ⟨fuel, rfl⟩ : ∃ k, fuel = k + 1 := ⟨fuel - 1, by omega⟩
  exact hread fuel rest

theorem readsBack_array (hl : l.Standard) {items : List (Json S)}
    (hitems : ∀ w ∈ items, ReadsBack l depth w) : ReadsBack l (depth + 1) (.array items) := by
  cases items with
  | nil => exact readsBack_of_text (t := ['[', ']']) (fun _ => rfl) (by decide) fun _ _ => rfl
  | cons v vs =>
    intro level fuel rest _ hfuel
    rw [write_array] at hfuel ⊢
    simp only [List.length_cons, List.length_append] at hfuel
    obtain ⟨fuel, rfl⟩ : ∃ k, fuel = k + 1 := ⟨fuel - 1, by omega⟩
    have hread := readItems_join hl (level + 1) level rest v vs hitems fuel (by omega)
    obtain ⟨c, cs, hcs, hspace, hc⟩ := (hitems v (by simp)).cons (level + 1)
    obtain ⟨tail, htail⟩ := join_cons_eq_append (l.separator (level + 1)) (write l (level + 1) v)
      (vs.map (write l (level + 1)))
    rw [List.map_cons, htail, hcs] at hread ⊢
    simp only [List.cons_append, List.append_assoc, List.nil_append] at hread ⊢
    rw [readValue_array fuel depth isSpace_newLine _ hspace hc, hread]
    rfl

theorem readsBack_object (hl : l.Standard) {fields : List (S × Json S)}
    (hkeys : (fields.map Prod.fst).Nodup) (hfields : ∀ f ∈ fields, ReadsBack l depth f.2) :
    ReadsBack l (depth + 1) (.object fields) := by
  cases fields with
  | nil => exact readsBack_of_text (t := ['{', '}']) (fun _ => rfl) (by decide) fun _ _ => rfl
  | cons f fs =>
    intro level fuel rest _ hfuel
    rw [write_object] at hfuel ⊢
    simp only [List.length_cons, List.length_append] at hfuel
    obtain ⟨fuel, rfl⟩ : ∃ k, fuel = k + 1 := ⟨fuel - 1, by omega⟩
    have hread := readMembers_join hl (level + 1) level rest f fs hfields fuel (by omega)
    obtain ⟨tail, htail⟩ := join_cons_eq_append (l.separator (level + 1))
      (l.memberText (level + 1) f) (fs.map (l.memberText (level + 1)))
    rw [List.map_cons, htail, Layout.memberText, quote] at hread ⊢
    simp only [List.cons_append, List.append_assoc, List.nil_append] at hread ⊢
    rw [readValue_object fuel depth isSpace_newLine, hread]
    simp [Except.map, fieldsOfMembers_of_nodup _ hkeys]

end

/-! ## Reading back -/

variable {l : Layout}

/-- A value within the limits of the reader is read back from its text. -/
theorem Readable.readsBack (hl : l.Standard) {depth : Nat} {v : Json S} (hv : Readable depth v) :
    ReadsBack l depth v := by
  induction hv with
  | null depth => exact readsBack_of_text (fun _ => rfl) (by decide) fun _ _ => rfl
  | bool depth b =>
    cases b with
    | false => exact readsBack_of_text (fun _ => rfl) (by decide) fun _ _ => rfl
    | true => exact readsBack_of_text (fun _ => rfl) (by decide) fun _ _ => rfl
  | @int depth n hdigits =>
    exact readsBack_of_readNumber (n := .int n) (fun _ => rfl) fun _ hrest =>
      readNumber_ofInt hdigits hrest
  | @real depth x hx =>
    exact readsBack_of_readNumber (n := .real x) (fun _ => rfl) fun _ hrest =>
      readNumber_realText hx hrest
  | text depth s =>
    refine readsBack_of_text (t := quote s) (fun _ => rfl) (by simp [quote]) fun fuel rest => ?_
    have htext : quote s ++ rest = '"' :: ((units s).flatMap escapeUnit ++ '"' :: rest) := by
      simp [quote]
    rw [htext, readValue, readString_escape]
    rfl
  | array _ ih => exact readsBack_array hl ih
  | object hkeys _ ih => exact readsBack_object hl hkeys ih

/-- The text of a value within the limits of the reader is read as that value. -/
theorem parse_write (hl : l.Standard) {v : Json S} (hv : Readable nestingLimit v) :
    parse (write l 0 v) S = .ok v := by
  have hback := hv.readsBack hl
  have hread := hback 0 (2 * (write l 0 v).length + 2) [] nofun (by omega)
  have hskip := hback.skipSpace 0 []
  rw [List.append_nil] at hread hskip
  rw [parse, hskip, hread]
  rfl

end ContentFilter.Json
