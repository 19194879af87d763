import ContentFilter.Proofs.Record.Wire
import ContentFilter.Proofs.Text.Utf8

/-! # The entries of a payload

A payload is read as the text that its bytes spell. A filter text has the records for its rules as
entries; the JSON text of records has one value for each of them.

* `Payload.decode_encodeUtf8`: the bytes of a text that does not open with U+FEFF.
* `Payload.decode_filterText`: what is accepted as a filter text.
* `Payload.decode_listToText`: the JSON text of records.
-/

set_option autoImplicit false

namespace ContentFilter

open Text

namespace Payload

/-! ## Bytes -/

/-- Only a text that opens with U+FEFF has the mark of UTF-8 before its bytes. -/
theorem dropMark_encodeUtf8 {t : Text} (hmark : t.head? ≠ some '\uFEFF') :
    dropMark (encodeUtf8 t) = encodeUtf8 t := by
  unfold dropMark
  split
  next rest hbytes =>
    -- bytes that open with the mark are read as a text that opens with U+FEFF
    have hopen : encodeUtf8 t = encodeChar '\uFEFF' ++ rest := hbytes
    have hread := decodeUtf8?_encodeUtf8 t
    rw [hopen, decodeUtf8?, decodeUtf8From_encodeChar] at hread
    obtain ⟨u, -, rfl⟩ := Option.map_eq_some_iff.mp hread
    exact absurd rfl hmark
  · rfl

theorem decode_encodeUtf8 (floor : Nat) {t : Text} (hmark : t.head? ≠ some '\uFEFF') :
    decode floor (encodeUtf8 t) = decodeText floor t := by
  rw [decode, dropMark_encodeUtf8 hmark, decodeUtf8?_encodeUtf8]

/-! ## Filter texts -/

/-- A text that is accepted as a filter text has rules with records, and these are its entries. -/
theorem decode_filterText {floor : Nat} {t : Text} {entries : List Entry}
    (hmark : t.head? ≠ some '\uFEFF') (hlist : opensArray t = false)
    (h : decode floor (encodeUtf8 t) = .ok entries) :
    (FilterList.convert floor t).1 ≠ [] ∧
      entries = (FilterList.convert floor t).1.map .record := by
  rw [decode_encodeUtf8 floor hmark, decodeText, hlist, if_neg Bool.false_ne_true] at h
  split at h
  · split at h
    · cases h
    next hne =>
      obtain rfl := Except.ok.inj h
      exact ⟨hne, rfl⟩
  · cases h

/-! ## JSON texts -/

theorem isEntry_toJson (r : Record) : RuleArray.isEntry r.toJson = true := by
  have htrigger : r.toJson.field? "trigger".toList = some (Record.triggerJson r.trigger) := rfl
  have haction : r.toJson.field? "action".toList = some (Record.actionJson r.action) := rfl
  rw [RuleArray.isEntry, htrigger, haction]
  rfl

theorem check_map_toJson {rs : List Record} (hne : rs ≠ []) :
    RuleArray.check (.array (rs.map Record.toJson)) = .ok (rs.map Record.toJson) := by
  have hsome : (rs.map Record.toJson).isEmpty = false := by simpa using hne
  have hall : (rs.map Record.toJson).findIdx? (fun e => !RuleArray.isEntry e) = none := by
    simp [List.findIdx?_eq_none_iff, isEntry_toJson]
  simp [RuleArray.check, Json.items, bind, Except.bind, hsome, hall]

theorem listToText_eq_cons {rs : List Record} (hne : rs ≠ []) :
    ∃ rest, Record.listToText rs = '[' :: '{' :: rest := by
  cases rs with
  | nil => exact absurd rfl hne
  | cons r rs =>
    obtain ⟨tail, htail⟩ := join_cons_eq_append (Json.Layout.separator .compact 1)
      (Json.write .compact 1 r.toJson)
      ((rs.map Record.toJson).map (Json.write .compact 1))
    obtain ⟨cs, hobject⟩ : ∃ cs, Json.write .compact 1 r.toJson = '{' :: cs :=
      ⟨_, Json.write_object .compact 1 _ _⟩
    refine ⟨cs ++ tail ++ [']'], ?_⟩
    rw [Record.listToText, List.map_cons, Json.compact, Json.write_array, List.map_cons, htail,
      hobject]
    rfl

/-- The JSON text of records is read as an array with the value of each. -/
theorem decode_listToText (floor : Nat) {rs : List Record} (hne : rs ≠ []) :
    decode floor (encodeUtf8 (Record.listToText rs)) =
      .ok (rs.map fun r => .raw r.toJson) := by
  obtain ⟨rest, hrest⟩ := listToText_eq_cons hne
  have hmark : (Record.listToText rs).head? ≠ some '\uFEFF' := by
    rw [hrest, List.head?_cons]
    decide
  have hopens : opensArray (Record.listToText rs) = true := by
    rw [hrest]
    rfl
  rw [decode_encodeUtf8 floor hmark, decodeText, hopens, if_pos rfl, Json.read,
    Record.parse_listToText]
  simp only [bind, Except.bind, pure, Except.pure, check_map_toJson hne, List.map_map]
  rfl

end Payload

end ContentFilter
