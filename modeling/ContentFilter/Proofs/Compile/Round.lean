import ContentFilter.Compile.Round

/-! # What a round comes to

A round keeps its chunks while they are submitted and settle. Its result is that of all of them with
the verdicts they have got.

* `Round.chunks`: the chunks of a round.
* `Round.result?_eq_some`: the result of a round is made of the verdicts on all its chunks.
-/

set_option autoImplicit false

namespace ContentFilter

variable {H : Type}

namespace Round

def chunks (r : Round H) : List Chunk := r.entries.map Prod.fst

@[simp] theorem chunks_start (chunks : List Chunk) : (start chunks : Round H).chunks = chunks := by
  simp [start, Round.chunks, Function.comp_def]

/-- An entry is replaced by one of the same chunk. -/
theorem map_fst_set {V : Type} {entries : List (Chunk × V)} {i : Nat} {c : Chunk} {v : V}
    (h : entries[i]? = some (c, v)) (w : V) :
    (entries.set i (c, w)).map Prod.fst = entries.map Prod.fst := by
  rw [List.map_set]
  refine List.ext_getElem? fun j => ?_
  rw [List.getElem?_set]
  split
  next hij =>
    subst hij
    split
    next hlt => simp [h]
    next hge => simp at hge; simp [hge]
  · rfl

theorem submit?_eq_some {r r' : Round H} {i : Nat} {c : Chunk} (h : r.submit? i = some (c, r')) :
    r.entries[i]? = some (c, .queued) ∧ r' = ⟨r.entries.set i (c, .running)⟩ := by
  unfold submit? at h
  split at h
  next d hentry =>
    obtain ⟨rfl, rfl⟩ := by simpa using h
    exact ⟨hentry, rfl⟩
  · exact absurd h nofun

theorem running?_eq_some {r : Round H} {i : Nat} {c : Chunk} (h : r.running? i = some c) :
    r.entries[i]? = some (c, .running) := by
  unfold running? at h
  split at h
  next d hentry =>
    obtain rfl := by simpa using h
    exact hentry
  · exact absurd h nofun

theorem chunks_submit? {r r' : Round H} {i : Nat} {c : Chunk} (h : r.submit? i = some (c, r')) :
    r'.chunks = r.chunks := by
  obtain ⟨hentry, rfl⟩ := submit?_eq_some h
  exact map_fst_set hentry _

theorem settle_of_running? {r : Round H} {i : Nat} {c : Chunk} (h : r.running? i = some c)
    (verdict : Verdict H) : r.settle i verdict = ⟨r.entries.set i (c, .settled verdict)⟩ := by
  simp [settle, h]

theorem chunks_settle {r : Round H} {i : Nat} {c : Chunk} (h : r.running? i = some c)
    (verdict : Verdict H) : (r.settle i verdict).chunks = r.chunks := by
  rw [settle_of_running? h]
  exact map_fst_set (running?_eq_some h) _

/-! ## Verdicts -/

def HasSettled (r : Round H) (c : Chunk) (verdict : Verdict H) : Prop :=
  (c, .settled verdict) ∈ r.entries

theorem not_hasSettled_start (chunks : List Chunk) (c : Chunk) (verdict : Verdict H) :
    ¬ (start chunks).HasSettled c verdict := by
  simp [start, HasSettled]

theorem hasSettled_of_submit? {r r' : Round H} {i : Nat} {c d : Chunk} {verdict : Verdict H}
    (h : r.submit? i = some (c, r')) (hd : r'.HasSettled d verdict) : r.HasSettled d verdict := by
  obtain ⟨-, rfl⟩ := submit?_eq_some h
  exact (List.mem_or_eq_of_mem_set hd).resolve_right (by simp)

theorem hasSettled_settle {r : Round H} {i : Nat} {c d : Chunk} {verdict verdict' : Verdict H}
    (h : r.running? i = some c) (hd : (r.settle i verdict).HasSettled d verdict') :
    r.HasSettled d verdict' ∨ d = c ∧ verdict' = verdict := by
  rw [settle_of_running? h] at hd
  exact (List.mem_or_eq_of_mem_set hd).imp id fun heq => by simpa using heq

theorem mapM_verdict? {entries : List (Chunk × Submission H)} {verdicts : List (Chunk × Verdict H)}
    (h : entries.mapM verdict? = some verdicts) :
    entries = verdicts.map fun v => (v.1, .settled v.2) := by
  induction entries generalizing verdicts with
  | nil =>
    obtain rfl : verdicts = [] := by simpa using h.symm
    rfl
  | cons entry entries ih =>
    obtain ⟨c, submission⟩ := entry
    simp only [List.mapM_cons, Option.bind_eq_bind, Option.bind_eq_some_iff, Option.pure_def,
      Option.some.injEq] at h
    obtain ⟨v, hv, rest, hrest, rfl⟩ := h
    cases submission with
    | settled verdict =>
      obtain rfl : (c, verdict) = v := by simpa [verdict?] using hv
      rw [ih hrest, List.map_cons]
    | _ => exact absurd hv nofun

/-- The result of a round is made of the verdicts on all its chunks, in order. -/
theorem result?_eq_some {r : Round H} {result : CompileResult H} (h : r.result? = some result) :
    ∃ verdicts, verdicts.map Prod.fst = r.chunks ∧ result = .ofVerdicts verdicts ∧
      ∀ v ∈ verdicts, r.HasSettled v.1 v.2 := by
  obtain ⟨verdicts, hverdicts, rfl⟩ := Option.map_eq_some_iff.1 h
  have hentries := mapM_verdict? hverdicts
  refine ⟨verdicts, ?_, rfl, fun v hv => ?_⟩
  · simp [chunks, hentries, Function.comp_def]
  · rw [HasSettled, hentries]
    exact List.mem_map.2 ⟨v, hv, rfl⟩

end Round

end ContentFilter
