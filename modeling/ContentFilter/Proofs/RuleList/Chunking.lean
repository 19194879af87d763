import Mathlib.Data.Nat.Find
import ContentFilter.Proofs.RuleList.Decision
import ContentFilter.Proofs.RuleSet.Chunk

/-! # Decisions of chunks

The chunks of a list decide one by one, and a request is blocked when one of them blocks it. An
exception therefore cancels the blocks of its own chunk alone.

* `CutOff`: a block is cut off from the exceptions that cancel it in the whole list.
* `RuleList.anyBlocks_chunks_iff`: when the chunks of a list block a request.
* `RuleList.anyBlocks_chunks_eq_iff`: the chunks decide as the whole list does exactly when no block
  is cut off.
-/

set_option autoImplicit false

namespace ContentFilter

/-! ## Blocks and exceptions apart -/

/-- A block is cut off from the exceptions that cancel it in the whole list: no exception behind it
in its chunk applies to the request, but one further behind does, and no block behind that one. -/
def CutOff (read : FilterReader) (size : Nat) (rs : List Record) (q : Request) : Prop :=
  ∃ (i j : Nat) (b e : Record), i < j ∧ rs[i]? = some b ∧ b.blocks read q = true ∧
    rs[j]? = some e ∧ e.exempts read q = true ∧
    (∀ (k : Nat) (r : Record), i < k → k / size = i / size → rs[k]? = some r →
      r.exempts read q = false) ∧
    ∀ (k : Nat) (r : Record), j < k → rs[k]? = some r → r.blocks read q = false

/-- Of the places with a property, of which there are finitely many, one is the last. -/
theorem exists_last_place {p : Nat → Prop} {n i : Nat} (hi : p i) (hn : ∀ k, p k → k < n) :
    ∃ m, p m ∧ ∀ k, m < k → ¬ p k := by
  classical
  refine ⟨Nat.findGreatest p n, Nat.findGreatest_spec (Nat.le_of_lt (hn i hi)) hi, fun k hk hpk => ?_⟩
  exact Nat.findGreatest_is_greatest hk (Nat.le_of_lt (hn k hpk)) hpk

namespace RuleList

/-! ## The chunks of a list -/

def ofChunk (read : FilterReader) (c : Chunk) : RuleList :=
  ⟨c.name, c.records.filterMap (Record.rule? read)⟩

variable {read : FilterReader}

theorem mapM_eq_ok {α β ε : Type} {f : α → Except ε β} {g : α → β} {l : List α}
    (h : ∀ a ∈ l, f a = .ok (g a)) : l.mapM f = .ok (l.map g) := by
  induction l with
  | nil => rfl
  | cons a as ih =>
    obtain ⟨ha, has⟩ := List.forall_mem_cons.1 h
    rw [List.mapM_cons, ha, ih has]
    rfl

/-- Every chunk of well-formed records within the limit compiles. -/
theorem compile_chunks {rs : List Record} (hwell : ∀ r ∈ rs, r.WellFormed)
    (hcompiles : ∀ r ∈ rs, r.Compiles read) {limit : Int} (hlimit : rs.length ≤ limit) {size : Nat}
    (hsize : 0 < size) (stem : Text) :
    (Chunk.cut stem size rs).mapM (fun c => compile limit c.name c.toText read) =
      .ok ((Chunk.cut stem size rs).map (ofChunk read)) := by
  refine mapM_eq_ok fun c hc => ?_
  obtain ⟨i, -, rfl⟩ := Chunk.mem_cut hsize hc
  have hsub : ∀ r ∈ (rs.drop (i * size)).take size, r ∈ rs := fun r hr =>
    List.mem_of_mem_drop (List.mem_of_mem_take hr)
  have hlength : (((rs.drop (i * size)).take size).length : Int) ≤ limit := by
    rw [List.length_take, List.length_drop]
    omega
  exact compile_records (fun r hr => hwell r (hsub r hr)) (fun r hr => hcompiles r (hsub r hr))
    hlength _

theorem div_eq_of_lt {size k : Nat} (i : Nat) (hk : k < size) : (i * size + k) / size = i := by
  rw [Nat.mul_comm, Nat.mul_add_div (by omega), Nat.div_eq_of_lt hk, Nat.add_zero]

/-- The chunks of a list block a request when a record blocks it and no exception behind that record
in its chunk applies. -/
theorem anyBlocks_chunks_iff {rs : List Record} (hcompiles : ∀ r ∈ rs, r.Compiles read) {size : Nat}
    (hsize : 0 < size) (stem : Text) (q : Request) :
    anyBlocks ((Chunk.cut stem size rs).map (ofChunk read)) q = true ↔
      ∃ (i : Nat) (b : Record), rs[i]? = some b ∧ b.blocks read q = true ∧
        ∀ (k : Nat) (r : Record), i < k → k / size = i / size → rs[k]? = some r →
          r.exempts read q = false := by
  have hchunk : ∀ n, ∀ r ∈ (rs.drop (n * size)).take size, r.Compiles read := fun n r hr =>
    hcompiles r (List.mem_of_mem_drop (List.mem_of_mem_take hr))
  rw [anyBlocks, List.any_eq_true]
  constructor
  · rintro ⟨l, hl, hblocks⟩
    obtain ⟨c, hc, rfl⟩ := List.mem_map.1 hl
    obtain ⟨n, -, rfl⟩ := Chunk.mem_cut hsize hc
    obtain ⟨i, b, hb, hbq, hlater⟩ := (blocks_records_iff (hchunk n) _ q).1 hblocks
    simp only [getElem?_take_drop] at hb hlater
    obtain ⟨hi, hb⟩ := Option.ite_none_right_eq_some.1 hb
    refine ⟨n * size + i, b, hb, hbq, fun k r hik hk hr => ?_⟩
    rw [div_eq_of_lt n hi] at hk
    have hsplit : n * size + k % size = k := by
      rw [← hk, Nat.mul_comm]
      exact Nat.div_add_mod k size
    refine hlater (k % size) r (by omega) ?_
    rw [if_pos (Nat.mod_lt k hsize), hsplit, hr]
  · rintro ⟨i, b, hb, hbq, hlater⟩
    have hi : i < rs.length := (List.getElem?_eq_some_iff.1 hb).1
    have hstart : i / size * size ≤ i := Nat.div_mul_le_self i size
    have hsplit : i / size * size + i % size = i := by
      rw [Nat.mul_comm]
      exact Nat.div_add_mod i size
    have hc : (Chunk.cut stem size rs)[i / size]? = some _ :=
      (Chunk.getElem?_cut stem size hsize rs (i / size)).trans (if_pos (by omega))
    refine ⟨_, List.mem_map_of_mem (List.mem_of_getElem? hc), ?_⟩
    refine (blocks_records_iff (hchunk (i / size)) _ q).2 ?_
    simp only [getElem?_take_drop]
    refine ⟨i % size, b, ?_, hbq, fun k r hik hr => ?_⟩
    · rw [if_pos (Nat.mod_lt i hsize), hsplit, hb]
    · obtain ⟨hk, hr⟩ := Option.ite_none_right_eq_some.1 hr
      exact hlater (i / size * size + k) r (by omega) (div_eq_of_lt _ hk) hr

/-- What the whole list blocks, its chunks block as well. -/
theorem anyBlocks_chunks_of_blocks {rs : List Record} (hcompiles : ∀ r ∈ rs, r.Compiles read)
    {size : Nat} (hsize : 0 < size) (stem name : Text) (q : Request)
    (h : (RuleList.mk name (rs.filterMap (Record.rule? read))).blocks q = true) :
    anyBlocks ((Chunk.cut stem size rs).map (ofChunk read)) q = true := by
  obtain ⟨i, b, hb, hbq, hlater⟩ := (blocks_records_iff hcompiles name q).1 h
  exact (anyBlocks_chunks_iff hcompiles hsize stem q).2
    ⟨i, b, hb, hbq, fun k r hik _ hr => hlater k r hik hr⟩

/-- The chunks block a request that the whole list does not block exactly when a block is cut off
from its exceptions. -/
theorem cutOff_iff {rs : List Record} (hcompiles : ∀ r ∈ rs, r.Compiles read) {size : Nat}
    (hsize : 0 < size) (stem name : Text) (q : Request) :
    CutOff read size rs q ↔ anyBlocks ((Chunk.cut stem size rs).map (ofChunk read)) q = true ∧
      (RuleList.mk name (rs.filterMap (Record.rule? read))).blocks q = false := by
  rw [anyBlocks_chunks_iff hcompiles hsize, ← Bool.not_eq_true, blocks_records_iff hcompiles]
  constructor
  · rintro ⟨i, j, b, e, hij, hb, hbq, he, heq, hnear, hfar⟩
    refine ⟨⟨i, b, hb, hbq, hnear⟩, ?_⟩
    rintro ⟨m, c, hc, hcq, hlater⟩
    rcases Nat.lt_trichotomy m j with hmj | rfl | hjm
    · exact absurd heq (by simp [hlater j e hmj he])
    · obtain rfl : c = e := Option.some.inj (hc.symm.trans he)
      exact absurd heq (by simp [Record.exempts_of_blocks hcq])
    · exact absurd hcq (by simp [hfar m c hjm hc])
  · rintro ⟨⟨i, b, hb, hbq, hnear⟩, hwhole⟩
    -- the last block that applies is cancelled, by an exception behind it
    obtain ⟨m, ⟨c, hc, hcq⟩, hlast⟩ := exists_last_place (n := rs.length)
      (p := fun k => ∃ r, rs[k]? = some r ∧ r.blocks read q = true) ⟨b, hb, hbq⟩
      fun k ⟨_, hr, _⟩ => (List.getElem?_eq_some_iff.1 hr).1
    have him : i ≤ m := Nat.le_of_not_lt fun h => hlast i h ⟨b, hb, hbq⟩
    obtain ⟨j, e, hmj, he, heq⟩ : ∃ j e, m < j ∧ rs[j]? = some e ∧ e.exempts read q = true := by
      by_contra hnone
      refine hwhole ⟨m, c, hc, hcq, fun k r hmk hr => ?_⟩
      by_contra hrq
      exact hnone ⟨k, r, hmk, hr, by simpa using hrq⟩
    refine ⟨i, j, b, e, by omega, hb, hbq, he, heq, hnear, fun k r hjk hr => ?_⟩
    by_contra hrq
    exact hlast k (by omega) ⟨r, hr, by simpa using hrq⟩

/-! ## When chunks decide as the whole list -/

/-- Well-formed records whose regular expressions a reader takes, whatever the reader, compile in chunks
of every size and as one list. Both decide alike about a request exactly when no block is cut off from
its exceptions. -/
theorem anyBlocks_chunks_eq_iff {rs : List Record} (hwell : ∀ r ∈ rs, r.WellFormed)
    (hcompiles : ∀ r ∈ rs, r.Compiles read) {limit : Int} (hlimit : rs.length ≤ limit) {size : Nat}
    (hsize : 0 < size) (stem name : Text) :
    ∃ (chunks : List Chunk) (lists : List RuleList) (whole : RuleList),
      Chunk.cut? stem size rs = .ok chunks ∧
      chunks.mapM (fun c => compile limit c.name c.toText read) = .ok lists ∧
      compile limit name (Record.listToText rs) read = .ok whole ∧
      ∀ q : Request, anyBlocks lists q = whole.blocks q ↔ ¬ CutOff read size rs q := by
  refine ⟨_, _, _, ?_, compile_chunks hwell hcompiles hlimit hsize stem,
    compile_records hwell hcompiles hlimit name, fun q => ?_⟩
  · rw [Chunk.cut?, if_neg (by omega), Int.toNat_natCast]
  · rw [cutOff_iff hcompiles hsize stem name]
    have himp := anyBlocks_chunks_of_blocks hcompiles hsize stem name q
    revert himp
    generalize anyBlocks _ q = some
    generalize RuleList.blocks _ q = all
    cases some <;> cases all <;> simp

def houseAds : List Record :=
  [⟨{ urlFilter := "ads".toList }, { kind := .block }⟩,
    ⟨{ urlFilter := "ads/house".toList }, { kind := .ignore }⟩]

def houseAd : Request := { url := "https://ads/house".toList }

theorem wellFormed_houseAds : ∀ r ∈ houseAds, r.WellFormed := by
  intro r hr
  rcases List.mem_pair.1 hr with rfl | rfl
  · exact ⟨by simp, List.not_mem_nil, List.not_mem_nil, fun h => ActionKind.noConfusion h,
      fun _ => rfl⟩
  · exact ⟨by simp, List.not_mem_nil, List.not_mem_nil, fun h => ActionKind.noConfusion h,
      fun _ => rfl⟩

theorem compiles_houseAds : ∀ r ∈ houseAds, r.Compiles Regex.reader := by
  have h : ∀ r ∈ houseAds, (r.rule? Regex.reader).isSome = true := by decide +kernel
  exact fun r hr => (Record.compiles_iff r).2 (h r hr)

theorem anyBlocks_chunks_houseAds :
    (∀ r ∈ houseAds, r.WellFormed) ∧ (∀ r ∈ houseAds, r.Compiles Regex.reader) ∧
      (houseAds.length : Int) ≤ defaultLimit ∧ 0 < 1 ∧
      ∃ (chunks : List Chunk) (lists : List RuleList) (whole : RuleList),
        Chunk.cut? "x".toList (1 : Nat) houseAds = .ok chunks ∧
        chunks.mapM (fun c => compile defaultLimit c.name c.toText) = .ok lists ∧
        compile defaultLimit "x".toList (Record.listToText houseAds) = .ok whole ∧
        ∀ q : Request, anyBlocks lists q = whole.blocks q ↔ ¬ CutOff Regex.reader 1 houseAds q :=
  ⟨wellFormed_houseAds, compiles_houseAds, by decide, by decide,
    anyBlocks_chunks_eq_iff wellFormed_houseAds compiles_houseAds (by decide) (by decide) _ _⟩

/-- In chunks of one record house ads are blocked in spite of their exception. -/
theorem exception_lost_between_chunks :
    ∃ (lists : List RuleList) (whole : RuleList),
      (Chunk.cut "x".toList 1 houseAds).mapM (fun c => compile defaultLimit c.name c.toText) =
        .ok lists ∧
      compile defaultLimit "x".toList (Record.listToText houseAds) = .ok whole ∧
      anyBlocks lists houseAd = true ∧ whole.blocks houseAd = false :=
  ⟨_, _, compile_chunks wellFormed_houseAds compiles_houseAds (by decide) (by decide) _,
    compile_records wellFormed_houseAds compiles_houseAds (by decide) _, by decide +kernel,
    by decide +kernel⟩

end RuleList

end ContentFilter
