import ContentFilter.Proofs.Engine.Run

/-! # The chronicle of an engine

What has been compiled and what has been published, in order, each with the session that it belongs
to. A snapshot is judged by what the chronicle holds before it.

* `Engine.Event`, `Engine.chronicle`: the events of some moves.
* `Engine.Unspliced`: a snapshot is made of the handles of one session.
* `Engine.Sound`: every published snapshot is.
-/

set_option autoImplicit false

namespace ContentFilter

variable {H : Type}

/-- The rule set of the tables alone. -/
def Setup.ruleSet (setup : Setup) : RuleSet := RuleSet.build setup.config setup.tables []

namespace Engine

/-! ## Events -/

/-- What a chronicle holds: the compiled chunks of the tables in a session, the compiled chunks of a
list that a refresh of a session has found, and a snapshot that was published in a session. -/
inductive Event (H : Type) where
  | tables (session : Nat) (ruleSet : RuleSet) (result : CompileResult H)
  | list (session : Nat) (ruleSet : RuleSet) (result : CompileResult H)
  | published (session : Nat) (snapshot : Snapshot H)

/-- The compilation that a move brings to its end. -/
def settled? (e : Engine H) : Move H → Option (Event H)
  | .resume id (.compiled result) =>
    if e.cancelled.contains id then none
    else match e.task? id with
      | some (.compiling _ session ruleSet) => some (.tables session ruleSet result)
      | some (.refreshing (some session)) => match e.coordinator.phase? id with
        | some (.compiling _ ruleSet) => some (.list session ruleSet result)
        | _ => none
      | _ => none
  | _ => none

end Engine

def Moved.record (m : Moved H) (past : List (Engine.Event H)) : List (Engine.Event H) :=
  past ++ m.snapshots.map (.published m.engine.session)

namespace Engine

/-- A chronicle goes on with a move. -/
def note (past : List (Event H)) (e : Engine H) (mv : Move H) : List (Event H) :=
  (e.move mv).record (past ++ (e.settled? mv).toList)

/-- The chronicle of some moves, which goes on from a past. -/
def chronicleFrom (past : List (Event H)) (e : Engine H) : List (Move H) → List (Event H)
  | [] => past
  | mv :: moves => chronicleFrom (note past e mv) (e.move mv).engine moves

def chronicle (e : Engine H) (moves : List (Move H)) : List (Event H) := chronicleFrom [] e moves

/-- The snapshot that was published last; before there is one, nothing is in force. -/
def lastSnapshot (past : List (Event H)) : Snapshot H :=
  past.foldl (fun s event => match event with
    | .published _ snapshot => snapshot
    | _ => s) .disabled

/-- The sessions in which the chunks of the tables have been compiled. -/
def sessionsOf (past : List (Event H)) : List Nat :=
  past.filterMap fun event => match event with
    | .tables session _ _ => some session
    | _ => none

/-! ## Snapshots -/

/-- What the chunks of the tables were compiled to in a session. Without any chunks there is nothing
to compile. -/
def TablesCompiled (setup : Setup) (past : List (Event H)) (session : Nat) (ruleSet : RuleSet)
    (result : CompileResult H) : Prop :=
  .tables session ruleSet result ∈ past ∨
    (ruleSet = setup.ruleSet ∧ ruleSet.embedded = [] ∧ result = {})

/-- A snapshot holds nothing but what the chunks of the tables were compiled to in a session. -/
def EmbeddedOnly (setup : Setup) (past : List (Event H)) (session : Nat) (s : Snapshot H) : Prop :=
  ∃ result, TablesCompiled setup past session s.ruleSet result ∧ s.handles = result.handles ∧
    s.downloadedHandles = [] ∧ s.ruleSet = setup.ruleSet ∧ s.ruleSet.provenance = .embeddedOnly

/-- A snapshot holds what the chunks of the tables were compiled to in a session, and behind that all
that a refresh of the same session has compiled. -/
def Enhanced (setup : Setup) (past : List (Event H)) (session : Nat) (s : Snapshot H) : Prop :=
  ∃ ruleSet tables list, TablesCompiled setup past session ruleSet tables ∧
    .list session s.ruleSet list ∈ past ∧ list.handles ≠ [] ∧
    s.embeddedHandles = tables.handles ∧ s.handles = tables.handles ++ list.handles ∧
    s.ruleSet.provenance = .enhanced ∧ s.ruleSet.embedded = ruleSet.embedded

/-- A snapshot that is published in a session holds the handles of that session and no others. -/
structure Unspliced (setup : Setup) (past : List (Event H)) (session : Nat) (s : Snapshot H) :
    Prop where
  fits : s.embeddedCount ≤ s.handles.length
  disabled : s.status = .disabled → s.handles = []
  compiling : s.status = .compiling → s.handles = (lastSnapshot past).handles
  readyEmbedded : s.status = .readyEmbedded → EmbeddedOnly setup past session s
  enhancing : s.status = .enhancing → EmbeddedOnly setup past session s
  readyEnhanced : s.status = .readyEnhanced → Enhanced setup past session s

/-- Every snapshot of a chronicle is unspliced by what was there before it. -/
def Sound (setup : Setup) (chronicle : List (Event H)) : Prop :=
  ∀ before session s after, chronicle = before ++ .published session s :: after →
    Unspliced setup before session s

/-! ## Longer chronicles -/

section

variable {setup : Setup} {past : List (Event H)} {session : Nat}

theorem TablesCompiled.append {ruleSet : RuleSet} {result : CompileResult H}
    (h : TablesCompiled setup past session ruleSet result) (more : List (Event H)) :
    TablesCompiled setup (past ++ more) session ruleSet result :=
  h.imp_left (List.mem_append_left more)

theorem EmbeddedOnly.append {s : Snapshot H} (h : EmbeddedOnly setup past session s)
    (more : List (Event H)) : EmbeddedOnly setup (past ++ more) session s := by
  obtain ⟨result, hcompiled, hrest⟩ := h
  exact ⟨result, hcompiled.append more, hrest⟩

theorem append_settled {e : Engine H} {mv : Move H} (h : e.settled? mv = none)
    (past : List (Event H)) : past ++ (e.settled? mv).toList = past := by
  rw [h, Option.toList_none, List.append_nil]

/-- Only a reply brings a compilation to its end. -/
theorem note_of_other (past : List (Event H)) (e : Engine H) {mv : Move H}
    (hmv : ∀ id reply, mv ≠ .resume id reply) : note past e mv = (e.move mv).record past := by
  cases mv with
  | resume id reply => exact absurd rfl (hmv id reply)
  | _ => simp [note, settled?]

theorem lastSnapshot_published (past : List (Event H)) (session : Nat) (s : Snapshot H) :
    lastSnapshot (past ++ [.published session s]) = s := by
  simp [lastSnapshot]

theorem sound_nil (setup : Setup) : Sound setup ([] : List (Event H)) := by
  intro before session s after heq
  exact absurd heq.symm (by simp)

theorem Sound.concat (h : Sound setup past) {event : Event H}
    (hevent : ∀ session s, event = .published session s → Unspliced setup past session s) :
    Sound setup (past ++ [event]) := by
  intro before session s after heq
  rcases List.eq_nil_or_concat after with rfl | ⟨init, last, rfl⟩
  · obtain ⟨rfl, hlast⟩ := List.append_inj' heq rfl
    exact hevent session s (List.cons.inj hlast).1
  · have hsplit : past ++ [event] = (before ++ .published session s :: init) ++ [last] := by
      simpa using heq
    obtain ⟨hpast, -⟩ := List.append_inj' hsplit rfl
    exact h before session s init hpast

end

end Engine

/-! ## Moves -/

namespace Moved

open Engine

theorem record_of_quiet {m : Moved H} (h : m.snapshots = []) (past : List (Event H)) :
    m.record past = past := by
  simp [record, h]

/-- What one move after another publishes, when the second one stays in the session. -/
theorem record_andThen (m : Moved H) (move : Engine H → Moved H) (past : List (Event H))
    (hsession : (move m.engine).engine.session = m.engine.session) :
    (m.andThen move).record past = (move m.engine).record (m.record past) := by
  simp [record, hsession]

/-- A second move that publishes nothing and stays in the session adds nothing. -/
theorem record_andThen_quiet (m : Moved H) (move : Engine H → Moved H) (past : List (Event H))
    (hsession : (move m.engine).engine.session = m.engine.session)
    (hquiet : (move m.engine).snapshots = []) : (m.andThen move).record past = m.record past := by
  rw [record_andThen m move past hsession, record_of_quiet hquiet]

end Moved

end ContentFilter
