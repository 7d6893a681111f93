import FraudAnalyzer.Connections.Service

/-!
# Engines and the profiles they were built from

An engine outlives the row it was built from: `dispose_engine` is the only link between an edit and
the registry. It reaches the engines that are held at that moment, not the calls that have loaded
the old row and have not asked for an engine yet. `load_outlives_edit` has runs in which such a call
brings an old engine back. In the runs where none does, `coherent_of_settled`.
-/

namespace FraudAnalyzer.Connections

open Db
open Charts (flushed)

/-! ## The property -/

/-- An engine built from version `n` of the row or from a later one. -/
def BuiltSince (l : Ledger Version) (n : Nat) (engine : Engine) : Prop :=
  ∃ v, l.Since n v ∧ v.profile = engine.builtFrom

/-- Every engine that `get_engine` returned was built from what the last update that had returned
then had committed, or from something later. A connection whose pause has returned has no engine
until a resume commits. -/
structure Coherent (s : State) : Prop where
  served : ∀ x ∈ s.served, ∀ n ∈ x.ledger.answered, BuiltSince x.ledger n x.engine
  paused : ∀ id, ∀ n ∈ s.pauses id, (∀ m ∈ s.resumes id, m < n) → s.engines.get id = none

/-- The call is about to ask the registry for an engine. -/
def Stage.opens : Stage → Bool
  | .connecting => true
  | .testing _ => true
  | _ => false

/-- What keeps a step from undoing an edit: if it builds an engine, then from a profile the row has
had since the engine was last disposed; if it is a pause whose object was paused already when it
was loaded, the row still is. -/
structure Operation.Settled (s : State) (op : Operation) : Prop where
  builds : op.stage.opens = true → s.engines.get op.conn.id = none → op.conn.paused = false →
    (s.ledgers op.conn.id).Fresh op.conn.version
  pauses : op.stage = .writing .pause → op.conn.paused = true →
    ∀ row, s.rows.get op.conn.id = some row → row.paused = true

def Settled (s : State) : Action → Prop
  | .advance i _ _ => ∀ op, s.operations i = some op → op.Settled s
  | _ => True

/-! ## The invariant -/

/-- From version `n` on the row is paused, unless it was resumed. -/
structure KeepsPaused (l : Ledger Version) (resumes : List Nat) (n : Nat) : Prop where
  lt : n < l.next
  paused : (∀ m ∈ resumes, m < n) → ∀ v, l.Since n v → v.paused = true

/-- An engine that may be held. -/
def Holds (l : Ledger Version) (engine : Engine) : Prop :=
  ∃ v, l.Fresh v ∧ v.profile = engine.builtFrom ∧ v.paused = false

/-- What a call will answer for. -/
def Stage.owes : Stage → Option (Kind × Nat)
  | .disposing kind version => some (kind, version)
  | .testing update => update.map (Kind.update, ·)
  | .recording update _ => update.map (Kind.update, ·)
  | .discarding update => update.map (Kind.update, ·)
  | .answering kind version => some (kind, version)
  | _ => none

def Stage.isDisposing : Stage → Bool
  | .disposing _ _ => true
  | _ => false

/-- A call that will answer for a version has disposed the engine, or is about to. -/
structure Operation.Ok (s : State) (op : Operation) : Prop where
  cleared : ∀ kind n, op.stage.owes = some (kind, n) → op.stage.isDisposing = false →
    n ∈ (s.ledgers op.conn.id).cleared
  paused : ∀ n, op.stage.owes = some (.pause, n) →
    KeepsPaused (s.ledgers op.conn.id) (s.resumes op.conn.id) n

structure Inv (s : State) : Prop where
  stored : ∀ id row, s.rows.get id = some row → ∀ n, n < (s.ledgers id).next →
    (s.ledgers id).Since n row.version
  clearsFirst : ∀ id, (s.ledgers id).ClearsFirst
  owed : ∀ i op, s.operations i = some op → op.Ok s
  pauses : ∀ id, ∀ n ∈ s.pauses id,
    n ∈ (s.ledgers id).cleared ∧ KeepsPaused (s.ledgers id) (s.resumes id) n
  held : ∀ id e, s.engines.get id = some e → Holds (s.ledgers id) e
  served : ∀ x ∈ s.served, ∀ n ∈ x.ledger.answered, BuiltSince x.ledger n x.engine

section Ledgers

variable {l : Ledger Version} {resumes : List Nat} {n : Nat} {v : Version} {engine : Engine}

theorem KeepsPaused.clear (h : KeepsPaused l resumes n) (m : Nat) :
    KeepsPaused (l.clear m) resumes n := ⟨h.lt, h.paused⟩

theorem KeepsPaused.answer (h : KeepsPaused l resumes n) (m : Nat) :
    KeepsPaused (l.answer m) resumes n := ⟨h.lt, h.paused⟩

theorem KeepsPaused.store (h : KeepsPaused l resumes n)
    (hv : (∀ m ∈ resumes, m < n) → v.paused = true) : KeepsPaused (l.store v) resumes n where
  lt := by
    have hlt := h.lt
    simp only [Ledger.next, Ledger.store, List.length_append, List.length_singleton] at hlt ⊢
    omega
  paused := by
    intro hresumes w hw
    rcases Ledger.since_of_store hw with hold | rfl
    · exact h.paused hresumes w hold
    · exact hv hresumes

theorem KeepsPaused.resume (h : KeepsPaused l resumes n) (m : Nat) :
    KeepsPaused l (m :: resumes) n :=
  ⟨h.lt, fun hresumes => h.paused fun k hk => hresumes k (List.mem_cons_of_mem m hk)⟩

/-- The version a pause commits. -/
theorem keepsPaused_new (resumes : List Nat) (hv : v.paused = true) :
    KeepsPaused (l.store v) resumes l.next where
  lt := by simp [Ledger.next, Ledger.store]
  paused := by
    intro _ w hw
    rcases Ledger.since_of_store hw with hold | rfl
    · simp [Ledger.Since, Ledger.next] at hold
    · exact hv

theorem Holds.store (h : Holds l engine) (w : Version) : Holds (l.store w) engine := by
  obtain ⟨v, hfresh, hfrom, hpaused⟩ := h
  exact ⟨v, hfresh.store w, hfrom, hpaused⟩

theorem Holds.builtSince (h : Holds l engine) (hl : l.ClearsFirst) :
    ∀ n ∈ l.answered, BuiltSince l n engine := by
  obtain ⟨v, hfresh, hfrom, -⟩ := h
  exact fun n hn => ⟨v, hfresh.since_answered hl n hn, hfrom⟩

end Ledgers

/-! ## Each operation on the state keeps the invariant -/

section Operations

variable {s s' : State}

theorem inv_start (rows : Rows) : Inv (State.start rows) where
  stored id row h n hn := by
    have hget : rows.get id = some row := h
    simp only [State.start, hget, Option.map_some, Option.toList_some, Ledger.next,
      List.length_singleton] at hn ⊢
    obtain rfl : n = 0 := by omega
    exact List.mem_singleton_self _
  clearsFirst id n h := absurd h List.not_mem_nil
  owed i op h := by cases h
  pauses id n h := absurd h List.not_mem_nil
  held id e h := by cases h
  served x h := absurd h List.not_mem_nil

theorem Operation.Ok.put {op : Operation} (h : op.Ok s) (i : Nat) (op' : Operation) :
    op.Ok (s.put i op') := ⟨h.cleared, h.paused⟩

theorem Inv.put (h : Inv s) (i : Nat) {op : Operation} (hop : op.Ok s) : Inv (s.put i op) where
  stored := h.stored
  clearsFirst := h.clearsFirst
  owed j op' hj := by
    simp only [State.put, Function.update_apply] at hj
    split at hj
    · obtain rfl := Option.some.inj hj
      exact hop.put i op
    · exact (h.owed j op' hj).put i op
  pauses := h.pauses
  held := h.held
  served := h.served

theorem Inv.drop (h : Inv s) (i : Nat) : Inv (s.drop i) where
  stored := h.stored
  clearsFirst := h.clearsFirst
  owed j op hj := by
    simp only [State.drop, Function.update_apply] at hj
    split at hj
    · cases hj
    · have hop := h.owed j op hj
      exact ⟨hop.cleared, hop.paused⟩
  pauses := h.pauses
  held := h.held
  served := h.served

/-- A call that owes nothing. -/
theorem Operation.Ok.of_owes_none {op : Operation} (h : op.stage.owes = none) : op.Ok s where
  cleared kind n hn := by rw [h] at hn; cases hn
  paused n hn := by rw [h] at hn; cases hn

/-- A call that goes on after its disposal owes what it owed. -/
theorem Operation.Ok.of_owes_eq {op op' : Operation} (h : op.Ok s)
    (hdisposing : op.stage.isDisposing = false) (hid : op'.conn.id = op.conn.id)
    (howes : op'.stage.owes = op.stage.owes) : op'.Ok s where
  cleared kind n hn _ := by
    rw [hid]
    exact h.cleared kind n (howes ▸ hn) hdisposing
  paused n hn := by
    rw [hid]
    exact h.paused n (howes ▸ hn)

theorem Inv.serve (h : Inv s) {conn : Connection} {engine : Engine} {engines : Registry}
    (hopened : Opened s.engines conn engine engines) (hpaused : conn.paused = false)
    (hfresh : s.engines.get conn.id = none → (s.ledgers conn.id).Fresh conn.version) :
    Inv (s.serve conn engine engines) := by
  have hholds : Holds (s.ledgers conn.id) engine := by
    cases hopened with
    | held hget _ => exact h.held conn.id engine hget
    | built hnone hfrom _ => exact ⟨conn.version, hfresh hnone, hfrom.symm, hpaused⟩
  refine ⟨h.stored, h.clearsFirst, ?_, h.pauses, ?_, ?_⟩
  · intro i op hop
    exact ⟨(h.owed i op hop).cleared, (h.owed i op hop).paused⟩
  · intro id e he
    cases hopened with
    | held _ hkeep => exact h.held id e (hkeep id e he)
    | built _ _ hkeep =>
      rcases hkeep id e he with hold | ⟨rfl, rfl⟩
      · exact h.held id e hold
      · exact hholds
  · intro x hx
    rcases List.mem_cons.mp hx with rfl | hold
    · exact hholds.builtSince (h.clearsFirst conn.id)
    · exact h.served x hold

/-- A step of the ledgers: no disposal is forgotten, and no pause is undone but by a resume. -/
structure Grows (s s' : State) : Prop where
  cleared : ∀ id, ∀ n ∈ (s.ledgers id).cleared, n ∈ (s'.ledgers id).cleared
  keeps : ∀ id n, KeepsPaused (s.ledgers id) (s.resumes id) n →
    KeepsPaused (s'.ledgers id) (s'.resumes id) n

theorem Grows.owed (hg : Grows s s') (h : Inv s) (hops : s'.operations = s.operations) :
    ∀ i op, s'.operations i = some op → op.Ok s' := by
  intro i op hop
  rw [hops] at hop
  have hok := h.owed i op hop
  refine ⟨?_, ?_⟩
  · intro kind n hn hdisposing
    exact hg.cleared _ n (hok.cleared kind n hn hdisposing)
  · intro n hn
    exact hg.keeps _ n (hok.paused n hn)

theorem Grows.pauses (hg : Grows s s') (h : Inv s) (hpauses : s'.pauses = s.pauses) :
    ∀ id, ∀ n ∈ s'.pauses id,
      n ∈ (s'.ledgers id).cleared ∧ KeepsPaused (s'.ledgers id) (s'.resumes id) n := by
  intro id n hn
  rw [hpauses] at hn
  exact ⟨hg.cleared id n (h.pauses id n hn).1, hg.keeps id n (h.pauses id n hn).2⟩

/-- A commit. The row keeps its flag, or is paused, or a resume has been noted. -/
theorem Inv.store (h : Inv s) {rows : Rows} {row : Connection} (hrow : rows.get row.id = some row)
    (hothers : ∀ id, id ≠ row.id → rows.get id = s.rows.get id)
    (hflag : (∃ old, s.rows.get row.id = some old ∧ (old.paused = true → row.paused = true)) ∨
      (s.ledgers row.id).next ∈ s.resumes row.id) : Inv (s.store rows row) := by
  have hself : (s.store rows row).ledgers row.id = (s.ledgers row.id).store row.version :=
    Function.update_self _ _ _
  have hother : ∀ id, id ≠ row.id → (s.store rows row).ledgers id = s.ledgers id :=
    fun id hid => Function.update_of_ne hid _ _
  have hgrows : Grows s (s.store rows row) := by
    refine ⟨?_, ?_⟩
    · intro id n hn
      by_cases hid : id = row.id
      · subst hid
        rw [hself]
        exact hn
      · rw [hother id hid]
        exact hn
    · intro id n hn
      by_cases hid : id = row.id
      · subst hid
        rw [hself]
        refine hn.store fun hresumes => ?_
        rcases hflag with ⟨old, hold, hpaused⟩ | hresumed
        · exact hpaused (hn.paused hresumes old.version (h.stored row.id old hold n hn.lt))
        · exact absurd (hresumes _ hresumed) (Nat.lt_asymm hn.lt)
      · rw [hother id hid]
        exact hn
  refine ⟨?_, ?_, hgrows.owed h rfl, hgrows.pauses h rfl, ?_, h.served⟩
  · intro id row' hget n hn
    by_cases hid : id = row.id
    · subst hid
      rw [hself] at hn ⊢
      obtain rfl := Option.some.inj (hrow.symm.trans hget)
      apply Ledger.since_store_self
      simp only [Ledger.next, Ledger.store, List.length_append, List.length_singleton] at hn ⊢
      omega
    · rw [hother id hid] at hn ⊢
      exact h.stored id row' (hothers id hid ▸ hget) n hn
  · intro id
    by_cases hid : id = row.id
    · subst hid
      rw [hself]
      exact (h.clearsFirst _).store _
    · rw [hother id hid]
      exact h.clearsFirst id
  · intro id e he
    by_cases hid : id = row.id
    · subst hid
      rw [hself]
      exact (h.held _ e he).store _
    · rw [hother id hid]
      exact h.held id e he

theorem Inv.noteResume (h : Inv s) (id : String) : Inv (s.noteResume id) := by
  have hgrows : Grows s (s.noteResume id) := by
    refine ⟨fun _ _ hn => hn, ?_⟩
    intro id' n hn
    simp only [State.noteResume, Function.update_apply]
    split
    next hid =>
      subst hid
      exact hn.resume _
    · exact hn
  exact ⟨h.stored, h.clearsFirst, hgrows.owed h rfl, hgrows.pauses h rfl, h.held, h.served⟩

theorem mem_cleared_clear (s : State) (id : String) (version : Nat) :
    version ∈ ((s.clear id version).ledgers id).cleared := by
  simp [State.clear, Ledger.clear]

theorem grows_clear (s : State) (id : String) (version : Nat) : Grows s (s.clear id version) := by
  refine ⟨?_, ?_⟩
  · intro id' n hn
    simp only [State.clear, Function.update_apply]
    split
    next hid =>
      subst hid
      exact List.mem_cons_of_mem version hn
    · exact hn
  · intro id' n hn
    simp only [State.clear, Function.update_apply]
    split
    next hid =>
      subst hid
      exact hn.clear version
    · exact hn

theorem Inv.clear (h : Inv s) (id : String) (version : Nat) : Inv (s.clear id version) := by
  have hgrows := grows_clear s id version
  refine ⟨?_, ?_, hgrows.owed h rfl, hgrows.pauses h rfl, ?_, h.served⟩
  · intro id' row hget n hn
    simp only [State.clear, Function.update_apply] at hn ⊢
    split at hn
    next hid =>
      subst hid
      rw [if_pos rfl]
      exact h.stored _ row hget n hn
    next hid =>
      rw [if_neg hid]
      exact h.stored id' row hget n hn
  · intro id'
    simp only [State.clear, Function.update_apply]
    split
    · exact (h.clearsFirst _).clear version
    · exact h.clearsFirst id'
  · intro id' e he
    simp only [State.clear, disposeEngine, OrderedDict.get_erase, Function.update_apply] at he ⊢
    split at he
    · cases he
    next hid =>
      rw [if_neg hid]
      exact h.held id' e he

/-- An answer, for a version whose engines are gone. -/
theorem Inv.answer (h : Inv s) {id : String} {version : Nat}
    (hversion : version ∈ (s.ledgers id).cleared) : Inv (s.answer id version) := by
  have hself : (s.answer id version).ledgers id = (s.ledgers id).answer version :=
    Function.update_self _ _ _
  have hother : ∀ id', id' ≠ id → (s.answer id version).ledgers id' = s.ledgers id' :=
    fun id' hid => Function.update_of_ne hid _ _
  have hgrows : Grows s (s.answer id version) := by
    refine ⟨?_, ?_⟩
    · intro id' n hn
      by_cases hid : id' = id
      · subst hid
        rw [hself]
        exact hn
      · rw [hother id' hid]
        exact hn
    · intro id' n hn
      by_cases hid : id' = id
      · subst hid
        rw [hself]
        exact hn.answer version
      · rw [hother id' hid]
        exact hn
  refine ⟨?_, ?_, hgrows.owed h rfl, hgrows.pauses h rfl, ?_, h.served⟩
  · intro id' row hget n hn
    by_cases hid : id' = id
    · subst hid
      rw [hself] at hn ⊢
      exact h.stored _ row hget n hn
    · rw [hother id' hid] at hn ⊢
      exact h.stored id' row hget n hn
  · intro id'
    by_cases hid : id' = id
    · subst hid
      rw [hself]
      exact (h.clearsFirst _).answer hversion
    · rw [hother id' hid]
      exact h.clearsFirst id'
  · intro id' e he
    by_cases hid : id' = id
    · subst hid
      rw [hself]
      exact h.held _ e he
    · rw [hother id' hid]
      exact h.held id' e he

/-- A pause that answers, for a version from which on the row is paused. -/
theorem Inv.notePause (h : Inv s) {id : String} {version : Nat}
    (hversion : version ∈ (s.ledgers id).cleared)
    (hkeeps : KeepsPaused (s.ledgers id) (s.resumes id) version) :
    Inv (s.notePause id version) := by
  refine ⟨h.stored, h.clearsFirst, ?_, ?_, h.held, h.served⟩
  · intro i op hop
    exact ⟨(h.owed i op hop).cleared, (h.owed i op hop).paused⟩
  · intro id' n hn
    simp only [State.notePause, Function.update_apply] at hn ⊢
    split at hn
    next hid =>
      subst hid
      rcases List.mem_cons.mp hn with rfl | hold
      · exact ⟨hversion, hkeeps⟩
      · exact h.pauses _ n hold
    · exact h.pauses id' n hn

/-- Rows that differ in other columns. -/
theorem Inv.withRows (h : Inv s) {rows : Rows}
    (hrows : ∀ id row', rows.get id = some row' →
      ∃ row, s.rows.get id = some row ∧ row'.version = row.version) :
    Inv { s with rows := rows } := by
  refine ⟨?_, h.clearsFirst, ?_, h.pauses, h.held, h.served⟩
  · intro id row' hrow' n hn
    obtain ⟨row, hrow, hsame⟩ := hrows id row' hrow'
    rw [hsame]
    exact h.stored id row hrow n hn
  · intro i op hop
    exact ⟨(h.owed i op hop).cleared, (h.owed i op hop).paused⟩

/-- Engines that are given up. -/
theorem Inv.discard (h : Inv s) (id : String) :
    Inv { s with engines := disposeEngine s.engines id } := by
  refine ⟨h.stored, h.clearsFirst, ?_, h.pauses, ?_, h.served⟩
  · intro i op hop
    exact ⟨(h.owed i op hop).cleared, (h.owed i op hop).paused⟩
  · intro id' e he
    simp only [disposeEngine, OrderedDict.get_erase] at he
    split at he
    · cases he
    · exact h.held id' e he

end Operations

/-! ## Each step keeps the invariant -/

section Steps

variable {E : TargetEnv} {s t : State}

theorem Change.apply_eq {change : Change} {conn new : Connection}
    (h : change.apply conn = some new) :
    new.id = conn.id ∧
      match change with
      | .update _ _ => new.paused = conn.paused
      | .pause => new.paused = true
      | .resume => new.paused = false := by
  cases change with
  | update payload token =>
    unfold Change.apply at h
    simp only at h
    split at h
    · cases h
    · unfold ConnectionUpdate.assign at h
      obtain ⟨name, -, h⟩ := Option.bind_eq_some_iff.mp h
      obtain ⟨sslMode, -, h⟩ := Option.bind_eq_some_iff.mp h
      obtain rfl := Option.some.inj h
      exact ⟨rfl, rfl⟩
  | pause =>
    obtain rfl := Option.some.inj h
    exact ⟨rfl, rfl⟩
  | resume =>
    obtain rfl := Option.some.inj h
    exact ⟨rfl, rfl⟩

/-- The row after a commit, and the row before it. -/
theorem flushed_of_commit {rows rows' : Rows} {conn new row : Connection}
    (h : commitConnection rows conn new = some rows') (hrow : rows'.get conn.id = some row) :
    row.id = conn.id ∧ ∃ old, rows.get conn.id = some old ∧ row = flushConnection conn new old := by
  have hid : row.id = conn.id := Table.key_of_get hrow
  rw [get_commitConnection h, if_pos rfl] at hrow
  obtain ⟨old, hold, hflush⟩ := Option.map_eq_some_iff.mp hrow
  exact ⟨hid, old, hold, hflush.symm⟩

theorem get_commit_of_ne {rows rows' : Rows} {conn new : Connection}
    (h : commitConnection rows conn new = some rows') (id : String) (hid : id ≠ conn.id) :
    rows'.get id = rows.get id := by
  rw [get_commitConnection h, if_neg hid]

/-- The status columns are no part of a version. -/
theorem version_recordTest {rows rows' : Rows} {conn : Connection} {error : Option AppError}
    {now : Instant} (h : commitConnection rows conn (recordTest conn error now) = some rows')
    (id : String) (row' : Connection) (hrow' : rows'.get id = some row') :
    ∃ row, rows.get id = some row ∧ row'.version = row.version := by
  by_cases hid : id = conn.id
  · subst hid
    obtain ⟨-, row, hrow, rfl⟩ := flushed_of_commit h hrow'
    refine ⟨row, hrow, ?_⟩
    simp [Connection.version, flushConnection, flushed, recordTest]
  · exact ⟨row', get_commit_of_ne h id hid ▸ hrow', rfl⟩

theorem Inv.putOrDrop (h : Inv s) (i : Nat) (conn : Connection) {stage : Option Stage}
    (hop : ∀ st, stage = some st → Operation.Ok s ⟨conn, st⟩) : Inv (s.putOrDrop i conn stage) := by
  cases stage with
  | none => exact h.drop i
  | some st => exact h.put i (hop st rfl)

theorem owes_afterTest {update : Option Nat} {stage : Stage}
    (h : Stage.afterTest update = some stage) :
    stage.owes = update.map (Kind.update, ·) := by
  cases update with
  | none => cases h
  | some version =>
    obtain rfl := Option.some.inj h
    rfl

theorem Inv.commitChange (h : Inv s) (i : Nat) (conn : Connection) (change : Change)
    (hpause : change = .pause → conn.paused = true →
      ∀ row, s.rows.get conn.id = some row → row.paused = true) :
    Inv (commitChange s i conn change) := by
  unfold Connections.commitChange
  split
  · exact h.drop i
  next new hnew =>
    split
    · exact h.drop i
    next rows hcommit =>
      split
      · exact h.drop i
      next row hrow =>
        obtain ⟨hid, old, hold, hflush⟩ := flushed_of_commit hcommit hrow
        obtain ⟨hnewId, hflag⟩ := Change.apply_eq hnew
        have hget : rows.get row.id = some row := hid ▸ hrow
        have hothers : ∀ id, id ≠ row.id → rows.get id = s.rows.get id :=
          fun id hne => get_commit_of_ne hcommit id (hid ▸ hne)
        have hpaused : row.paused = flushed conn.paused new.paused old.paused := by rw [hflush]; rfl
        have hself : (s.store rows row).ledgers row.id = (s.ledgers row.id).store row.version :=
          Function.update_self _ _ _
        cases change with
        | update payload token =>
          have hsame : row.paused = old.paused := by
            rw [hpaused, hflag]
            exact if_pos rfl
          have hinv : Inv (s.store rows row) :=
            h.store hget hothers (.inl ⟨old, hid ▸ hold, fun ho => hsame.trans ho⟩)
          refine hinv.put i ⟨?_, ?_⟩
          · intro kind n _ hdisposing
            cases hdisposing
          · intro n hn
            cases hn
        | pause =>
          have htrue : row.paused = true := by
            rw [hpaused, hflag]
            unfold flushed
            split
            next hloaded => exact hpause rfl hloaded.symm old hold
            · rfl
          have hinv : Inv (s.store rows row) :=
            h.store hget hothers (.inl ⟨old, hid ▸ hold, fun _ => htrue⟩)
          refine hinv.put i ⟨?_, ?_⟩
          · intro kind n _ hdisposing
            cases hdisposing
          · intro n hn
            obtain ⟨-, rfl⟩ := Prod.mk.inj (Option.some.inj hn)
            show KeepsPaused ((s.store rows row).ledgers new.id) _ _
            rw [hnewId, ← hid, hself]
            exact keepsPaused_new _ htrue
        | resume =>
          have hnext : ((s.noteResume row.id).ledgers row.id).next ∈
              (s.noteResume row.id).resumes row.id := by
            simp [State.noteResume]
          have hinv : Inv ((s.noteResume row.id).store rows row) :=
            (h.noteResume row.id).store hget hothers (.inr hnext)
          exact hinv.put i (.of_owes_none rfl)

/-- The step lemma. -/
theorem Inv.step {a : Action} (h : Inv s) (hstep : step E s a = some t) (hok : Settled s a) :
    Inv t := by
  cases a with
  | begin i call id =>
    simp only [Connections.step] at hstep
    split at hstep
    · obtain rfl := Option.some.inj hstep
      exact h
    · obtain rfl := Option.some.inj hstep
      refine h.put i (.of_owes_none ?_)
      cases call <;> rfl
  | abort i =>
    obtain rfl := Option.some.inj hstep
    exact h.drop i
  | advance i outcome now =>
    simp only [Connections.step] at hstep
    split at hstep
    case h_2 => cases hstep
    next op hop =>
      obtain rfl := Option.some.inj hstep
      have hsettled := hok op hop
      have howed := h.owed i op hop
      obtain ⟨conn, stage⟩ := op
      cases stage with
      | connecting =>
        simp only [perform]
        split
        · exact h.drop i
        next hopen =>
          obtain ⟨hpaused, hopened⟩ := openTarget_opened hopen
          exact (h.serve hopened hpaused fun hnone => hsettled.builds rfl hnone hpaused).drop i
      | writing change =>
        exact h.commitChange i conn change fun hpause => hsettled.pauses (hpause ▸ rfl)
      | disposing kind version =>
        refine (h.clear conn.id version).put i ?_
        have hmem := mem_cleared_clear s conn.id version
        cases kind with
        | update =>
          refine ⟨?_, ?_⟩
          · intro kind n hn _
            obtain ⟨-, rfl⟩ := Prod.mk.inj (Option.some.inj hn)
            exact hmem
          · intro n hn
            cases hn
        | pause =>
          refine ⟨?_, ?_⟩
          · intro kind n hn _
            obtain ⟨-, rfl⟩ := Prod.mk.inj (Option.some.inj hn)
            exact hmem
          · intro n hn
            exact (grows_clear s conn.id version).keeps _ n (howed.paused n hn)
      | testing update =>
        simp only [perform]
        split
        · exact h.put i (howed.of_owes_eq rfl rfl rfl)
        next hopen =>
          obtain ⟨hpaused, hopened⟩ := openTarget_opened hopen
          have hserve := h.serve hopened hpaused fun hnone => hsettled.builds rfl hnone hpaused
          exact hserve.put i ⟨fun kind n hn _ => howed.cleared kind n hn rfl, howed.paused⟩
      | recording update error =>
        simp only [perform]
        split
        · exact h.drop i
        next rows hcommit =>
          have hrows := h.withRows (version_recordTest hcommit)
          refine hrows.putOrDrop i _ ?_
          intro st hst
          have hold : Operation.Ok { s with rows := rows } ⟨conn, .recording update error⟩ :=
            ⟨howed.cleared, howed.paused⟩
          refine hold.of_owes_eq rfl rfl ?_
          split at hst
          · obtain rfl := Option.some.inj hst
            rfl
          · exact owes_afterTest hst
      | discarding update =>
        refine (h.discard conn.id).putOrDrop i conn ?_
        intro st hst
        have hold : Operation.Ok { s with engines := disposeEngine s.engines conn.id }
            ⟨conn, .discarding update⟩ := ⟨howed.cleared, howed.paused⟩
        exact hold.of_owes_eq rfl rfl (owes_afterTest hst)
      | answering kind version =>
        have hversion := howed.cleared kind version rfl rfl
        cases kind with
        | update => exact (h.answer hversion).drop i
        | pause =>
          have hkeeps := howed.paused version rfl
          refine ((h.answer hversion).notePause ?_ ?_).drop i
          · simpa [State.answer, Ledger.answer] using hversion
          · simpa [State.answer] using hkeeps.answer version

/-- The run lemma. -/
theorem inv_of_run {rows : Rows} {as : List Action}
    (h : Machine.Run (Connections.step E) Settled (State.start rows) as s) : Inv s :=
  h.invariant (fun _ _ _ hI hstep hok => hI.step hstep hok) (inv_start rows)

theorem Inv.coherent (h : Inv s) : Coherent s where
  served := h.served
  paused id n hn hresumes := by
    obtain ⟨hcleared, hkeeps⟩ := h.pauses id n hn
    cases he : s.engines.get id with
    | none => rfl
    | some e =>
      obtain ⟨v, hfresh, -, hpaused⟩ := h.held id e he
      rw [hkeeps.paused hresumes v (hfresh n hcleared)] at hpaused
      cases hpaused

end Steps

/-- **Engine registry coherence.** In every run whose steps are all settled, the engines that are
served and held are those of the rows as they were last edited. -/
theorem coherent_of_settled {E : TargetEnv} {rows : Rows} {s : State} {as : List Action}
    (h : Machine.Run (step E) Settled (State.start rows) as s) : Coherent s :=
  (inv_of_run h).coherent

/-! ## Runs -/

namespace Sample

def env : TargetEnv where
  unicode := .ascii
  decrypt := some
  sqlite := dataServer
  translateDbError _ := ⟨.internalError, "", []⟩
  maxTargetEngines := 32
  maxTargetEngines_pos := by decide

def connection : Connection where
  id := "db"
  name := "Warehouse"
  dbType := .postgres
  host := some "old.example"
  port := none
  database := some "sales"
  username := some "reader"
  passwordEncrypted := none
  sqlitePath := none
  sslMode := .require
  sslRootCert := none
  paused := false
  status := .ok
  lastTestedAt := none
  lastTestError := none

def rows : Rows := ⟨[connection], by decide⟩

/-- An execution loads the row; an update commits another host and disposes the engine; the
execution builds one; the update tests it and returns. The last execution starts after that. -/
def editWhileLoaded : List Action :=
  [.begin 0 .run "db", .begin 1 (.update { host := some (some "new.example") } "") "db",
    .advance 1 none 1, .advance 1 none 1, .advance 0 none 2, .advance 1 none 3, .advance 1 none 3,
    .advance 1 none 3, .begin 2 .run "db", .advance 2 none 4]

/-- An execution loads the row, a pause runs to its end, and the execution builds its engine. -/
def pauseWhileLoaded : List Action :=
  [.begin 0 .run "db", .begin 1 .pause "db", .advance 1 none 1, .advance 1 none 1,
    .advance 1 none 1, .advance 0 none 2]

end Sample

instance (l : Ledger Version) (n : Nat) (engine : Engine) : Decidable (BuiltSince l n engine) :=
  inferInstanceAs (Decidable (∃ v, v ∈ l.versions.drop n ∧ _))

/-- A pause after the execution's engine was built: the engine goes, and stays away. -/
theorem coherent_of_settled_paused :
    ∃ t, Machine.Run (step Sample.env) Settled (State.start Sample.rows)
        [.begin 0 .run "db", .advance 0 none 1, .begin 1 .pause "db", .advance 1 none 2,
          .advance 1 none 2, .advance 1 none 2] t ∧
      t.pauses "db" = [1] ∧ Coherent t := by
  have hrun : ∃ t, Machine.Run (step Sample.env) Settled (State.start Sample.rows)
      [.begin 0 .run "db", .advance 0 none 1, .begin 1 .pause "db", .advance 1 none 2,
        .advance 1 none 2, .advance 1 none 2] t ∧ t.pauses "db" = [1] := by
    refine ⟨_, .cons rfl trivial (.cons rfl ?_ (.cons rfl trivial (.cons rfl ?_ (.cons rfl ?_
      (.cons rfl ?_ (.nil _)))))), rfl⟩
    · intro op hop
      cases hop
      exact ⟨fun _ _ _ n hn => absurd hn List.not_mem_nil, nofun⟩
    · intro op hop
      cases hop
      exact ⟨nofun, nofun⟩
    · intro op hop
      cases hop
      exact ⟨nofun, nofun⟩
    · intro op hop
      cases hop
      exact ⟨nofun, nofun⟩
  obtain ⟨t, ht, hpauses⟩ := hrun
  exact ⟨t, ht, hpauses, coherent_of_settled ht⟩

/-- A call that loaded the row before an edit brings the old engine back: an execution that starts
after `update_connection` has returned gets an engine of the old host, and a connection has an
engine after `pause_connection` has returned. -/
theorem load_outlives_edit :
    (∃ t, Machine.Run (step Sample.env) Machine.Always (State.start Sample.rows)
        Sample.editWhileLoaded t ∧
      ∃ x ∈ t.served, ∃ n ∈ x.ledger.answered, ¬ BuiltSince x.ledger n x.engine) ∧
    ∃ t, Machine.Run (step Sample.env) Machine.Always (State.start Sample.rows)
        Sample.pauseWhileLoaded t ∧
      ∃ n ∈ t.pauses "db", (∀ m ∈ t.resumes "db", m < n) ∧ t.engines.get "db" ≠ none := by
  refine ⟨⟨_, Machine.run_of_exec rfl, ?_⟩, ⟨_, Machine.run_of_exec rfl, ?_⟩⟩
  · exact ⟨_, List.mem_cons_self, 1, List.mem_cons_self, by decide⟩
  · refine ⟨1, List.mem_cons_self, ?_, ?_⟩
    · intro m hm
      cases hm
    · intro h
      cases h

end FraudAnalyzer.Connections
