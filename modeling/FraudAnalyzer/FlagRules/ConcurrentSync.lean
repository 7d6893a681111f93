import FraudAnalyzer.FlagRules.FlaggedRows
import FraudAnalyzer.Lib.Run
import Mathlib.Logic.Function.Basic

/-!
# Syncs at the same time

Any number of calls of `sync`, interleaved between the statement that reads the stored rows and the
transaction that writes. The transaction updates and deletes the rows that were read, by their ids,
and inserts the matches that were not among them. Another call that commits in between may have
taken a key or a row away, and then the call fails, or may have stored findings that stay next to
the matches (`second_sync_fails`); what a commit has to find for neither to happen is `Undisturbed`.

What a row says besides its key is left out; its id is that of the call which inserted it.
-/

namespace FraudAnalyzer.FlagRules.Syncing

open Machine Python

/-- `insertedBy` is the number of the call, and `none` for a row that was there at the start. -/
structure StoredRow where
  queryId : String
  rowFingerprint : String
  insertedBy : Option Nat
  deriving DecidableEq

/-- The unique constraint. -/
def StoredRow.key (row : StoredRow) : String × String := (row.queryId, row.rowFingerprint)

/-- Where a call stands; `existing` is what it has read. -/
inductive Stage where
  | called
  | read (existing : List StoredRow)
  | finished
  | failed
  deriving DecidableEq

/-- `matched` is the dictionary that `sync` has made of the run. -/
structure SyncCall where
  queryId : String
  matched : OrderedDict String Found
  stage : Stage

/-- The fingerprints of what the run matched. -/
def SyncCall.fingerprints (c : SyncCall) : List String := c.matched.entries.map Prod.fst

structure Findings where
  stored : Table StoredRow.key
  calls : Nat → Option SyncCall

def start (findings : Table FlaggedRow.key) : Findings where
  stored :=
    { rows := findings.rows.map fun row => ⟨row.queryId, row.rowFingerprint, none⟩
      nodup := by
        rw [List.map_map]
        exact findings.nodup }
  calls _ := none

/-- The matches that were not among the rows. -/
def fresh (i : Nat) (c : SyncCall) (existing : List StoredRow) : List StoredRow :=
  (c.fingerprints.filter fun f => ∀ row ∈ existing, row.rowFingerprint ≠ f).map fun f =>
    ⟨c.queryId, f, some i⟩

/-- A row that was read and no longer matches. -/
def removed (c : SyncCall) (existing : List StoredRow) (row : StoredRow) : Bool :=
  row ∈ existing && row.rowFingerprint ∉ c.fingerprints

/-- The transaction: `none` when a row that is to be updated is gone (`StaleDataError`) or a key
that is to be inserted is taken (`IntegrityError`). A row that is to be deleted may be gone. -/
def commit (stored : Table StoredRow.key) (i : Nat) (c : SyncCall) (existing : List StoredRow) :
    Option (Table StoredRow.key) :=
  if ∀ row ∈ existing, row.rowFingerprint ∈ c.fingerprints → row ∈ stored.rows then
    (stored.insertAll (fresh i c existing)).map fun stored =>
      stored.deleteWhere (removed c existing)
  else none

/-- `sync` is a call, with what it is called for. -/
inductive Action where
  | sync (i : Nat) (queryId : String) (columns : List String) (rows : List (List Cell))
    (outcome : Flags)
  | read (i : Nat)
  | commit (i : Nat)

def Findings.put (s : Findings) (i : Nat) (c : SyncCall) : Findings :=
  { s with calls := Function.update s.calls i (some c) }

def step (sha256Hex : Sha256Hex) (s : Findings) : Action → Option Findings
  | .sync i queryId columns rows outcome =>
    match s.calls i with
    | none => some (s.put i ⟨queryId, matchedBy sha256Hex columns rows outcome, .called⟩)
    | some _ => none
  | .read i =>
    match s.calls i with
    | none => none
    | some c =>
      match c.stage with
      | .called =>
        some (s.put i
          { c with stage := .read (s.stored.rows.filter fun row => row.queryId = c.queryId) })
      | _ => none
  | .commit i =>
    match s.calls i with
    | none => none
    | some c =>
      match c.stage with
      | .read existing =>
        match commit s.stored i c existing with
        | none => some (s.put i { c with stage := .failed })
        | some stored => some ({ s with stored := stored }.put i { c with stage := .finished })
      | _ => none

/-- The finding is stored. -/
def Findings.Stores (s : Findings) (queryId fingerprint : String) : Prop :=
  (queryId, fingerprint) ∈ s.stored.rows.map StoredRow.key

/-- The findings of the query are the matches of a call that has finished. -/
def Findings.Settled (s : Findings) (queryId : String) : Prop :=
  ∃ i c, s.calls i = some c ∧ c.queryId = queryId ∧ c.stage = .finished ∧
    ∀ f, s.Stores queryId f ↔ f ∈ c.fingerprints

structure Safe (s : Findings) : Prop where
  unfailed : ∀ i c, s.calls i = some c → c.stage ≠ .failed
  once : (s.stored.rows.map StoredRow.key).Nodup
  settled : ∀ queryId, (∃ i c, s.calls i = some c ∧ c.queryId = queryId) →
    (∀ i c, s.calls i = some c → c.queryId = queryId → c.stage = .finished) → s.Settled queryId

/-- What a call may commit: of its matches, what is stored is what it has read; and of the rest,
either it has read all that is stored, or its commit takes nothing away and adds nothing. -/
structure Current (stored : Table StoredRow.key) (c : SyncCall) (existing : List StoredRow) :
    Prop where
  matched : ∀ row : StoredRow, row.queryId = c.queryId → row.rowFingerprint ∈ c.fingerprints →
    (row ∈ existing ↔ row ∈ stored.rows)
  rest :
    (∀ row ∈ stored.rows, row.queryId = c.queryId → row.rowFingerprint ∉ c.fingerprints →
      row ∈ existing) ∨
    ((∀ f ∈ c.fingerprints, ∃ row ∈ existing, row.rowFingerprint = f) ∧
      ∀ row ∈ existing, row.rowFingerprint ∉ c.fingerprints → row ∉ stored.rows)

/-- A commit comes upon what the call has read, as far as it matters. -/
def Undisturbed (s : Findings) : Action → Prop
  | .commit i => ∀ c existing, s.calls i = some c → c.stage = .read existing →
    Current s.stored c existing
  | _ => True

/-- What a call has read and not committed yet. -/
def Stage.existing : Stage → Option (List StoredRow)
  | .read existing => some existing
  | _ => none

theorem Stage.existing_eq_some_iff {stage : Stage} {existing : List StoredRow} :
    stage.existing = some existing ↔ stage = .read existing := by
  cases stage <;> simp [Stage.existing]

/-- Only the rows that are read or stored matter. -/
theorem current_iff {stored : Table StoredRow.key} {c : SyncCall} {existing : List StoredRow} :
    ((∀ row ∈ existing ++ stored.rows, row.queryId = c.queryId →
        row.rowFingerprint ∈ c.fingerprints → (row ∈ existing ↔ row ∈ stored.rows)) ∧
      ((∀ row ∈ stored.rows, row.queryId = c.queryId → row.rowFingerprint ∉ c.fingerprints →
          row ∈ existing) ∨
        ((∀ f ∈ c.fingerprints, ∃ row ∈ existing, row.rowFingerprint = f) ∧
          ∀ row ∈ existing, row.rowFingerprint ∉ c.fingerprints → row ∉ stored.rows))) ↔
      Current stored c existing := by
  refine ⟨fun ⟨hmatched, hrest⟩ => ⟨fun row hquery hmatch => ?_, hrest⟩,
    fun h => ⟨fun row _ => h.matched row, h.rest⟩⟩
  by_cases hmem : row ∈ existing ++ stored.rows
  · exact hmatched row hmem hquery hmatch
  · rw [List.mem_append, not_or] at hmem
    exact iff_of_false hmem.1 hmem.2

instance (stored : Table StoredRow.key) (c : SyncCall) (existing : List StoredRow) :
    Decidable (Current stored c existing) :=
  decidable_of_iff _ current_iff

theorem undisturbed_commit_iff {s : Findings} {i : Nat} :
    (∀ c ∈ s.calls i, ∀ existing ∈ c.stage.existing, Current s.stored c existing) ↔
      Undisturbed s (.commit i) := by
  simp only [Undisturbed, Option.mem_def, Stage.existing_eq_some_iff]
  exact forall_congr' fun c => forall_comm

instance (s : Findings) : (a : Action) → Decidable (Undisturbed s a)
  | .commit _ => decidable_of_iff _ undisturbed_commit_iff
  | .sync .. | .read _ => .isTrue trivial

/-! ## The transaction -/

section Commit

variable {stored stored' : Table StoredRow.key} {i : Nat} {c : SyncCall}
  {existing : List StoredRow} {f queryId : String} {row : StoredRow}

theorem mem_fresh : row ∈ fresh i c existing ↔
    row = ⟨c.queryId, row.rowFingerprint, some i⟩ ∧ row.rowFingerprint ∈ c.fingerprints ∧
      ∀ old ∈ existing, old.rowFingerprint ≠ row.rowFingerprint := by
  unfold fresh
  rw [List.mem_map]
  constructor
  · rintro ⟨f, hf, rfl⟩
    obtain ⟨hmatch, hnew⟩ := List.mem_filter.mp hf
    exact ⟨rfl, hmatch, of_decide_eq_true hnew⟩
  · rintro ⟨hrow, hmatch, hnew⟩
    exact ⟨row.rowFingerprint, List.mem_filter.mpr ⟨hmatch, decide_eq_true hnew⟩, hrow.symm⟩

theorem nodup_fresh (i : Nat) (c : SyncCall) (existing : List StoredRow) :
    ((fresh i c existing).map StoredRow.key).Nodup := by
  unfold fresh
  rw [List.map_map]
  have hnodup : c.fingerprints.Nodup := c.matched.nodup
  exact (hnodup.filter _).map fun a b h => (Prod.mk.inj h).2

theorem rows_commit (h : commit stored i c existing = some stored') :
    stored'.rows = (stored.rows ++ fresh i c existing).filter fun row =>
      !removed c existing row := by
  unfold commit at h
  split at h
  · obtain ⟨inserted, hinsert, rfl⟩ := Option.map_eq_some_iff.mp h
    rw [← Table.rows_insertAll hinsert]
    rfl
  · cases h

/-- A commit succeeds where it finds of its matches what was read. -/
theorem Current.commit_eq (h : Current stored c existing)
    (hread : ∀ row ∈ existing, row.queryId = c.queryId) :
    ∃ stored', commit stored i c existing = some stored' := by
  have hkept : ∀ row ∈ existing, row.rowFingerprint ∈ c.fingerprints → row ∈ stored.rows :=
    fun row hrow hmatch => (h.matched row (hread row hrow) hmatch).mp hrow
  have hnew : ∀ row ∈ fresh i c existing, row.key ∉ stored.rows.map StoredRow.key := by
    intro row hrow hmem
    obtain ⟨heq, hmatch, hnone⟩ := mem_fresh.mp hrow
    obtain ⟨old, hold, hkey⟩ := List.mem_map.mp hmem
    obtain ⟨hquery, hfingerprint⟩ := Prod.mk.inj hkey
    have hold' : old ∈ existing := by
      refine (h.matched old ?_ ?_).mpr hold
      · rw [hquery, heq]
      · rw [hfingerprint]
        exact hmatch
    exact hnone old hold' hfingerprint
  have hinsert := (Table.insertAll_isSome_iff (nodup_fresh i c existing)).mpr hnew
  obtain ⟨inserted, hinserted⟩ := Option.isSome_iff_exists.mp hinsert
  unfold commit
  rw [if_pos hkept, hinserted]
  exact ⟨_, rfl⟩

/-- What is stored after a commit: the matches, and what was stored besides them and was
not read. -/
theorem mem_keys_commit (h : commit stored i c existing = some stored')
    (hcurrent : Current stored c existing) (hread : ∀ row ∈ existing, row.queryId = c.queryId) :
    (c.queryId, f) ∈ stored'.rows.map StoredRow.key ↔
      f ∈ c.fingerprints ∨ ∃ row ∈ stored.rows, row.key = (c.queryId, f) ∧ row ∉ existing := by
  rw [rows_commit h, List.mem_map]
  constructor
  · rintro ⟨row, hrow, hkey⟩
    obtain ⟨hmem, hkept⟩ := List.mem_filter.mp hrow
    obtain ⟨hquery, hfingerprint⟩ := Prod.mk.inj hkey
    by_cases hmatch : f ∈ c.fingerprints
    · exact .inl hmatch
    · refine .inr ⟨row, ?_, hkey, ?_⟩
      · rcases List.mem_append.mp hmem with hold | hnew
        · exact hold
        · exact absurd (hfingerprint ▸ (mem_fresh.mp hnew).2.1) hmatch
      · intro hexisting
        simp [removed, hexisting, hfingerprint, hmatch] at hkept
  · intro hafter
    by_cases hmatch : f ∈ c.fingerprints
    · by_cases hold : ∃ row ∈ existing, row.rowFingerprint = f
      · obtain ⟨row, hrow, rfl⟩ := hold
        have hquery := hread row hrow
        have hstored := (hcurrent.matched row hquery hmatch).mp hrow
        refine ⟨row, List.mem_filter.mpr ⟨List.mem_append_left _ hstored, ?_⟩, ?_⟩
        · simp [removed, hmatch]
        · rw [StoredRow.key, hquery]
      · refine ⟨⟨c.queryId, f, some i⟩, List.mem_filter.mpr ⟨List.mem_append_right _ ?_, ?_⟩, rfl⟩
        · exact mem_fresh.mpr ⟨rfl, hmatch, fun row hrow heq => hold ⟨row, hrow, heq⟩⟩
        · simp [removed, hmatch]
    · obtain ⟨row, hrow, hkey, hexisting⟩ := hafter.resolve_left hmatch
      refine ⟨row, List.mem_filter.mpr ⟨List.mem_append_left _ hrow, ?_⟩, hkey⟩
      simp [removed, hexisting]

/-- The other queries keep their findings. -/
theorem mem_rows_commit_of_ne (h : commit stored i c existing = some stored')
    (hread : ∀ row ∈ existing, row.queryId = c.queryId) (hquery : row.queryId ≠ c.queryId) :
    row ∈ stored'.rows ↔ row ∈ stored.rows := by
  have hfresh : row ∉ fresh i c existing := by
    intro hmem
    rw [(mem_fresh.mp hmem).1] at hquery
    exact hquery rfl
  have hexisting : row ∉ existing := fun hmem => hquery (hread row hmem)
  rw [rows_commit h, List.mem_filter, List.mem_append]
  simp [hfresh, removed, hexisting]

/-- All that is stored of the query was read, or is matched. -/
theorem mem_keys_commit_of_all (h : commit stored i c existing = some stored')
    (hcurrent : Current stored c existing) (hread : ∀ row ∈ existing, row.queryId = c.queryId)
    (hall : ∀ row ∈ stored.rows, row.queryId = c.queryId → row.rowFingerprint ∉ c.fingerprints →
      row ∈ existing) :
    (c.queryId, f) ∈ stored'.rows.map StoredRow.key ↔ f ∈ c.fingerprints := by
  rw [mem_keys_commit h hcurrent hread]
  refine or_iff_left_of_imp ?_
  rintro ⟨row, hrow, hkey, hexisting⟩
  obtain ⟨hquery, rfl⟩ := Prod.mk.inj hkey
  by_contra hmatch
  exact hexisting (hall row hrow hquery hmatch)

/-- Nothing is inserted, and nothing that is still there is deleted. -/
theorem mem_keys_commit_of_none (h : commit stored i c existing = some stored')
    (hcurrent : Current stored c existing) (hread : ∀ row ∈ existing, row.queryId = c.queryId)
    (hold : ∀ f ∈ c.fingerprints, ∃ row ∈ existing, row.rowFingerprint = f)
    (hgone : ∀ row ∈ existing, row.rowFingerprint ∉ c.fingerprints → row ∉ stored.rows) :
    (c.queryId, f) ∈ stored'.rows.map StoredRow.key ↔
      (c.queryId, f) ∈ stored.rows.map StoredRow.key := by
  rw [mem_keys_commit h hcurrent hread, List.mem_map]
  constructor
  · rintro (hmatch | ⟨row, hrow, hkey, -⟩)
    · obtain ⟨row, hrow, rfl⟩ := hold f hmatch
      have hquery := hread row hrow
      exact ⟨row, (hcurrent.matched row hquery hmatch).mp hrow, by rw [StoredRow.key, hquery]⟩
    · exact ⟨row, hrow, hkey⟩
  · rintro ⟨row, hrow, hkey⟩
    by_cases hmatch : f ∈ c.fingerprints
    · exact .inl hmatch
    · refine .inr ⟨row, hrow, hkey, fun hexisting => ?_⟩
      obtain ⟨-, rfl⟩ := Prod.mk.inj hkey
      exact hgone row hexisting hmatch hrow

/-- What has just been read. -/
theorem current_filter (stored : Table StoredRow.key) (c : SyncCall) :
    Current stored c (stored.rows.filter fun row => row.queryId = c.queryId) := by
  refine ⟨fun row hquery _ => ?_, .inl fun row hrow hquery _ => ?_⟩
  · rw [List.mem_filter, decide_eq_true_iff]
    exact and_iff_left hquery
  · exact List.mem_filter.mpr ⟨hrow, decide_eq_true hquery⟩

/-- A call that nobody disturbs stores the findings of `FlagRules.sync`. -/
theorem commit_refines_sync {sha256Hex : Sha256Hex} {findings : Table FlaggedRow.key}
    {stage : Stage}
    {columns : List String} {rows : List (List Cell)} {outcome : Flags} {now : Instant}
    (hkeys : ∀ k, k ∈ stored.rows.map StoredRow.key ↔ k ∈ findings.rows.map FlaggedRow.key)
    (hcommit : commit stored i ⟨queryId, matchedBy sha256Hex columns rows outcome, stage⟩
      (stored.rows.filter fun row => row.queryId = queryId) = some stored') (k : String × String) :
    k ∈ stored'.rows.map StoredRow.key ↔
      k ∈ (sync sha256Hex findings queryId columns rows outcome now).1.rows.map FlaggedRow.key := by
  have hread : ∀ row ∈ stored.rows.filter fun row => row.queryId = queryId,
      row.queryId = queryId := fun row hrow => of_decide_eq_true (List.mem_filter.mp hrow).2
  obtain ⟨id, f⟩ := k
  rw [Table.mem_keys_iff (t := (sync sha256Hex findings queryId columns rows outcome now).1),
    get_sync]
  by_cases hid : id = queryId
  · subst hid
    rw [mem_keys_commit_of_all hcommit (current_filter stored _) hread
      fun row hrow hquery _ => List.mem_filter.mpr ⟨hrow, decide_eq_true hquery⟩]
    rw [if_pos rfl, ← Option.isSome_iff_exists, Option.isSome_map, OrderedDict.get_isSome_iff]
    rfl
  · have hrows : ∀ row : StoredRow, row.queryId = id → (row ∈ stored'.rows ↔ row ∈ stored.rows) :=
      fun row hrow => mem_rows_commit_of_ne hcommit hread (hrow ▸ hid)
    rw [if_neg hid, ← Table.mem_keys_iff, ← hkeys, List.mem_map, List.mem_map]
    refine exists_congr fun row => and_congr_left fun hkey => ?_
    exact hrows row (Prod.mk.inj hkey).1

end Commit

/-! ## Runs -/

section Sound

variable {sha256Hex : Sha256Hex} {s t : Findings} {i : Nat} {c : SyncCall} {queryId : String}

/-- No call of the query has finished, and what calls of it have read is what is stored. -/
structure Untouched (s : Findings) (queryId : String) : Prop where
  unfinished : ∀ i c, s.calls i = some c → c.queryId = queryId → c.stage ≠ .finished
  read : ∀ i c existing, s.calls i = some c → c.queryId = queryId → c.stage = .read existing →
    ∀ row : StoredRow, row.queryId = queryId → (row ∈ existing ↔ row ∈ s.stored.rows)

structure Sound (s : Findings) : Prop where
  unfailed : ∀ i c, s.calls i = some c → c.stage ≠ .failed
  read : ∀ i c existing, s.calls i = some c → c.stage = .read existing →
    ∀ row ∈ existing, row.queryId = c.queryId
  settled : ∀ queryId, s.Settled queryId ∨ Untouched s queryId

theorem sound_start (findings : Table FlaggedRow.key) : Sound (start findings) where
  unfailed := nofun
  read := nofun
  settled _ := .inr ⟨nofun, nofun⟩

theorem calls_put (s : Findings) (i : Nat) (c : SyncCall) (j : Nat) :
    (s.put i c).calls j = if j = i then some c else s.calls j :=
  Function.update_apply ..

/-- What is settled stays so while the calls that have finished stay. -/
theorem Findings.Settled.mono (h : s.Settled queryId)
    (hcalls : ∀ j d, s.calls j = some d → d.stage = .finished → t.calls j = some d)
    (hstored : ∀ f, t.Stores queryId f ↔ s.Stores queryId f) : t.Settled queryId := by
  obtain ⟨j, d, hd, hquery, hfinished, hsame⟩ := h
  exact ⟨j, d, hcalls j d hd hfinished, hquery, hfinished, fun f => (hstored f).trans (hsame f)⟩

/-- A call that has not finished goes on. -/
theorem finished_put (hi : ∀ c, s.calls i = some c → c.stage ≠ .finished) {next : SyncCall} :
    ∀ j d, s.calls j = some d → d.stage = .finished → (s.put i next).calls j = some d := by
  intro j d hd hfinished
  have hji : j ≠ i := by
    rintro rfl
    exact hi d hd hfinished
  rw [calls_put, if_neg hji, hd]

/-- Nothing is written. -/
theorem Sound.put (h : Sound s) (hi : ∀ c, s.calls i = some c → c.stage ≠ .finished)
    {next : SyncCall} (hunfailed : next.stage ≠ .failed) (hunfinished : next.stage ≠ .finished)
    (hread : ∀ existing, next.stage = .read existing →
      existing = s.stored.rows.filter fun row => row.queryId = next.queryId) :
    Sound (s.put i next) := by
  refine ⟨?_, ?_, ?_⟩
  · intro j d hd
    rw [calls_put] at hd
    split at hd
    · exact Option.some.inj hd ▸ hunfailed
    · exact h.unfailed j d hd
  · intro j d existing hd hstage row hrow
    rw [calls_put] at hd
    split at hd
    · obtain rfl := Option.some.inj hd
      rw [hread existing hstage] at hrow
      exact of_decide_eq_true (List.mem_filter.mp hrow).2
    · exact h.read j d existing hd hstage row hrow
  · intro queryId
    refine (h.settled queryId).imp (fun hsettled => ?_) fun huntouched => ⟨?_, ?_⟩
    · exact hsettled.mono (finished_put hi) fun f => Iff.rfl
    · intro j d hd hquery
      rw [calls_put] at hd
      split at hd
      · exact Option.some.inj hd ▸ hunfinished
      · exact huntouched.unfinished j d hd hquery
    · intro j d existing hd hquery hstage row hrow
      rw [calls_put] at hd
      split at hd
      · obtain rfl := Option.some.inj hd
        rw [hread existing hstage, List.mem_filter, decide_eq_true_iff]
        exact and_iff_left (hrow.trans hquery.symm)
      · exact huntouched.read j d existing hd hquery hstage row hrow

/-- A call commits. -/
theorem Sound.commit (h : Sound s) (hi : s.calls i = some c) {existing : List StoredRow}
    (hstage : c.stage = .read existing) (hcurrent : Current s.stored c existing)
    {stored' : Table StoredRow.key} (hcommit : commit s.stored i c existing = some stored') :
    Sound ({ s with stored := stored' }.put i { c with stage := .finished }) := by
  have hread := h.read i c existing hi hstage
  have hunfinished : ∀ c', s.calls i = some c' → c'.stage ≠ .finished := by
    intro c' hc' hfinished
    obtain rfl := Option.some.inj (hi.symm.trans hc')
    rw [hstage] at hfinished
    cases hfinished
  -- the call's own matches, where it has read all there was
  have hown : (∀ row ∈ s.stored.rows, row.queryId = c.queryId →
      row.rowFingerprint ∉ c.fingerprints → row ∈ existing) →
        ({ s with stored := stored' }.put i { c with stage := .finished }).Settled c.queryId := by
    intro hall
    refine ⟨i, _, (calls_put ..).trans (if_pos rfl), rfl, rfl, fun f => ?_⟩
    exact mem_keys_commit_of_all hcommit hcurrent hread hall
  refine ⟨?_, ?_, ?_⟩
  · intro j d hd
    rw [calls_put] at hd
    split at hd
    · exact Option.some.inj hd ▸ nofun
    · exact h.unfailed j d hd
  · intro j d existing' hd hstage' row hrow
    rw [calls_put] at hd
    split at hd
    · obtain rfl := Option.some.inj hd
      cases hstage'
    · exact h.read j d existing' hd hstage' row hrow
  · intro queryId
    by_cases hquery : queryId = c.queryId
    · subst hquery
      left
      rcases hcurrent.rest with hall | ⟨hold, hgone⟩
      · exact hown hall
      · rcases h.settled c.queryId with hsettled | huntouched
        · refine hsettled.mono (finished_put (s := { s with stored := stored' }) hunfinished) ?_
          exact fun f => mem_keys_commit_of_none hcommit hcurrent hread hold hgone
        · refine hown fun row hrow hrowQuery _ => ?_
          exact (huntouched.read i c existing hi rfl hstage row hrowQuery).mpr hrow
    · have hrows : ∀ row : StoredRow, row.queryId = queryId →
          (row ∈ stored'.rows ↔ row ∈ s.stored.rows) := fun row hrow =>
        mem_rows_commit_of_ne hcommit hread (hrow ▸ hquery)
      refine (h.settled queryId).imp (fun hsettled => ?_) fun huntouched => ⟨?_, ?_⟩
      · refine hsettled.mono (finished_put (s := { s with stored := stored' }) hunfinished) ?_
        intro f
        simp only [Findings.Stores, Findings.put, List.mem_map]
        refine exists_congr fun row => and_congr_left fun hkey => ?_
        exact hrows row (Prod.mk.inj hkey).1
      · intro j d hd hdquery
        rw [calls_put] at hd
        split at hd
        · obtain rfl := Option.some.inj hd
          exact absurd hdquery.symm hquery
        · exact huntouched.unfinished j d hd hdquery
      · intro j d existing' hd hdquery hstage' row hrow
        rw [calls_put] at hd
        split at hd
        · obtain rfl := Option.some.inj hd
          exact absurd hdquery.symm hquery
        · exact (huntouched.read j d existing' hd hdquery hstage' row hrow).trans
            (hrows row hrow).symm

/-- The step lemma. -/
theorem Sound.step (h : Sound s) {a : Action} (hstep : step sha256Hex s a = some t)
    (hundisturbed : Undisturbed s a) : Sound t := by
  cases a with
  | sync i queryId columns rows outcome =>
    simp only [Syncing.step] at hstep
    split at hstep
    next hnone =>
      obtain rfl := Option.some.inj hstep
      exact h.put (fun c hc => absurd (hnone.symm.trans hc) nofun) nofun nofun nofun
    · cases hstep
  | read i =>
    simp only [Syncing.step] at hstep
    split at hstep
    · cases hstep
    next c hi =>
      split at hstep
      next hcalled =>
        obtain rfl := Option.some.inj hstep
        refine h.put ?_ nofun nofun fun existing hexisting => ?_
        · intro c' hc' hfinished
          obtain rfl := Option.some.inj (hi.symm.trans hc')
          rw [hcalled] at hfinished
          cases hfinished
        · exact (Stage.read.inj hexisting).symm
      · cases hstep
  | commit i =>
    simp only [Syncing.step] at hstep
    split at hstep
    · cases hstep
    next c hi =>
      split at hstep
      next existing hstage =>
        have hcurrent := hundisturbed c existing hi hstage
        obtain ⟨stored', hcommit⟩ := hcurrent.commit_eq (i := i) (h.read i c existing hi hstage)
        rw [hcommit] at hstep
        obtain rfl := Option.some.inj hstep
        exact h.commit hi hstage hcurrent hcommit
      · cases hstep

theorem Sound.safe (h : Sound s) : Safe s where
  unfailed := h.unfailed
  once := s.stored.nodup
  settled queryId := by
    rintro ⟨i, c, hi, hquery⟩ hall
    exact (h.settled queryId).resolve_right fun huntouched =>
      huntouched.unfinished i c hi hquery (hall i c hi hquery)

/-- **Syncs at the same time are safe** as long as every commit comes upon what its call
has read. -/
theorem safe_of_run {findings : Table FlaggedRow.key} {as : List Action}
    (h : Run (Syncing.step sha256Hex) Undisturbed (start findings) as s) : Safe s :=
  (h.invariant (fun _ _ _ hs hstep hok => hs.step hstep hok) (sound_start findings)).safe

end Sound

namespace Sample

/-- A run of one row, which is flagged. -/
def flags : Flags := ⟨1, [⟨0, ["r"], some "0f"⟩], [⟨"r", "Large", .high, 1⟩], []⟩

/-- Two calls that have both looked before either has stored the finding. -/
def twoRuns : List Action :=
  [.sync 0 "q" ["amount"] [[.int 900]] flags, .sync 1 "q" ["amount"] [[.int 900]] flags, .read 0,
    .read 1, .commit 0, .commit 1]

/-- A run of two rows, both of them flagged. -/
def moreFlags : Flags :=
  ⟨2, [⟨0, ["r"], some "0f"⟩, ⟨1, ["r"], some "1f"⟩], [⟨"r", "Large", .high, 2⟩], []⟩

/-- Two calls look when a finding is stored. The first stores another one before the second, which
has nothing to add or to take away, commits. -/
def overlap : List Action :=
  [.sync 2 "q" ["amount"] [[.int 900]] flags, .read 2, .commit 2,
    .sync 0 "q" ["amount"] [[.int 900], [.int 901]] moreFlags,
    .sync 1 "q" ["amount"] [[.int 900]] flags, .read 0, .read 1, .commit 0, .commit 1]

end Sample

/-- The second call comes to insert a finding that is there. -/
theorem second_sync_fails :
    ∃ s, Run (step fun _ => "") Always (start .empty) Sample.twoRuns s ∧ ¬ Safe s := by
  have hexec : (exec (step fun _ => "") (start .empty) Sample.twoRuns).any (fun s =>
      (s.calls 1).any fun c => c.stage = .failed) = true := by decide
  obtain ⟨s, hrun, hfailed⟩ := exists_run_of_exec_any hexec
  refine ⟨s, hrun, fun hsafe => ?_⟩
  obtain ⟨c, hc, hstage⟩ := (Option.any_eq_true _ _).mp hfailed
  exact hsafe.unfailed 1 c hc (of_decide_eq_true hstage)

theorem safe_of_run_overlap :
    ∃ s, Run (step fun _ => "") Undisturbed (start .empty) Sample.overlap s ∧ Safe s := by
  have hrun : ∃ s, Run (step fun _ => "") Undisturbed (start .empty) Sample.overlap s :=
    ⟨_, run_of_exec_checked rfl⟩
  obtain ⟨s, hrun⟩ := hrun
  exact ⟨s, hrun, safe_of_run hrun⟩

end FraudAnalyzer.FlagRules.Syncing
