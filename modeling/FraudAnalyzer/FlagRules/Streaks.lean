import FraudAnalyzer.FlagRules.FlaggedRows
import FraudAnalyzer.FlagRules.Relabel
import FraudAnalyzer.Lib.Run
import Mathlib.Data.List.Forall2

/-!
# What the stored findings say of the runs

A history of calls of `sync` and `delete_rows` on any queries. After a `sync` the rows of its query
are the flagged rows of its run (`mirrors_of_run`), and a row that stays keeps the time at which it
began to: `streak` reads that time off the history alone.
-/

namespace FraudAnalyzer.FlagRules

open Python Policy FraudAnalyzer.Lists Machine

/-! ## The worst severity -/

/-- A severity of the list that none exceeds. -/
structure IsWorst (severities : List FlagSeverity) (severity : FlagSeverity) : Prop where
  mem : severity ∈ severities
  le : ∀ other ∈ severities, other.order ≤ severity.order

theorem isWorst_worst {severities : List FlagSeverity} (h : severities ≠ []) :
    IsWorst severities (worst severities) :=
  ⟨worst_mem h, fun _ => order_le_worst⟩

/-! ## The flagged rows of an outcome -/

section Outcome

variable {u : Unicode} {sha256Hex : Sha256Hex} {lists : String → Option (List String)}
  {columns : List String}

/-- The enabled rules that can be used. -/
def usableRules (u : Unicode) (lists : String → Option (List String)) (rules : List FlagRule)
    (columns : List String) : List (RuleSpec × Resolved columns) :=
  (((specsFromModels u lists rules).filter RuleSpec.enabled).map (classify u columns)).filterMap
    Sum.getRight?

/-- A flagged row of an outcome: its place, its rules and its fingerprint. -/
theorem entry_of_mem {rules : List FlagRule} {rows : List (Row columns)} {entry : FlaggedEntry}
    (h : entry ∈ (evaluateFlags u sha256Hex lists rules columns rows).rows) :
    ∃ row, rows[entry.index]? = some row ∧
      entry.ruleIds = hitIds u (usableRules u lists rules columns) row ∧ entry.ruleIds ≠ [] ∧
      entry.fingerprint = some (rowFingerprint sha256Hex row.val) := by
  unfold evaluateFlags at h
  split at h
  · cases h
  · obtain ⟨flagged, hflagged, rfl⟩ := List.mem_map.mp h
    obtain ⟨i, row, hrow, hindex, hids, hne⟩ := mem_scanRows.mp hflagged
    have hat : rows[flagged.index]? = some row := by
      rw [hindex, Nat.zero_add]
      exact hrow
    refine ⟨row, hat, hids, hne, ?_⟩
    simp only [hat]
    rfl

/-- A rule that an outcome names is one of the rules. -/
theorem rule_of_mem {rules : List FlagRule} {rows : List (Row columns)} {ruleHit : RuleHit}
    (h : ruleHit ∈ (evaluateFlags u sha256Hex lists rules columns rows).rules) :
    ∃ rule ∈ rules, rule.id = ruleHit.id ∧ rule.name = ruleHit.name ∧
      rule.severity = ruleHit.severity := by
  unfold evaluateFlags at h
  split at h
  · cases h
  have hspec : ∃ spec ∈ specsFromModels u lists rules, ∃ matched, ruleHit = hit spec matched := by
    rcases List.mem_append.mp h with hrefused | husable
    · obtain ⟨pair, hpair, rfl⟩ := List.mem_map.mp hrefused
      obtain ⟨classified, hclassified, hleft⟩ := List.mem_filterMap.mp hpair
      obtain ⟨spec, hspec, rfl⟩ := List.mem_map.mp hclassified
      exact ⟨spec, (List.mem_filter.mp hspec).1, 0,
        hit_of_classify (Sum.getLeft?_eq_some_iff.mp hleft)⟩
    · obtain ⟨r, hr, rfl⟩ := List.mem_map.mp husable
      obtain ⟨classified, hclassified, hright⟩ := List.mem_filterMap.mp hr
      obtain ⟨spec, hspec, rfl⟩ := List.mem_map.mp hclassified
      obtain rfl := rule_of_classify (Sum.getRight?_eq_some_iff.mp hright)
      exact ⟨r.1, (List.mem_filter.mp hspec).1, _, rfl⟩
  obtain ⟨spec, hmem, matched, rfl⟩ := hspec
  obtain ⟨rule, hrule, rfl⟩ := List.mem_map.mp hmem
  exact ⟨rule, (sortedBy_perm _ rules).mem_iff.mp hrule, rfl, rfl, rfl⟩

/-- An outcome names the rules of its flagged rows. -/
theorem rule_of_entry {rules : List FlagRule} {rows : List (Row columns)} {entry : FlaggedEntry}
    {id : String} (h : entry ∈ (evaluateFlags u sha256Hex lists rules columns rows).rows)
    (hid : id ∈ entry.ruleIds) :
    ∃ ruleHit ∈ (evaluateFlags u sha256Hex lists rules columns rows).rules, ruleHit.id = id := by
  obtain ⟨row, -, hids, -, -⟩ := entry_of_mem h
  rw [hids] at hid
  obtain ⟨r, hr, rfl⟩ := List.mem_map.mp (mem_hitIds hid)
  have hrules : rules ≠ [] := by
    rintro rfl
    exact absurd h List.not_mem_nil
  unfold evaluateFlags
  rw [if_neg hrules]
  exact ⟨_, List.mem_append_right _ (List.mem_map_of_mem hr), rfl⟩

end Outcome

/-! ## Runs and the store -/

/-- A call of `sync`: the rows of a run of the query, judged by its rules. -/
structure SyncRun where
  queryId : String
  lists : String → Option (List String)
  rules : Table FlagRule.id
  columns : List String
  rows : List (Row columns)
  now : Instant

inductive StoreAction where
  | sync (r : SyncRun)
  | deleteRows (queryId : String) (fingerprints : Option (List String))

namespace SyncRun

variable (u : Unicode) (sha256Hex : Sha256Hex) (r : SyncRun)

def outcome : Flags := evaluateFlags u sha256Hex r.lists r.rules.rows r.columns r.rows

def cells : List (List Cell) := r.rows.map fun row => row.val

def matched : OrderedDict String Found :=
  matchedBy sha256Hex r.columns r.cells (r.outcome u sha256Hex)

def apply (stored : Table FlaggedRow.key) : Table FlaggedRow.key × Nat :=
  FlagRules.sync sha256Hex stored r.queryId r.columns r.cells (r.outcome u sha256Hex) r.now

/-- The fingerprints of the flagged rows. -/
def fingerprints : List String :=
  (r.outcome u sha256Hex).rows.filterMap fun entry =>
    r.rows[entry.index]?.map fun row => rowFingerprint sha256Hex row.val

/-- Rows of the run with one fingerprint are one row. -/
def CollisionFree : Prop :=
  ∀ row ∈ r.rows, ∀ row' ∈ r.rows,
    rowFingerprint sha256Hex row.val = rowFingerprint sha256Hex row'.val → row = row'

end SyncRun

/-- One call. -/
def change (u : Unicode) (sha256Hex : Sha256Hex) (stored : Table FlaggedRow.key) :
    StoreAction → Option (Table FlaggedRow.key)
  | .sync r => some (r.apply u sha256Hex stored).1
  | .deleteRows queryId fingerprints => some (deleteRows stored queryId fingerprints).1

/-- When the unbroken streak of a fingerprint among the matches of a query began, by the calls so
far, the latest first. -/
def streak (u : Unicode) (sha256Hex : Sha256Hex) (queryId fingerprint : String) :
    List StoreAction → Option Instant
  | [] => none
  | .sync r :: earlier =>
    if r.queryId = queryId then
      if fingerprint ∈ r.fingerprints u sha256Hex then
        some ((streak u sha256Hex queryId fingerprint earlier).getD r.now)
      else none
    else streak u sha256Hex queryId fingerprint earlier
  | .deleteRows id fingerprints :: earlier =>
    if id = queryId ∧ ∀ fs ∈ fingerprints, fingerprint ∈ fs then none
    else streak u sha256Hex queryId fingerprint earlier

section Store

variable {u : Unicode} {sha256Hex : Sha256Hex} {r : SyncRun}

namespace SyncRun

theorem mem_fingerprints {fingerprint : String} :
    fingerprint ∈ r.fingerprints u sha256Hex ↔
      ∃ entry ∈ (r.outcome u sha256Hex).rows, ∃ row, r.rows[entry.index]? = some row ∧
        rowFingerprint sha256Hex row.val = fingerprint := by
  simp only [fingerprints, List.mem_filterMap, Option.map_eq_some_iff]

/-- The row of an entry of the outcome, and its fingerprint. -/
theorem cells_of_entry {entry : FlaggedEntry} {row : Row r.columns}
    (hentry : entry ∈ (r.outcome u sha256Hex).rows) (hrow : r.rows[entry.index]? = some row) :
    r.cells[entry.index]? = some row.val ∧
      fingerprintOr sha256Hex entry row.val = rowFingerprint sha256Hex row.val := by
  refine ⟨?_, ?_⟩
  · rw [cells, List.getElem?_map, hrow]
    rfl
  · obtain ⟨row', hrow', -, -, hfingerprint⟩ := entry_of_mem hentry
    obtain rfl : row = row' := Option.some.inj (hrow.symm.trans hrow')
    unfold fingerprintOr
    rw [hfingerprint]
    simp

/-- A match is one of the flagged rows. -/
theorem entry_of_matched {fingerprint : String} {found : Found}
    (h : (r.matched u sha256Hex).get fingerprint = some found) :
    ∃ entry ∈ (r.outcome u sha256Hex).rows, ∃ row, r.rows[entry.index]? = some row ∧
      rowFingerprint sha256Hex row.val = fingerprint ∧
      found = foundIn (r.outcome u sha256Hex).rules r.columns row.val entry.ruleIds := by
  obtain ⟨entry, hentry, values, hvalues, hfingerprint, hfound⟩ := exists_of_matchedBy h
  obtain ⟨row, hrow, -, -, -⟩ := entry_of_mem hentry
  obtain ⟨hcells, hown⟩ := cells_of_entry hentry hrow
  obtain rfl := Option.some.inj (hvalues.symm.trans hcells)
  exact ⟨entry, hentry, row, hrow, hown.symm.trans hfingerprint, hfound⟩

/-- The matches are those of the flagged rows. -/
theorem isSome_matched {fingerprint : String} :
    ((r.matched u sha256Hex).get fingerprint).isSome = true ↔
      fingerprint ∈ r.fingerprints u sha256Hex := by
  rw [mem_fingerprints]
  constructor
  · intro h
    obtain ⟨found, hfound⟩ := Option.isSome_iff_exists.mp h
    obtain ⟨entry, hentry, row, hrow, hfingerprint, -⟩ := entry_of_matched hfound
    exact ⟨entry, hentry, row, hrow, hfingerprint⟩
  · rintro ⟨entry, hentry, row, hrow, rfl⟩
    obtain ⟨hcells, hown⟩ := cells_of_entry hentry hrow
    exact hown ▸ isSome_get_matchedBy hentry hcells

/-- Without collisions each flagged row is a match with its own rules. -/
theorem matched_entry (hfree : r.CollisionFree sha256Hex) {entry : FlaggedEntry}
    (hentry : entry ∈ (r.outcome u sha256Hex).rows) {row : Row r.columns}
    (hrow : r.rows[entry.index]? = some row) :
    (r.matched u sha256Hex).get (rowFingerprint sha256Hex row.val) =
      some (foundIn (r.outcome u sha256Hex).rules r.columns row.val entry.ruleIds) := by
  have hsome : ((r.matched u sha256Hex).get (rowFingerprint sha256Hex row.val)).isSome = true :=
    isSome_matched.mpr (mem_fingerprints.mpr ⟨entry, hentry, row, hrow, rfl⟩)
  obtain ⟨found, hfound⟩ := Option.isSome_iff_exists.mp hsome
  obtain ⟨entry', hentry', row', hrow', hsame, rfl⟩ := entry_of_matched hfound
  obtain rfl : row' = row :=
    hfree row' (List.mem_of_getElem? hrow') row (List.mem_of_getElem? hrow) hsame
  -- the same row is matched by the same rules
  have hids : entry'.ruleIds = entry.ruleIds := by
    obtain ⟨row₁, hrow₁, hids₁, -, -⟩ := entry_of_mem hentry
    obtain ⟨row₂, hrow₂, hids₂, -, -⟩ := entry_of_mem hentry'
    obtain rfl := Option.some.inj (hrow₁.symm.trans hrow)
    obtain rfl := Option.some.inj (hrow₂.symm.trans hrow')
    rw [hids₁, hids₂]
  rw [hfound, hids]

/-- The rule a flagged row names, in the outcome and among the rules of the query. -/
theorem rule_of_id {entry : FlaggedEntry} {id : String}
    (hentry : entry ∈ (r.outcome u sha256Hex).rows) (hid : id ∈ entry.ruleIds) :
    ∃ ruleHit rule, ruleWithId (r.outcome u sha256Hex).rules id = some ruleHit ∧
      r.rules.get id = some rule ∧ rule.name = ruleHit.name ∧ rule.severity = ruleHit.severity := by
  obtain ⟨named, hnamed, hnamedId⟩ := rule_of_entry hentry hid
  have hsome : (ruleWithId (r.outcome u sha256Hex).rules id).isSome = true := by
    rw [ruleWithId, List.find?_isSome]
    exact ⟨named, List.mem_reverse.mpr hnamed, by simpa using hnamedId⟩
  obtain ⟨ruleHit, hhit⟩ := Option.isSome_iff_exists.mp hsome
  have hmem : ruleHit ∈ (r.outcome u sha256Hex).rules :=
    List.mem_reverse.mp (List.mem_of_find?_eq_some hhit)
  have hhitId : ruleHit.id = id := by simpa using List.find?_some hhit
  obtain ⟨rule, hrule, hruleId, hname, hseverity⟩ := rule_of_mem hmem
  refine ⟨ruleHit, rule, hhit, ?_, hname, hseverity⟩
  rw [← hhitId, ← hruleId]
  exact Table.get_of_mem hrule

/-- What a match says of the rules of a flagged row is what the query has of them. -/
theorem filterMap_ruleWithId {β : Type} {entry : FlaggedEntry}
    (hentry : entry ∈ (r.outcome u sha256Hex).rows) (ofHit : RuleHit → β) (ofRule : FlagRule → β)
    (hsame : ∀ rule ruleHit, rule.name = ruleHit.name → rule.severity = ruleHit.severity →
      ofHit ruleHit = ofRule rule) :
    (entry.ruleIds.map fun id => (r.rules.get id).map ofRule) =
      (entry.ruleIds.filterMap fun id =>
        (ruleWithId (r.outcome u sha256Hex).rules id).map ofHit).map some := by
  have hids : ∀ id ∈ entry.ruleIds, ∃ value,
      (ruleWithId (r.outcome u sha256Hex).rules id).map ofHit = some value ∧
        (r.rules.get id).map ofRule = some value := by
    intro id hid
    obtain ⟨ruleHit, rule, hhit, hrule, hname, hseverity⟩ := rule_of_id hentry hid
    refine ⟨ofHit ruleHit, by rw [hhit]; rfl, ?_⟩
    rw [hrule, hsame rule ruleHit hname hseverity]
    rfl
  revert hids
  generalize entry.ruleIds = ids
  intro hids
  induction ids with
  | nil => rfl
  | cons id ids ih =>
    obtain ⟨value, hhit, hrule⟩ := hids id List.mem_cons_self
    rw [List.map_cons, List.filterMap_cons, hhit, hrule, List.map_cons,
      ih fun id' hid' => hids id' (List.mem_cons_of_mem _ hid')]

end SyncRun

/-! ## One call of `sync` -/

variable {stored : Table FlaggedRow.key}

theorem get_apply (queryId fingerprint : String) :
    (r.apply u sha256Hex stored).1.get (queryId, fingerprint) =
      if queryId = r.queryId then
        ((r.matched u sha256Hex).get fingerprint).map fun found =>
          { found.row queryId fingerprint r.now with
            firstSeenAt :=
              ((stored.get (queryId, fingerprint)).map FlaggedRow.firstSeenAt).getD r.now }
      else stored.get (queryId, fingerprint) :=
  get_sync queryId fingerprint

theorem get_apply_own (fingerprint : String) :
    (r.apply u sha256Hex stored).1.get (r.queryId, fingerprint) =
      ((r.matched u sha256Hex).get fingerprint).map fun found =>
        { found.row r.queryId fingerprint r.now with
          firstSeenAt :=
            ((stored.get (r.queryId, fingerprint)).map FlaggedRow.firstSeenAt).getD r.now } := by
  rw [get_apply, if_pos rfl]

theorem exists_get_apply (fingerprint : String) :
    (∃ row, (r.apply u sha256Hex stored).1.get (r.queryId, fingerprint) = some row) ↔
      fingerprint ∈ r.fingerprints u sha256Hex := by
  rw [← SyncRun.isSome_matched, ← Option.isSome_iff_exists, get_apply_own, Option.isSome_map]

/-- The rows of one query, as many as fingerprints are stored for it. -/
theorem nodup_fingerprints (stored : Table FlaggedRow.key) (queryId : String) :
    ((stored.rows.filter fun row =>
      row.queryId = queryId).map FlaggedRow.rowFingerprint).Nodup := by
  have hkeys : ((stored.rows.filter fun row => row.queryId = queryId).map
      FlaggedRow.rowFingerprint).map (Prod.mk queryId) =
      (stored.rows.filter fun row => row.queryId = queryId).map FlaggedRow.key := by
    rw [List.map_map]
    refine List.map_congr_left fun row hrow => ?_
    have hid : row.queryId = queryId := by simpa using (List.mem_filter.mp hrow).2
    rw [FlaggedRow.key, hid]
    rfl
  refine List.Nodup.of_map (Prod.mk queryId) ?_
  rw [hkeys]
  exact stored.nodup.sublist (List.filter_sublist.map _)

theorem mem_stored_fingerprints {queryId fingerprint : String} :
    fingerprint ∈
        (stored.rows.filter fun row => row.queryId = queryId).map FlaggedRow.rowFingerprint ↔
      ∃ row, stored.get (queryId, fingerprint) = some row := by
  constructor
  · intro h
    obtain ⟨row, hrow, rfl⟩ := List.mem_map.mp h
    obtain ⟨hmem, hid⟩ := List.mem_filter.mp hrow
    obtain rfl : row.queryId = queryId := by simpa using hid
    exact ⟨row, Table.get_of_mem hmem⟩
  · rintro ⟨row, hrow⟩
    obtain ⟨hmem, hkey⟩ := Table.get_iff_mem.mp hrow
    obtain ⟨rfl, rfl⟩ := Prod.mk.inj hkey
    exact List.mem_map_of_mem (List.mem_filter.mpr ⟨hmem, by simp⟩)

/-- The number `sync` returns. -/
theorem length_stored :
    ((r.apply u sha256Hex stored).1.rows.filter fun row => row.queryId = r.queryId).length =
      (r.apply u sha256Hex stored).2 := by
  have hperm : (((r.apply u sha256Hex stored).1.rows.filter fun row => row.queryId = r.queryId).map
      FlaggedRow.rowFingerprint).Perm ((r.matched u sha256Hex).entries.map Prod.fst) := by
    rw [List.perm_ext_iff_of_nodup (nodup_fingerprints _ _) (r.matched u sha256Hex).nodup]
    intro fingerprint
    rw [mem_stored_fingerprints, exists_get_apply, ← SyncRun.isSome_matched,
      OrderedDict.get_isSome_iff]
  have hlength := hperm.length_eq
  rw [List.length_map, List.length_map] at hlength
  exact hlength

/-! ## The times at which rows were first seen -/

/-- The stored rows of a history are its streaks. -/
def Seen (u : Unicode) (sha256Hex : Sha256Hex) (history : List StoreAction)
    (stored : Table FlaggedRow.key) : Prop :=
  ∀ queryId fingerprint,
    (stored.get (queryId, fingerprint)).map FlaggedRow.firstSeenAt =
      streak u sha256Hex queryId fingerprint history

theorem Seen.step {history : List StoreAction} {stored' : Table FlaggedRow.key} {a : StoreAction}
    (hseen : Seen u sha256Hex history stored) (h : change u sha256Hex stored a = some stored') :
    Seen u sha256Hex (a :: history) stored' := by
  intro queryId fingerprint
  cases a with
  | sync r =>
    obtain rfl := Option.some.inj h
    rw [get_apply]
    by_cases hid : queryId = r.queryId
    · subst hid
      rw [if_pos rfl, streak, if_pos rfl, hseen]
      by_cases hmatched : fingerprint ∈ r.fingerprints u sha256Hex
      · obtain ⟨found, hfound⟩ := Option.isSome_iff_exists.mp (SyncRun.isSome_matched.mpr hmatched)
        rw [if_pos hmatched, hfound]
        rfl
      · have hnone : (r.matched u sha256Hex).get fingerprint = none := by
          by_contra hsome
          exact hmatched (SyncRun.isSome_matched.mp (Option.isSome_iff_ne_none.mpr hsome))
        rw [if_neg hmatched, hnone]
        rfl
    · rw [if_neg hid, streak, if_neg (Ne.symm hid), hseen]
  | deleteRows id fingerprints =>
    obtain rfl := Option.some.inj h
    rw [get_deleteRows, streak]
    by_cases hgone : queryId = id ∧ ∀ fs ∈ fingerprints, fingerprint ∈ fs
    · rw [if_pos hgone, if_pos ⟨hgone.1.symm, hgone.2⟩]
      rfl
    · rw [if_neg hgone, if_neg fun hsame => hgone ⟨hsame.1.symm, hsame.2⟩, hseen]

theorem Seen.run {history as : List StoreAction} {stored' : Table FlaggedRow.key}
    (hseen : Seen u sha256Hex history stored)
    (h : Run (change u sha256Hex) Always stored as stored') :
    Seen u sha256Hex (as.reverse ++ history) stored' := by
  induction h generalizing history with
  | nil _ => exact hseen
  | cons hs _ _ ih =>
    rw [List.reverse_cons, List.append_assoc]
    exact ih (hseen.step hs)

end Store

/-! ## The store and the last run -/

/-- The same run once more. -/
def SyncRun.rerun (r : SyncRun) (now : Instant) : SyncRun := { r with now := now }

/-- A stored row has what the run found of a flagged row. -/
structure StoredAs (r : SyncRun) (entry : FlaggedEntry) (cells : Row r.columns) (row : FlaggedRow) :
    Prop where
  values : row.values = cells.val
  columns : row.columns = r.columns
  ruleIds : row.ruleIds = entry.ruleIds
  ruleNames : entry.ruleIds.map (fun id => (r.rules.get id).map FlagRule.name) =
    row.ruleNames.map some
  severity : IsWorst (entry.ruleIds.filterMap fun id => (r.rules.get id).map FlagRule.severity)
    row.severity

/-- `after` and `count` are what a `sync` of the run makes of `before`, the table that the calls
of `history` have led to. -/
structure Mirrors (u : Unicode) (sha256Hex : Sha256Hex) (history : List StoreAction)
    (before after : Table FlaggedRow.key) (r : SyncRun) (count : Nat) : Prop where
  /-- The stored fingerprints of the query are those of the flagged rows. -/
  stored : ∀ fingerprint, (∃ row, after.get (r.queryId, fingerprint) = some row) ↔
    fingerprint ∈ r.fingerprints u sha256Hex
  rows : ∀ entry ∈ (r.outcome u sha256Hex).rows, ∀ cells, r.rows[entry.index]? = some cells →
    ∃ row, after.get (r.queryId, rowFingerprint sha256Hex cells.val) = some row ∧
      StoredAs r entry cells row
  seen : ∀ fingerprint row, after.get (r.queryId, fingerprint) = some row →
    streak u sha256Hex r.queryId fingerprint (.sync r :: history) = some row.firstSeenAt ∧
      row.lastSeenAt = r.now
  size : (after.rows.filter fun row => row.queryId = r.queryId).length = count
  others : ∀ id fingerprint, id ≠ r.queryId →
    after.get (id, fingerprint) = before.get (id, fingerprint)
  again : ∀ now, ((r.rerun now).apply u sha256Hex after).2 = count ∧
    ∀ id fingerprint, ((r.rerun now).apply u sha256Hex after).1.get (id, fingerprint) =
      (after.get (id, fingerprint)).map fun row =>
        if row.queryId = r.queryId then { row with lastSeenAt := now } else row

section Mirrors

variable {u : Unicode} {sha256Hex : Sha256Hex} {r : SyncRun} {before : Table FlaggedRow.key}

/-- A flagged row is stored as what it is. -/
theorem storedAs_apply (hfree : r.CollisionFree sha256Hex) {entry : FlaggedEntry}
    (hentry : entry ∈ (r.outcome u sha256Hex).rows) {cells : Row r.columns}
    (hcells : r.rows[entry.index]? = some cells) :
    ∃ row, (r.apply u sha256Hex before).1.get (r.queryId, rowFingerprint sha256Hex cells.val) =
      some row ∧ StoredAs r entry cells row := by
  rw [get_apply_own, SyncRun.matched_entry hfree hentry hcells]
  refine ⟨_, rfl, ⟨rfl, rfl, rfl, ?_, ?_⟩⟩
  · exact SyncRun.filterMap_ruleWithId hentry _ _ fun _ _ hname _ => hname.symm
  · have hseverities := SyncRun.filterMap_ruleWithId hentry RuleHit.severity FlagRule.severity
      fun _ _ _ hseverity => hseverity.symm
    have hown := congrArg (List.filterMap id) hseverities
    rw [List.filterMap_map, List.filterMap_map, Function.id_comp, Function.id_comp,
      List.filterMap_some] at hown
    rw [hown]
    refine isWorst_worst ?_
    intro hempty
    obtain ⟨_, _, _, hne, _⟩ := entry_of_mem hentry
    have hlength := congrArg List.length hseverities
    rw [hempty] at hlength
    simp only [List.length_map, List.map_nil, List.length_nil] at hlength
    exact hne (List.eq_nil_of_length_eq_zero hlength)

/-- Once more the same rows match, and each keeps the time it has. -/
theorem get_rerun (now : Instant) (id fingerprint : String) :
    ((r.rerun now).apply u sha256Hex (r.apply u sha256Hex before).1).1.get (id, fingerprint) =
      ((r.apply u sha256Hex before).1.get (id, fingerprint)).map fun row =>
        if row.queryId = r.queryId then { row with lastSeenAt := now } else row := by
  have hqueryId : (r.rerun now).queryId = r.queryId := rfl
  have hmatched : (r.rerun now).matched u sha256Hex = r.matched u sha256Hex := rfl
  rw [get_apply, hqueryId]
  by_cases hid : id = r.queryId
  · subst hid
    rw [if_pos rfl, hmatched, get_apply_own]
    cases (r.matched u sha256Hex).get fingerprint with
    | none => rfl
    | some found =>
      simp [Found.row]
      rfl
  · rw [if_neg hid]
    cases hget : (r.apply u sha256Hex before).1.get (id, fingerprint) with
    | none => rfl
    | some row =>
      have hkey : row.key = (id, fingerprint) := Table.key_of_get hget
      rw [Option.map_some, if_neg]
      rwa [(Prod.mk.inj hkey).1]

/-- **After each `sync`** the stored findings of the query are the flagged rows of its run, each
seen since its streak began. -/
theorem mirrors_of_run {as : List StoreAction}
    (h : Run (change u sha256Hex) Always .empty as before) (hfree : r.CollisionFree sha256Hex) :
    Mirrors u sha256Hex as.reverse before (r.apply u sha256Hex before).1 r
      (r.apply u sha256Hex before).2 where
  stored := exists_get_apply
  rows _ hentry _ hcells := storedAs_apply hfree hentry hcells
  seen fingerprint row hrow := by
    have hseen : Seen u sha256Hex as.reverse before := by
      have hstart : Seen u sha256Hex [] .empty := fun _ _ => rfl
      simpa using hstart.run h
    have hafter := hseen.step (a := .sync r) rfl r.queryId fingerprint
    rw [hrow] at hafter
    refine ⟨hafter.symm, ?_⟩
    rw [get_apply_own] at hrow
    obtain ⟨found, -, rfl⟩ := Option.map_eq_some_iff.mp hrow
    rfl
  size := length_stored
  others id fingerprint hid := by rw [get_apply, if_neg hid]
  again now := ⟨rfl, get_rerun now⟩

end Mirrors

namespace Sample

/-- A run that finds one amount twice. -/
def twice (now : Instant) : SyncRun where
  queryId := "q"
  lists _ := none
  rules := ⟨[⟨"r", "q", "Large", .high, true, 0, [⟨0, "amount", .gt, some "500", none, none⟩]⟩],
    by simp⟩
  columns := ["amount"]
  rows := [.single (.int 900), .single (.int 900)]
  now := now

theorem collisionFree_twice (now : Instant) : (twice now).CollisionFree bytesDigest := by
  intro row hrow row' hrow' _
  have hone : ∀ x ∈ (twice now).rows, x = .single (.int 900) := by
    intro x hx
    rcases List.mem_cons.mp hx with rfl | hx
    · rfl
    · exact List.mem_singleton.mp hx
  rw [hone row hrow, hone row' hrow']

end Sample

/-- The same row again, after its finding was deleted. -/
theorem mirrors_of_run_again :
    ∃ before, Run (change .ascii bytesDigest) Always .empty
        [.sync (Sample.twice 1), .deleteRows "q" none] before ∧
      Mirrors .ascii bytesDigest [.deleteRows "q" none, .sync (Sample.twice 1)] before
        ((Sample.twice 2).apply .ascii bytesDigest before).1 (Sample.twice 2)
        ((Sample.twice 2).apply .ascii bytesDigest before).2 := by
  have hrun : ∃ before, Run (change .ascii bytesDigest) Always .empty
      [.sync (Sample.twice 1), .deleteRows "q" none] before := ⟨_, run_of_exec rfl⟩
  obtain ⟨before, hrun⟩ := hrun
  exact ⟨before, hrun, mirrors_of_run hrun (Sample.collisionFree_twice 2)⟩

end FraudAnalyzer.FlagRules
