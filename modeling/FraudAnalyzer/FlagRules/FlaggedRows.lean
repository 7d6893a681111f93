import FraudAnalyzer.FlagRules.Outcome
import FraudAnalyzer.Lib.OrderedDict

/-!
# Stored findings

`app/features/flag_rules/flagged_rows.py`, as far as it writes: `sync` after a run of a query, and
`delete_rows`. A finding is stored once for each query and fingerprint, which is the key of the
table. Each function is one transaction.
-/

namespace FraudAnalyzer.FlagRules

open Python Policy

structure FlaggedRow where
  queryId : String
  rowFingerprint : String
  values : List Cell
  columns : List String
  ruleIds : List String
  ruleNames : List String
  severity : FlagSeverity
  firstSeenAt : Instant
  lastSeenAt : Instant

def FlaggedRow.key (row : FlaggedRow) : String × String := (row.queryId, row.rowFingerprint)

/-- `_worst` -/
def worst (severities : List FlagSeverity) : FlagSeverity :=
  severities.foldl (fun best candidate => if best.order < candidate.order then candidate else best)
    .low

/-- What a run says of a flagged row. -/
structure Found where
  values : List Cell
  columns : List String
  ruleIds : List String
  ruleNames : List String
  severity : FlagSeverity

/-- `rule_names` and `rule_severities`: of two rules with one id the dictionaries have the later. -/
def ruleWithId (rules : List RuleHit) (id : String) : Option RuleHit :=
  rules.reverse.find? fun rule => rule.id = id

def foundIn (rules : List RuleHit) (columns : List String) (values : List Cell)
    (ids : List String) : Found where
  values := values
  columns := columns
  ruleIds := ids
  ruleNames := ids.filterMap fun id => (ruleWithId rules id).map RuleHit.name
  severity := worst (ids.filterMap fun id => (ruleWithId rules id).map RuleHit.severity)

/-- `flagged.get("fingerprint") or row_fingerprint(values)` -/
def fingerprintOr (sha256Hex : Sha256Hex) (flagged : FlaggedEntry) (values : List Cell) : String :=
  match flagged.fingerprint with
  | none => rowFingerprint sha256Hex values
  | some fingerprint => if fingerprint = "" then rowFingerprint sha256Hex values else fingerprint

/-- One turn of the loop of `sync` that fills `matched`. -/
def noteMatch (sha256Hex : Sha256Hex) (columns : List String) (rows : List (List Cell))
    (rules : List RuleHit) (matched : OrderedDict String Found) (flagged : FlaggedEntry) :
    OrderedDict String Found :=
  match rows[flagged.index]? with
  | none => matched
  | some values =>
    matched.assign (fingerprintOr sha256Hex flagged values)
      (foundIn rules columns values flagged.ruleIds)

/-- `matched` -/
def matchedBy (sha256Hex : Sha256Hex) (columns : List String) (rows : List (List Cell))
    (outcome : Flags) : OrderedDict String Found :=
  outcome.rows.foldl (noteMatch sha256Hex columns rows outcome.rules) .empty

/-! ## The worst severity -/

section Worst

variable {severities : List FlagSeverity} {severity : FlagSeverity}

theorem worst_concat (l : List FlagSeverity) (s : FlagSeverity) :
    worst (l ++ [s]) = if (worst l).order < s.order then s else worst l := by
  rw [worst, List.foldl_append]
  rfl

theorem order_le_worst (h : severity ∈ severities) : severity.order ≤ (worst severities).order := by
  induction severities using List.reverseRecOn with
  | nil => cases h
  | append_singleton l s ih =>
    rw [worst_concat]
    rcases List.mem_append.mp h with hold | hnew
    · have hle := ih hold
      split
      · omega
      · exact hle
    · rw [List.mem_singleton.mp hnew]
      split
      · exact le_refl _
      · omega

theorem worst_mem (h : severities ≠ []) : worst severities ∈ severities := by
  induction severities using List.reverseRecOn with
  | nil => exact absurd rfl h
  | append_singleton l s ih =>
    rw [worst_concat]
    split
    · exact List.mem_append_right _ List.mem_cons_self
    next hle =>
      by_cases hl : l = []
      · -- a severity that is not worse than `low` is `low`
        subst hl
        cases s with
        | low => exact List.mem_cons_self
        | medium => exact absurd (by decide) hle
        | high => exact absurd (by decide) hle
      · exact List.mem_append_left _ (ih hl)

end Worst

/-! ## What matched -/

section Matched

variable {sha256Hex : Sha256Hex} {columns : List String} {cells : List (List Cell)}
  {outcome : Flags} {fingerprint : String}

theorem get_noteMatch (rules : List RuleHit) (matched : OrderedDict String Found)
    (flagged : FlaggedEntry) :
    (noteMatch sha256Hex columns cells rules matched flagged).get fingerprint =
      match cells[flagged.index]? with
      | none => matched.get fingerprint
      | some values =>
        if fingerprint = fingerprintOr sha256Hex flagged values then
          some (foundIn rules columns values flagged.ruleIds)
        else matched.get fingerprint := by
  unfold noteMatch
  split
  · rfl
  · exact OrderedDict.get_assign ..

/-- An entry of `matched` comes from a flagged row. -/
theorem exists_of_matchedBy {found : Found}
    (h : (matchedBy sha256Hex columns cells outcome).get fingerprint = some found) :
    ∃ flagged ∈ outcome.rows, ∃ values, cells[flagged.index]? = some values ∧
      fingerprintOr sha256Hex flagged values = fingerprint ∧
      found = foundIn outcome.rules columns values flagged.ruleIds := by
  unfold matchedBy at h
  generalize outcome.rows = flags at h ⊢
  induction flags using List.reverseRecOn with
  | nil => cases h
  | append_singleton flags last ih =>
    rw [List.foldl_append, List.foldl_cons, List.foldl_nil, get_noteMatch] at h
    split at h
    · obtain ⟨flagged, hflagged, hfound⟩ := ih h
      exact ⟨flagged, List.mem_append_left _ hflagged, hfound⟩
    next values hvalues =>
      split at h
      next hlast =>
        exact ⟨last, List.mem_append_right _ List.mem_cons_self, values, hvalues, hlast.symm,
          (Option.some.inj h).symm⟩
      · obtain ⟨flagged, hflagged, hfound⟩ := ih h
        exact ⟨flagged, List.mem_append_left _ hflagged, hfound⟩

/-- Each flagged row has an entry. -/
theorem isSome_get_matchedBy {flagged : FlaggedEntry} (hflagged : flagged ∈ outcome.rows)
    {values : List Cell} (hvalues : cells[flagged.index]? = some values) :
    ((matchedBy sha256Hex columns cells outcome).get
      (fingerprintOr sha256Hex flagged values)).isSome = true := by
  unfold matchedBy
  generalize outcome.rows = flags at hflagged ⊢
  induction flags using List.reverseRecOn with
  | nil => exact absurd hflagged List.not_mem_nil
  | append_singleton flags last ih =>
    rw [List.foldl_append, List.foldl_cons, List.foldl_nil, get_noteMatch]
    rcases List.mem_append.mp hflagged with hearlier | hlast
    · split
      · exact ih hearlier
      · split
        · rfl
        · exact ih hearlier
    · obtain rfl := List.mem_singleton.mp hlast
      simp only [hvalues, if_pos, Option.isSome_some]

end Matched

/-! ## Storing -/

/-- A row as it is inserted. -/
def Found.row (found : Found) (queryId fingerprint : String) (now : Instant) : FlaggedRow :=
  ⟨queryId, fingerprint, found.values, found.columns, found.ruleIds, found.ruleNames,
    found.severity, now, now⟩

/-- A row that is kept, `first_seen_at` excepted. -/
def Found.refresh (found : Found) (row : FlaggedRow) (now : Instant) : FlaggedRow :=
  { found.row row.queryId row.rowFingerprint now with firstSeenAt := row.firstSeenAt }

/-- The rows of the query that still match, refreshed; those that do not are deleted. -/
def keepMatched (matched : OrderedDict String Found) (queryId : String) (now : Instant)
    (stored : Table FlaggedRow.key) : Table FlaggedRow.key :=
  (stored.deleteWhere fun row =>
      row.queryId = queryId && (matched.get row.rowFingerprint).isNone).mapRows
    (fun row =>
      if row.queryId = queryId then
        match matched.get row.rowFingerprint with
        | none => row
        | some found => found.refresh row now
      else row)
    (by
      intro row
      split
      · split
        · rfl
        · rfl
      · rfl)

/-- The matches that were not stored. -/
def freshRows (matched : OrderedDict String Found) (queryId : String) (now : Instant)
    (stored : Table FlaggedRow.key) : List FlaggedRow :=
  (matched.entries.filter fun entry => (stored.get (queryId, entry.1)).isNone).map fun entry =>
    entry.2.row queryId entry.1 now

theorem get_keepMatched (matched : OrderedDict String Found) (queryId : String) (now : Instant)
    (stored : Table FlaggedRow.key) (id fingerprint : String) :
    (keepMatched matched queryId now stored).get (id, fingerprint) =
      if id = queryId then
        (stored.get (id, fingerprint)).bind fun row =>
          (matched.get fingerprint).map fun found => found.refresh row now
      else stored.get (id, fingerprint) := by
  unfold keepMatched
  rw [Table.get_mapRows, Table.get_deleteWhere]
  cases hget : stored.get (id, fingerprint) with
  | none => simp
  | some row =>
    have hkey : row.key = (id, fingerprint) := Table.key_of_get hget
    obtain ⟨rfl, rfl⟩ := Prod.mk.inj hkey
    by_cases hid : row.queryId = queryId
    · subst hid
      cases hmatched : matched.get row.rowFingerprint with
      | none => simp [Option.filter, hmatched]
      | some found => simp [Option.filter, hmatched]
    · simp [Option.filter, hid]

theorem nodup_freshRows (matched : OrderedDict String Found) (queryId : String) (now : Instant)
    (stored : Table FlaggedRow.key) :
    ((freshRows matched queryId now stored).map FlaggedRow.key).Nodup := by
  have hkeys : (freshRows matched queryId now stored).map FlaggedRow.key =
      ((matched.entries.filter fun entry => (stored.get (queryId, entry.1)).isNone).map
        Prod.fst).map (Prod.mk queryId) := by
    simp only [freshRows, List.map_map]
    rfl
  rw [hkeys]
  have hfirst := matched.nodup.sublist
    ((List.filter_sublist (p := fun entry => (stored.get (queryId, entry.1)).isNone)).map Prod.fst)
  exact hfirst.map fun a b h => (Prod.mk.inj h).2

theorem freshRows_new (matched : OrderedDict String Found) (queryId : String) (now : Instant)
    (stored : Table FlaggedRow.key) :
    ∀ row ∈ freshRows matched queryId now stored,
      row.key ∉ (keepMatched matched queryId now stored).rows.map FlaggedRow.key := by
  intro row hrow hmem
  obtain ⟨entry, hentry, rfl⟩ := List.mem_map.mp hrow
  obtain ⟨hin, hnone⟩ := List.mem_filter.mp hentry
  obtain ⟨kept, hkept⟩ := Table.mem_keys_iff.mp hmem
  have hget := get_keepMatched matched queryId now stored queryId entry.1
  rw [if_pos rfl, Option.isNone_iff_eq_none.mp hnone] at hget
  exact absurd (hget.symm.trans hkept) nofun

/-- `sync` -/
def sync (sha256Hex : Sha256Hex) (stored : Table FlaggedRow.key) (queryId : String)
    (columns : List String) (rows : List (List Cell)) (outcome : Flags) (now : Instant) :
    Table FlaggedRow.key × Nat :=
  let matched := matchedBy sha256Hex columns rows outcome
  ((keepMatched matched queryId now stored).extend (freshRows matched queryId now stored)
      (nodup_freshRows matched queryId now stored) (freshRows_new matched queryId now stored),
    matched.size)

/-- `delete_rows` -/
def deleteRows (stored : Table FlaggedRow.key) (queryId : String)
    (fingerprints : Option (List String)) : Table FlaggedRow.key × Nat :=
  let p : FlaggedRow → Bool := fun row =>
    row.queryId = queryId && fingerprints.all fun fs => row.rowFingerprint ∈ fs
  match fingerprints with
  | some [] => (stored, 0)
  | _ => (stored.deleteWhere p, stored.rows.countP p)

/-! ## What the table has afterwards -/

section Sync

variable {sha256Hex : Sha256Hex} {stored : Table FlaggedRow.key} {queryId : String}
  {columns : List String} {rows : List (List Cell)} {outcome : Flags} {now : Instant}

theorem mem_freshRows {matched : OrderedDict String Found} {row : FlaggedRow}
    {id fingerprint : String} :
    row ∈ freshRows matched queryId now stored ∧ row.key = (id, fingerprint) ↔
      id = queryId ∧ stored.get (queryId, fingerprint) = none ∧
        ∃ found, matched.get fingerprint = some found ∧
          row = found.row queryId fingerprint now := by
  constructor
  · rintro ⟨hrow, hkey⟩
    obtain ⟨⟨fingerprint', found⟩, hentry, rfl⟩ := List.mem_map.mp hrow
    obtain ⟨hin, hnone⟩ := List.mem_filter.mp hentry
    obtain ⟨rfl, rfl⟩ := Prod.mk.inj hkey
    exact ⟨rfl, Option.isNone_iff_eq_none.mp hnone, found, OrderedDict.get_iff_mem.mpr hin, rfl⟩
  · rintro ⟨rfl, hnone, found, hfound, rfl⟩
    refine ⟨List.mem_map.mpr ⟨(fingerprint, found), List.mem_filter.mpr ⟨?_, ?_⟩, rfl⟩, rfl⟩
    · exact OrderedDict.get_iff_mem.mp hfound
    · rw [hnone]
      rfl

/-- **`sync`**: of the query, what matched; of the others, what was there. -/
theorem get_sync (id fingerprint : String) :
    (sync sha256Hex stored queryId columns rows outcome now).1.get (id, fingerprint) =
      if id = queryId then
        ((matchedBy sha256Hex columns rows outcome).get fingerprint).map fun found =>
          { found.row id fingerprint now with
            firstSeenAt := ((stored.get (id, fingerprint)).map FlaggedRow.firstSeenAt).getD now }
      else stored.get (id, fingerprint) := by
  unfold sync
  ext row
  rw [Table.get_extend, get_keepMatched, mem_freshRows]
  by_cases hid : id = queryId
  · subst hid
    simp only [if_pos, true_and]
    cases hstored : stored.get (id, fingerprint) with
    | none =>
      simp only [Option.bind_none, reduceCtorEq, false_or, true_and, Option.map_none,
        Option.getD_none, Option.map_eq_some_iff]
      exact ⟨fun ⟨found, hfound, hrow⟩ => ⟨found, hfound, hrow.symm⟩,
        fun ⟨found, hfound, hrow⟩ => ⟨found, hfound, hrow.symm⟩⟩
    | some old =>
      have hkey : old.key = (id, fingerprint) := Table.key_of_get hstored
      obtain ⟨rfl, rfl⟩ := Prod.mk.inj hkey
      simp only [Option.bind_some, reduceCtorEq, false_and, or_false, Option.map_some,
        Option.getD_some]
      rfl
  · simp [hid]

/-- The rows of another query are left alone, in their order. -/
theorem filter_keepMatched (matched : OrderedDict String Found) {id : String} (hid : id ≠ queryId) :
    ((keepMatched matched queryId now stored).rows.filter fun row => row.queryId = id) =
      stored.rows.filter fun row => row.queryId = id := by
  simp only [keepMatched, Table.mapRows, Table.deleteWhere]
  induction stored.rows with
  | nil => rfl
  | cons row rows ih =>
    by_cases hrow : row.queryId = id
    · have hother : row.queryId ≠ queryId := fun h => hid (hrow.symm.trans h)
      simpa [List.filter_cons, hrow, hother, hid] using ih
    · rw [List.filter_cons, List.filter_cons_of_neg (by simpa using hrow)]
      split
      · have hkey : (match matched.get row.rowFingerprint with
            | none => row
            | some found => found.refresh row now).queryId = row.queryId := by
          split
          · rfl
          · rfl
        rw [List.map_cons, List.filter_cons_of_neg, ih]
        split
        · exact fun h => hrow (hkey.symm.trans (of_decide_eq_true h))
        · simpa using hrow
      · exact ih

/-- **`sync`** leaves the rows of another query alone, in their order. -/
theorem filter_sync {id : String} (hid : id ≠ queryId) :
    ((sync sha256Hex stored queryId columns rows outcome now).1.rows.filter fun row =>
        row.queryId = id) =
      stored.rows.filter fun row => row.queryId = id := by
  have hfresh : ((freshRows (matchedBy sha256Hex columns rows outcome) queryId now stored).filter
      fun row => row.queryId = id) = [] := by
    refine List.filter_eq_nil_iff.mpr fun row hrow => ?_
    obtain ⟨entry, -, rfl⟩ := List.mem_map.mp hrow
    exact fun h => hid (of_decide_eq_true h).symm
  simp only [sync, Table.extend, List.filter_append]
  rw [filter_keepMatched _ hid, hfresh, List.append_nil]

end Sync

theorem get_deleteRows (stored : Table FlaggedRow.key) (queryId : String)
    (fingerprints : Option (List String)) (id fingerprint : String) :
    (deleteRows stored queryId fingerprints).1.get (id, fingerprint) =
      if id = queryId ∧ ∀ fs ∈ fingerprints, fingerprint ∈ fs then none
      else stored.get (id, fingerprint) := by
  have hdelete : (stored.deleteWhere fun row =>
      row.queryId = queryId && fingerprints.all fun fs => row.rowFingerprint ∈ fs).get
        (id, fingerprint) =
      if id = queryId ∧ ∀ fs ∈ fingerprints, fingerprint ∈ fs then none
      else stored.get (id, fingerprint) := by
    rw [Table.get_deleteWhere]
    cases hget : stored.get (id, fingerprint) with
    | none => simp
    | some row =>
      have hkey : row.key = (id, fingerprint) := Table.key_of_get hget
      obtain ⟨rfl, rfl⟩ := Prod.mk.inj hkey
      cases fingerprints with
      | none => simp [Option.filter]
      | some fs =>
        by_cases hgone : row.queryId = queryId ∧ row.rowFingerprint ∈ fs
        · simp [Option.filter, hgone]
        · rw [if_neg (by simpa using hgone)]
          simp only [Option.filter, Option.all_some]
          rw [if_pos]
          simpa [imp_iff_not_or] using hgone
  unfold deleteRows
  split
  next => simp
  next => exact hdelete

end FraudAnalyzer.FlagRules
