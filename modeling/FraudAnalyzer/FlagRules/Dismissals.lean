import FraudAnalyzer.Queries.Execution

/-!
# Dismissed rows

The body of a run response, and `app/features/flag_rules/dismissals.py` as far as a poll reads it:
the rows a user has dismissed are taken out of the body when it is served, and the data hash gets a
suffix for the set of dismissals.
-/

namespace FraudAnalyzer.Queries

open FlagRules

/-- `RunPayload.as_dict`. `dismissedCount` is the member of `flags` that only a filtered
body has. -/
structure Body where
  queryId : String
  executedAt : Instant
  result : ExecutionResult
  dataHash : String
  charts : List ChartSpec
  flags : Flags
  dismissedCount : Option Nat
  pollIntervalMs : Int

def RunPayload.asDict (payload : RunPayload) (pollIntervalMs : Int) : Body where
  queryId := payload.queryId
  executedAt := payload.executedAt
  result := payload.result
  dataHash := payload.dataHash
  charts := payload.charts
  flags := payload.flags
  dismissedCount := none
  pollIntervalMs := pollIntervalMs

end FraudAnalyzer.Queries

namespace FraudAnalyzer.FlagRules

open Python Queries

/-- A `flag_dismissals` row. -/
structure FlagDismissal where
  queryId : String
  userId : String
  rowFingerprint : String
  deriving DecidableEq

/-- `dismissed_fingerprints`; the set is given by its sorted elements. -/
def dismissedFingerprints (rows : List FlagDismissal) (queryId userId : String) : List String :=
  sortedNames
    ((rows.filter fun d =>
      d.queryId = queryId && d.userId = userId).map FlagDismissal.rowFingerprint)

theorem mem_dismissedFingerprints {rows : List FlagDismissal} {queryId userId f : String} :
    f ∈ dismissedFingerprints rows queryId userId ↔ ⟨queryId, userId, f⟩ ∈ rows := by
  rw [dismissedFingerprints, mem_sortedNames, List.mem_map]
  constructor
  · rintro ⟨d, hd, rfl⟩
    obtain ⟨hmem, hkey⟩ := List.mem_filter.mp hd
    obtain ⟨rfl, rfl⟩ : d.queryId = queryId ∧ d.userId = userId := by simpa using hkey
    exact hmem
  · intro hmem
    exact ⟨_, List.mem_filter.mpr ⟨hmem, by simp⟩, rfl⟩

/-- `dismiss`, for the fingerprints that are stored findings of the query. -/
def dismiss (rows : List FlagDismissal) (queryId userId : String) (fingerprints : List String) :
    List FlagDismissal :=
  let existing := dismissedFingerprints rows queryId userId
  rows ++ ((fingerprints.dedup.filter fun f => f ∉ existing).map fun f => ⟨queryId, userId, f⟩)

/-- `restore`; `none` restores every row of the query. -/
def restore (rows : List FlagDismissal) (queryId userId : String)
    (fingerprints : Option (List String)) : List FlagDismissal :=
  rows.filter fun d =>
    !(d.queryId = queryId && d.userId = userId && fingerprints.all fun fs => d.rowFingerprint ∈ fs)

/-- `_stamp` -/
def stamp (sha256Hex : Sha256Hex) (dismissed : List String) : String :=
  String.ofList ((sha256Hex (join "," dismissed).toUTF8).toList.take 16)

/-- The flagged rows that are not dismissed. -/
def keptRows (rows : List FlaggedEntry) (dismissed : List String) : List FlaggedEntry :=
  rows.filter fun row => row.fingerprint.all fun f => f ∉ dismissed

/-- `apply_dismissals` -/
def applyDismissals (sha256Hex : Sha256Hex) (body : Body) (dismissed : List String) : Body :=
  let rows := body.flags.rows
  let kept := keptRows rows dismissed
  if dismissed = [] ∨ rows = [] then body
  else if kept.length = rows.length then body
  else
    { body with
      dataHash := body.dataHash ++ "+d" ++ stamp sha256Hex dismissed
      flags :=
        { body.flags with
          rows := kept
          flaggedCount := kept.length
          rules := body.flags.rules.map fun rule =>
            { rule with matched := kept.countP fun row => rule.id ∈ row.ruleIds } }
      dismissedCount := some (rows.length - kept.length) }

section Lemmas

variable {sha256Hex : Sha256Hex} {body : Body} {D D' : List String}

/-- Dismissals change the hash and the flags of a body. -/
theorem exists_applyDismissals (sha256Hex : Sha256Hex) (D : List String) (body : Body) :
    ∃ dataHash flags dismissedCount, ∀ charts,
      applyDismissals sha256Hex { body with charts := charts } D =
        { body with
          charts := charts, dataHash := dataHash, flags := flags
          dismissedCount := dismissedCount } := by
  unfold applyDismissals
  simp only
  split
  · exact ⟨_, _, _, fun _ => rfl⟩
  · split
    · exact ⟨_, _, _, fun _ => rfl⟩
    · exact ⟨_, _, _, fun _ => rfl⟩

@[simp] theorem applyDismissals_queryId (sha256Hex : Sha256Hex) (body : Body) (D : List String) :
    (applyDismissals sha256Hex body D).queryId = body.queryId := by
  obtain ⟨_, _, _, h⟩ := exists_applyDismissals sha256Hex D body
  rw [h body.charts]

@[simp] theorem applyDismissals_executedAt (sha256Hex : Sha256Hex) (body : Body) (D : List String) :
    (applyDismissals sha256Hex body D).executedAt = body.executedAt := by
  obtain ⟨_, _, _, h⟩ := exists_applyDismissals sha256Hex D body
  rw [h body.charts]

@[simp] theorem applyDismissals_pollIntervalMs (sha256Hex : Sha256Hex) (body : Body)
    (D : List String) :
    (applyDismissals sha256Hex body D).pollIntervalMs = body.pollIntervalMs := by
  obtain ⟨_, _, _, h⟩ := exists_applyDismissals sha256Hex D body
  rw [h body.charts]

@[simp] theorem applyDismissals_result (sha256Hex : Sha256Hex) (body : Body) (D : List String) :
    (applyDismissals sha256Hex body D).result = body.result := by
  obtain ⟨_, _, _, h⟩ := exists_applyDismissals sha256Hex D body
  rw [h body.charts]

/-- Dismissals and charts do not touch each other. -/
theorem applyDismissals_withCharts (sha256Hex : Sha256Hex) (body : Body) (charts : List ChartSpec)
    (D : List String) :
    applyDismissals sha256Hex { body with charts := charts } D =
      { applyDismissals sha256Hex body D with charts := charts } := by
  obtain ⟨_, _, _, h⟩ := exists_applyDismissals sha256Hex D body
  rw [h charts, h body.charts]

/-- A body is left as it is, or gets the suffix. -/
theorem applyDismissals_eq_or (sha256Hex : Sha256Hex) (body : Body) (D : List String) :
    applyDismissals sha256Hex body D = body ∨
      (applyDismissals sha256Hex body D).dataHash = body.dataHash ++ "+d" ++ stamp sha256Hex D := by
  unfold applyDismissals
  simp only
  split
  · exact .inl rfl
  · split
    · exact .inl rfl
    · exact .inr rfl

theorem applyDismissals_of_unfiltered
    (h : (applyDismissals sha256Hex body D).dismissedCount = none) :
    applyDismissals sha256Hex body D = body := by
  unfold applyDismissals at h ⊢
  simp only at h ⊢
  split at h
  next hnothing => rw [if_pos hnothing]
  next hsome =>
    rw [if_neg hsome]
    split at h
    next hkept => rw [if_pos hkept]
    · cases h

/-- One body with the dismissals of two users: the hash tells them apart as far as the stamp
does. -/
theorem applyDismissals_eq_of_dataHash_eq
    (hstamp : stamp sha256Hex D = stamp sha256Hex D' → D = D')
    (h : (applyDismissals sha256Hex body D).dataHash =
      (applyDismissals sha256Hex body D').dataHash) :
    applyDismissals sha256Hex body D = applyDismissals sha256Hex body D' := by
  have hlonger : ∀ s : String, body.dataHash ≠ body.dataHash ++ "+d" ++ s := by
    intro s heq
    have hlen := congrArg String.length heq
    simp only [String.length_append] at hlen
    have hd : "+d".length = 2 := rfl
    omega
  rcases applyDismissals_eq_or sha256Hex body D with hD | hD
  · rcases applyDismissals_eq_or sha256Hex body D' with hD' | hD'
    · rw [hD, hD']
    · rw [hD, hD'] at h
      exact absurd h (hlonger _)
  · rcases applyDismissals_eq_or sha256Hex body D' with hD' | hD'
    · rw [hD, hD'] at h
      exact absurd h.symm (hlonger _)
    · rw [hD, hD', String.append_right_inj] at h
      rw [hstamp h]

end Lemmas

end FraudAnalyzer.FlagRules
