import FraudAnalyzer.FlagRules.Evaluation
import FraudAnalyzer.Lib.FittingPrefix
import FraudAnalyzer.Queries.Execution

/-!
# What a row limit leaves out

A run fetches one row more than its limit and adds up the encoded rows as it goes. For a statement
that answers with the same rows each time, the runs under all limits agree: each shows the first
rows of the others, and flags of them what the others flag. A result that is too large names the
greatest limit under which the statement can be run.
-/

namespace FraudAnalyzer.Queries

open Python FlagRules Policy FittingPrefix

/-- The target answers the statement with these rows, however many of them are fetched. -/
def Answers (target : Target) (sql : String) {columns : List String} (rows : List (Row columns))
    (durationMs : Int → Nat) : Prop :=
  ∀ count, target.run sql count = .ok ⟨columns, rows.take count.toNat, durationMs count⟩

/-- How many of the rows fit the budget. -/
def capacity (settings : Settings) (target : Target) {columns : List String}
    (rows : List (Row columns)) : Nat :=
  fitting target.encodedSize settings.maxResultBytes (rows.map Subtype.val) 0

/-- The query under another row limit. -/
def limitedTo (query : SavedQuery) (limit : Nat) : SavedQuery := { query with rowLimit := limit }

/-! ## The rows -/

section Rows

variable {settings : Settings} {target : Target} {sql : String} {columns : List String}
  {rows : List (Row columns)} {durationMs : Int → Nat} {n : Nat}

theorem checkBudget_eq (encodedSize : List Cell → Nat) (budget : Int) (cells : List (List Cell))
    (used returned : Nat) :
    checkBudget encodedSize budget cells used returned =
      if fitting encodedSize budget cells used = cells.length then .ok ()
      else .error (resultTooLarge budget (returned + fitting encodedSize budget cells used)) := by
  induction cells generalizing used returned with
  | nil => rfl
  | cons row cells ih =>
    rw [checkBudget, fitting]
    by_cases hover : budget < (used + encodedSize row : Nat)
    · rw [if_pos hover, if_pos hover, if_neg (by simp), Nat.add_zero]
    · rw [if_neg hover, if_neg hover, ih, List.length_cons]
      simp only [Nat.succ_inj]
      rw [show returned + (fitting encodedSize budget cells (used + encodedSize row) + 1) =
        returned + 1 + fitting encodedSize budget cells (used + encodedSize row) from by omega]

theorem capacity_le_length : capacity settings target rows ≤ rows.length :=
  (fitting_le_length _ _ _ 0).trans (Nat.le_of_eq (List.length_map _))

/-- **What a limit shows** of the rows. -/
theorem executeSql_eq (h : Answers target sql rows durationMs) (n : Nat) :
    executeSql settings target sql n =
      if min n rows.length ≤ capacity settings target rows then
        .ok ⟨columns, rows.take n, decide (n < rows.length), durationMs (n + 1)⟩
      else
        .error (resultTooLarge settings.maxResultBytes (capacity settings target rows)) := by
  have hcapacity : capacity settings target rows ≤ rows.length := capacity_le_length
  have hfetched : (rows.take ((n : Int) + 1).toNat).take n = rows.take n := by
    rw [List.take_take]
    congr 1
    omega
  have htruncated : decide ((n : Int) < (rows.take ((n : Int) + 1).toNat).length) =
      decide (n < rows.length) := by
    rw [List.length_take, decide_eq_decide]
    omega
  have hfitting : fitting target.encodedSize settings.maxResultBytes
      ((rows.take n).map Subtype.val) 0 = min n (capacity settings target rows) :=
    (congrArg (fun cells => fitting _ _ cells 0) List.map_take).trans (fitting_take _ _ _ 0 n)
  have hlength : ((rows.take n).map Subtype.val).length = min n rows.length :=
    (List.length_map _).trans List.length_take
  unfold executeSql
  rw [h]
  simp only [bind, Except.bind, Int.toNat_natCast, hfetched, htruncated, checkBudget_eq, hfitting,
    hlength]
  by_cases hfits : min n rows.length ≤ capacity settings target rows
  · rw [if_pos hfits, if_pos (by omega)]
    rfl
  · rw [if_neg hfits, if_neg (by omega), Nat.zero_add, Nat.min_eq_right (by omega)]

end Rows

/-! ## The flags -/

section Flags

variable {u : Unicode} {sha256Hex : Sha256Hex} {lists : String → Option (List String)}
  {columns : List String} {rows : List (Row columns)}

theorem flagOf_index {usable : List (RuleSpec × Resolved columns)} {row : Row columns × Nat}
    {flag : RowFlag} (h : flagOf u usable row = some flag) : flag.index = row.2 := by
  unfold flagOf at h
  split at h
  · cases h
  · exact Option.some.inj h ▸ rfl

/-- The rows that are flagged among the first ones. -/
theorem evaluate_take (specs : List RuleSpec) (rows : List (Row columns)) (n : Nat) :
    (evaluate u specs columns (rows.take n)).rows =
      (evaluate u specs columns rows).rows.filter fun flag => flag.index < n := by
  rw [evaluate_rows, evaluate_rows]
  have hsplit : rows.zipIdx =
      (rows.take n).zipIdx ++ (rows.drop n).zipIdx (rows.take n).length := by
    rw [← Nat.zero_add (rows.take n).length, ← List.zipIdx_append, List.take_append_drop]
  rw [hsplit, List.filterMap_append, List.filter_append, List.filter_eq_self.mpr ?_,
    List.filter_eq_nil_iff.mpr ?_, List.append_nil]
  · intro flag hflag
    obtain ⟨⟨row, index⟩, hmem, hrow⟩ := List.mem_filterMap.mp hflag
    obtain ⟨hge, hlt, -⟩ := List.mem_zipIdx hmem
    rw [flagOf_index hrow]
    simp only [List.length_drop, List.length_take, decide_eq_true_eq] at hge hlt ⊢
    omega
  · intro flag hflag
    obtain ⟨⟨row, index⟩, hmem, hrow⟩ := List.mem_filterMap.mp hflag
    obtain ⟨-, hlt, -⟩ := List.mem_zipIdx hmem
    rw [flagOf_index hrow]
    simp only [List.length_take, decide_eq_true_eq] at hlt ⊢
    omega

/-- **What a limit leaves of the flags.** -/
theorem evaluateFlags_take (rules : List FlagRule) (rows : List (Row columns)) (n : Nat) :
    (evaluateFlags u sha256Hex lists rules columns (rows.take n)).rows =
      (evaluateFlags u sha256Hex lists rules columns rows).rows.filter
        fun flagged => flagged.index < n := by
  unfold evaluateFlags
  by_cases hnone : rules = []
  · rw [if_pos hnone, if_pos hnone]
    rfl
  · rw [if_neg hnone, if_neg hnone]
    simp only [evaluate_take, List.filter_map]
    refine List.map_congr_left fun flag hflag => ?_
    have hindex : flag.index < n := by simpa using (List.mem_filter.mp hflag).2
    rw [List.getElem?_take_of_lt hindex]

end Flags

/-! ## The runs -/

/-- What the runs of a query under its possible limits have to do with each other. -/
structure LimitsAgree (E : RunEnv) (query : SavedQuery) (rules : List FlagRule)
    (charts : List QueryChart) (now : Instant) {columns : List String}
    (rows : List (Row columns)) : Prop where
  /-- Just as many rows fit as the budget holds in a row. -/
  capacity : ∀ n, n ≤ capacity E.settings (E.targets query.connectionId) rows ↔ n ≤ rows.length ∧
    ((((rows.take n).map fun row =>
      (E.targets query.connectionId).encodedSize row.val).sum : Nat) : Int) ≤
        E.settings.maxResultBytes
  /-- A run shows the first rows, if they fit. -/
  shown : ∀ n, min n rows.length ≤ Queries.capacity E.settings (E.targets query.connectionId) rows →
    ∃ payload, runSavedQuery E (limitedTo query n) rules charts now = .ok payload ∧
      payload.result.columns = columns ∧
      payload.result.rows.map (fun row => row.val) = (rows.take n).map (fun row => row.val) ∧
      (payload.result.truncated = true ↔ n < rows.length)
  /-- Else it fails, and names the greatest limit under which a run does not. -/
  refused : ∀ n,
    Queries.capacity E.settings (E.targets query.connectionId) rows < min n rows.length →
    runSavedQuery E (limitedTo query n) rules charts now =
      .error (resultTooLarge E.settings.maxResultBytes
        (Queries.capacity E.settings (E.targets query.connectionId) rows))
  /-- A run flags what a run with a higher limit flags, and draws the same charts. -/
  flagged : ∀ m n p q, m ≤ n → runSavedQuery E (limitedTo query m) rules charts now = .ok p →
    runSavedQuery E (limitedTo query n) rules charts now = .ok q →
      p.flags.rows = q.flags.rows.filter (fun flagged => flagged.index < m) ∧ p.charts = q.charts

section Runs

variable {E : RunEnv} {query : SavedQuery} {rules : List FlagRule} {charts : List QueryChart}
  {now : Instant} {columns : List String} {rows : List (Row columns)} {durationMs : Int → Nat}

/-- The payload under a limit. -/
def payloadOf (E : RunEnv) (query : SavedQuery) (rules : List FlagRule) (charts : List QueryChart)
    (now : Instant) {columns : List String} (rows : List (Row columns)) (durationMs : Int → Nat)
    (n : Nat) : RunPayload :=
  let flags := evaluateFlags E.unicode E.sha256Hex E.lists rules columns (rows.take n)
  { queryId := query.id
    executedAt := now
    result := ⟨columns, rows.take n, decide (n < rows.length), durationMs (n + 1)⟩
    dataHash := canonicalHash E.sha256Hex columns ((rows.take n).map Subtype.val) flags
    charts := buildCharts E.unicode E.settings charts columns
    flags := flags }

theorem runSavedQuery_limited
    (h : Answers (E.targets query.connectionId) query.sqlText rows durationMs) (n : Nat) :
    runSavedQuery E (limitedTo query n) rules charts now =
      if min n rows.length ≤ capacity E.settings (E.targets query.connectionId) rows then
        .ok (payloadOf E query rules charts now rows durationMs n)
      else
        .error (resultTooLarge E.settings.maxResultBytes
          (capacity E.settings (E.targets query.connectionId) rows)) := by
  unfold runSavedQuery
  have hexec : executeSql E.settings (E.targets (limitedTo query n).connectionId)
      (limitedTo query n).sqlText (limitedTo query n).rowLimit = _ := executeSql_eq h n
  rw [hexec]
  split
  · rfl
  · rfl

/-- **The runs under all limits agree.** -/
theorem limitsAgree_of_answers
    (h : Answers (E.targets query.connectionId) query.sqlText rows durationMs)
    (hbudget : 0 < E.settings.maxResultBytes) : LimitsAgree E query rules charts now rows where
  capacity n := by
    have hlongest := @le_fitting_iff _ (E.targets query.connectionId).encodedSize
      E.settings.maxResultBytes (rows.map Subtype.val) 0 n (Int.le_of_lt hbudget)
    have hlength : (rows.map Subtype.val).length = rows.length := List.length_map _
    have hsizes : ((rows.map Subtype.val).take n).map (E.targets query.connectionId).encodedSize =
        (rows.take n).map fun row => (E.targets query.connectionId).encodedSize row.val :=
      (congrArg (List.map _) List.map_take.symm).trans List.map_map
    rw [hlength, hsizes, Nat.zero_add] at hlongest
    exact hlongest
  shown n hfits := by
    refine ⟨payloadOf E query rules charts now rows durationMs n, ?_, rfl, rfl, ?_⟩
    · rw [runSavedQuery_limited h, if_pos hfits]
    · exact decide_eq_true_iff
  refused n hover := by
    rw [runSavedQuery_limited h, if_neg (by omega)]
  flagged m n p q hle hp hq := by
    rw [runSavedQuery_limited h] at hp hq
    split at hp
    · split at hq
      · obtain rfl := Except.ok.inj hp
        obtain rfl := Except.ok.inj hq
        refine ⟨?_, rfl⟩
        simp only [payloadOf, evaluateFlags_take, List.filter_filter]
        refine List.filter_congr fun flagged _ => ?_
        rw [← Bool.decide_and, decide_eq_decide]
        omega
      · cases hq
    · cases hp

end Runs

/-! ## Three rows and a budget for two -/

namespace LimitSample

def rows : List (Row ["amount"]) := [.single (.int 900), .single (.int 5), .single (.int 901)]

def target : Target where
  run _ count := .ok ⟨["amount"], rows.take count.toNat, 7⟩
  encodedSize _ := 10

def env : RunEnv where
  unicode := .ascii
  sha256Hex _ := "f"
  settings := { Settings.default with maxResultBytes := 20 }
  targets _ := target
  lists _ := none

def query : SavedQuery where
  id := "q"
  connectionId := "c"
  name := "large amounts"
  description := none
  sqlText := "SELECT amount FROM payments"
  tableHint := none
  rowLimit := 1000
  pollIntervalMs := none
  ownerId := none

/-- Marks the first and the last row. -/
def rule : FlagRule :=
  ⟨"large", "q", "Large", .high, true, 0, [⟨0, "amount", .gt, some "800", none, none⟩]⟩

def chart : QueryChart :=
  { chartType := .number, xField := none, yField := some "amount", seriesField := none
    surgeThresholdPct := none, toPublishColumns := .initial
    id := "k", queryId := "q", name := "Sum", position := 0 }

/-- The flagged rows and the charts of the run under a limit. -/
def shown (limit : Nat) : Except AppError (List Nat × List String) :=
  (runSavedQuery env (limitedTo query limit) [rule] [chart] 0).map fun payload =>
    (payload.flags.rows.map FlaggedEntry.index, payload.charts.map ChartSpec.name)

end LimitSample

/-- Two rows fit, one of them flagged; all three flag two, and are too large. -/
theorem limitsAgree_of_answers_three :
    capacity LimitSample.env.settings LimitSample.target LimitSample.rows = 2 ∧
      LimitSample.shown 2 = .ok ([0], ["Sum"]) ∧
      LimitSample.shown 3 = .error (resultTooLarge 20 2) ∧
      LimitsAgree LimitSample.env LimitSample.query [LimitSample.rule] [LimitSample.chart] 0
        LimitSample.rows :=
  ⟨by decide, rfl, rfl,
    @limitsAgree_of_answers LimitSample.env LimitSample.query [LimitSample.rule] [LimitSample.chart]
      0 _ _ (fun _ => 7) (fun _ => rfl) (by decide)⟩

end FraudAnalyzer.Queries
