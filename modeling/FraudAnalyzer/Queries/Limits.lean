import FraudAnalyzer.Config
import FraudAnalyzer.Errors

/-!
# Row limits and poll intervals

`resolve_row_limit` and `poll_interval_for` of `app/features/queries/execution.py`.
-/

namespace FraudAnalyzer.Queries

/-- `resolve_row_limit` -/
def resolveRowLimit (settings : Settings) (requested : Option Int) : Except AppError Int :=
  match requested with
  | none => .ok settings.defaultRowLimit
  | some requested =>
    if requested < 1 then
      .error ⟨.rowLimitExceeded, "row_limit must be at least 1.", [("row_limit", .ofInt requested)]⟩
    else if requested > settings.maxRowLimit then
      .error ⟨.rowLimitExceeded,
        "row_limit " ++ toString requested ++ " exceeds the maximum of " ++
          toString settings.maxRowLimit ++ ".",
        [("row_limit", .ofInt requested), ("max_row_limit", .ofInt settings.maxRowLimit)]⟩
    else .ok requested

/-- `poll_interval_for`: `query.poll_interval_ms or settings.poll_interval_ms`. -/
def pollIntervalFor (settings : Settings) (query : SavedQuery) : Int :=
  match query.pollIntervalMs with
  | some interval => if interval = 0 then settings.pollIntervalMs else interval
  | none => settings.pollIntervalMs

end FraudAnalyzer.Queries
