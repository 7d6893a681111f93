import FraudAnalyzer.Charts.Models

/-!
# Settings

The fields of `app/config.py` that decide how a saved query runs, with the bounds the settings
model enforces.
-/

namespace FraudAnalyzer

structure Settings where
  defaultRowLimit : Int
  maxRowLimit : Int
  pollIntervalMs : Int
  maxResultBytes : Int
  defaultSurgeThresholdPct : PyFloat
  default_pos : 0 < defaultRowLimit
  default_le_max : defaultRowLimit ≤ maxRowLimit
  poll_pos : 0 < pollIntervalMs

/-- The settings of an installation that sets none of them. -/
def Settings.default : Settings where
  defaultRowLimit := 1000
  maxRowLimit := 50000
  pollIntervalMs := 5000
  maxResultBytes := 32 * 1024 * 1024
  defaultSurgeThresholdPct :=
    ⟨⟨['5', '0', '.', '0'], List.cons_ne_nil _ _, List.all_eq_true.mp rfl⟩⟩
  default_pos := by decide
  default_le_max := by decide
  poll_pos := by decide

end FraudAnalyzer
