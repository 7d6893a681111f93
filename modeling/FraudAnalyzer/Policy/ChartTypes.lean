import Mathlib.Tactic.TypeStar

/-!
# Chart types

The chart types of `app/policy/chart_types.py` and the fields each of them needs.
-/

namespace FraudAnalyzer.Policy

inductive ChartType where
  | line
  | bar
  | pie
  | number
  | table
  | compare
  | movers
  | compareGrid
  | heatmap
  | stackedBar
  | biaxialBar
  deriving DecidableEq, Repr

/-- The columns a chart maps its axes to. -/
inductive ChartField where
  | xField
  | yField
  | seriesField
  deriving DecidableEq, Repr

def ChartField.name : ChartField → String
  | xField => "x_field"
  | yField => "y_field"
  | seriesField => "series_field"

namespace ChartType

def value : ChartType → String
  | line => "line"
  | bar => "bar"
  | pie => "pie"
  | number => "number"
  | table => "table"
  | compare => "compare"
  | movers => "movers"
  | compareGrid => "compare_grid"
  | heatmap => "heatmap"
  | stackedBar => "stacked_bar"
  | biaxialBar => "biaxial_bar"

/-- `REQUIRED_FIELDS` -/
def requiredFields : ChartType → List ChartField
  | line | bar | pie | compare | stackedBar => [.xField, .yField]
  | movers | compareGrid | heatmap | biaxialBar => [.xField, .yField, .seriesField]
  | number => [.yField]
  | table => []

theorem value_injective : Function.Injective ChartType.value := by
  intro a b h
  cases a <;> cases b <;> first | rfl | exact absurd h (by decide)

end ChartType

end FraudAnalyzer.Policy
