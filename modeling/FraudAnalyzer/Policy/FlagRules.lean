import Mathlib.Tactic.TypeStar

/-!
# What a flag rule may say

The severities and comparison operators of `app/policy/flag_rules.py`, with the values they are
stored and compared as.
-/

namespace FraudAnalyzer.Policy

inductive FlagSeverity where
  | low
  | medium
  | high
  deriving DecidableEq, Repr

inductive FlagOperator where
  | gt
  | gte
  | lt
  | lte
  | eq
  | neq
  | contains
  | notContains
  | startsWith
  | in_
  | notIn
  | isNull
  | isNotNull
  | between
  | inList
  | notInList
  deriving DecidableEq, Repr

def FlagSeverity.value : FlagSeverity → String
  | low => "low"
  | medium => "medium"
  | high => "high"

/-- `SEVERITY_ORDER` -/
def FlagSeverity.order : FlagSeverity → Nat
  | low => 0
  | medium => 1
  | high => 2

namespace FlagOperator

def value : FlagOperator → String
  | gt => "gt"
  | gte => "gte"
  | lt => "lt"
  | lte => "lte"
  | eq => "eq"
  | neq => "neq"
  | contains => "contains"
  | notContains => "not_contains"
  | startsWith => "starts_with"
  | in_ => "in"
  | notIn => "not_in"
  | isNull => "is_null"
  | isNotNull => "is_not_null"
  | between => "between"
  | inList => "in_list"
  | notInList => "not_in_list"

/-- `NULLARY_OPERATORS` -/
def isNullary : FlagOperator → Bool
  | isNull | isNotNull => true
  | _ => false

/-- `BINARY_OPERATORS` -/
def isBinary : FlagOperator → Bool
  | between => true
  | _ => false

/-- `LIST_OPERATORS` -/
def isListOperator : FlagOperator → Bool
  | inList | notInList => true
  | _ => false

end FlagOperator

theorem FlagSeverity.value_injective : Function.Injective FlagSeverity.value := by
  intro a b h
  cases a <;> cases b <;> first | rfl | exact absurd h (by decide)

theorem FlagOperator.value_injective : Function.Injective FlagOperator.value := by
  intro a b h
  cases a <;> cases b <;> first | rfl | exact absurd h (by decide)

end FraudAnalyzer.Policy
