import FraudAnalyzer.Lists.Matching
import Mathlib.Data.List.Dedup
import Mathlib.Data.List.FinRange
import Mathlib.Logic.Function.Basic

/-!
# The flag-rule engine

`app/features/flag_rules/engine.py`: which rows of a result the rules mark, how often each rule
matched, and why one could not.
-/

namespace FraudAnalyzer.FlagRules

open Python FraudAnalyzer.Lists Policy

structure ConditionSpec where
  columnName : String
  operator : FlagOperator
  value : Option String
  value2 : Option String
  members : Option (List Member)

structure RuleSpec where
  id : String
  name : String
  severity : FlagSeverity
  conditions : List ConditionSpec
  enabled : Bool

structure RowFlag where
  index : Nat
  ruleIds : List String
  deriving DecidableEq

structure RuleHit where
  id : String
  name : String
  severity : FlagSeverity
  matched : Nat
  deriving DecidableEq

structure FlagOutcome where
  rows : List RowFlag
  rules : List RuleHit
  warnings : List String
  deriving DecidableEq

/-- A row of a result, as wide as its columns. -/
def Row (columns : List String) := {cells : List Cell // cells.length = columns.length}

/-- The row of one cell. -/
def Row.single {column : String} (cell : Cell) : Row [column] := ⟨[cell], rfl⟩

/-- `row[position]` -/
def Row.cell {columns : List String} (row : Row columns) (position : Fin columns.length) : Cell :=
  row.val.get (position.cast row.property.symm)

/-! ## Coercion -/

/-- `as_text` -/
def asText (u : Unicode) : Cell → String
  | .none => ""
  | .bool b => if b then "true" else "false"
  | c => c.toStr u

/-- `split_list` -/
def splitList (u : Unicode) (raw : Option String) : List String :=
  match raw with
  | none => []
  | some raw =>
    if raw = "" then []
    else ((raw.toList.splitOn ',').map fun part => strip u (String.ofList part)).filter (· ≠ "")

/-! ## One condition -/

/-- What an ordering operator asks of a comparison. -/
def ordered (operator : FlagOperator) (o : Ordering) : Bool :=
  match operator with
  | .gt => o == .gt
  | .gte => o != .lt
  | .lt => o == .lt
  | _ => o != .gt

/-- The comparison of two texts. -/
def compareText (a b : String) : Ordering := compareOfLessAndEq a b

/-- `_compare_ordered` -/
def compareOrdered (u : Unicode) (cell : Cell) (expected : Option String)
    (operator : FlagOperator) : Bool :=
  match cell with
  | .bool _ => false
  | cell =>
    ordered operator
      (match asNumber u cell, asNumber u (.ofOption expected) with
      | some left, some right => left.compareTo right
      | _, _ => compareText (asText u cell) (asText u (.ofOption expected)))

/-- `_equals` -/
def equals (u : Unicode) (cell : Cell) (expected : Option String) : Bool :=
  match cell with
  | .bool b => asBool u (.ofOption expected) == some b
  | cell =>
    if isBoolWord u cell && isBoolWord u (.ofOption expected) then
      asBool u cell == asBool u (.ofOption expected)
    else
      match asNumber u cell, asNumber u (.ofOption expected) with
      | some left, some right => left.compareTo right == .eq
      | _, _ => asText u cell == asText u (.ofOption expected)

/-- `BETWEEN`: the bounds in either order, as numbers if both are. -/
def isBetween (u : Unicode) (cell : Cell) (value value2 : Option String) : Bool :=
  match asNumber u (.ofOption value), asNumber u (.ofOption value2) with
  | some low, some high =>
    let smaller := if high.compareTo low == .lt then high else low
    let larger := if high.compareTo low == .gt then high else low
    match asNumber u cell with
    | none => false
    | some number => number.compareTo smaller != .lt && number.compareTo larger != .gt
  | _, _ =>
    let low := asText u (.ofOption value)
    let high := asText u (.ofOption value2)
    let smaller := if compareText high low == .lt then high else low
    let larger := if compareText high low == .lt then low else high
    compareText (asText u cell) smaller != .lt && compareText (asText u cell) larger != .gt

/-- `evaluate_condition` -/
def evaluateCondition (u : Unicode) (condition : ConditionSpec) (cell : Cell) : Bool :=
  match condition.operator, cell with
  | .isNull, .none => true
  | .isNull, _ => false
  | .isNotNull, .none => false
  | .isNotNull, _ => true
  | _, .none => false
  | .gt, cell | .gte, cell | .lt, cell | .lte, cell =>
    compareOrdered u cell condition.value condition.operator
  | .eq, cell => equals u cell condition.value
  | .neq, cell => !equals u cell condition.value
  | .contains, cell =>
    contains (u.lower (asText u cell)) (u.lower (asText u (.ofOption condition.value)))
  | .notContains, cell =>
    !contains (u.lower (asText u cell)) (u.lower (asText u (.ofOption condition.value)))
  | .startsWith, cell =>
    startsWith (u.lower (asText u cell)) (u.lower (asText u (.ofOption condition.value)))
  | .in_, cell => (splitList u condition.value).any fun member => equals u cell (some member)
  | .notIn, cell => !(splitList u condition.value).any fun member => equals u cell (some member)
  | .inList, cell =>
    match condition.members with
    | none => false
    | some members => isMember u members cell
  | .notInList, cell =>
    match condition.members with
    | none => false
    | some members => !isMember u members cell
  | .between, cell => isBetween u cell condition.value condition.value2

/-! ## A whole result -/

/-- `index_by_column.get(name)`: of two columns with one name the dictionary has the later. -/
def indexByColumn (columns : List String) (name : String) : Option (Fin columns.length) :=
  (List.finRange columns.length).reverse.find? fun i => columns.get i = name

/-- The names in order without repetition, as `sorted(set(..))` gives them. -/
def sortedNames (names : List String) : List String :=
  names.dedup.insertionSort fun a b => a ≤ b

@[simp] theorem mem_sortedNames {names : List String} {name : String} :
    name ∈ sortedNames names ↔ name ∈ names := by
  rw [sortedNames, List.mem_insertionSort, List.mem_dedup]

/-- A rule with the columns of its conditions found. -/
abbrev Resolved (columns : List String) := List (ConditionSpec × Fin columns.length)

/-- The conditions whose column exists, with its position. -/
def resolve (columns : List String) (conditions : List ConditionSpec) : Resolved columns :=
  conditions.filterMap fun c => (indexByColumn columns c.columnName).map fun i => (c, i)

/-- The columns that conditions name and the result does not have. -/
def missingColumns (columns : List String) (conditions : List ConditionSpec) : List String :=
  (conditions.filter fun c => (indexByColumn columns c.columnName).isNone).map
    ConditionSpec.columnName

def hit (rule : RuleSpec) (matched : Nat) : RuleHit := ⟨rule.id, rule.name, rule.severity, matched⟩

def noConditions (u : Unicode) (name : String) : String :=
  "Rule " ++ repr u name ++ " has no conditions and matched nothing."

def missingWarning (u : Unicode) (columns : List String) (name : String) (missing : List String) :
    String :=
  "Rule " ++ repr u name ++ " refers to " ++ join ", " ((sortedNames missing).map (repr u)) ++
    ", which the result does not contain " ++ reprList u (sortedNames columns) ++
    ". It matched nothing."

/-- The column of a condition can never satisfy a comparison with true or false. -/
def neverBoolean (u : Unicode) {columns : List String} (rows : List (Row columns))
    (condition : ConditionSpec) (position : Fin columns.length) : Bool :=
  if condition.operator ≠ .eq ∧ condition.operator ≠ .neq then false
  else if asBool u (.ofOption condition.value) = none then false
  else
    let column := (rows.map fun row => row.cell position).filter fun
      | .none => false
      | _ => true
    !column.isEmpty && !column.any fun
      | .bool _ => true
      | cell => isBoolWord u cell

/-- `_why_nothing_matched` -/
def whyNothingMatched (u : Unicode) {columns : List String} (name : String)
    (resolved : Resolved columns) (rows : List (Row columns)) : String :=
  let detail :=
    match resolved.find? fun c => neverBoolean u rows c.1 c.2 with
    | none => ""
    | some (condition, _) =>
      " Column " ++ repr u condition.columnName ++ " holds no true/false values, so comparing " ++
        "it to " ++ (Cell.ofOption condition.value).repr u ++ " can never match. Did you mean a " ++
        "different column?"
  "Rule " ++ repr u name ++ " matched no rows." ++ detail

/-- What the first loop of `evaluate` makes of one enabled rule: it can be used, or is tallied with
a warning at once. -/
def classify (u : Unicode) (columns : List String) (rule : RuleSpec) :
    Sum (RuleHit × String) (RuleSpec × Resolved columns) :=
  if rule.conditions = [] then .inl (hit rule 0, noConditions u rule.name)
  else
    let missing := missingColumns columns rule.conditions
    if missing ≠ [] then .inl (hit rule 0, missingWarning u columns rule.name missing)
    else .inr (rule, resolve columns rule.conditions)

/-- The ids of the rules that match a row, in rule order. -/
def hitIds (u : Unicode) {columns : List String} (usable : List (RuleSpec × Resolved columns))
    (row : Row columns) : List String :=
  (usable.filter fun r => r.2.all fun c => evaluateCondition u c.1 (row.cell c.2)).map fun r =>
    r.1.id

/-- `matched_counts[rule.id] += 1` -/
def bump (counts : String → Nat) (id : String) : String → Nat :=
  Function.update counts id (counts id + 1)

/-- The second loop of `evaluate`: the flagged rows and the counts, by rule id. -/
def scanRows (u : Unicode) {columns : List String} (usable : List (RuleSpec × Resolved columns)) :
    List (Row columns) → Nat → (String → Nat) → List RowFlag × (String → Nat)
  | [], _, counts => ([], counts)
  | row :: rows, index, counts =>
    let ids := hitIds u usable row
    let rest := scanRows u usable rows (index + 1) (ids.foldl bump counts)
    (if ids = [] then rest.1 else ⟨index, ids⟩ :: rest.1, rest.2)

/-- `evaluate` -/
def evaluate (u : Unicode) (rules : List RuleSpec) (columns : List String)
    (rows : List (Row columns)) : FlagOutcome :=
  let classified := (rules.filter RuleSpec.enabled).map (classify u columns)
  let refused := classified.filterMap Sum.getLeft?
  let usable := classified.filterMap Sum.getRight?
  let (flagged, counts) := scanRows u usable rows 0 fun _ => 0
  { rows := flagged
    rules := refused.map Prod.fst ++ usable.map fun r => hit r.1 (counts r.1.id)
    warnings := refused.map Prod.snd ++
      (usable.filter fun r => counts r.1.id = 0).map fun r =>
        whyNothingMatched u r.1.name r.2 rows }

/-! ## From stored rules -/

/-- `_members_of`: the member keys of the list a condition names; `lists` has the items of each
stored list. -/
def membersOf (u : Unicode) (lists : String → Option (List String)) (condition : FlagCondition) :
    Option (List Member) :=
  (condition.listId.bind lists).map (membersFromItems u)

/-- `specs_from_models` -/
def specsFromModels (u : Unicode) (lists : String → Option (List String)) (rules : List FlagRule) :
    List RuleSpec :=
  (sortedBy FlagRule.position rules).map fun rule =>
    ⟨rule.id, rule.name, rule.severity,
      (sortedBy FlagCondition.position rule.conditions).map fun c =>
        ⟨c.columnName, c.operator, c.value, c.value2, membersOf u lists c⟩,
      rule.enabled⟩

end FraudAnalyzer.FlagRules
