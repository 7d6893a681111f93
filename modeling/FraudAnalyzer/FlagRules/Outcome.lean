import FraudAnalyzer.Charts.Fingerprint
import FraudAnalyzer.FlagRules.Engine

/-!
# Flag outcomes on the wire

`FlagOutcome.as_dict` with the fingerprints `evaluate_flags` adds, and `row_fingerprint` of
`app/features/flag_rules/dismissals.py`.
-/

namespace FraudAnalyzer.FlagRules

open Python

/-- A flagged row as it is sent. -/
structure FlaggedEntry where
  index : Nat
  ruleIds : List String
  fingerprint : Option String
  deriving DecidableEq

/-- The `flags` of a run payload. -/
structure Flags where
  flaggedCount : Nat
  rows : List FlaggedEntry
  rules : List RuleHit
  warnings : List String
  deriving DecidableEq

/-- `row_fingerprint` -/
def rowFingerprint (sha256Hex : Sha256Hex) (values : List Cell) : String :=
  sha256Hex (String.ofList (Cell.list values).json.sortKeys.write).toUTF8

/-- `evaluate_flags` -/
def evaluateFlags (u : Unicode) (sha256Hex : Sha256Hex) (lists : String → Option (List String))
    (rules : List FlagRule) (columns : List String) (rows : List (Row columns)) : Flags :=
  if rules = [] then ⟨0, [], [], []⟩
  else
    let outcome := evaluate u (specsFromModels u lists rules) columns rows
    { flaggedCount := outcome.rows.length
      rows := outcome.rows.map fun flagged =>
        ⟨flagged.index, flagged.ruleIds,
          rows[flagged.index]?.map fun row => rowFingerprint sha256Hex row.val⟩
      rules := outcome.rules
      warnings := outcome.warnings }

namespace Flags

def entryJson (entry : FlaggedEntry) : Json :=
  .obj ([("index", .ofInt entry.index), ("rule_ids", .arr (entry.ruleIds.map .str))] ++
    (entry.fingerprint.map fun f => ("fingerprint", .str f)).toList)

def hitJson (hit : RuleHit) : Json :=
  .obj [("id", .str hit.id), ("name", .str hit.name), ("severity", .str hit.severity.value),
    ("matched", .ofInt hit.matched)]

/-- The dictionary, as JSON. -/
def json (flags : Flags) : Json :=
  .obj [("flagged_count", .ofInt flags.flaggedCount), ("rows", .arr (flags.rows.map entryJson)),
    ("rules", .arr (flags.rules.map hitJson)), ("warnings", .arr (flags.warnings.map .str))]

end Flags

end FraudAnalyzer.FlagRules
