import FraudAnalyzer.Charts.Models

/-!
# The definition fingerprint

`definition_fingerprint` hashes the canonical JSON of everything an administrator reviews. `Covered`
is what it reads of a query, a chart and the rules, with rules and conditions in position order;
`canonical` is the document. The document determines what it covers (`canonical_injective`), so
with a collision-free hash equal fingerprints mean equal covered fields
(`definitionFingerprint_eq_iff`).
-/

namespace FraudAnalyzer

open Policy

structure CoveredCondition where
  columnName : String
  operator : FlagOperator
  value : Option String
  value2 : Option String
  listId : Option String
  deriving DecidableEq

structure CoveredRule where
  name : String
  severity : FlagSeverity
  enabled : Bool
  conditions : List CoveredCondition
  deriving DecidableEq

/-- The fields the fingerprint covers. -/
structure Covered where
  sqlText : String
  rowLimit : Int
  pollIntervalMs : Option Int
  chart : ChartMapping
  rules : List CoveredRule
  deriving DecidableEq

def FlagCondition.covered (c : FlagCondition) : CoveredCondition :=
  ⟨c.columnName, c.operator, c.value, c.value2, c.listId⟩

def FlagRule.covered (r : FlagRule) : CoveredRule :=
  ⟨r.name, r.severity, r.enabled,
    (sortedBy FlagCondition.position r.conditions).map FlagCondition.covered⟩

/-- What the fingerprint reads of a definition. -/
def coveredDefinition (query : SavedQuery) (chart : QueryChart) (rules : List FlagRule) : Covered :=
  ⟨query.sqlText, query.rowLimit, query.pollIntervalMs, chart.toChartMapping,
    (sortedBy FlagRule.position rules).map FlagRule.covered⟩

/-! ## The canonical document -/

namespace Covered

/-- `VERSION` -/
def version : Int := 1

def conditionFields (c : CoveredCondition) : List (String × Json) :=
  [("column_name", .str c.columnName), ("operator", .str c.operator.value),
    ("value", .ofOption .str c.value), ("value2", .ofOption .str c.value2),
    ("list_id", .ofOption .str c.listId)]

def ruleFields (r : CoveredRule) : List (String × Json) :=
  [("name", .str r.name), ("severity", .str r.severity.value), ("enabled", .bool r.enabled),
    ("conditions", .arr (r.conditions.map fun c => .obj (conditionFields c)))]

def chartFields (m : ChartMapping) : List (String × Json) :=
  [("chart_type", .str m.chartType.value), ("x_field", .ofOption .str m.xField),
    ("y_field", .ofOption .str m.yField), ("series_field", .ofOption .str m.seriesField),
    ("surge_threshold_pct", .ofOption PyFloat.json m.surgeThresholdPct)]

def fields (d : Covered) : List (String × Json) :=
  [("v", .ofInt version), ("sql_text", .str d.sqlText), ("row_limit", .ofInt d.rowLimit),
    ("poll_interval_ms", .ofOption .ofInt d.pollIntervalMs), ("chart", .obj (chartFields d.chart)),
    ("rules", .arr (d.rules.map fun r => .obj (ruleFields r)))]

/-- `json.dumps(canonical, sort_keys=True, separators=(",", ":"), ensure_ascii=False)` -/
def encoded (d : Covered) : String :=
  String.ofList (Json.obj d.fields).sortKeys.write

end Covered

/-- `hashlib.sha256(encoded).hexdigest()` over the UTF-8 text; the hash is a parameter. -/
abbrev Sha256Hex := ByteArray → String

/-- `definition_fingerprint` -/
def definitionFingerprint (sha256Hex : Sha256Hex) (query : SavedQuery) (chart : QueryChart)
    (rules : List FlagRule) : String :=
  sha256Hex (coveredDefinition query chart rules).encoded.toUTF8

/-! ## The document determines what it covers -/

namespace Covered

theorem ofOption_str_inj {a b : Option String}
    (h : (Json.ofOption .str a).sortKeys = (Json.ofOption .str b).sortKeys) : a = b := by
  refine Json.sortKeys_ofOption_inj (fun s t hst => ?_) (fun s hs => ?_) h
  · exact Json.str.inj hst
  · cases hs

theorem ofOption_ofInt_inj {a b : Option Int}
    (h : (Json.ofOption .ofInt a).sortKeys = (Json.ofOption .ofInt b).sortKeys) : a = b := by
  refine Json.sortKeys_ofOption_inj (fun m n hmn => ?_) (fun n hn => ?_) h
  · exact Json.ofInt_injective hmn
  · cases hn

theorem ofOption_float_inj {a b : Option PyFloat}
    (h : (Json.ofOption PyFloat.json a).sortKeys = (Json.ofOption PyFloat.json b).sortKeys) :
    a = b := by
  refine Json.sortKeys_ofOption_inj (fun x y hxy => ?_) (fun x hx => ?_) h
  · obtain ⟨x⟩ := x
    obtain ⟨y⟩ := y
    exact congrArg PyFloat.mk (Json.num.inj hxy)
  · cases hx

theorem condition_injective :
    Function.Injective fun c : CoveredCondition => (Json.obj (conditionFields c)).sortKeys := by
  intro c d h
  have hfields := Json.eq_of_sortFields_eq (by rfl) (by simp [conditionFields]) h
  simp only [conditionFields, Json.sortFields, List.cons.injEq, Prod.mk.injEq, true_and,
    and_true] at hfields
  obtain ⟨hcolumn, hoperator, hvalue, hvalue2, hlist⟩ := hfields
  obtain ⟨column, operator, value, value2, list⟩ := c
  obtain ⟨column', operator', value', value2', list'⟩ := d
  obtain rfl : column = column' := Json.str.inj hcolumn
  obtain rfl := FlagOperator.value_injective (Json.str.inj hoperator)
  obtain rfl := ofOption_str_inj hvalue
  obtain rfl := ofOption_str_inj hvalue2
  obtain rfl := ofOption_str_inj hlist
  rfl

theorem rule_injective :
    Function.Injective fun r : CoveredRule => (Json.obj (ruleFields r)).sortKeys := by
  intro r s h
  have hfields := Json.eq_of_sortFields_eq (by rfl) (by simp [ruleFields]) h
  simp only [ruleFields, Json.sortFields, List.cons.injEq, Prod.mk.injEq, true_and,
    and_true] at hfields
  obtain ⟨hname, hseverity, henabled, hconditions⟩ := hfields
  obtain ⟨name, severity, enabled, conditions⟩ := r
  obtain ⟨name', severity', enabled', conditions'⟩ := s
  obtain rfl : name = name' := Json.str.inj hname
  obtain rfl := FlagSeverity.value_injective (Json.str.inj hseverity)
  obtain rfl : enabled = enabled' := Json.bool.inj henabled
  obtain rfl := Json.sortKeys_map_inj condition_injective hconditions
  rfl

theorem chart_injective :
    Function.Injective fun m : ChartMapping => (Json.obj (chartFields m)).sortKeys := by
  intro m n h
  have hfields := Json.eq_of_sortFields_eq (by rfl) (by simp [chartFields]) h
  simp only [chartFields, Json.sortFields, List.cons.injEq, Prod.mk.injEq, true_and,
    and_true] at hfields
  obtain ⟨htype, hx, hy, hseries, hsurge⟩ := hfields
  obtain ⟨type, x, y, series, surge⟩ := m
  obtain ⟨type', x', y', series', surge'⟩ := n
  obtain rfl := ChartType.value_injective (Json.str.inj htype)
  obtain rfl := ofOption_str_inj hx
  obtain rfl := ofOption_str_inj hy
  obtain rfl := ofOption_str_inj hseries
  obtain rfl := ofOption_float_inj hsurge
  rfl

theorem fields_injective :
    Function.Injective fun d : Covered => (Json.obj d.fields).sortKeys := by
  intro d e h
  have hfields := Json.eq_of_sortFields_eq (by rfl) (by simp [fields]) h
  simp only [fields, Json.sortFields, List.cons.injEq, Prod.mk.injEq, true_and,
    and_true] at hfields
  obtain ⟨hsql, hlimit, hinterval, hchart, hrules⟩ := hfields
  obtain ⟨sql, limit, interval, chart, rules⟩ := d
  obtain ⟨sql', limit', interval', chart', rules'⟩ := e
  obtain rfl : sql = sql' := Json.str.inj hsql
  obtain rfl := Json.ofInt_injective hlimit
  obtain rfl := ofOption_ofInt_inj hinterval
  obtain rfl := chart_injective hchart
  obtain rfl := Json.sortKeys_map_inj rule_injective hrules
  rfl

/-- The canonical text determines what it covers. -/
theorem encoded_injective : Function.Injective encoded := by
  intro d e h
  have hwrite := congrArg String.toList h
  simp only [encoded, String.toList_ofList] at hwrite
  exact fields_injective (Json.write_injective hwrite)

end Covered

/-- **Fingerprints are equal exactly when the covered fields are**, for a collision-free hash. -/
theorem fingerprint_eq_iff_covered_eq {sha256Hex : Sha256Hex} (hsha : Function.Injective sha256Hex)
    {query query' : SavedQuery} {chart chart' : QueryChart} {rules rules' : List FlagRule} :
    definitionFingerprint sha256Hex query chart rules =
        definitionFingerprint sha256Hex query' chart' rules' ↔
      coveredDefinition query chart rules = coveredDefinition query' chart' rules' := by
  constructor
  · intro h
    have hbytes := hsha h
    exact Covered.encoded_injective (String.toByteArray_inj.mp hbytes)
  · intro h
    unfold definitionFingerprint
    rw [h]

/-- A digest without collisions: the bytes themselves, one character each. -/
def bytesDigest : Sha256Hex := fun bytes =>
  String.ofList (bytes.data.toList.map fun b => Char.ofNat b.toNat)

theorem bytesDigest_injective : Function.Injective bytesDigest := by
  intro a b h
  have hbyte : Function.Injective fun b : UInt8 => Char.ofNat b.toNat := by
    intro x y hxy
    have hvalid : ∀ b : UInt8, (Char.ofNat b.toNat).toNat = b.toNat := by
      intro b
      unfold Char.ofNat
      rw [dif_pos (.inl (Nat.lt_trans b.toNat_lt (by decide)))]
      rfl
    apply UInt8.toNat_inj.mp
    rw [← hvalid x, ← hvalid y]
    exact congrArg Char.toNat hxy
  have hlist := List.map_injective_iff.mpr hbyte (String.ofList_injective h)
  exact ByteArray.ext (Array.toList_inj.mp hlist)

end FraudAnalyzer
