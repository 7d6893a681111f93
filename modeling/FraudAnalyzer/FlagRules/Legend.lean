import FraudAnalyzer.FlagRules.FlaggedView
import FraudAnalyzer.FlagRules.Relabel

/-!
# The legend of a section

The legend counts the findings of each rule and takes the severity of a rule from the findings that
cite it. A finding has only the worst severity of its rules, so a rule is shown with the severity it
had in its run when the rules of every finding to show have one severity (`legendCorrect_iff`).
-/

namespace FraudAnalyzer.FlagRules

open Python Policy Queries

/-- The legend of a section for the rules of the last run and the rules the query has now. -/
structure LegendCorrect (rules : List FlagRule) (s : Store) (results : ResultCache Body)
    (now : Clock) (query : SavedQuery) (user : User) : Prop where
  once : ((sectionOf s results now query user).rules.map RuleHit.id).Nodup
  cited : ∀ rule ∈ rules, (∃ row ∈ undismissed s query user, rule.id ∈ row.ruleIds) →
    ⟨rule.id, rule.name, rule.severity,
        (undismissed s query user).countP fun row => rule.id ∈ row.ruleIds⟩ ∈
      (sectionOf s results now query user).rules
  uncited : ∀ rule ∈ s.db.rulesOf query.id,
    (∀ row ∈ undismissed s query user, rule.id ∉ row.ruleIds) →
      ⟨rule.id, rule.name, rule.severity, 0⟩ ∈ (sectionOf s results now query user).rules

/-- The rules that each finding to show cites have one severity. -/
def OneSeverity (rules : List FlagRule) (visible : List FlaggedRow) : Prop :=
  ∀ row ∈ visible, ∀ r ∈ rules, ∀ r' ∈ rules, r.id ∈ row.ruleIds → r'.id ∈ row.ruleIds →
    r.severity = r'.severity

/-- What a finding has of the rules that a run cited for it. -/
structure Cites (rules cited : List FlagRule) (row : FlaggedRow) : Prop where
  mem : ∀ r ∈ cited, r ∈ rules
  nodup : (cited.map FlagRule.id).Nodup
  ids : row.ruleIds = cited.map FlagRule.id
  names : row.ruleNames = cited.map FlagRule.name
  severity : row.severity = worst (cited.map FlagRule.severity)

theorem order_injective : Function.Injective FlagSeverity.order := by
  intro a b h
  cases a <;> cases b <;> first | rfl | cases h

/-! ## What a run stores -/

section Stored

variable {u : Unicode} {sha256Hex : Sha256Hex} {lists : String → Option (List String)}
  {rules : List FlagRule} {columns : List String} {rows : List (Row columns)}

/-- The spec of a rule in a run. -/
def specOf (u : Unicode) (lists : String → Option (List String)) (rule : FlagRule) : RuleSpec :=
  coveredSpec u lists rule.id rule.covered

theorem specs_eq : specsFromModels u lists rules =
    (sortedBy FlagRule.position rules).map (specOf u lists) := specsFromModels_eq

theorem nodup_sortedIds (hids : (rules.map FlagRule.id).Nodup) :
    ((sortedBy FlagRule.position rules).map FlagRule.id).Nodup :=
  ((sortedBy_perm _ rules).map _).nodup_iff.mpr hids

/-- The rules that a run cites for a row. -/
def citedFor (u : Unicode) (lists : String → Option (List String)) (rules : List FlagRule)
    (row : Row columns) : List FlagRule :=
  (sortedBy FlagRule.position rules).filter fun r => Marks u (specOf u lists r) row

/-- A row is flagged with the ids of the rules that mark it. -/
theorem ruleIds_of_mem {flagged : FlaggedEntry}
    (h : flagged ∈ (evaluateFlags u sha256Hex lists rules columns rows).rows) :
    ∃ row : Row columns, flagged.ruleIds = (citedFor u lists rules row).map FlagRule.id := by
  unfold evaluateFlags at h
  split at h
  · cases h
  · obtain ⟨flag, hflag, rfl⟩ := List.mem_map.mp h
    rw [evaluate_rows] at hflag
    obtain ⟨p, -, hp⟩ := List.mem_filterMap.mp hflag
    unfold flagOf at hp
    split at hp
    · cases hp
    · cases hp
      refine ⟨p.1, ?_⟩
      rw [hitIds_usable, specs_eq, List.filter_map, List.map_map]
      rfl

/-- The outcome lists a rule that marks a row with its name and severity. -/
theorem ruleWithId_of_cited (hids : (rules.map FlagRule.id).Nodup) {row : Row columns}
    {rule : FlagRule} (h : rule ∈ citedFor u lists rules row) :
    ∃ matched, ruleWithId (evaluateFlags u sha256Hex lists rules columns rows).rules rule.id =
      some ⟨rule.id, rule.name, rule.severity, matched⟩ := by
  obtain ⟨hmem, hmarks⟩ := List.mem_filter.mp h
  have hmarks : Marks u (specOf u lists rule) row := decide_eq_true_iff.mp hmarks
  have hspec : specOf u lists rule ∈ specsFromModels u lists rules := by
    rw [specs_eq]
    exact List.mem_map_of_mem hmem
  have hspecs : ((specsFromModels u lists rules).map RuleSpec.id).Nodup := by
    rw [specs_eq, List.map_map]
    exact nodup_sortedIds hids
  have hrules : rules ≠ [] := List.ne_nil_of_mem (mem_sortedBy.mp hmem)
  have htally := tallyOf_evaluate (u := u) hspecs hspec rows
  rw [if_pos hmarks.enabled, FlagOutcome.tallyOf] at htally
  unfold evaluateFlags ruleWithId
  rw [if_neg hrules]
  generalize evaluate u (specsFromModels u lists rules) columns rows = outcome at htally ⊢
  have hentry : ∀ e, e ∈ outcome.rules ∧ e.id = rule.id ↔
      e = hit (specOf u lists rule) (outcome.citing rule.id).length := by
    intro e
    have hone : e ∈ [hit (specOf u lists rule) (outcome.citing rule.id).length] ↔
        e ∈ outcome.rules ∧ decide (e.id = rule.id) = true :=
      (iff_of_eq (congrArg (e ∈ ·) htally.symm)).trans List.mem_filter
    rw [← decide_eq_true_iff (p := e.id = rule.id), ← hone, List.mem_singleton]
  have hlisted := (hentry _).mpr rfl
  have hsome := List.find?_isSome (p := fun e : RuleHit => e.id = rule.id).mpr
    ⟨_, List.mem_reverse.mpr hlisted.1, decide_eq_true hlisted.2⟩
  obtain ⟨e, he⟩ := Option.isSome_iff_exists.mp hsome
  have hfound := (hentry e).mp
    ⟨List.mem_reverse.mp (List.mem_of_find?_eq_some he), by simpa using List.find?_some he⟩
  refine ⟨(outcome.citing rule.id).length, he.trans ?_⟩
  rw [hfound]
  rfl

/-- **What the findings of a run say**: the rules that mark the row, and the worst severity. -/
theorem cites_of_sync (hids : (rules.map FlagRule.id).Nodup) {before : Table FlaggedRow.key}
    {queryId fingerprint : String} {now : Instant} {row : FlaggedRow}
    (h : (sync sha256Hex before queryId columns (rows.map Subtype.val)
      (evaluateFlags u sha256Hex lists rules columns rows) now).1.get (queryId, fingerprint) =
        some row) : ∃ cited, Cites rules cited row := by
  rw [get_sync, if_pos rfl, Option.map_eq_some_iff] at h
  obtain ⟨found, hfound, hrow⟩ := h
  obtain ⟨flagged, hflagged, values, -, -, rfl⟩ := exists_of_matchedBy hfound
  obtain ⟨marked, hmarked⟩ := ruleIds_of_mem hflagged
  have hlisted : ∀ r ∈ citedFor u lists rules marked, ∃ matched,
      ruleWithId (evaluateFlags u sha256Hex lists rules columns rows).rules r.id =
        some ⟨r.id, r.name, r.severity, matched⟩ := fun r hr => ruleWithId_of_cited hids hr
  have hfield : ∀ {α : Type} (field : RuleHit → α) (field' : FlagRule → α),
      (∀ (r : FlagRule) matched, field ⟨r.id, r.name, r.severity, matched⟩ = field' r) →
      (flagged.ruleIds.filterMap fun id =>
        (ruleWithId (evaluateFlags u sha256Hex lists rules columns rows).rules id).map field) =
          (citedFor u lists rules marked).map field' := by
    intro α field field' hsame
    rw [hmarked, List.filterMap_map, ← List.filterMap_eq_map]
    refine List.filterMap_congr fun r hr => ?_
    obtain ⟨matched, hr⟩ := hlisted r hr
    rw [Function.comp_apply, hr, Option.map_some, hsame]
    rfl
  refine ⟨citedFor u lists rules marked, fun r hr => ?_, ?_, ?_, ?_, ?_⟩
  · exact mem_sortedBy.mp (List.mem_filter.mp hr).1
  · exact (nodup_sortedIds hids).sublist (List.filter_sublist.map _)
  · rw [← hrow]
    exact hmarked
  · rw [← hrow]
    exact hfield RuleHit.name FlagRule.name fun _ _ => rfl
  · rw [← hrow]
    exact congrArg worst (hfield RuleHit.severity FlagRule.severity fun _ _ => rfl)

end Stored

/-! ## The legend -/

section Legend

variable {rules : List FlagRule} {stored : List FlaggedRow} {id : String}

/-- The rules that the findings cite, each with the severity of the finding. -/
def citations (stored : List FlaggedRow) : List (FlagSeverity × String × String) :=
  stored.flatMap fun row => (row.ruleIds.zip row.ruleNames).map fun rule => (row.severity, rule)

/-- The entry a rule is first noted with. -/
def freshEntry (citation : FlagSeverity × String × String) : RuleHit :=
  ⟨citation.2.1, citation.2.2, citation.1, 0⟩

def addCitation (entry : RuleHit) (citation : FlagSeverity × String × String) : RuleHit :=
  { entry with
    matched := entry.matched + 1
    severity := if entry.severity.order < citation.1.order then citation.1 else entry.severity }

/-- The entries of the rules that are cited. -/
def found (stored : List FlaggedRow) : OrderedDict String RuleHit :=
  OrderedDict.tally (fun c => c.2.1) freshEntry addCitation (citations stored)

theorem found_eq (stored : List FlaggedRow) :
    stored.foldl
      (fun legend row => (row.ruleIds.zip row.ruleNames).foldl (noteRule row.severity) legend)
        .empty = found stored := by
  rw [found, OrderedDict.tally, citations, List.foldl_flatMap]
  simp only [List.foldl_map]
  rfl

theorem citations_of_cites {row : FlaggedRow} {cited : List FlagRule} (h : Cites rules cited row) :
    citations [row] = cited.map fun r => (row.severity, r.id, r.name) := by
  rw [citations, List.flatMap_singleton, h.ids, h.names, List.zip_map', List.map_map]
  rfl

theorem citations_cons (row : FlaggedRow) (stored : List FlaggedRow) :
    citations (row :: stored) = citations [row] ++ citations stored := by
  simp only [citations, List.flatMap_cons, List.flatMap_nil, List.append_nil]

theorem mem_citations {c : FlagSeverity × String × String} :
    c ∈ citations stored ↔ ∃ row ∈ stored, c ∈ citations [row] := by
  simp only [citations, List.mem_flatMap, List.flatMap_singleton]

/-- A rule of the run is cited when its id is in the finding. -/
theorem Cites.mem_iff (hids : (rules.map FlagRule.id).Nodup) {row : FlaggedRow}
    {cited : List FlagRule} (h : Cites rules cited row) {rule : FlagRule} (hrule : rule ∈ rules) :
    rule ∈ cited ↔ rule.id ∈ row.ruleIds := by
  rw [h.ids, List.mem_map]
  constructor
  · exact fun hmem => ⟨rule, hmem, rfl⟩
  · rintro ⟨other, hother, hid⟩
    rwa [← List.inj_on_of_nodup_map hids (h.mem other hother) hrule hid]

section Run

variable (hids : (rules.map FlagRule.id).Nodup)
  (hrows : ∀ row ∈ stored, ∃ cited, Cites rules cited row)

include hids hrows in
/-- The citations with the id of a rule. -/
theorem mem_citations_iff {rule : FlagRule} (hrule : rule ∈ rules)
    {c : FlagSeverity × String × String} :
    c ∈ citations stored ∧ c.2.1 = rule.id ↔
      ∃ row ∈ stored, rule.id ∈ row.ruleIds ∧ c = (row.severity, rule.id, rule.name) := by
  rw [mem_citations]
  constructor
  · rintro ⟨⟨row, hrow, hc⟩, hid⟩
    obtain ⟨cited, hcites⟩ := hrows row hrow
    rw [citations_of_cites hcites, List.mem_map] at hc
    obtain ⟨r, hr, rfl⟩ := hc
    have hsame := List.inj_on_of_nodup_map hids (hcites.mem r hr) hrule hid
    subst hsame
    exact ⟨row, hrow, (hcites.mem_iff hids hrule).mp hr, rfl⟩
  · rintro ⟨row, hrow, hid, rfl⟩
    obtain ⟨cited, hcites⟩ := hrows row hrow
    refine ⟨⟨row, hrow, ?_⟩, rfl⟩
    rw [citations_of_cites hcites, List.mem_map]
    exact ⟨rule, (hcites.mem_iff hids hrule).mpr hid, rfl⟩

include hrows in
/-- Each finding that cites an id has one citation of it. -/
theorem length_citations (id : String) :
    (((citations stored).filter fun c => c.2.1 = id).map fun _ => 1).sum =
      stored.countP fun row => id ∈ row.ruleIds := by
  rw [List.map_const', List.sum_replicate_nat, Nat.mul_one]
  induction stored with
  | nil => rfl
  | cons row stored ih =>
    rw [List.forall_mem_cons] at hrows
    obtain ⟨cited, hcites⟩ := hrows.1
    have hone : ((citations [row]).filter fun c => c.2.1 = id).length =
        if id ∈ row.ruleIds then 1 else 0 := by
      rw [citations_of_cites hcites, List.filter_map, List.length_map,
        ← List.countP_eq_length_filter, hcites.ids, ← hcites.nodup.count, List.count,
        List.countP_map]
      rfl
    rw [citations_cons, List.filter_append, List.length_append, hone, ih hrows.2, List.countP_cons,
      Nat.add_comm]
    simp only [decide_eq_true_iff]

include hids hrows in
/-- **The entry of a rule that is cited**: its name, the number of findings, and the worst severity
among them. -/
theorem get_found {rule : FlagRule} (hrule : rule ∈ rules)
    (hcited : ∃ row ∈ stored, rule.id ∈ row.ruleIds) :
    ∃ severity, (found stored).get rule.id =
        some ⟨rule.id, rule.name, severity, stored.countP fun row => rule.id ∈ row.ruleIds⟩ ∧
      (∀ row ∈ stored, rule.id ∈ row.ruleIds → row.severity.order ≤ severity.order) ∧
      ∀ bound, (∀ row ∈ stored, rule.id ∈ row.ruleIds → row.severity.order ≤ bound) →
        severity.order ≤ bound := by
  have hmem : ∀ c, c ∈ citations stored → c.2.1 = rule.id →
      ∃ row ∈ stored, rule.id ∈ row.ruleIds ∧ c = (row.severity, rule.id, rule.name) :=
    fun c hc hid => (mem_citations_iff hids hrows hrule).mp ⟨hc, hid⟩
  have hfound : ((found stored).get rule.id).isSome = true := by
    obtain ⟨row, hrow, hid⟩ := hcited
    refine OrderedDict.get_tally_isSome.mpr ⟨(row.severity, rule.id, rule.name), ?_⟩
    exact (mem_citations_iff hids hrows hrule).mpr ⟨row, hrow, hid, rfl⟩
  obtain ⟨entry, hget⟩ := Option.isSome_iff_exists.mp hfound
  have hid : entry.id = rule.id := by
    refine OrderedDict.key_of_tally RuleHit.id ?_ ?_ hget
    · exact fun _ => rfl
    · exact fun _ _ => rfl
  have hname : entry.name = rule.name := by
    refine OrderedDict.of_tally (fun e : RuleHit => e.name = rule.name) ?_ ?_ hget
    · intro c hc hkey
      obtain ⟨row, -, -, rfl⟩ := hmem c hc hkey
      rfl
    · exact fun _ _ _ _ h => h
  have hmatched : entry.matched = stored.countP fun row => rule.id ∈ row.ruleIds := by
    have hcount : (((found stored).get rule.id).map RuleHit.matched).getD 0 =
        (((citations stored).filter fun c => c.2.1 = rule.id).map fun _ => 1).sum :=
      OrderedDict.count_tally RuleHit.matched (fun _ => 1) (fun _ => rfl) (fun _ _ => rfl)
        (citations stored) rule.id
    rw [hget, length_citations hrows] at hcount
    exact hcount
  refine ⟨entry.severity, ?_, fun row hrow hcites => ?_, fun bound hbound => ?_⟩
  · rw [← hmatched, ← hname]
    have hentry : (⟨rule.id, entry.name, entry.severity, entry.matched⟩ : RuleHit) = entry := by
      rw [← hid]
    rw [hentry]
    exact hget
  · refine OrderedDict.le_of_tally (fun e : RuleHit => e.severity.order) (fun c => c.1.order)
      (fun e c => ?_) (fun e c => ?_) hget (row.severity, rule.id, rule.name)
      ((mem_citations_iff hids hrows hrule).mpr ⟨row, hrow, hcites, rfl⟩).1 rfl
    · simp only [addCitation]
      split
      · omega
      · exact le_refl _
    · simp only [addCitation]
      split
      · exact le_refl _
      · omega
  · refine OrderedDict.of_tally (fun e : RuleHit => e.severity.order ≤ bound) ?_ ?_ hget
    · intro c hc hkey
      obtain ⟨row, hrow, hcites, rfl⟩ := hmem c hc hkey
      have hle := hbound row hrow hcites
      change (if row.severity.order < row.severity.order then row.severity
        else row.severity).order ≤ bound
      rw [ite_self]
      exact hle
    · intro c hc hkey e he
      obtain ⟨row, hrow, hcites, rfl⟩ := hmem c hc hkey
      simp only [addCitation]
      split
      · exact hbound row hrow hcites
      · exact he

end Run

/-! ## With the rules of now -/

/-- One turn of the loop over the rules of the query. -/
def addUncited (legend : OrderedDict String RuleHit) (rule : FlagRule) :
    OrderedDict String RuleHit :=
  if (legend.get rule.id).isSome then legend
  else legend.assign rule.id ⟨rule.id, rule.name, rule.severity, 0⟩

theorem legend_eq (stored : List FlaggedRow) (current : List FlagRule) :
    legend stored current = current.foldl addUncited (found stored) := by
  rw [legend, found_eq]
  rfl

theorem get_addUncited (d : OrderedDict String RuleHit) (rule : FlagRule) (id : String) :
    (addUncited d rule).get id =
      (d.get id).or
        (if id = rule.id then some ⟨rule.id, rule.name, rule.severity, 0⟩ else none) := by
  unfold addUncited
  split
  next hsome =>
    split
    next heq =>
      obtain ⟨e, he⟩ := Option.isSome_iff_exists.mp hsome
      rw [heq, he, Option.some_or]
    next => rw [Option.or_none]
  next hnone =>
    rw [OrderedDict.get_assign]
    split
    next heq => rw [heq, Option.not_isSome_iff_eq_none.mp hnone, Option.none_or]
    next => rw [Option.or_none]

/-- A rule of the query that no finding cites gets an entry of its own. -/
theorem get_foldl_addUncited (current : List FlagRule) (d : OrderedDict String RuleHit)
    (id : String) :
    (current.foldl addUncited d).get id =
      (d.get id).or ((current.find? fun r => r.id = id).map fun r =>
        ⟨r.id, r.name, r.severity, 0⟩) := by
  induction current generalizing d with
  | nil => exact (Option.or_none).symm
  | cons rule current ih =>
    rw [List.foldl_cons, ih, get_addUncited, Option.or_assoc, List.find?_cons]
    by_cases heq : id = rule.id
    · subst heq
      simp
    · simp [heq, Ne.symm heq]

/-- The entries know their ids. -/
theorem id_of_get_legend {stored : List FlaggedRow} {current : List FlagRule} {id : String}
    {entry : RuleHit} (h : (legend stored current).get id = some entry) : entry.id = id := by
  rw [legend_eq, get_foldl_addUncited, Option.or_eq_some_iff] at h
  rcases h with hfound | ⟨-, hcurrent⟩
  · refine OrderedDict.key_of_tally RuleHit.id ?_ ?_ hfound
    · exact fun _ => rfl
    · exact fun _ _ => rfl
  · obtain ⟨r, hr, rfl⟩ := Option.map_eq_some_iff.mp hcurrent
    simpa using List.find?_some hr

/-- The entries of the legend, by id. -/
theorem mem_legend_iff {stored : List FlaggedRow} {current : List FlagRule} {entry : RuleHit} :
    entry ∈ (legend stored current).entries.map Prod.snd ↔
      (legend stored current).get entry.id = some entry := by
  rw [List.mem_map]
  constructor
  · rintro ⟨⟨id, e⟩, hmem, rfl⟩
    have hget := OrderedDict.get_iff_mem.mpr hmem
    rwa [id_of_get_legend hget]
  · exact fun hget => ⟨_, OrderedDict.get_iff_mem.mp hget, rfl⟩

theorem nodup_legend (stored : List FlaggedRow) (current : List FlagRule) :
    (((legend stored current).entries.map Prod.snd).map RuleHit.id).Nodup := by
  have hkeys : ((legend stored current).entries.map Prod.snd).map RuleHit.id =
      (legend stored current).entries.map Prod.fst := by
    rw [List.map_map]
    exact List.map_congr_left fun e he => id_of_get_legend (OrderedDict.get_iff_mem.mpr he)
  rw [hkeys]
  exact (legend stored current).nodup

end Legend

/-! ## The section -/

section Section

variable {u : Unicode} {sha256Hex : Sha256Hex} {lists : String → Option (List String)}
  {rules : List FlagRule} {columns : List String} {rows : List (Row columns)} {s : Store}
  {results : ResultCache Body} {now : Clock} {query : SavedQuery} {user : User}

/-- The findings of the query are among those its last run stored. -/
def StoredByRun (u : Unicode) (sha256Hex : Sha256Hex) (lists : String → Option (List String))
    (rules : List FlagRule) (columns : List String) (rows : List (Row columns))
    (before : Table FlaggedRow.key) (ranAt : Instant) (s : Store) (query : SavedQuery) : Prop :=
  ∀ fingerprint row, s.flaggedRows.get (query.id, fingerprint) = some row →
    (sync sha256Hex before query.id columns (rows.map Subtype.val)
      (evaluateFlags u sha256Hex lists rules columns rows) ranAt).1.get (query.id, fingerprint) =
        some row

theorem get_of_undismissed {row : FlaggedRow} (h : row ∈ undismissed s query user) :
    s.flaggedRows.get (query.id, row.rowFingerprint) = some row := by
  have hrow := (List.mem_filter.mp h).1
  rw [rowsForQuery, List.mem_insertionSort] at hrow
  obtain ⟨hmem, hquery⟩ := List.mem_filter.mp hrow
  rw [Table.get_iff_mem]
  exact ⟨hmem, Prod.ext (decide_eq_true_iff.mp hquery) rfl⟩

theorem cites_of_undismissed (hids : (rules.map FlagRule.id).Nodup)
    {before : Table FlaggedRow.key} {ranAt : Instant}
    (hrun : StoredByRun u sha256Hex lists rules columns rows before ranAt s query) :
    ∀ row ∈ undismissed s query user, ∃ cited, Cites rules cited row :=
  fun _ hrow => cites_of_sync hids (hrun _ _ (get_of_undismissed hrow))

/-- A rule that is cited has the entry of the findings. -/
theorem get_legend_of_found {stored : List FlaggedRow} {current : List FlagRule} {id : String}
    {entry : RuleHit} (h : (found stored).get id = some entry) :
    (legend stored current).get id = some entry := by
  rw [legend_eq, get_foldl_addUncited, h, Option.some_or]

theorem found_eq_none {stored : List FlaggedRow} {id : String}
    (h : ∀ row ∈ stored, id ∉ row.ruleIds) : (found stored).get id = none := by
  refine Option.not_isSome_iff_eq_none.mp fun hsome => ?_
  obtain ⟨c, hc, hid⟩ := OrderedDict.get_tally_isSome.mp hsome
  obtain ⟨row, hrow, hc⟩ := List.mem_flatMap.mp hc
  obtain ⟨pair, hpair, rfl⟩ := List.mem_map.mp hc
  exact h row hrow (hid ▸ (List.of_mem_zip hpair).1)

theorem find?_rulesOf {db : Db} {queryId : String} {rule : FlagRule}
    (h : rule ∈ db.rulesOf queryId) :
    ((db.rulesOf queryId).find? fun r => r.id = rule.id) = some rule := by
  have hids : ((db.rulesOf queryId).map FlagRule.id).Nodup :=
    nodup_sortedIds (db.flagRules.nodup.sublist (List.filter_sublist.map _))
  have hsome := List.find?_isSome (p := fun r : FlagRule => r.id = rule.id).mpr ⟨rule, h, by simp⟩
  obtain ⟨r, hr⟩ := Option.isSome_iff_exists.mp hsome
  have hid : r.id = rule.id := by simpa using List.find?_some hr
  rw [hr, List.inj_on_of_nodup_map hids (List.mem_of_find?_eq_some hr) h hid]

/-- A legend that is right bounds the rules of a finding by each other. -/
theorem LegendCorrect.order_le (h : LegendCorrect rules s results now query user)
    (hids : (rules.map FlagRule.id).Nodup)
    (hrows : ∀ row ∈ undismissed s query user, ∃ cited, Cites rules cited row)
    {row : FlaggedRow} (hrow : row ∈ undismissed s query user) {r r' : FlagRule} (hr : r ∈ rules)
    (hr' : r' ∈ rules) (hid : r.id ∈ row.ruleIds) (hid' : r'.id ∈ row.ruleIds) :
    r'.severity.order ≤ r.severity.order := by
  obtain ⟨severity, hget, hmax, -⟩ := get_found hids hrows hr ⟨row, hrow, hid⟩
  have hentry := mem_legend_iff.mp (h.cited r hr ⟨row, hrow, hid⟩)
  rw [get_legend_of_found hget] at hentry
  have hseverity : severity = r.severity := congrArg RuleHit.severity (Option.some.inj hentry)
  obtain ⟨cited, hcites⟩ := hrows row hrow
  have hworst : r'.severity.order ≤ row.severity.order := by
    rw [hcites.severity]
    exact order_le_worst (List.mem_map_of_mem ((hcites.mem_iff hids hr').mpr hid'))
  exact hworst.trans (hseverity ▸ hmax row hrow hid)

/-- A finding whose rules have one severity has it too. -/
theorem Cites.severity_eq (hids : (rules.map FlagRule.id).Nodup) {row : FlaggedRow}
    {cited : List FlagRule} (h : Cites rules cited row) {rule : FlagRule} (hrule : rule ∈ rules)
    (hid : rule.id ∈ row.ruleIds)
    (hone : ∀ r ∈ rules, r.id ∈ row.ruleIds → r.severity = rule.severity) :
    row.severity = rule.severity := by
  have hmem := (h.mem_iff hids hrule).mpr hid
  have hworst := worst_mem (List.ne_nil_of_mem (List.mem_map_of_mem (f := FlagRule.severity) hmem))
  obtain ⟨r, hr, heq⟩ := List.mem_map.mp hworst
  rw [h.severity, ← heq]
  exact hone r (h.mem r hr) ((h.mem_iff hids (h.mem r hr)).mp hr)

/-- Where each finding has one severity, the entry of a rule has its own. -/
theorem cited_of_oneSeverity (hids : (rules.map FlagRule.id).Nodup) {stored : List FlaggedRow}
    (hrows : ∀ row ∈ stored, ∃ cited, Cites rules cited row) (hone : OneSeverity rules stored)
    {current : List FlagRule} {rule : FlagRule} (hrule : rule ∈ rules)
    (hcited : ∃ row ∈ stored, rule.id ∈ row.ruleIds) :
    ⟨rule.id, rule.name, rule.severity, stored.countP fun row => rule.id ∈ row.ruleIds⟩ ∈
      (legend stored current).entries.map Prod.snd := by
  obtain ⟨severity, hget, hmax, hleast⟩ := get_found hids hrows hrule hcited
  have hrow : ∀ row ∈ stored, rule.id ∈ row.ruleIds → row.severity = rule.severity := by
    intro row hrow hid
    obtain ⟨cited, hcites⟩ := hrows row hrow
    exact hcites.severity_eq hids hrule hid fun r hr hr' => hone row hrow r hr rule hrule hr' hid
  have hseverity : severity = rule.severity := by
    obtain ⟨row, hmem, hid⟩ := hcited
    refine order_injective (le_antisymm (hleast _ fun row hmem hid => ?_) ?_)
    · rw [hrow row hmem hid]
    · rw [← hrow row hmem hid]
      exact hmax row hmem hid
  subst hseverity
  exact mem_legend_iff.mpr (get_legend_of_found hget)

theorem uncited_of_notMem {stored : List FlaggedRow} {db : Db} {queryId : String} {rule : FlagRule}
    (hrule : rule ∈ db.rulesOf queryId) (hnone : ∀ row ∈ stored, rule.id ∉ row.ruleIds) :
    ⟨rule.id, rule.name, rule.severity, 0⟩ ∈
      (legend stored (db.rulesOf queryId)).entries.map Prod.snd := by
  rw [mem_legend_iff, legend_eq, get_foldl_addUncited, found_eq_none hnone, Option.none_or,
    find?_rulesOf hrule]
  rfl

end Section

/-- **The legend says what the rules of the run were and found** exactly when the rules cited by
each finding to show have one severity. -/
theorem legendCorrect_iff (u : Unicode) (sha256Hex : Sha256Hex)
    (lists : String → Option (List String)) (rules : List FlagRule) (columns : List String)
    (rows : List (Row columns)) (before : Table FlaggedRow.key) (ranAt : Instant) (s : Store)
    (results : ResultCache Body) (now : Clock) (query : SavedQuery) (user : User)
    (hids : (rules.map FlagRule.id).Nodup)
    (hrun : StoredByRun u sha256Hex lists rules columns rows before ranAt s query) :
    LegendCorrect rules s results now query user ↔
      OneSeverity rules (undismissed s query user) := by
  have hrows : ∀ row ∈ undismissed s query user, ∃ cited, Cites rules cited row :=
    cites_of_undismissed hids hrun
  constructor
  · intro h row hrow r hr r' hr' hid hid'
    exact order_injective (le_antisymm (h.order_le hids hrows hrow hr' hr hid' hid)
      (h.order_le hids hrows hrow hr hr' hid hid'))
  · intro hone
    refine ⟨nodup_legend _ _, fun rule hrule hcited => ?_, fun rule hrule hnone => ?_⟩
    · exact cited_of_oneSeverity hids hrows hone hrule hcited
    · exact uncited_of_notMem hrule hnone

namespace Overlap

def query : SavedQuery := ⟨"q", "c", "Payments", none, "SELECT 1", none, 100, none, some "ana"⟩

/-- Two rules on one column, the second of a severity to choose. -/
def rules (severity : FlagSeverity) : List FlagRule :=
  [⟨"large", "q", "Large", .high, true, 0, [⟨0, "amount", .eq, some "900", none, none⟩]⟩,
    ⟨"known", "q", "Known", severity, true, 1, [⟨0, "amount", .isNotNull, none, none, none⟩]⟩]

def rows : List (Row ["amount"]) := [.single (.int 900)]

/-- The findings of a run of the rules on a row that both mark. -/
def findings (severity : FlagSeverity) : Table FlaggedRow.key :=
  (sync (fun _ => "f") .empty "q" ["amount"] (rows.map Subtype.val)
    (evaluateFlags .ascii (fun _ => "f") (fun _ => none) (rules severity) ["amount"] rows) 7).1

def store (severity : FlagSeverity) : Store where
  db :=
    { queries := ⟨[query], by decide⟩
      charts := .empty
      flagRules := ⟨rules severity, by cases severity <;> decide⟩
      auditLogs := [] }
  connections := .empty
  users := .empty
  created := fun _ => 0
  flaggedRows := findings severity
  dismissals := []

end Overlap

theorem overlap_legendCorrect :
    LegendCorrect (Overlap.rules .high) (Overlap.store .high) .empty ⟨0, 0⟩ Overlap.query
      ⟨"ana", false⟩ := by
  refine (legendCorrect_iff .ascii (fun _ => "f") (fun _ => none) (Overlap.rules .high) ["amount"]
    Overlap.rows .empty 7 (Overlap.store .high) .empty ⟨0, 0⟩ Overlap.query ⟨"ana", false⟩
    (by decide) fun _ _ h => h).mpr ?_
  have hhigh : ∀ r ∈ Overlap.rules .high, r.severity = .high := by decide
  intro row _ r hr r' hr' _ _
  rw [hhigh r hr, hhigh r' hr']

/-- A low rule is shown as high when a high one fires on the same row. -/
theorem overlap_raises_severity :
    (sectionOf (Overlap.store .low) .empty ⟨0, 0⟩ Overlap.query ⟨"ana", false⟩).rules =
        [⟨"large", "Large", .high, 1⟩, ⟨"known", "Known", .high, 1⟩] ∧
      ¬ LegendCorrect (Overlap.rules .low) (Overlap.store .low) .empty ⟨0, 0⟩ Overlap.query
        ⟨"ana", false⟩ := by
  have hsection : (sectionOf (Overlap.store .low) .empty ⟨0, 0⟩ Overlap.query
      ⟨"ana", false⟩).rules = [⟨"large", "Large", .high, 1⟩, ⟨"known", "Known", .high, 1⟩] := by
    decide
  refine ⟨hsection, fun h => ?_⟩
  have hcited := h.cited ⟨"known", "q", "Known", .low, true, 1,
    [⟨0, "amount", .isNotNull, none, none, none⟩]⟩ (by decide) (by decide)
  rw [hsection] at hcited
  simp at hcited

end FraudAnalyzer.FlagRules
