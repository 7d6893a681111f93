import FraudAnalyzer.Charts.Reading
import FraudAnalyzer.FlagRules.FlaggedView
import FraudAnalyzer.Lib.Agree

/-!
# Reading tells nothing of other people's queries

Two states that differ in queries which are not the user's and have no published chart. Every page
of the user is read from the rows of the other queries, so it is the same in both: the counts, the
latest instants and the order of the entries included.
-/

namespace FraudAnalyzer.Queries

open Charts FlagRules

/-- A query that is not shown is not the user's, and no chart of it is published. -/
structure Concealed (s : Store) (user : User) (shown : String → Bool) : Prop where
  owner : ∀ query ∈ s.db.queries.rows, shown query.id = false → query.ownerId ≠ some user.id
  unpublished : ∀ chart ∈ s.db.charts.rows, shown chart.queryId = false → chart.isPublic = false

/-- The states are the same, but for the queries that are not shown and what is stored of them. -/
structure SameShown (shown : String → Bool) (s t : Store) (results results' : ResultCache Body) :
    Prop where
  queries : AgreeOn (fun query => shown query.id) s.db.queries.rows t.db.queries.rows
  created : ∀ id, shown id = true → s.created id = t.created id
  charts : AgreeOn (fun chart => shown chart.queryId) s.db.charts.rows t.db.charts.rows
  rules : AgreeOn (fun rule => shown rule.queryId) s.db.flagRules.rows t.db.flagRules.rows
  connections : s.connections = t.connections
  users : s.users = t.users
  findings : AgreeOn (fun row => shown row.queryId) s.flaggedRows.rows t.flaggedRows.rows
  dismissals : AgreeOn (fun d => shown d.queryId) s.dismissals t.dismissals
  results : ∀ id, shown id = true → results.get id = results'.get id

/-- The chart is published, or on a query of the user. -/
def IsOpen (db : Db) (user : User) (chartId : String) : Prop :=
  ∃ chart, db.charts.get chartId = some chart ∧
    (chart.isPublic = true ∨
      ∃ query, db.queries.get chart.queryId = some query ∧ query.ownerId = some user.id)

/-- Whatever the user reads is the same. -/
structure SameAnswers (E : Env) (now : Clock) (user : User) (s t : Store)
    (results results' : ResultCache Body) : Prop where
  listQueries : ∀ connectionId, listQueries s connectionId user = listQueries t connectionId user
  listVisibleQueries : listVisibleQueries s user = listVisibleQueries t user
  listQueriesByIds : ∀ ids, listQueriesByIds s ids user = listQueriesByIds t ids user
  getOwned : ∀ id, getOwned s.db id user = getOwned t.db id user
  getViewable : ∀ id, getViewable s.db id user = getViewable t.db id user
  summary : summary s user = summary t user
  flaggedForConnection : ∀ connectionId,
    flaggedForConnection s results now connectionId user =
      flaggedForConnection t results' now connectionId user
  listPublished : listPublished s.db = listPublished t.db
  definition : ∀ chartId, IsOpen s.db user chartId →
    definition E s chartId user = definition E t chartId user

/-! ## What the clauses let through -/

section Concealed

variable {s : Store} {user : User} {shown : String → Bool}

theorem Concealed.not_visible (h : Concealed s user shown) (huser : user.isAdmin = false)
    {query : SavedQuery} (hquery : query ∈ s.db.queries.rows) (hshown : shown query.id = false) :
    visibleTo user query = false := by
  simp [visibleTo, huser, h.owner query hquery hshown]

theorem Concealed.not_visible_and (h : Concealed s user shown) (huser : user.isAdmin = false)
    (p : SavedQuery → Bool) : ∀ query ∈ s.db.queries.rows, shown query.id = false →
      (p query && visibleTo user query) = false := by
  intro query hquery hshown
  rw [h.not_visible huser hquery hshown, Bool.and_false]

theorem Concealed.shown_of_visible (h : Concealed s user shown) (huser : user.isAdmin = false)
    {query : SavedQuery} (hquery : query ∈ s.db.queries.rows)
    (hvisible : visibleTo user query = true) : shown query.id = true := by
  by_contra hhidden
  rw [h.not_visible huser hquery (by simpa using hhidden)] at hvisible
  cases hvisible

theorem Concealed.not_published (h : Concealed s user shown) {id : String}
    (hshown : shown id = false) : isPublished s.db id = false := by
  rw [isPublished, List.any_eq_false]
  intro chart hchart
  by_cases hid : chart.queryId = id
  · simp [h.unpublished chart hchart (hid ▸ hshown)]
  · simp [hid]

theorem Concealed.not_alertVisible (h : Concealed s user shown) (huser : user.isAdmin = false)
    {query : SavedQuery} (hquery : query ∈ s.db.queries.rows) (hshown : shown query.id = false) :
    alertVisibleTo s.db user query = false := by
  simp [alertVisibleTo, huser, h.owner query hquery hshown, h.not_published hshown]

theorem Concealed.shown_of_alertVisible (h : Concealed s user shown) (huser : user.isAdmin = false)
    {query : SavedQuery} (hquery : query ∈ s.db.queries.rows)
    (hvisible : alertVisibleTo s.db user query = true) : shown query.id = true := by
  by_contra hhidden
  rw [h.not_alertVisible huser hquery (by simpa using hhidden)] at hvisible
  cases hvisible

/-- A chart that is open is on a query that is shown. -/
theorem Concealed.shown_of_open (h : Concealed s user shown) {chart : QueryChart}
    (hchart : chart ∈ s.db.charts.rows)
    (hopen : chart.isPublic = true ∨
      ∃ query, s.db.queries.get chart.queryId = some query ∧ query.ownerId = some user.id) :
    shown chart.queryId = true := by
  by_contra hhidden
  rw [Bool.not_eq_true] at hhidden
  rcases hopen with hpublic | ⟨query, hquery, howner⟩
  · rw [h.unpublished chart hchart hhidden] at hpublic
    cases hpublic
  · obtain ⟨hmem, hid⟩ := Table.get_iff_mem.mp hquery
    exact h.owner query hmem (hid ▸ hhidden) howner

end Concealed

section SameShown

variable {shown : String → Bool} {s t : Store} {results results' : ResultCache Body} {user : User}

/-! ## The rows of a query that is shown -/

/-- A row of a query that is not shown is of no query that is. -/
theorem ne_of_shown {id id' : String} (hid : shown id = true) (hid' : shown id' = false) :
    id' ≠ id := by
  rintro rfl
  rw [hid] at hid'
  cases hid'

/-- The rows of one query, out of rows that agree. -/
theorem filter_queryId_eq {id : String} (hid : shown id = true) {ρ : Type} {queryId : ρ → String}
    {l l' : List ρ} (hl : AgreeOn (fun r => shown (queryId r)) l l') :
    (l.filter fun r => queryId r = id) = l'.filter fun r => queryId r = id := by
  have hnot : ∀ r : ρ, shown (queryId r) = false → decide (queryId r = id) = false :=
    fun r hr => decide_eq_false (ne_of_shown hid hr)
  exact hl.filter (fun r _ => hnot r) (fun r _ => hnot r) fun _ _ _ => rfl

section Rows

variable (h : SameShown shown s t results results') {id : String} (hid : shown id = true)

include h hid

theorem SameShown.getQuery_eq : s.db.queries.get id = t.db.queries.get id := h.queries.get hid

theorem SameShown.chartsOf_eq : s.db.chartsOf id = t.db.chartsOf id := by
  unfold Db.chartsOf
  rw [filter_queryId_eq hid h.charts]

theorem SameShown.rulesOf_eq : s.db.rulesOf id = t.db.rulesOf id := by
  unfold Db.rulesOf
  rw [filter_queryId_eq hid h.rules]

theorem SameShown.rowsForQuery_eq : rowsForQuery s id = rowsForQuery t id := by
  unfold rowsForQuery
  rw [filter_queryId_eq hid h.findings]

theorem SameShown.dismissedFingerprints_eq (userId : String) :
    dismissedFingerprints s.dismissals id userId =
      dismissedFingerprints t.dismissals id userId := by
  have hnot : ∀ d : FlagDismissal, shown d.queryId = false →
      (decide (d.queryId = id) && decide (d.userId = userId)) = false := by
    intro d hd
    rw [decide_eq_false (ne_of_shown hid hd), Bool.false_and]
  unfold dismissedFingerprints
  rw [h.dismissals.filter (fun d _ => hnot d) (fun d _ => hnot d) fun _ _ _ => rfl]

theorem SameShown.getFresh_eq (now : Clock) :
    (results.getFresh id now).1 = (results'.getFresh id now).1 := by
  unfold ResultCache.getFresh
  rw [h.results id hid]
  cases results'.get id with
  | none => rfl
  | some entry =>
    dsimp only
    split
    · rfl
    · rfl

end Rows

/-! ## What is read of a query that is shown -/

section Queries

variable (h : SameShown shown s t results results')

include h

theorem SameShown.readQuery_eq {query : SavedQuery} (hshown : shown query.id = true) :
    readQuery s query = readQuery t query := by
  unfold readQuery
  rw [h.chartsOf_eq hshown, h.created _ hshown]

theorem SameShown.ownerName_eq (query : SavedQuery) : s.ownerName query = t.ownerName query := by
  unfold Store.ownerName
  rw [h.users]

theorem SameShown.sectionOf_eq {query : SavedQuery} (hshown : shown query.id = true) (now : Clock)
    (user : User) :
    sectionOf s results now query user = sectionOf t results' now query user := by
  have hundismissed : undismissed s query user = undismissed t query user := by
    unfold undismissed
    rw [h.rowsForQuery_eq hshown, h.dismissedFingerprints_eq hshown]
  unfold sectionOf
  rw [hundismissed, h.dismissedFingerprints_eq hshown, h.getFresh_eq hshown, h.rulesOf_eq hshown,
    h.ownerName_eq]

/-- A selection that lets through only queries that are shown, and none but by what is shown. -/
theorem SameShown.selectQueries_eq {clause clause' : SavedQuery → Bool}
    (hs : ∀ query ∈ s.db.queries.rows, shown query.id = false → clause query = false)
    (ht : ∀ query ∈ t.db.queries.rows, shown query.id = false → clause' query = false)
    (hsame : ∀ query, shown query.id = true → clause query = clause' query) :
    selectQueries s clause = selectQueries t clause' := by
  unfold selectQueries sortedBy
  rw [h.queries.filter hs ht fun query _ => hsame query]
  refine insertionSort_congr fun a ha b hb => ?_
  have hshown : ∀ query ∈ t.db.queries.rows.filter clause', shown query.id = true := by
    intro query hquery
    obtain ⟨hmem, hclause⟩ := List.mem_filter.mp hquery
    by_contra hhidden
    rw [ht query hmem (by simpa using hhidden)] at hclause
    cases hclause
  show s.created a.id ≤ s.created b.id ↔ t.created a.id ≤ t.created b.id
  rw [h.created _ (hshown a ha), h.created _ (hshown b hb)]

end Queries

/-! ## The pages -/

section Pages

variable (h : SameShown shown s t results results') (hs : Concealed s user shown)
  (ht : Concealed t user shown) (huser : user.isAdmin = false)

include h hs ht

theorem SameShown.isPublished_eq (id : String) : isPublished s.db id = isPublished t.db id := by
  cases hshown : shown id with
  | false => rw [hs.not_published hshown, ht.not_published hshown]
  | true =>
    have hnot : ∀ chart : QueryChart, shown chart.queryId = false →
        (decide (chart.queryId = id) && chart.isPublic) = false := by
      intro chart hchart
      rw [decide_eq_false (ne_of_shown hshown hchart), Bool.false_and]
    unfold isPublished
    exact h.charts.any (fun c _ => hnot c) (fun c _ => hnot c) fun _ _ _ => rfl

theorem SameShown.alertVisibleTo_eq (query : SavedQuery) :
    alertVisibleTo s.db user query = alertVisibleTo t.db user query := by
  unfold alertVisibleTo
  rw [h.isPublished_eq hs ht]

theorem SameShown.listPublished_eq : listPublished s.db = listPublished t.db := by
  unfold listPublished
  rw [h.charts.filter hs.unpublished ht.unpublished fun _ _ _ => rfl]

include huser

theorem SameShown.listQueries_eq (connectionId : String) :
    listQueries s connectionId user = listQueries t connectionId user := by
  have hselect : selectQueries s (fun query =>
      query.connectionId = connectionId && visibleTo user query) =
      selectQueries t fun query => query.connectionId = connectionId && visibleTo user query :=
    h.selectQueries_eq (hs.not_visible_and huser _) (ht.not_visible_and huser _) fun _ _ => rfl
  unfold listQueries
  rw [hselect]
  refine List.map_congr_left fun query hquery => ?_
  obtain ⟨hmem, hclause⟩ := mem_selectQueries.mp hquery
  rw [Bool.and_eq_true] at hclause
  exact h.readQuery_eq (ht.shown_of_visible huser hmem hclause.2)

theorem SameShown.listVisibleQueries_eq :
    listVisibleQueries s user = listVisibleQueries t user := by
  unfold listVisibleQueries
  rw [h.selectQueries_eq (fun query hquery => hs.not_visible huser hquery)
    (fun query hquery => ht.not_visible huser hquery) fun _ _ => rfl]
  refine List.map_congr_left fun query hquery => ?_
  obtain ⟨hmem, hclause⟩ := mem_selectQueries.mp hquery
  exact h.readQuery_eq (ht.shown_of_visible huser hmem hclause)

theorem SameShown.listQueriesByIds_eq (ids : List String) :
    listQueriesByIds s ids user = listQueriesByIds t ids user := by
  have hfound : (s.db.queries.rows.filter fun query => query.id ∈ ids && visibleTo user query) =
      t.db.queries.rows.filter fun query => query.id ∈ ids && visibleTo user query :=
    h.queries.filter (hs.not_visible_and huser _) (ht.not_visible_and huser _) fun _ _ _ => rfl
  unfold listQueriesByIds
  rw [hfound]
  split
  · rfl
  · refine List.filterMap_congr fun id _ => ?_
    refine Option.map_congr fun query hquery => ?_
    obtain ⟨hmem, hclause⟩ := List.mem_filter.mp (List.mem_of_find?_eq_some hquery)
    rw [Bool.and_eq_true] at hclause
    exact h.readQuery_eq (ht.shown_of_visible huser hmem hclause.2)

omit h ht in
/-- A query that is not shown is refused like one that does not exist. -/
theorem getOwned_of_concealed {id : String} (hshown : shown id = false) :
    getOwned s.db id user = .error noSuchQuery := by
  unfold getOwned
  split
  · rfl
  next query hquery =>
    obtain ⟨hmem, hid⟩ := Table.get_iff_mem.mp hquery
    simp [huser, hs.owner query hmem (hid ▸ hshown)]

theorem SameShown.getOwned_eq (id : String) :
    getOwned s.db id user = getOwned t.db id user := by
  cases hshown : shown id with
  | true =>
    unfold getOwned
    rw [h.getQuery_eq hshown]
  | false => rw [getOwned_of_concealed hs huser hshown, getOwned_of_concealed ht huser hshown]

omit h ht in
theorem getViewable_of_concealed {id : String} (hshown : shown id = false) :
    getViewable s.db id user = .error noSuchQuery := by
  unfold getViewable
  split
  · rfl
  next query hquery =>
    obtain ⟨hmem, hid⟩ := Table.get_iff_mem.mp hquery
    simp [huser, hs.owner query hmem (hid ▸ hshown), hs.not_published hshown]

theorem SameShown.getViewable_eq (id : String) :
    getViewable s.db id user = getViewable t.db id user := by
  cases hshown : shown id with
  | true =>
    unfold getViewable
    rw [h.getQuery_eq hshown, h.isPublished_eq hs ht]
  | false => rw [getViewable_of_concealed hs huser hshown, getViewable_of_concealed ht huser hshown]

/-! ## Findings -/

omit h ht in
theorem joined_of_concealed {row : FlaggedRow} (hshown : shown row.queryId = false) :
    joined s user row = none := by
  unfold joined
  cases hquery : s.db.queries.get row.queryId with
  | none => rfl
  | some query =>
    obtain ⟨hmem, hid⟩ := Table.get_iff_mem.mp hquery
    have hhidden := hs.not_alertVisible huser hmem (hid ▸ hshown)
    rw [Option.bind_some, hhidden]
    simp

omit hs ht huser in
theorem SameShown.isDismissed_eq {row : FlaggedRow} (hshown : shown row.queryId = true) :
    isDismissed s user row = isDismissed t user row := by
  have hnot : ∀ d : FlagDismissal, shown d.queryId = false →
      (decide (d.queryId = row.queryId) && decide (d.rowFingerprint = row.rowFingerprint) &&
        decide (d.userId = user.id)) = false := by
    intro d hd
    rw [decide_eq_false (ne_of_shown hshown hd), Bool.false_and, Bool.false_and]
  unfold isDismissed
  exact h.dismissals.any (fun d _ => hnot d) (fun d _ => hnot d) fun _ _ _ => rfl

/-- The result of the statement has the same rows, so all that is made of them is the same. -/
theorem SameShown.joinedRows_eq : joinedRows s user = joinedRows t user := by
  unfold joinedRows
  refine h.findings.filterMap (fun row _ => joined_of_concealed hs huser)
    (fun row _ => joined_of_concealed ht huser) fun row _ hshown => ?_
  unfold joined
  rw [h.getQuery_eq hshown]
  refine Option.bind_congr fun query _ => ?_
  rw [h.connections, h.alertVisibleTo_eq hs ht, h.isDismissed_eq hshown]

theorem SameShown.queriesWithRules_eq (connectionId : String) :
    queriesWithRules s connectionId user = queriesWithRules t connectionId user := by
  have hselect : selectQueries s (fun query =>
      query.connectionId = connectionId && alertVisibleTo s.db user query) =
      selectQueries t fun query =>
        query.connectionId = connectionId && alertVisibleTo t.db user query :=
    h.selectQueries_eq
      (fun query hquery hshown => by rw [hs.not_alertVisible huser hquery hshown, Bool.and_false])
      (fun query hquery hshown => by rw [ht.not_alertVisible huser hquery hshown, Bool.and_false])
      fun query _ => by rw [h.alertVisibleTo_eq hs ht]
  unfold queriesWithRules
  rw [hselect]
  refine List.filter_congr fun query hquery => ?_
  obtain ⟨hmem, hclause⟩ := mem_selectQueries.mp hquery
  rw [Bool.and_eq_true] at hclause
  rw [h.rulesOf_eq (ht.shown_of_alertVisible huser hmem hclause.2)]

theorem SameShown.flaggedForConnection_eq (now : Clock) (connectionId : String) :
    flaggedForConnection s results now connectionId user =
      flaggedForConnection t results' now connectionId user := by
  have hsections : (queriesWithRules t connectionId user).map (fun query =>
      sectionOf s results now query user) =
      (queriesWithRules t connectionId user).map fun query =>
        sectionOf t results' now query user := by
    refine List.map_congr_left fun query hquery => ?_
    obtain ⟨hmem, hclause⟩ := mem_selectQueries.mp (List.mem_filter.mp hquery).1
    rw [Bool.and_eq_true] at hclause
    exact h.sectionOf_eq (ht.shown_of_alertVisible huser hmem hclause.2) now user
  unfold flaggedForConnection
  rw [h.queriesWithRules_eq hs ht huser, hsections]

omit ht huser in
theorem SameShown.definition_eq (E : Env) {chartId : String} (hopen : IsOpen s.db user chartId) :
    definition E s chartId user = definition E t chartId user := by
  obtain ⟨chart, hchart, hopen⟩ := hopen
  obtain ⟨hmem, hid⟩ := Table.get_iff_mem.mp hchart
  have hshown := hs.shown_of_open hmem hopen
  have hchart' : t.db.charts.get chartId = some chart :=
    Table.get_iff_mem.mpr ⟨(h.charts.mem_iff hshown).mp hmem, hid⟩
  unfold Charts.definition
  rw [hchart, hchart']
  dsimp only
  rw [h.getQuery_eq hshown]
  cases hquery : t.db.queries.get chart.queryId with
  | none => rfl
  | some query =>
    have hkey : query.id = chart.queryId := Table.key_of_get hquery
    rw [← hkey] at hshown
    dsimp only
    rw [h.rulesOf_eq hshown, h.connections, h.ownerName_eq]

end Pages

end SameShown

/-- **Reads do not interfere.** Whatever an analyst reads is the same in two states that differ in
queries which are neither theirs nor published. -/
theorem sameAnswers_of_sameShown (E : Env) (now : Clock) {user : User}
    (huser : user.isAdmin = false)
    {shown : String → Bool} {s t : Store} {results results' : ResultCache Body}
    (hs : Concealed s user shown) (ht : Concealed t user shown)
    (h : SameShown shown s t results results') : SameAnswers E now user s t results results' where
  listQueries := h.listQueries_eq hs ht huser
  listVisibleQueries := h.listVisibleQueries_eq hs ht huser
  listQueriesByIds := h.listQueriesByIds_eq hs ht huser
  getOwned := h.getOwned_eq hs ht huser
  getViewable := h.getViewable_eq hs ht huser
  summary := by rw [summary, summary, h.joinedRows_eq hs ht huser]
  flaggedForConnection := h.flaggedForConnection_eq hs ht huser now
  listPublished := h.listPublished_eq hs ht
  definition _ hopen := h.definition_eq hs E hopen

namespace Sample

/-- A query of `bob`. -/
def own : SavedQuery := { Charts.Sample.query with id := "b", ownerId := some "bob" }

/-- `bob` has a query, and nothing else is stored. -/
def alone : Store :=
  ⟨⟨⟨[own], by simp⟩, Table.empty, Table.empty, []⟩, Table.empty, Table.empty, fun _ => 0,
    Table.empty, []⟩

/-- There is also a query of `ann` with a private chart, which has a finding. -/
def beside : Store :=
  { alone with
    db := ⟨⟨[Charts.Sample.query, own], by decide⟩, Charts.Sample.db.charts, Table.empty, []⟩
    flaggedRows := ⟨[⟨"q", "f", [.int 900], ["amount"], ["r"], ["Large"], .high, 1, 1⟩], by simp⟩ }

end Sample

theorem sameAnswers_of_sameShown_beside :
    SameAnswers Charts.Sample.env ⟨0, 0⟩
      ⟨"bob", false⟩ Sample.beside Sample.alone .empty .empty := by
  have hbeside : Concealed Sample.beside ⟨"bob", false⟩ fun id => id ≠ "q" := by
    refine ⟨?_, ?_⟩
    · decide
    · decide
  have halone : Concealed Sample.alone ⟨"bob", false⟩ fun id => id ≠ "q" := by
    refine ⟨?_, ?_⟩
    · decide
    · decide
  exact sameAnswers_of_sameShown _ _ rfl hbeside halone
    ⟨rfl, fun _ _ => rfl, rfl, rfl, rfl, rfl, rfl, rfl, fun _ _ => rfl⟩

end FraudAnalyzer.Queries
