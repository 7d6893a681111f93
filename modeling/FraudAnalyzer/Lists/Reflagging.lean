import FraudAnalyzer.Lists.Integrity

/-!
# Edits of lists and rules reach the results that are held

`update_list` drops the results of the queries whose rules read the list then, and `replace_rules`
that of its query, each after its commit. A result is stale only while such an edit is under way
(`Current`), provided that no run stores what it read before the last invalidation of its query. A
save can miss a query that read the list when the result was flagged: the query's rules were
replaced in between, and that edit has its own invalidation to come.
-/

namespace FraudAnalyzer.Lists

open Python FlagRules
open Charts (FlagRuleSpec commitRules)

/-! ## What is owed to a result -/

/-- An edit that has committed will still invalidate the query. -/
def Owed (s : State) (queryId : String) : Prop :=
  ∃ i, s.operations i = some (.dropping queryId) ∨
    ∃ ids, s.operations i = some (.invalidating ids) ∧ queryId ∈ ids

/-- A save of the list is committed and has not looked up the queries that read it. -/
def Collecting (s : State) (listId : String) : Prop :=
  ∃ i, s.operations i = some (.collecting listId)

/-- What was read is what is stored, or an invalidation is to come. -/
structure Current (s : State) (queryId : String) (reading : Reading) : Prop where
  rules : reading.rules = s.db.rulesOf queryId ∨ Owed s queryId
  items : ∀ listId ∈ reading.listIds, reading.items listId = itemsOf s.lists listId ∨
    Collecting s listId ∨ Owed s queryId

/-- A reading of a query that may be gone. -/
structure Tracked (s : State) (queryId : String) (reading : Reading) : Prop where
  named : ∀ listId ∈ reading.listIds, reading.names listId = true
  current : (s.db.queries.get queryId).isSome → Current s queryId reading

/-- No run stores what it read before an invalidation of its query. -/
def overtaken (s : State) : Action → Bool
  | .store i _ =>
    match s.operations i with
    | some (.running run) => run.began ≠ s.invalidations run.queryId
    | _ => false
  | _ => false

def NotOvertaken (s : State) (a : Action) : Prop := overtaken s a = false

instance (s : State) (a : Action) : Decidable (NotOvertaken s a) :=
  inferInstanceAs (Decidable (_ = _))

theorem began_of_notOvertaken {s : State} {i : Nat} {result : Queries.ExecutionResult}
    {run : QueryRun} (h : NotOvertaken s (.store i result))
    (hop : s.operations i = some (.running run)) : run.began = s.invalidations run.queryId := by
  simpa [NotOvertaken, overtaken, hop] using h

/-! ## The invariant -/

/-- The rules that a request has loaded belong to its query, and so do the rows with their ids. -/
structure Known (s : State) : Prop where
  rules : ∀ r ∈ s.db.flagRules.rows, r.id ∈ s.issued
  loaded : ∀ i queryId loaded specs, s.operations i = some (.replacing queryId loaded specs) →
    ∀ l ∈ loaded, l.id ∈ s.issued ∧
      ∀ r, s.db.flagRules.get l.id = some r → r.queryId = queryId

structure Inv (s : State) : Prop where
  known : Known s
  references : References s.lists s.db
  began : ∀ i run, s.operations i = some (.running run) → run.began ≤ s.invalidations run.queryId
  runs : ∀ i run, s.operations i = some (.running run) →
    run.began = s.invalidations run.queryId → Tracked s run.queryId run.reading
  held : ∀ queryId held, s.results queryId = some held →
    held.reading.complete = true ∧ Tracked s queryId held.reading

section Kept

variable {s t : State} {queryId listId : String} {reading : Reading} {i : Nat}

/-- The stages at which nothing is owed. -/
def Stage.Settled (stage : Stage) : Prop := stage.abortable = true ∨ stage = .invalidating []

theorem Owed.update (h : Owed s queryId) {new : Option Stage}
    (hops : t.operations = Function.update s.operations i new)
    (hsettled : ∀ stage, s.operations i = some stage → stage.Settled) : Owed t queryId := by
  obtain ⟨j, hj⟩ := h
  have hne : j ≠ i := by
    rintro rfl
    rcases hj with hop | ⟨ids, hop, hmem⟩
    · rcases hsettled _ hop with habort | heq
      · cases habort
      · cases heq
    · rcases hsettled _ hop with habort | heq
      · cases habort
      · obtain rfl := Stage.invalidating.inj heq
        cases hmem
  exact ⟨j, by rw [hops, Function.update_of_ne hne]; exact hj⟩

theorem Collecting.update (h : Collecting s listId) {new : Option Stage}
    (hops : t.operations = Function.update s.operations i new)
    (hother : s.operations i ≠ some (.collecting listId)) : Collecting t listId := by
  obtain ⟨j, hj⟩ := h
  have hne : j ≠ i := by
    rintro rfl
    exact hother hj
  exact ⟨j, by rw [hops, Function.update_of_ne hne]; exact hj⟩

theorem not_collecting_of_settled (h : ∀ stage, s.operations i = some stage → stage.Settled) :
    s.operations i ≠ some (.collecting listId) := by
  intro hop
  rcases h _ hop with habort | heq
  · cases habort
  · cases heq

/-- What a step must keep for what was read of a query. Only the lists that its rules
read matter. -/
theorem Tracked.mono (h : Tracked s queryId reading)
    (hstored : (t.db.queries.get queryId).isSome → (s.db.queries.get queryId).isSome)
    (hrules : (t.db.queries.get queryId).isSome →
      t.db.rulesOf queryId = s.db.rulesOf queryId ∨ Owed t queryId)
    (hitems : ∀ listId, (∃ r ∈ s.db.rulesOf queryId, reads listId r = true) →
      itemsOf t.lists listId = itemsOf s.lists listId ∨ Collecting t listId)
    (howed : Owed s queryId → Owed t queryId)
    (hcollecting : ∀ listId, (∃ r ∈ s.db.rulesOf queryId, reads listId r = true) →
      Collecting s listId → Collecting t listId ∨ Owed t queryId) :
    Tracked t queryId reading where
  named := h.named
  current hquery := by
    have hcurrent := h.current (hstored hquery)
    rcases hcurrent.rules with hsame | hdue
    · refine ⟨?_, fun listId hlist => ?_⟩
      · rcases hrules hquery with heq | hdue
        · exact .inl (hsame.trans heq.symm)
        · exact .inr hdue
      · obtain ⟨r, hr, hreads⟩ := List.any_eq_true.mp (h.named listId hlist)
        have hreader : ∃ r ∈ s.db.rulesOf queryId, reads listId r = true := ⟨r, hsame ▸ hr, hreads⟩
        rcases hcurrent.items listId hlist with heq | hlooking | hdue
        · rcases hitems listId hreader with hkept | hlooking
          · exact .inl (heq.trans hkept.symm)
          · exact .inr (.inl hlooking)
        · exact .inr (hcollecting listId hreader hlooking)
        · exact .inr (.inr (howed hdue))
    · exact ⟨.inr (howed hdue), fun _ _ => .inr (.inr (howed hdue))⟩

/-- Steps that change a request only. -/
theorem Tracked.update (h : Tracked s queryId reading) {new : Option Stage} (hdb : t.db = s.db)
    (hlists : t.lists = s.lists) (hops : t.operations = Function.update s.operations i new)
    (hsettled : ∀ stage, s.operations i = some stage → stage.Settled) :
    Tracked t queryId reading := by
  refine h.mono (by rw [hdb]; exact id) (fun _ => .inl (by rw [hdb]))
    (fun _ _ => .inl (by rw [hlists])) (fun hdue => hdue.update hops hsettled) ?_
  exact fun _ _ hlooking => .inl (hlooking.update hops (not_collecting_of_settled hsettled))

end Kept

/-! ## Each step keeps it -/

section Steps

variable {E : Env} {s t : State} {a : Action}

theorem Moved.settled {old : Option Stage} {stage : Stage} (h : Moved E s a old stage) :
    ∀ o, old = some o → o.Settled := by
  intro o ho
  cases h with
  | creating _ => cases ho
  | updating _ => cases ho
  | deleting _ => cases ho
  | ensuring _ => cases ho
  | running _ => cases ho
  | saving _ => exact .inl (by cases ho; rfl)
  | removing => exact .inl (by cases ho; rfl)
  | opening => exact .inl (by cases ho; rfl)
  | replacing => exact .inl (by cases ho; rfl)
  | read _ => exact .inl (by cases ho; rfl)

theorem settled_of_stage {i : Nat} {stage : Stage} (hop : s.operations i = some stage)
    (h : stage.Settled) : ∀ o, s.operations i = some o → o.Settled := by
  intro o ho
  rw [hop] at ho
  obtain rfl := Option.some.inj ho
  exact h

/-- A rule of the query reads the list, so the list is stored. -/
theorem References.stored (h : References s.lists s.db) {queryId listId : String}
    (hreader : ∃ r ∈ s.db.rulesOf queryId, reads listId r = true) :
    (s.lists.get listId).isSome := by
  obtain ⟨r, hr, hreads⟩ := hreader
  exact h r (Db.mem_rulesOf.mp hr).1 listId hreads

theorem itemsOf_congr {lists lists' : Table ItemList.id} {listId : String}
    (h : lists'.get listId = lists.get listId) : itemsOf lists' listId = itemsOf lists listId := by
  rw [itemsOf, itemsOf, h]

/-- What is tracked stays so. An invalidation drops what it concerns. -/
theorem Tracked.effect (hrefs : References s.lists s.db) (hknown : Known s)
    (heff : Effect E s a t) {queryId : String} {reading : Reading} (h : Tracked s queryId reading)
    (hkept : t.invalidations queryId = s.invalidations queryId) : Tracked t queryId reading := by
  cases heff with
  | idle => exact h
  | moved hmoved => exact h.update rfl rfl rfl hmoved.settled
  | ended hop hsettled => exact h.update rfl rfl rfl (settled_of_stage hop hsettled)
  | stored hop _ => exact h.update rfl rfl rfl (settled_of_stage hop (.inl rfl))
  | evicted =>
    exact h.mono id (fun _ => .inl rfl) (fun _ _ => .inl rfl) id (fun _ _ hlooking => .inl hlooking)
  | created hop hcreate =>
    obtain ⟨-, -, hget⟩ := commitCreate_eq_some hcreate
    have hsettled := settled_of_stage hop (.inl rfl)
    refine h.mono id (fun _ => .inl rfl) (fun listId hreader => .inl ?_)
      (fun hdue => hdue.update rfl hsettled)
      (fun _ _ hlooking => .inl (hlooking.update rfl (not_collecting_of_settled hsettled)))
    exact itemsOf_congr (hget listId (hrefs.stored hreader))
  | @saved i ids loaded save lists hop hsave =>
    obtain ⟨stored, -, -, rfl⟩ := commitUpdate_eq_saved hsave
    have hsettled := settled_of_stage hop (.inl rfl)
    refine h.mono id (fun _ => .inl rfl) (fun listId _ => ?_)
      (fun hdue => hdue.update rfl hsettled)
      (fun _ _ hlooking => .inl (hlooking.update rfl (not_collecting_of_settled hsettled)))
    by_cases hlist : listId = loaded.id
    · exact .inr ⟨i, by rw [hlist]; exact Function.update_self ..⟩
    · have hget := s.lists.get_modify loaded.id listId _ (flushList_id loaded save)
      exact .inl (itemsOf_congr (hget.trans (if_neg hlist)))
  | @collected _ i listId hop =>
    refine h.mono id (fun _ => .inl rfl) (fun _ _ => .inl rfl) (fun hdue => ?_)
      (fun listId' hreader hlooking => ?_)
    · obtain ⟨j, hj⟩ := hdue
      have hne : j ≠ i := by
        rintro rfl
        rcases hj with hj | ⟨ids, hj, -⟩
        · rw [hop] at hj; cases hj
        · rw [hop] at hj; cases hj
      exact ⟨j, by simp only [State.put, Function.update_of_ne hne]; exact hj⟩
    · obtain ⟨j, hj⟩ := hlooking
      by_cases hne : j = i
      · subst hne
        rw [hop] at hj
        obtain rfl := Stage.collecting.inj (Option.some.inj hj)
        obtain ⟨r, hr, hreads⟩ := hreader
        obtain ⟨hrow, rfl⟩ := Db.mem_rulesOf.mp hr
        have hmem : r.queryId ∈ queryIdsUsing s.db listId := by
          rw [queryIdsUsing, List.mem_dedup]
          exact List.mem_map_of_mem (List.mem_filter.mpr ⟨hrow, hreads⟩)
        exact .inr ⟨j, .inr ⟨_, Function.update_self .., hmem⟩⟩
      · exact .inl ⟨j, by simp only [State.put, Function.update_of_ne hne]; exact hj⟩
  | @invalidated _ i dropped rest hop =>
    have hother : queryId ≠ dropped := by
      rintro rfl
      simp [State.put, State.invalidate] at hkept
    refine h.mono id (fun _ => .inl rfl) (fun _ _ => .inl rfl) (fun hdue => ?_)
      (fun listId' _ hlooking =>
        .inl (hlooking.update rfl (by rw [hop]; exact fun heq => by cases heq)))
    obtain ⟨j, hj⟩ := hdue
    by_cases hne : j = i
    · subst hne
      rcases hj with hj | ⟨ids, hj, hmem⟩
      · rw [hop] at hj; cases hj
      · rw [hop] at hj
        obtain rfl := Stage.invalidating.inj (Option.some.inj hj)
        have hrest := (List.mem_cons.mp hmem).resolve_left hother
        exact ⟨j, .inr ⟨_, Function.update_self .., hrest⟩⟩
    · exact ⟨j, by simp only [State.put, State.invalidate, Function.update_of_ne hne]; exact hj⟩
  | @deleted _ i loaded lists hop hdelete =>
    obtain ⟨hused, rfl⟩ := commitDelete_eq_some hdelete
    have hsettled := settled_of_stage hop (.inl rfl)
    refine h.mono id (fun _ => .inl rfl) (fun listId hreader => .inl ?_)
      (fun hdue => hdue.update rfl hsettled)
      (fun _ _ hlooking => .inl (hlooking.update rfl (not_collecting_of_settled hsettled)))
    obtain ⟨r, hr, hreads⟩ := hreader
    obtain ⟨l, hl⟩ := Option.isSome_iff_exists.mp (hrefs.stored ⟨r, hr, hreads⟩)
    refine itemsOf_congr ?_
    simp only [Table.get_deleteWhere, hl, Option.filter_some, Table.key_of_get hl]
    refine if_pos ?_
    have hne : listId ≠ loaded.id := by
      rintro rfl
      exact List.any_eq_false.mp hused r (Db.mem_rulesOf.mp hr).1 hreads
    simpa using hne
  | @replaced _ i ids replacedId loaded rules db hop hids hlists hcommit =>
    have hsettled := settled_of_stage hop (.inl rfl)
    have hedit := Charts.editEffect_commitRules
      (fun l hl r hr => ((hknown.loaded _ _ _ _ hop) l hl).2 r hr) hcommit
    obtain ⟨rules', hdb, -⟩ := Charts.commitRules_spec hcommit
    refine h.mono (by rw [hdb]; exact id) (fun _ => ?_) (fun _ _ => .inl rfl)
      (fun hdue => hdue.update rfl hsettled)
      (fun _ _ hlooking => .inl (hlooking.update rfl (not_collecting_of_settled hsettled)))
    by_cases hquery : queryId = replacedId
    · exact .inr ⟨i, .inl (by rw [hquery]; exact Function.update_self ..)⟩
    · exact .inl (hedit.other_rules queryId hquery)
  | @dropped _ i droppedId hop =>
    have hother : queryId ≠ droppedId := by
      rintro rfl
      simp [State.drop, State.invalidate] at hkept
    refine h.mono id (fun _ => .inl rfl) (fun _ _ => .inl rfl) (fun hdue => ?_)
      (fun listId' _ hlooking =>
        .inl (hlooking.update rfl (by rw [hop]; exact fun heq => by cases heq)))
    obtain ⟨j, hj⟩ := hdue
    have hne : j ≠ i := by
      rintro rfl
      rcases hj with hj | ⟨ids, hj, -⟩
      · rw [hop] at hj
        exact hother (Stage.dropping.inj (Option.some.inj hj)).symm
      · rw [hop] at hj; cases hj
    exact ⟨j, by simp only [State.drop, State.invalidate, Function.update_of_ne hne]; exact hj⟩
  | @removed _ removedId =>
    have hother : (((Charts.commitDelete s.db removedId).queries).get queryId).isSome →
        queryId ≠ removedId := by
      rintro hsome rfl
      simp only [Charts.commitDelete, Table.get_delete] at hsome
      cases hsome
    have hedit : Charts.EditEffect removedId [] s.db (Charts.commitDelete s.db removedId) :=
      Charts.editEffect_commitDelete
    refine h.mono (fun hsome => ?_) (fun hsome => .inl (hedit.other_rules queryId (hother hsome)))
      (fun _ _ => .inl rfl) id (fun _ _ hlooking => .inl hlooking)
    rw [← hedit.other_queries queryId (hother hsome)]
    exact hsome

/-! The other clauses. -/

theorem Known.congr (h : Known s) (hrules : ∀ r ∈ t.db.flagRules.rows, r ∈ s.db.flagRules.rows)
    (hissued : t.issued = s.issued)
    (hops : ∀ i stage, t.operations i = some stage → s.operations i = some stage ∨
      ∀ queryId loaded specs, stage ≠ .replacing queryId loaded specs) : Known t where
  rules r hr := hissued ▸ h.rules r (hrules r hr)
  loaded i queryId loaded specs hop l hl := by
    rcases hops i _ hop with hold | hne
    · obtain ⟨hid, hrow⟩ := h.loaded i queryId loaded specs hold l hl
      refine ⟨hissued ▸ hid, fun r hr => hrow r ?_⟩
      obtain ⟨hmem, hkey⟩ := Table.get_iff_mem.mp hr
      exact Table.get_iff_mem.mpr ⟨hrules r hmem, hkey⟩
    · exact absurd rfl (hne queryId loaded specs)

/-- A request that is at no commit of rules. -/
theorem Known.update (h : Known s) {i : Nat} {new : Option Stage}
    (hrules : ∀ r ∈ t.db.flagRules.rows, r ∈ s.db.flagRules.rows) (hissued : t.issued = s.issued)
    (hops : t.operations = Function.update s.operations i new)
    (hnew : ∀ queryId loaded specs, new ≠ some (.replacing queryId loaded specs)) : Known t := by
  refine h.congr hrules hissued fun j stage hj => ?_
  rw [hops, Function.update_apply] at hj
  split at hj
  · exact .inr fun queryId loaded specs heq => hnew queryId loaded specs (heq ▸ hj)
  · exact .inl hj

theorem Known.effect (h : Known s) (heff : Effect E s a t) : Known t := by
  cases heff with
  | idle => exact h
  | @moved _ i stage hmoved =>
    generalize hold : s.operations i = old at hmoved
    cases hmoved with
    | @replacing queryId rules =>
      refine ⟨h.rules, fun j queryId' loaded' specs' hop l hl => ?_⟩
      simp only [State.put, Function.update_apply] at hop
      split at hop
      · cases hop
        obtain ⟨hrow, hquery⟩ := Db.mem_rulesOf.mp hl
        refine ⟨h.rules l hrow, fun r hr => ?_⟩
        have hsame : s.db.flagRules.get l.id = some r := hr
        rw [Table.get_of_mem hrow] at hsame
        cases hsame
        exact hquery
      · exact h.loaded j queryId' loaded' specs' hop l hl
    | _ => exact h.update (fun _ hr => hr) rfl rfl fun _ _ _ heq => by cases heq
  | @replaced _ i ids queryId loaded rules db hop hids hlists hcommit =>
    obtain ⟨rules', rfl, hrows⟩ := Charts.commitRules_spec hcommit
    have hrow : ∀ r ∈ rules'.rows, r ∈ s.db.flagRules.rows ∨ r.id ∈ ids := by
      intro r hr
      rw [hrows, List.mem_append] at hr
      rcases hr with hold | hnew
      · exact .inl (List.mem_of_mem_filter hold)
      · exact .inr (Charts.queryId_of_mem_buildRules hnew).2
    constructor
    · intro r hr
      rcases hrow r hr with hold | hnew
      · exact List.mem_append_left _ (h.rules r hold)
      · exact List.mem_append_right _ hnew
    · intro j queryId' loaded' specs' hj l hl
      have hother : s.operations j = some (.replacing queryId' loaded' specs') := by
        simp only [State.put, Function.update_apply] at hj
        split at hj
        · cases hj
        · exact hj
      obtain ⟨hid, hloaded⟩ := h.loaded j queryId' loaded' specs' hother l hl
      refine ⟨List.mem_append_left _ hid, fun r hr => ?_⟩
      obtain ⟨hmem, hkey⟩ := Table.get_iff_mem.mp hr
      rcases hrow r hmem with hold | hnew
      · exact hloaded r (Table.get_iff_mem.mpr ⟨hold, hkey⟩)
      · exact absurd (hkey ▸ hid) (hids r.id hnew)
  | ended _ _ => exact h.update (fun _ hr => hr) rfl rfl fun _ _ _ heq => by cases heq
  | created _ _ => exact h.update (fun _ hr => hr) rfl rfl fun _ _ _ heq => by cases heq
  | saved _ _ => exact h.update (fun _ hr => hr) rfl rfl fun _ _ _ heq => by cases heq
  | collected _ => exact h.update (fun _ hr => hr) rfl rfl fun _ _ _ heq => by cases heq
  | invalidated _ => exact h.update (fun _ hr => hr) rfl rfl fun _ _ _ heq => by cases heq
  | deleted _ _ => exact h.update (fun _ hr => hr) rfl rfl fun _ _ _ heq => by cases heq
  | dropped _ => exact h.update (fun _ hr => hr) rfl rfl fun _ _ _ heq => by cases heq
  | stored _ _ => exact h.update (fun _ hr => hr) rfl rfl fun _ _ _ heq => by cases heq
  | removed =>
    exact h.congr (fun _ hr => List.mem_of_mem_filter hr) rfl fun _ _ hop => .inl hop
  | evicted => exact h.congr (fun _ hr => hr) rfl fun _ _ hop => .inl hop

/-- Invalidations are only counted up, and one that is counted drops the result. -/
theorem Effect.invalidations (heff : Effect E s a t) (queryId : String) :
    t.invalidations queryId = s.invalidations queryId ∨
      (t.invalidations queryId = s.invalidations queryId + 1 ∧ t.results queryId = none) := by
  have hinvalidate : ∀ dropped, (s.invalidate dropped).invalidations queryId =
      s.invalidations queryId ∨ ((s.invalidate dropped).invalidations queryId =
        s.invalidations queryId + 1 ∧ (s.invalidate dropped).results queryId = none) := by
    intro dropped
    by_cases hquery : queryId = dropped
    · subst hquery
      exact .inr ⟨Function.update_self .., Function.update_self ..⟩
    · exact .inl (Function.update_of_ne hquery ..)
  cases heff with
  | invalidated _ => exact hinvalidate _
  | dropped _ => exact hinvalidate _
  | _ => exact .inl rfl

/-- A run of `t` is one of `s`, has just begun, or has read one more list. -/
theorem Effect.runs (heff : Effect E s a t) {i : Nat} {run : QueryRun}
    (hop : t.operations i = some (.running run)) :
    s.operations i = some (.running run) ∨
      (run.began = s.invalidations run.queryId ∧
        run.reading = ⟨s.db.rulesOf run.queryId, [], fun _ => none⟩ ∧ t = s.put i (.running run)) ∨
      ∃ before listId, s.operations i = some (.running before) ∧
        before.reading.names listId = true ∧
        run = { before with reading := before.reading.readItems s.lists listId } ∧
        t = s.put i (.running run) := by
  cases heff with
  | idle => exact .inl hop
  | @moved _ j stage hmoved =>
    by_cases hij : i = j
    · subst hij
      have hstage : stage = .running run := by
        simpa [State.put] using hop
      subst hstage
      generalize hold : s.operations i = old at hmoved
      cases hmoved with
      | running _ => exact .inr (.inl ⟨rfl, rfl, rfl⟩)
      | read hnames => exact .inr (.inr ⟨_, _, rfl, hnames, rfl, rfl⟩)
    · simp only [State.put, Function.update_of_ne hij] at hop
      exact .inl hop
  | removed => exact .inl hop
  | evicted => exact .inl hop
  | _ =>
    simp only [State.put, State.drop, State.invalidate, Function.update_apply] at hop
    split at hop
    · cases hop
    · exact .inl hop

/-- The items that are read of a list are the ones that are stored, where it is. -/
theorem Current.readItems {queryId listId : String} {reading : Reading}
    (h : Current s queryId reading) (hrefs : References s.lists s.db)
    (hnames : reading.names listId = true) :
    Current s queryId (reading.readItems s.lists listId) := by
  refine ⟨h.rules, fun other hother => ?_⟩
  simp only [Reading.readItems, Function.update_apply] at hother ⊢
  split
  next heq =>
    subst heq
    rcases h.rules with hsame | hdue
    · obtain ⟨r, hr, hreads⟩ := List.any_eq_true.mp hnames
      obtain ⟨l, hl⟩ := Option.isSome_iff_exists.mp (hrefs.stored ⟨r, hsame ▸ hr, hreads⟩)
      exact .inl (by simp [itemsOf, hl])
    · exact .inr (.inr hdue)
  next hne => exact h.items other ((List.mem_cons.mp hother).resolve_left hne)

theorem Tracked.readItems {queryId listId : String} {reading : Reading}
    (h : Tracked s queryId reading) (hrefs : References s.lists s.db)
    (hnames : reading.names listId = true) :
    Tracked s queryId (reading.readItems s.lists listId) where
  named other hother := by
    rcases List.mem_cons.mp hother with rfl | hold
    · exact hnames
    · exact h.named other hold
  current hquery := (h.current hquery).readItems hrefs hnames

/-- The step lemma. -/
theorem Inv.effect (h : Inv s) (hok : NotOvertaken s a) (heff : Effect E s a t) : Inv t := by
  have hcount := heff.invalidations
  refine ⟨h.known.effect heff, references_effect h.references heff, ?_, ?_, ?_⟩
  · intro i run hop
    have hle : s.invalidations run.queryId ≤ t.invalidations run.queryId := by
      rcases hcount run.queryId with heq | ⟨heq, -⟩
      · exact heq.ge
      · exact heq ▸ Nat.le_succ _
    refine le_trans ?_ hle
    rcases heff.runs hop with hold | ⟨hbegan, -, -⟩ | ⟨before, listId, hold, -, rfl, -⟩
    · exact h.began i run hold
    · exact hbegan.le
    · exact h.began i before hold
  · intro i run hop hbegan
    have hsame : s.invalidations run.queryId = t.invalidations run.queryId →
        Tracked s run.queryId run.reading → Tracked t run.queryId run.reading :=
      fun heq htracked => htracked.effect h.references h.known heff heq.symm
    rcases heff.runs hop with hold | ⟨-, hreading, rfl⟩ | ⟨before, listId, hold, hnames, rfl, rfl⟩
    · have hle := h.began i run hold
      rcases hcount run.queryId with heq | ⟨heq, -⟩
      · exact hsame heq.symm (h.runs i run hold (hbegan.trans heq))
      · omega
    · refine hsame rfl ?_
      rw [hreading]
      exact ⟨fun _ hmem => (by cases hmem), fun _ => ⟨.inl rfl, fun _ hmem => (by cases hmem)⟩⟩
    · exact hsame rfl ((h.runs i before hold hbegan).readItems h.references hnames)
  · intro queryId held hheld
    rcases hcount queryId with heq | ⟨-, hnone⟩
    · have htrack : ∀ reading, Tracked s queryId reading → Tracked t queryId reading :=
        fun _ htracked => htracked.effect h.references h.known heff heq
      have hkeep : ∀ {held : Held}, s.results queryId = some held →
          held.reading.complete = true ∧ Tracked t queryId held.reading := fun hold =>
        (h.held queryId _ hold).imp_right (htrack _)
      cases heff with
      | @stored i run result hop hcomplete =>
        simp only [Function.update_apply] at hheld
        split at hheld
        next hquery =>
          obtain rfl := Option.some.inj hheld
          subst hquery
          have htracked := h.runs i run hop (began_of_notOvertaken hok hop)
          exact ⟨hcomplete, htrack _ htracked⟩
        · exact hkeep hheld
      | evicted =>
        simp only [Function.update_apply] at hheld
        split at hheld
        · cases hheld
        · exact hkeep hheld
      | invalidated _ =>
        simp only [State.put, State.invalidate, Function.update_apply] at hheld
        split at hheld
        · cases hheld
        · exact hkeep hheld
      | dropped _ =>
        simp only [State.drop, State.invalidate, Function.update_apply] at hheld
        split at hheld
        · cases hheld
        · exact hkeep hheld
      | _ => exact hkeep hheld
    · rw [hnone] at hheld
      cases hheld

end Steps

theorem inv_start {lists : Table ItemList.id} {db : Db} (hrefs : References lists db) :
    Inv (State.start lists db) where
  known := ⟨fun _ hr => List.mem_map_of_mem hr, fun _ _ _ _ hop => by cases hop⟩
  references := hrefs
  began _ _ hop := by cases hop
  runs _ _ hop := by cases hop
  held _ _ hheld := by cases hheld

/-! ## What is held -/

/-- The flags of a held result. -/
def Held.flags (u : Unicode) (sha256Hex : Sha256Hex) (held : Held) : Flags :=
  evaluateFlags u sha256Hex held.reading.items held.reading.rules held.result.columns
    held.result.rows

/-- The evaluator asks for the lists that the conditions name. -/
theorem evaluateFlags_congr {u : Unicode} {sha256Hex : Sha256Hex}
    {lists lists' : String → Option (List String)} {rules : List FlagRule} {columns : List String}
    {rows : List (Row columns)}
    (h : ∀ r ∈ rules, ∀ c ∈ r.conditions, ∀ id, c.listId = some id → lists id = lists' id) :
    evaluateFlags u sha256Hex lists rules columns rows =
      evaluateFlags u sha256Hex lists' rules columns rows := by
  have hspecs : specsFromModels u lists rules = specsFromModels u lists' rules := by
    refine List.map_congr_left fun r hr => ?_
    have hconditions : ∀ c ∈ sortedBy FlagCondition.position r.conditions,
        membersOf u lists c = membersOf u lists' c := by
      intro c hc
      rw [membersOf, membersOf]
      cases hid : c.listId with
      | none => rfl
      | some id =>
        simp only [Option.bind_some]
        rw [h r (mem_sortedBy.mp hr) c (mem_sortedBy.mp hc) id hid]
    congr 1
    exact List.map_congr_left fun c hc => by rw [hconditions c hc]
  rw [evaluateFlags, evaluateFlags, hspecs]

/-- **Edits reach the screen.** In every run in which no run of a query stores what it read before
the last invalidation, a result of a stored query that is held while no edit is on its way to it was
flagged with the rules and the items that are stored. -/
theorem flags_eq_of_notOvertaken {E : Env} {lists : Table ItemList.id} {db : Db} {s : State}
    {as : List Action} (hrefs : References lists db)
    (h : Machine.Run (step E) NotOvertaken (State.start lists db) as s) (sha256Hex : Sha256Hex)
    {queryId : String} {held : Held} (hheld : s.results queryId = some held)
    (hquery : (s.db.queries.get queryId).isSome) (howed : ¬ Owed s queryId)
    (hlooking : ∀ listId, held.reading.names listId = true → ¬ Collecting s listId) :
    held.flags E.unicode sha256Hex =
      evaluateFlags E.unicode sha256Hex (itemsOf s.lists) (s.db.rulesOf queryId) held.result.columns
        held.result.rows := by
  have hinv : Inv s := h.invariant
    (fun _ _ _ hI hstep hok => hI.effect hok (effect_of_step hstep)) (inv_start hrefs)
  obtain ⟨hcomplete, htracked⟩ := hinv.held queryId held hheld
  have hcurrent := htracked.current hquery
  have hrules : held.reading.rules = s.db.rulesOf queryId := hcurrent.rules.resolve_right howed
  rw [Held.flags, ← hrules]
  refine evaluateFlags_congr fun r hr c hc id hid => ?_
  have hread : id ∈ held.reading.listIds := by
    have hall := List.all_eq_true.mp (List.all_eq_true.mp hcomplete r hr) c hc
    rw [hid] at hall
    exact of_decide_eq_true hall
  rcases hcurrent.items id hread with heq | hcollecting | hdue
  · exact heq
  · exact absurd hcollecting (hlooking id (htracked.named id hread))
  · exact absurd hdue howed

namespace Sample

/-- Two cards. -/
def result : Queries.ExecutionResult :=
  ⟨["card"], [⟨[.str "4111"], rfl⟩, ⟨[.str "4222"], rfl⟩], false, 1⟩

end Sample

/-- The query is run, the list is saved with another item, and the query is run again. -/
theorem flags_eq_of_saved : ∃ (s : State) (held : Held), s.results "q" = some held ∧
    held.reading.items "l" = some ["4222"] ∧
    held.flags .ascii (fun _ => "f") =
      evaluateFlags .ascii (fun _ => "f") (itemsOf s.lists) (s.db.rulesOf "q") held.result.columns
        held.result.rows := by
  have hrun : ∃ s, Machine.Run (step Sample.env) NotOvertaken
      (State.start Sample.stored Sample.database)
      [.beginReplace 0 Sample.creator "q" Sample.watching, .advance 0 [], .advance 0 [],
        .advance 0 ["r"], .advance 0 [],
        .beginRun 1 "q", .readItems 1 "l", .store 1 Sample.result,
        .beginUpdate 2 Sample.creator "l" ⟨"Cards", none, ["4222"]⟩, .advance 2 [], .advance 2 [],
        .advance 2 [], .advance 2 [], .advance 2 [],
        .beginRun 3 "q", .readItems 3 "l", .store 3 Sample.result] s ∧
      (∀ i, s.operations i = none) ∧ (s.db.queries.get "q").isSome = true ∧
      ∃ held, s.results "q" = some held ∧ held.reading.items "l" = some ["4222"] := by
    refine ⟨_, Machine.run_of_exec_checked rfl, ?_, rfl, _, rfl, rfl⟩
    intro i
    simp [State.start, State.put, State.drop, State.invalidate, Function.update_apply]
  obtain ⟨s, hrun, hidle, hquery, held, hheld, hitems⟩ := hrun
  refine ⟨s, held, hheld, hitems, ?_⟩
  refine flags_eq_of_notOvertaken Sample.references hrun (fun _ => "f") hheld hquery ?_ ?_
  · rintro ⟨i, hi | ⟨ids, hi, -⟩⟩
    · rw [hidle i] at hi
      cases hi
    · rw [hidle i] at hi
      cases hi
  · rintro listId - ⟨i, hi⟩
    rw [hidle i] at hi
    cases hi

end FraudAnalyzer.Lists
