import FraudAnalyzer.Queries.Serving

/-!
# Results of a replaced definition

`update_query` and `replace_rules` invalidate the query's result once they have committed. That
covers what is stored at that moment; a run that has read the old definition and is still waiting
for its target stores its result afterwards. `run_outlives_edit` is such a run. In the runs of the
system where this does not happen, `noneReplaced_of_notOutdated`.
-/

namespace FraudAnalyzer.Queries

open Charts FlagRules

/-! ## The property -/

/-- Computed from the statement and flagged with the rules that the edits which have returned left,
or from later ones. -/
structure UpToDate (sql : Ledger (Option String)) (rules : Ledger (List FlagRule))
    (tagged : Tagged) : Prop where
  sql : ∀ n ∈ sql.answered, sql.Since n (some tagged.sqlText)
  rules : ∀ n ∈ rules.answered, rules.Since n tagged.rules

/-- The result cache neither holds nor has served a result of a replaced definition. -/
structure NoneReplaced {β : Type} (s : State β) : Prop where
  held : ∀ id entry, s.results.get id = some entry →
    UpToDate (s.sqlLedger id) (s.ruleLedger id) entry.payload
  served : ∀ x ∈ s.hits, UpToDate x.sql x.rules x.payload

/-- No run stores a result whose statement or rules it has read before an edit that has already
invalidated the cache. -/
def NotOutdated {β : Type} (s : State β) (a : Action) : Prop :=
  ∀ x ∈ s.stores a, (s.sqlLedger x.1.query.id).Fresh (some x.2.sqlText) ∧
    (s.ruleLedger x.1.query.id).Fresh x.2.rules

instance {β : Type} (s : State β) (a : Action) : Decidable (NotOutdated s a) :=
  inferInstanceAs (Decidable (∀ x ∈ s.stores a, _ ∧ _))

/-! ## The invariant -/

section Invariant

variable {β : Type}

/-- The cache has been cleared for the version of an edit. -/
def Marked (s : State β) (id : String) (n : Nat) : EditKind → Prop
  | .sql => n ∈ (s.sqlLedger id).cleared
  | .rules => n ∈ (s.ruleLedger id).cleared
  | _ => True

/-- The version that an edit past its invalidation will answer for. -/
def Stage.owes : Stage → Option (String × EditKind × Nat)
  | .droppingBytes id kind version _ => some (id, kind, version)
  | .answering id kind version => some (id, kind, version)
  | _ => none

theorem owes_inj {id id' : String} {kind kind' : EditKind} {n n' : Nat}
    (h : some (id, kind, n) = some (id', kind', n')) : id = id' ∧ kind = kind' ∧ n = n' := by
  simpa using h

structure Inv (s : State β) : Prop where
  sqlClears : ∀ id, (s.sqlLedger id).ClearsFirst
  ruleClears : ∀ id, (s.ruleLedger id).ClearsFirst
  held : ∀ id entry, s.results.get id = some entry →
    (s.sqlLedger id).Fresh (some entry.payload.sqlText) ∧
      (s.ruleLedger id).Fresh entry.payload.rules
  edits : ∀ i stage, s.operations i = some stage →
    ∀ id kind n, stage.owes = some (id, kind, n) → Marked s id n kind
  served : ∀ x ∈ s.hits, UpToDate x.sql x.rules x.payload

variable {E : ServingEnv β} {s t : State β}

theorem Inv.upToDate (h : Inv s) {id : String} {entry : CacheEntry Tagged}
    (hget : s.results.get id = some entry) :
    UpToDate (s.sqlLedger id) (s.ruleLedger id) entry.payload where
  sql := (h.held id entry hget).1.since_answered (h.sqlClears id)
  rules := (h.held id entry hget).2.since_answered (h.ruleClears id)

theorem inv_start (db : Db) (dismissals : List FlagDismissal) :
    Inv (State.start db dismissals : State β) where
  sqlClears id := .start _
  ruleClears id := .start _
  held id entry h := by cases h
  edits i stage h := by cases h
  served x h := absurd h List.not_mem_nil

/-- Disposals are not forgotten. -/
theorem Marked.mono {id : String} {n : Nat} {kind : EditKind} (h : Marked s id n kind)
    (hsql : ∀ m ∈ (s.sqlLedger id).cleared, m ∈ (t.sqlLedger id).cleared)
    (hrules : ∀ m ∈ (s.ruleLedger id).cleared, m ∈ (t.ruleLedger id).cleared) :
    Marked t id n kind := by
  cases kind with
  | sql => exact hsql n h
  | rules => exact hrules n h
  | charts => trivial
  | all => trivial

/-- What the invariant does not speak of. -/
theorem Inv.congr (h : Inv s)
    (hresults : ∀ id entry, t.results.get id = some entry → s.results.get id = some entry)
    (hsql : t.sqlLedger = s.sqlLedger) (hrules : t.ruleLedger = s.ruleLedger)
    (hops : t.operations = s.operations) (hhits : t.hits = s.hits) : Inv t where
  sqlClears := by rw [hsql]; exact h.sqlClears
  ruleClears := by rw [hrules]; exact h.ruleClears
  held id entry hget := by
    rw [hsql, hrules]
    exact h.held id entry (hresults id entry hget)
  edits i stage hstage id kind n howes := by
    have hold := h.edits i stage (hops ▸ hstage) id kind n howes
    exact hold.mono (by rw [hsql]; exact fun _ hm => hm) (by rw [hrules]; exact fun _ hm => hm)
  served := by rw [hhits]; exact h.served

theorem Inv.put (h : Inv s) (i : Nat) {stage : Stage}
    (hstage : ∀ id kind n, stage.owes = some (id, kind, n) → Marked s id n kind) :
    Inv (s.put i stage) where
  sqlClears := h.sqlClears
  ruleClears := h.ruleClears
  held := h.held
  edits j stage' hj := by
    simp only [State.put, Function.update_apply] at hj
    split at hj
    · obtain rfl := Option.some.inj hj
      exact hstage
    · exact h.edits j stage' hj
  served := h.served

/-- A request that owes nothing. -/
theorem Inv.put_of_owes_none (h : Inv s) (i : Nat) {stage : Stage} (hstage : stage.owes = none) :
    Inv (s.put i stage) :=
  h.put i fun id kind n howes => by rw [hstage] at howes; cases howes

theorem Inv.drop (h : Inv s) (i : Nat) : Inv (s.drop i) where
  sqlClears := h.sqlClears
  ruleClears := h.ruleClears
  held := h.held
  edits j stage hj := by
    simp only [State.drop, Function.update_apply] at hj
    split at hj
    · cases hj
    · exact h.edits j stage hj
  served := h.served

theorem Inv.noteHit (h : Inv s) {results : ResultCache Tagged} {id : String}
    {entry : CacheEntry Tagged} (hget : s.results.get id = some entry)
    (hresults : ∀ id', results.get id' = s.results.get id') :
    Inv (s.noteHit results id entry.payload) where
  sqlClears := h.sqlClears
  ruleClears := h.ruleClears
  held id' entry' hget' := h.held id' entry' (hresults id' ▸ hget')
  edits := h.edits
  served x hx := by
    rcases List.mem_cons.mp hx with rfl | hold
    · exact h.upToDate hget
    · exact h.served x hold

theorem Inv.notePoll (h : Inv s) (request : Request) (answer : PollChanged) (version : Nat)
    (response : Option (Rendered β)) : Inv (s.notePoll request answer version response) :=
  h.congr (fun _ _ hget => hget) rfl rfl rfl rfl

theorem Inv.respond (h : Inv s) (i : Nat) (caller : Caller) (tagged : Tagged) (fromCache : Bool) :
    Inv (respond E s i caller tagged fromCache) := by
  unfold Queries.respond
  split
  · exact h.drop i
  · split
    · exact (h.notePoll _ _ _ _).drop i
    · exact h.put_of_owes_none i rfl

theorem Inv.commit (h : Inv s) (db : Db) : Inv (s.commit db) where
  sqlClears id := (h.sqlClears id).observe _
  ruleClears id := (h.ruleClears id).observe _
  held id entry hget := by
    obtain ⟨hsql, hrules⟩ := h.held id entry hget
    exact ⟨hsql.observe _, hrules.observe _⟩
  edits i stage hstage id kind n howes := by
    refine (h.edits i stage hstage id kind n howes).mono ?_ ?_
    · intro m hm
      simpa only [State.commit, Ledger.cleared_observe] using hm
    · intro m hm
      simpa only [State.commit, Ledger.cleared_observe] using hm
  served := h.served

/-- A run stores its result. -/
theorem Inv.storeResult (h : Inv s) {results : ResultCache Tagged} {id : String} {tagged : Tagged}
    (hresults : ∀ id' entry, results.get id' = some entry →
      (id' = id ∧ entry.payload = tagged) ∨ (id' ≠ id ∧ s.results.get id' = some entry))
    (hsql : (s.sqlLedger id).Fresh (some tagged.sqlText))
    (hrules : (s.ruleLedger id).Fresh tagged.rules) : Inv { s with results := results } where
  sqlClears := h.sqlClears
  ruleClears := h.ruleClears
  held id' entry hget := by
    rcases hresults id' entry hget with ⟨rfl, rfl⟩ | ⟨-, hold⟩
    · exact ⟨hsql, hrules⟩
    · exact h.held id' entry hold
  edits := h.edits
  served := h.served

/-- A new mapping leaves the statement and the rules of an entry. -/
theorem Inv.patchResults (h : Inv s) (id : String) (charts : List QueryChart) (read : Nat) :
    Inv { s with
      results := s.results.patchCharts (fun t => E.size t.body) id (redraw E charts read) } where
  sqlClears := h.sqlClears
  ruleClears := h.ruleClears
  held id' entry hget := by
    rcases ResultCache.get_of_patchCharts hget with ⟨-, old, hold, hredraw⟩ | ⟨-, hold⟩
    · have hsame := Option.some.inj hredraw
      rw [← hsame]
      exact h.held id' old hold
    · exact h.held id' entry hold
  edits := h.edits
  served := h.served

/-- The invalidation of an edit. -/
theorem Inv.invalidate (h : Inv s) (id : String) (kind : EditKind) (version : Nat) :
    Inv ({ s with results := s.results.invalidate id }.noteClear id kind version) ∧
      Marked ({ s with results := s.results.invalidate id }.noteClear id kind version) id version
        kind := by
  have hheld : ∀ id' entry, (s.results.invalidate id).get id' = some entry →
      id' ≠ id ∧ s.results.get id' = some entry := by
    intro id' entry hget
    rw [ResultCache.get_invalidate] at hget
    split at hget
    · cases hget
    next hid => exact ⟨hid, hget⟩
  have hshrunk : Inv { s with results := s.results.invalidate id } :=
    h.congr (fun id' entry hget => (hheld id' entry hget).2) rfl rfl rfl rfl
  cases kind with
  | sql =>
    refine ⟨⟨Ledger.ClearsFirst.update_clear h.sqlClears id version, h.ruleClears, ?_, ?_,
      h.served⟩, ?_⟩
    · intro id' entry hget
      obtain ⟨hid, hold⟩ := hheld id' entry hget
      simp only [State.noteClear, Function.update_of_ne hid]
      exact h.held id' entry hold
    · intro i stage hstage id' kind n howes
      apply (h.edits i stage hstage id' kind n howes).mono
      · apply Ledger.cleared_subset_update_clear
      · exact fun _ hm => hm
    · simp [Marked, State.noteClear, Ledger.clear]
  | rules =>
    refine ⟨⟨h.sqlClears, Ledger.ClearsFirst.update_clear h.ruleClears id version, ?_, ?_,
      h.served⟩, ?_⟩
    · intro id' entry hget
      obtain ⟨hid, hold⟩ := hheld id' entry hget
      simp only [State.noteClear, Function.update_of_ne hid]
      exact h.held id' entry hold
    · intro i stage hstage id' kind n howes
      apply (h.edits i stage hstage id' kind n howes).mono
      · exact fun _ hm => hm
      · apply Ledger.cleared_subset_update_clear
    · simp [Marked, State.noteClear, Ledger.clear]
  | charts => exact ⟨hshrunk.congr (fun _ _ hget => hget) rfl rfl rfl rfl, trivial⟩
  | all => exact ⟨hshrunk, trivial⟩

/-- The answer of an edit. -/
theorem Inv.noteAnswer (h : Inv s) {id : String} {kind : EditKind} {version : Nat}
    (hmarked : Marked s id version kind) : Inv (s.noteAnswer id kind version) := by
  cases kind with
  | sql =>
    refine ⟨Ledger.ClearsFirst.update_answer h.sqlClears hmarked, h.ruleClears, ?_, ?_, h.served⟩
    · intro id' entry hget
      obtain ⟨hsql, hrules⟩ := h.held id' entry hget
      exact ⟨hsql.update_answer id version, hrules⟩
    · intro i stage hstage id' kind n howes
      apply (h.edits i stage hstage id' kind n howes).mono
      · intro m hm
        simpa only [State.noteAnswer, Ledger.cleared_update_answer] using hm
      · exact fun _ hm => hm
  | rules =>
    refine ⟨h.sqlClears, Ledger.ClearsFirst.update_answer h.ruleClears hmarked, ?_, ?_, h.served⟩
    · intro id' entry hget
      obtain ⟨hsql, hrules⟩ := h.held id' entry hget
      exact ⟨hsql, hrules.update_answer id version⟩
    · intro i stage hstage id' kind n howes
      apply (h.edits i stage hstage id' kind n howes).mono
      · exact fun _ hm => hm
      · intro m hm
        simpa only [State.noteAnswer, Ledger.cleared_update_answer] using hm
  | charts => exact h.congr (fun _ _ hget => hget) rfl rfl rfl rfl
  | all => exact h

/-! ## Each step keeps it -/

theorem Inv.perform (h : Inv s) {i : Nat} {input : Input} {stage : Stage}
    (hop : s.operations i = some stage)
    (hok : ∀ run tagged, stage = .storing run tagged →
      (s.sqlLedger run.query.id).Fresh (some tagged.sqlText) ∧
        (s.ruleLedger run.query.id).Fresh tagged.rules)
    (hstep : perform E s i input stage = some t) : Inv t := by
  cases performed_of_perform hstep with
  | ended => exact h.drop i
  | opened request query dismissed =>
    have hseen : Inv (s.noteSeen query.id dismissed) :=
      h.congr (fun _ _ hget => hget) rfl rfl rfl rfl
    refine hseen.put_of_owes_none i ?_
    split <;> rfl
  | hit caller query entry results hget hresults =>
    exact (h.noteHit hget hresults).respond i caller _ true
  | hitStale caller query entry results hget hresults =>
    exact (h.noteHit hget hresults).respond i caller _ true
  | missedStale caller query results hkept =>
    refine Inv.put_of_owes_none ?_ i rfl
    exact h.congr hkept rfl rfl rfl rfl
  | charted =>
    refine Inv.put_of_owes_none ?_ i rfl
    exact h.congr (fun _ _ hget => hget) rfl rfl rfl rfl
  | stored run tagged results hset =>
    obtain ⟨hsql, hrules⟩ := hok run tagged rfl
    refine Inv.drop ?_ i
    exact h.storeResult (fun id entry hget => ResultCache.get_of_set hset hget) hsql hrules
  | returned run tagged results caller hset =>
    obtain ⟨hsql, hrules⟩ := hok run tagged rfl
    refine Inv.respond ?_ i caller tagged false
    exact h.storeResult (fun id entry hget => ResultCache.get_of_set hset hget) hsql hrules
  | found =>
    refine Inv.drop ?_ i
    exact h.congr (fun _ _ hget => hget) rfl rfl rfl rfl
  | kept =>
    refine Inv.drop ?_ i
    exact h.congr (fun _ _ hget => hget) rfl rfl rfl rfl
  | committed op loaded db =>
    refine (h.commit db).put_of_owes_none i ?_
    split <;> rfl
  | invalidated id kind version =>
    obtain ⟨hinv, hmarked⟩ := h.invalidate id kind version
    refine hinv.put i ?_
    intro id' kind' n howes
    obtain ⟨rfl, rfl, rfl⟩ := owes_inj howes
    exact hmarked
  | patched id version charts read =>
    refine Inv.put ?_ i ?_
    · exact (h.patchResults id charts read).congr (fun _ _ hget => hget) rfl rfl rfl rfl
    · intro id' kind n howes
      obtain ⟨rfl, rfl, rfl⟩ := owes_inj howes
      trivial
  | dropped id kind version read =>
    have hdropped : Inv ({ s with
        rendered := s.rendered.invalidateQuery E.codec id }.noteBytes id kind read) := by
      cases kind <;> exact h.congr (fun _ _ hget => hget) rfl rfl rfl rfl
    refine hdropped.put i ?_
    intro id' kind' n howes
    obtain ⟨rfl, rfl, rfl⟩ := owes_inj howes
    have hmarked := h.edits i _ hop _ _ _ rfl
    cases kind <;> exact hmarked
  | answered => exact (h.noteAnswer (h.edits i _ hop _ _ _ rfl)).drop i
  -- The other stages leave the caches and the ledgers alone.
  | _ => exact h.put_of_owes_none i rfl

/-- The step lemma. -/
theorem Inv.step {a : Action} (h : Inv s) (hstep : step E s a = some t) (hok : NotOutdated s a) :
    Inv t := by
  cases a with
  | poll i user id sinceHash force batch =>
    simp only [Queries.step] at hstep
    split at hstep
    · exact Option.some.inj hstep ▸ h
    · exact Option.some.inj hstep ▸ h.put_of_owes_none i rfl
  | run i id =>
    simp only [Queries.step] at hstep
    split at hstep
    · exact Option.some.inj hstep ▸ h
    · exact Option.some.inj hstep ▸ h.put_of_owes_none i rfl
  | schedule i id =>
    simp only [Queries.step] at hstep
    split at hstep
    · exact Option.some.inj hstep ▸ h
    · exact Option.some.inj hstep ▸ h.put_of_owes_none i rfl
  | look id clock =>
    simp only [Queries.step] at hstep
    split at hstep
    · exact Option.some.inj hstep ▸ h
    next hfind =>
      obtain ⟨hget, hresults⟩ := ResultCache.getFresh_spec hfind
      exact Option.some.inj hstep ▸ h.noteHit hget hresults
  | edit i user id edit =>
    simp only [Queries.step] at hstep
    split at hstep
    · exact Option.some.inj hstep ▸ h
    · exact Option.some.inj hstep ▸ h.put_of_owes_none i rfl
  | relist i id => exact Option.some.inj hstep ▸ h.put_of_owes_none i rfl
  | advance i input =>
    simp only [Queries.step] at hstep
    split at hstep
    · cases hstep
    next stage hop =>
      refine h.perform hop ?_ hstep
      intro run tagged hstage
      refine hok (run, tagged) ?_
      simp only [State.stores, hop, hstage, Option.mem_def]
  | dismiss user id fingerprints =>
    exact Option.some.inj hstep ▸ h.congr (fun _ _ hget => hget) rfl rfl rfl rfl
  | restore user id fingerprints =>
    exact Option.some.inj hstep ▸ h.congr (fun _ _ hget => hget) rfl rfl rfl rfl
  | abort i => exact Option.some.inj hstep ▸ h.drop i

end Invariant

/-- **No result of a replaced definition.** In every run in which no outdated result is stored. -/
theorem noneReplaced_of_notOutdated {β : Type} {E : ServingEnv β} {db : Db}
    {dismissals : List FlagDismissal} {s : State β} {as : List Action}
    (h : Machine.Run (step E) NotOutdated (State.start db dismissals) as s) : NoneReplaced s := by
  have hinv : Inv s :=
    h.invariant (fun _ _ _ hI hstep hok => hI.step hstep hok) (inv_start db dismissals)
  exact ⟨fun id entry hget => hinv.upToDate hget, hinv.served⟩

/-- An edit after which the query is run, and polled. -/
theorem noneReplaced_of_notOutdated_edited :
    ∃ s : State Sample.Frame,
      NoneReplaced s ∧ s.hits.length = 1 ∧ (s.sqlLedger "q").answered = [1] := by
  have hrun : ∃ s, Machine.Run (step Sample.servingEnv) NotOutdated
      (State.start Charts.Sample.db [])
      [.edit 1 Charts.Sample.author "q" (.updateQuery { sqlText := some (some "SELECT 2") }),
        .advance 1 (Sample.input 1), .advance 1 (Sample.input 1), .advance 1 (Sample.input 1),
        .advance 1 (Sample.input 1), .advance 1 (Sample.input 1), .advance 1 (Sample.input 1),
        .run 0 "q", .advance 0 (Sample.input 2), .advance 0 (Sample.input 2),
        .advance 0 (Sample.input 2), .advance 0 (Sample.input 2),
        .poll 2 Charts.Sample.author "q" none false false, .advance 2 (Sample.input 3),
        .advance 2 (Sample.input 3)] s ∧
        s.hits.length = 1 ∧
        (s.sqlLedger "q").answered = [1] :=
    ⟨_, Machine.run_of_exec_checked rfl, rfl, rfl⟩
  obtain ⟨s, hrun, hhits, hanswered⟩ := hrun
  exact ⟨s, noneReplaced_of_notOutdated hrun, hhits, hanswered⟩

/-- The run reads the query, the edit is made and answered, and the run stores what it read; the
next poll is served from it. -/
theorem run_outlives_edit :
    ∃ as s, Machine.Run (step Sample.servingEnv) Machine.Always (State.start Charts.Sample.db [])
      as s ∧ ¬ NoneReplaced s := by
  obtain ⟨s, hrun, hhit⟩ := @Machine.exists_run_of_exec_any _ _
    (step Sample.servingEnv) (State.start Charts.Sample.db [])
      [.run 0 "q",
        .edit 1 Charts.Sample.author "q" (.updateQuery { sqlText := some (some "SELECT 2") }),
        .advance 1 (Sample.input 1), .advance 1 (Sample.input 1), .advance 1 (Sample.input 1),
        .advance 1 (Sample.input 1), .advance 1 (Sample.input 1), .advance 1 (Sample.input 1),
        .advance 0 (Sample.input 2), .advance 0 (Sample.input 2), .advance 0 (Sample.input 2),
        .advance 0 (Sample.input 2), .poll 2 Charts.Sample.author "q" none false false,
        .advance 2 (Sample.input 3), .advance 2 (Sample.input 3)]
    (fun s => s.hits.any fun x =>
      !decide (∀ n ∈ x.sql.answered, x.sql.Since n (some x.payload.sqlText))) rfl
  refine ⟨_, s, hrun, ?_⟩
  intro h
  obtain ⟨x, hx, hold⟩ := List.any_eq_true.mp hhit
  simp only [Bool.not_eq_true', decide_eq_false_iff_not] at hold
  exact hold (h.served x hx).sql

end FraudAnalyzer.Queries
