import FraudAnalyzer.Charts.Reading
import FraudAnalyzer.Queries.Answers
import FraudAnalyzer.Queries.DataHash

/-!
# Polls by owners and viewers

The serving of results with the poll of a published chart added, which is everybody's. In every run
a cached body is one that was run, with its hash, and a body that was served is such a one without
the rows its reader has dismissed.
-/

namespace FraudAnalyzer.Queries

open Charts FlagRules

variable {β : Type}

/-- A step of the system as it was, or a poll of a published chart. Its body goes out as it is, with
the charts of the query but this one taken out. -/
inductive Visit where
  | own (a : Action)
  | published (i : Nat) (user : User) (chartId : String) (sinceHash : Option String) (force : Bool)

def visit (E : ServingEnv β) (s : State β) : Visit → Option (State β)
  | .own a => step E s a
  | .published i user chartId sinceHash force =>
    match getPublished s.db chartId with
    | .error _ => some s
    | .ok chart =>
      match s.db.queries.get chart.queryId with
      | none => some s
      | some query =>
        some (s.put i (.opened ⟨user, chart.queryId, sinceHash, force, true,
          (s.chartLedger chart.queryId).answered⟩ query))

/-- Whose poll it is. -/
def Visit.poller : Visit → Option User
  | .own (.poll _ user _ _ _ _) => some user
  | .published _ user _ _ _ => some user
  | _ => none

/-- The body a poll was served. -/
def Polled.body (codec : Codec β) (x : Polled β) : Option Body :=
  match x.response with
  | none => some x.answer.body
  | some response => (response.decode codec).map PollChanged.body

/-! ## Where a body comes from -/

section Trace

variable {E : ServingEnv β} {s t : State β} {id : String} {body : Body} {caller : Caller}

/-- The body of an execution of the query, with whatever charts. -/
def Body.FromRun (s : State β) (id : String) (body : Body) : Prop :=
  ∃ e ∈ s.executions, e.body.queryId = id ∧ ∃ charts, body = { e.body with charts := charts }

/-- Such a body without the rows that a user has dismissed. -/
def Body.FromPoll (E : ServingEnv β) (s : State β) (body : Body) : Prop :=
  ∃ e ∈ s.executions, ∃ D ∈ s.seen e.body.queryId, ∃ charts,
    body = { applyDismissals E.sha256Hex e.body D with charts := charts }

structure Caller.Known (s : State β) (id : String) (caller : Caller) : Prop where
  query : caller.request.queryId = id
  dismissed : caller.dismissed ∈ s.seen id

def QueryRun.Known (s : State β) (run : QueryRun) : Prop :=
  ∀ caller ∈ run.caller, caller.Known s run.query.id

def Stage.Known (E : ServingEnv β) (s : State β) : Stage → Prop
  | .opened request query => request.queryId = query.id
  | .looking caller query => caller.Known s query.id
  | .lookingStale caller query => caller.Known s query.id
  | .executing run => run.Known s
  | .flagging run _ => run.Known s
  | .charting run _ _ _ => run.Known s
  | .storing run tagged => run.Known s ∧ tagged.body.FromRun s run.query.id
  | .rendering _ answer _ => answer.body.FromPoll E s
  | .keeping _ answer _ => answer.body.FromPoll E s
  | _ => True

/-- In every run. -/
structure TraceInv (E : ServingEnv β) (s : State β) : Prop where
  hashed : ∀ e ∈ s.executions, e.body.Hashed E.sha256Hex
  held : ∀ id entry, s.results.get id = some entry → entry.payload.body.FromRun s id
  rendered : ∀ key r answer, s.rendered.get key = some r → r.decode E.codec = some answer →
    answer.body.FromPoll E s
  operations : ∀ i stage, s.operations i = some stage → stage.Known E s
  polls : ∀ x ∈ s.polls, ∀ body, x.body E.codec = some body → body.FromPoll E s

/-- Runs and readings of dismissals are only added. -/
structure Adds (s t : State β) : Prop where
  executions : s.executions ⊆ t.executions
  seen : ∀ id, s.seen id ⊆ t.seen id

theorem Adds.of_eq (hexecutions : t.executions = s.executions) (hseen : t.seen = s.seen) :
    Adds s t where
  executions := hexecutions ▸ List.Subset.refl _
  seen id := by rw [hseen]; exact List.Subset.refl _

theorem Body.FromRun.mono (h : body.FromRun s id) (hadds : Adds s t) : body.FromRun t id := by
  obtain ⟨e, he, hrest⟩ := h
  exact ⟨e, hadds.executions he, hrest⟩

theorem Body.FromPoll.mono (h : body.FromPoll E s) (hadds : Adds s t) : body.FromPoll E t := by
  obtain ⟨e, he, D, hD, hbody⟩ := h
  exact ⟨e, hadds.executions he, D, hadds.seen _ hD, hbody⟩

theorem Caller.Known.mono (h : caller.Known s id) (hadds : Adds s t) : caller.Known t id :=
  ⟨h.query, hadds.seen id h.dismissed⟩

theorem QueryRun.Known.mono {run : QueryRun} (h : run.Known s) (hadds : Adds s t) : run.Known t :=
  fun caller hcaller => (h caller hcaller).mono hadds

theorem Stage.Known.mono {stage : Stage} (h : stage.Known E s) (hadds : Adds s t) :
    stage.Known E t := by
  cases stage with
  | opened request query => exact h
  | looking caller query => exact Caller.Known.mono h hadds
  | lookingStale caller query => exact Caller.Known.mono h hadds
  | executing run => exact QueryRun.Known.mono h hadds
  | flagging run result => exact QueryRun.Known.mono h hadds
  | charting run result rules flags => exact QueryRun.Known.mono h hadds
  | storing run tagged => exact ⟨h.1.mono hadds, h.2.mono hadds⟩
  | rendering request answer version => exact Body.FromPoll.mono h hadds
  | keeping request answer version => exact Body.FromPoll.mono h hadds
  | _ => trivial

/-- New charts do not change where a body comes from. -/
theorem Body.FromRun.draw (h : body.FromRun s id) (charts : List QueryChart) :
    (body.draw E charts).FromRun s id := by
  obtain ⟨e, he, hid, charts', rfl⟩ := h
  exact ⟨e, he, hid, _, rfl⟩

/-- A body is served to whoever read the dismissals. -/
theorem Body.FromRun.fromPoll (h : body.FromRun s id) (hcaller : caller.Known s id) :
    (applyDismissals E.sha256Hex body caller.dismissed).FromPoll E s := by
  obtain ⟨e, he, rfl, charts, rfl⟩ := h
  exact ⟨e, he, caller.dismissed, hcaller.dismissed, charts, applyDismissals_withCharts _ _ _ _⟩

/-- A body without the suffix is the run's. -/
theorem Body.FromPoll.fromRun (h : body.FromPoll E s) (hnone : body.dismissedCount = none) :
    body.FromRun s body.queryId := by
  obtain ⟨e, he, D, -, charts, rfl⟩ := h
  refine ⟨e, he, (applyDismissals_queryId _ _ _).symm, charts, ?_⟩
  rw [applyDismissals_of_unfiltered hnone]

theorem traceInv_start (db : Db) (dismissals : List FlagDismissal) :
    TraceInv E (State.start db dismissals) where
  hashed e h := absurd h List.not_mem_nil
  held id entry h := by cases h
  rendered key r answer h := by cases h
  operations i stage h := by cases h
  polls x h := absurd h List.not_mem_nil

/-- What a step has to show that runs nothing and reads no dismissals. -/
theorem TraceInv.of_quiet (h : TraceInv E s) (hexecutions : t.executions = s.executions)
    (hseen : t.seen = s.seen)
    (hheld : ∀ id entry, t.results.get id = some entry →
      s.results.get id = some entry ∨ entry.payload.body.FromRun s id)
    (hrendered : ∀ key r, t.rendered.get key = some r →
      s.rendered.get key = some r ∨
        ∀ answer, r.decode E.codec = some answer → answer.body.FromPoll E s)
    (hops : ∀ i stage, t.operations i = some stage →
      s.operations i = some stage ∨ stage.Known E s)
    (hpolls : ∀ x ∈ t.polls, x ∈ s.polls ∨
      ∀ body, x.body E.codec = some body → body.FromPoll E s) :
    TraceInv E t := by
  have hadds : Adds s t := .of_eq hexecutions hseen
  refine ⟨?_, ?_, ?_, ?_, ?_⟩
  · rw [hexecutions]
    exact h.hashed
  · intro id entry hget
    rcases hheld id entry hget with hold | hnew
    · exact (h.held id entry hold).mono hadds
    · exact hnew.mono hadds
  · intro key r answer hget hdecode
    rcases hrendered key r hget with hold | hnew
    · exact (h.rendered key r answer hold hdecode).mono hadds
    · exact (hnew answer hdecode).mono hadds
  · intro i stage hstage
    rcases hops i stage hstage with hold | hnew
    · exact (h.operations i stage hold).mono hadds
    · exact hnew.mono hadds
  · intro x hx body hbody
    rcases hpolls x hx with hold | hnew
    · exact (h.polls x hold body hbody).mono hadds
    · exact (hnew body hbody).mono hadds

theorem TraceInv.put (h : TraceInv E s) (i : Nat) {stage : Stage} (hstage : stage.Known E s) :
    TraceInv E (s.put i stage) := by
  refine h.of_quiet rfl rfl (fun _ _ hget => .inl hget) (fun _ _ hget => .inl hget) ?_
    (fun _ hx => .inl hx)
  intro j stage' hj
  simp only [State.put, Function.update_apply] at hj
  split at hj
  · obtain rfl := Option.some.inj hj
    exact .inr hstage
  · exact .inl hj

theorem TraceInv.drop (h : TraceInv E s) (i : Nat) : TraceInv E (s.drop i) := by
  refine h.of_quiet rfl rfl (fun _ _ hget => .inl hget) (fun _ _ hget => .inl hget) ?_
    (fun _ hx => .inl hx)
  intro j stage hj
  simp only [State.drop, Function.update_apply] at hj
  split at hj
  · cases hj
  · exact .inl hj

/-- The result cache gets nothing but bodies of runs. -/
theorem TraceInv.setResults (h : TraceInv E s) {results : ResultCache Tagged}
    (hresults : ∀ id entry, results.get id = some entry →
      s.results.get id = some entry ∨ entry.payload.body.FromRun s id) :
    TraceInv E { s with results := results } :=
  h.of_quiet rfl rfl hresults (fun _ _ hget => .inl hget) (fun _ _ hstage => .inl hstage)
    (fun _ hx => .inl hx)

/-- Nor does the rendered cache get anything but bytes of what polls are served. -/
theorem TraceInv.setRendered (h : TraceInv E s) {rendered : RenderedCache β} (drawn : String → Nat)
    (hrendered : ∀ key r, rendered.get key = some r → s.rendered.get key = some r ∨
      ∀ answer, r.decode E.codec = some answer → answer.body.FromPoll E s) :
    TraceInv E { s with rendered := rendered, drawn := drawn } :=
  h.of_quiet rfl rfl (fun _ _ hget => .inl hget) hrendered (fun _ _ hstage => .inl hstage)
    (fun _ hx => .inl hx)

theorem TraceInv.notePoll (h : TraceInv E s) {request : Request} {answer : PollChanged}
    {version : Nat} {response : Option (Rendered β)}
    (hserved : ∀ body, Polled.body E.codec ⟨request.started, answer, version, response⟩ =
      some body → body.FromPoll E s) : TraceInv E (s.notePoll request answer version response) := by
  refine h.of_quiet rfl rfl (fun _ _ hget => .inl hget) (fun _ _ hget => .inl hget)
    (fun _ _ hstage => .inl hstage) ?_
  intro x hx
  rcases List.mem_cons.mp hx with rfl | hold
  · exact .inr hserved
  · exact .inl hold

/-- Commits and the ledgers play no part. -/
theorem TraceInv.congr (h : TraceInv E s) (hexecutions : t.executions = s.executions)
    (hseen : t.seen = s.seen) (hresults : t.results = s.results)
    (hrendered : t.rendered = s.rendered) (hops : t.operations = s.operations)
    (hpolls : t.polls = s.polls) : TraceInv E t :=
  h.of_quiet hexecutions hseen (fun _ _ hget => .inl (hresults ▸ hget))
    (fun _ _ hget => .inl (hrendered ▸ hget)) (fun _ _ hstage => .inl (hops ▸ hstage))
    (fun _ hx => .inl (hpolls ▸ hx))

theorem TraceInv.noteClear (h : TraceInv E s) (id : String) (kind : EditKind) (version : Nat) :
    TraceInv E (s.noteClear id kind version) := by
  cases kind with
  | all => exact h
  | _ => exact h.congr rfl rfl rfl rfl rfl rfl

theorem TraceInv.noteAnswer (h : TraceInv E s) (id : String) (kind : EditKind) (version : Nat) :
    TraceInv E (s.noteAnswer id kind version) := by
  cases kind with
  | all => exact h
  | _ => exact h.congr rfl rfl rfl rfl rfl rfl

theorem TraceInv.noteBytes (h : TraceInv E s) (id : String) (kind : EditKind) (read : Nat) :
    TraceInv E (s.noteBytes id kind read) := by
  cases kind with
  | charts => exact h.congr rfl rfl rfl rfl rfl rfl
  | _ => exact h

/-- A poll reads the dismissals of its user. -/
theorem adds_noteSeen (s : State β) (id : String) (dismissed : List String) :
    Adds s (s.noteSeen id dismissed) := by
  refine ⟨List.Subset.refl _, ?_⟩
  intro id'
  simp only [State.noteSeen, Function.update_apply]
  split
  next hid => rw [hid]; exact List.subset_cons_self _ _
  · exact List.Subset.refl _

theorem TraceInv.noteSeen (h : TraceInv E s) (id : String) (dismissed : List String) :
    TraceInv E (s.noteSeen id dismissed) := by
  have hadds := adds_noteSeen s id dismissed
  refine ⟨h.hashed, ?_, ?_, ?_, ?_⟩
  · exact fun id' entry hget => (h.held id' entry hget).mono hadds
  · exact fun key r answer hget hdecode => (h.rendered key r answer hget hdecode).mono hadds
  · exact fun i stage hstage => (h.operations i stage hstage).mono hadds
  · exact fun x hx body hbody => (h.polls x hx body hbody).mono hadds

/-- A run has its body. -/
theorem TraceInv.execute (h : TraceInv E s) {e : Execution} (hhashed : e.body.Hashed E.sha256Hex) :
    TraceInv E { s with executions := e :: s.executions } := by
  have hadds : Adds s { s with executions := e :: s.executions } :=
    ⟨List.subset_cons_self _ _, fun _ => List.Subset.refl _⟩
  refine ⟨?_, ?_, ?_, ?_, ?_⟩
  · intro a ha
    rcases List.mem_cons.mp ha with rfl | hold
    · exact hhashed
    · exact h.hashed a hold
  · exact fun id' entry hget => (h.held id' entry hget).mono hadds
  · exact fun key r answer hget hdecode => (h.rendered key r answer hget hdecode).mono hadds
  · exact fun i stage hstage => (h.operations i stage hstage).mono hadds
  · exact fun x hx body hbody => (h.polls x hx body hbody).mono hadds

/-! ## Each step keeps it -/

theorem TraceInv.respond (h : TraceInv E s) (i : Nat) {tagged : Tagged} (fromCache : Bool)
    (hcaller : caller.Known s id) (hbody : tagged.body.FromRun s id) :
    TraceInv E (respond E s i caller tagged fromCache) := by
  unfold Queries.respond
  split
  · exact h.drop i
  next answer hanswer =>
    have hserved : answer.body.FromPoll E s := by
      rw [answerFor_body hanswer]
      exact hbody.fromPoll hcaller
    split
    · refine TraceInv.drop ?_ i
      apply h.notePoll
      rintro body ⟨⟩
      exact hserved
    · exact h.put i hserved

/-- A lookup of the result cache. -/
theorem TraceInv.hit (h : TraceInv E s) (i : Nat) {results : ResultCache Tagged}
    {entry : CacheEntry Tagged} (hcaller : caller.Known s id)
    (hget : s.results.get id = some entry) (hresults : ∀ id', results.get id' = s.results.get id') :
    TraceInv E (Queries.respond E (s.noteHit results id entry.payload) i caller entry.payload
      true) := by
  have hheld : TraceInv E { s with results := results } :=
    h.setResults fun id' entry' hget' => .inl ((hresults id').symm.trans hget')
  have hnoted : TraceInv E (s.noteHit results id entry.payload) :=
    hheld.congr rfl rfl rfl rfl rfl rfl
  have hadds : Adds s (s.noteHit results id entry.payload) := .of_eq rfl rfl
  exact hnoted.respond i true (hcaller.mono hadds) ((h.held id entry hget).mono hadds)

/-- The body of a run is stored. -/
theorem TraceInv.storeResult (h : TraceInv E s) {id : String} {tagged : Tagged}
    {results : ResultCache Tagged} {dataHash : String} {ttlMs : Int} {now : Clock}
    (hset : s.results.set E.cache (fun t => E.size t.body) id dataHash tagged ttlMs now =
      some results) (hbody : tagged.body.FromRun s id) :
    TraceInv E { s with results := results } := by
  apply h.setResults
  intro id' entry hget
  rcases ResultCache.get_of_set hset hget with ⟨rfl, hpayload⟩ | ⟨-, hold⟩
  · exact .inr (hpayload ▸ hbody)
  · exact .inl hold

theorem TraceInv.perform (h : TraceInv E s) {i : Nat} {input : Input} {stage : Stage}
    (hknown : stage.Known E s) (hstep : perform E s i input stage = some t) : TraceInv E t := by
  cases performed_of_perform hstep with
  | ended => exact h.drop i
  | opened request query dismissed hread =>
    subst hread
    have hcaller : Caller.Known (s.noteSeen query.id
        (dismissedFingerprints s.dismissals query.id request.user.id)) query.id
        ⟨request, dismissedFingerprints s.dismissals query.id request.user.id⟩ := by
      refine ⟨hknown, ?_⟩
      simp only [State.noteSeen, Function.update_self]
      exact List.mem_cons_self
    apply (h.noteSeen query.id _).put i
    split
    · rintro caller ⟨⟩
      exact hcaller
    · exact hcaller
  | hit caller query entry results hget hresults => exact h.hit i hknown hget hresults
  | missed caller query => exact h.put i hknown
  | hitStale caller query entry results hget hresults => exact h.hit i hknown hget hresults
  | missedStale caller query results hkept =>
    refine (h.setResults fun id' entry hget => .inl (hkept id' entry hget)).put i ?_
    rintro caller' ⟨⟩
    exact Caller.Known.mono hknown (.of_eq rfl rfl)
  | preloaded query => exact h.put i nofun
  | executed run => exact h.put i hknown
  | flagged run result => exact h.put i hknown
  | charted run result rules flags body version hbody =>
    subst hbody
    refine (h.execute (e := ⟨_, _⟩) ⟨rfl, rfl⟩).put i ⟨QueryRun.Known.mono hknown ?_, ?_⟩
    · exact ⟨List.subset_cons_self _ _, fun _ => List.Subset.refl _⟩
    · exact ⟨_, List.mem_cons_self, rfl, _, rfl⟩
  | stored run tagged results hset =>
    refine TraceInv.drop ?_ i
    exact h.storeResult hset hknown.2
  | returned run tagged results caller hset hcaller =>
    obtain ⟨hrun, hbody⟩ := hknown
    have hadds : Adds s { s with results := results } := .of_eq rfl rfl
    exact (h.storeResult hset hbody).respond i false ((hrun caller hcaller).mono hadds)
      (hbody.mono hadds)
  | found request answer version bytes rendered hget hrendered =>
    refine TraceInv.drop ?_ i
    refine (h.setRendered s.drawn fun key r hr => .inl ((hrendered key).symm.trans hr)).notePoll ?_
    intro body hbody
    obtain ⟨served, hdecode, rfl⟩ := Option.map_eq_some_iff.mp hbody
    exact (h.rendered _ _ served hget hdecode).mono (.of_eq rfl rfl)
  | unrendered => exact h.put i hknown
  | kept request answer version =>
    have hdecoded : ∀ served, (Rendered.render E.codec answer).decode E.codec = some served →
        served.body.FromPoll E s := by
      intro served hserved
      rw [Rendered.decode_render] at hserved
      exact Option.some.inj hserved ▸ hknown
    refine TraceInv.drop ?_ i
    apply TraceInv.notePoll
    · apply h.setRendered
      intro key r hget
      rcases BudgetCache.get_of_put hget with ⟨rfl, rfl⟩ | ⟨-, hold⟩
      · exact .inr hdecoded
      · exact .inl hold
    · intro body hbody
      obtain ⟨served, hdecode, rfl⟩ := Option.map_eq_some_iff.mp hbody
      exact (hdecoded served hdecode).mono (.of_eq rfl rfl)
  | guarded => exact h.put i trivial
  | resolved => exact h.put i trivial
  | committed op loaded db =>
    have hcommit : TraceInv E (s.commit db) := h.congr rfl rfl rfl rfl rfl rfl
    apply hcommit.put i
    split
    · trivial
    · trivial
  | invalidated id kind version =>
    refine TraceInv.put ?_ i trivial
    apply TraceInv.noteClear
    apply h.setResults
    intro id' entry hget
    rw [ResultCache.get_invalidate] at hget
    split at hget
    · cases hget
    · exact .inl hget
  | deleted => exact h.put i trivial
  | refreshed => exact h.put i trivial
  | patched id version charts read =>
    refine TraceInv.put ?_ i trivial
    apply TraceInv.noteClear
    apply h.setResults
    intro id' entry hget
    rcases ResultCache.get_of_patchCharts hget with ⟨rfl, old, hold, hredraw⟩ | ⟨-, hold⟩
    · rw [← Option.some.inj hredraw]
      exact .inr ((h.held id' old hold).draw charts)
    · exact .inl hold
  | dropped id kind version read =>
    refine TraceInv.put ?_ i trivial
    apply TraceInv.noteBytes
    exact h.setRendered s.drawn fun key r hget => .inl (RenderedCache.get_invalidateQuery hget).1
  | answered id kind version => exact (h.noteAnswer id kind version).drop i

/-- The step lemma. -/
theorem TraceInv.visit {a : Visit} (h : TraceInv E s) (hstep : visit E s a = some t) :
    TraceInv E t := by
  cases a with
  | published i user chartId sinceHash force =>
    simp only [Queries.visit] at hstep
    split at hstep
    · exact Option.some.inj hstep ▸ h
    next chart _ =>
      split at hstep
      · exact Option.some.inj hstep ▸ h
      next query hquery =>
        exact Option.some.inj hstep ▸ h.put i (Table.key_of_get hquery).symm
  | own a =>
    simp only [Queries.visit] at hstep
    cases a with
    | poll i user id sinceHash force batch =>
      simp only [Queries.step] at hstep
      split at hstep
      · exact Option.some.inj hstep ▸ h
      next query howned =>
        exact Option.some.inj hstep ▸ h.put i (getOwned_id howned).symm
    | run i id =>
      simp only [Queries.step] at hstep
      split at hstep
      · exact Option.some.inj hstep ▸ h
      · exact Option.some.inj hstep ▸ h.put i nofun
    | schedule i id =>
      simp only [Queries.step] at hstep
      split at hstep
      · exact Option.some.inj hstep ▸ h
      · exact Option.some.inj hstep ▸ h.put i trivial
    | look id clock =>
      simp only [Queries.step] at hstep
      split at hstep
      · exact Option.some.inj hstep ▸ h
      next entry results hfind =>
        obtain rfl := Option.some.inj hstep
        have hresults := (ResultCache.getFresh_spec hfind).2
        have hheld : TraceInv E { s with results := results } :=
          h.setResults fun id' entry' hget' => .inl ((hresults id').symm.trans hget')
        exact hheld.congr rfl rfl rfl rfl rfl rfl
    | edit i user id edit =>
      simp only [Queries.step] at hstep
      split at hstep
      · exact Option.some.inj hstep ▸ h
      · exact Option.some.inj hstep ▸ h.put i trivial
    | relist i id => exact Option.some.inj hstep ▸ h.put i trivial
    | advance i input =>
      simp only [Queries.step] at hstep
      split at hstep
      · cases hstep
      next stage hop => exact h.perform (h.operations i stage hop) hstep
    | dismiss user id fingerprints =>
      exact Option.some.inj hstep ▸ h.congr rfl rfl rfl rfl rfl rfl
    | restore user id fingerprints =>
      exact Option.some.inj hstep ▸ h.congr rfl rfl rfl rfl rfl rfl
    | abort i => exact Option.some.inj hstep ▸ h.drop i

theorem TraceInv.of_run {ok : State β → Visit → Prop} {db : Db} {dismissals : List FlagDismissal}
    {as : List Visit} (h : Machine.Run (Queries.visit E) ok (State.start db dismissals) as s) :
    TraceInv E s :=
  h.invariant (fun _ _ _ hI hstep _ => hI.visit hstep) (traceInv_start db dismissals)

end Trace

end FraudAnalyzer.Queries
