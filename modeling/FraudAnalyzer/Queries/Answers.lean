import FraudAnalyzer.Queries.Serving

/-!
# What polls are answered with

Every body that a cache holds or a request has in its hands is an execution's, drawn with some
version of the charts, and an answer is such a body with the dismissals of a user taken out.
-/

namespace FraudAnalyzer.Queries

open Charts FlagRules

variable {β : Type}

/-! ## The property -/

/-- A poll answered with a body got charts that the edits which had returned when it started had
left, or later ones; and bytes of that body, with its charts or later ones. -/
structure Served (E : ServingEnv β) (charts : Ledger (List QueryChart)) (x : Polled β) : Prop where
  body : ∃ mapping, charts.versions[x.version]? = some mapping ∧
    x.answer.body = x.answer.body.draw E mapping
  current : ∀ n ∈ x.started, n ≤ x.version
  bytes : ∀ response, x.response = some response →
    ∃ later mapping, charts.versions[later]? = some mapping ∧ x.version ≤ later ∧
      (∀ n ∈ x.started, n ≤ later) ∧
      response.decode E.codec = some { x.answer with body := x.answer.body.draw E mapping }

/-! ## Where a body comes from -/

section Origin

variable {E : ServingEnv β} {s t : State β} {id : String} {version : Nat}

/-- The query's execution `e` has been drawn with the charts of a version: those it was first drawn
with, or those of a later edit. -/
structure Origin (s : State β) (id : String) (version : Nat) (e : Execution)
    (mapping : List QueryChart) : Prop where
  ran : e ∈ s.executions
  query : e.body.queryId = id
  mapping : (s.chartLedger id).versions[version]? = some mapping
  later : e.first ≤ version
  patched : version = e.first ∨ version ∈ (s.chartLedger id).cleared

/-- A body without dismissals. -/
def IsBody (E : ServingEnv β) (s : State β) (id : String) (version : Nat) (body : Body) : Prop :=
  ∃ e mapping, Origin s id version e mapping ∧ body = e.body.draw E mapping

/-- A body with the dismissals of a user. -/
def IsAnswer (E : ServingEnv β) (s : State β) (id : String) (version : Nat)
    (answer : PollChanged) : Prop :=
  ∃ e mapping, Origin s id version e mapping ∧ ∃ D ∈ s.seen id,
    answer.body = applyDismissals E.sha256Hex (e.body.draw E mapping) D

theorem Body.draw_draw (E : ServingEnv β) (charts charts' : List QueryChart) (body : Body) :
    (body.draw E charts).draw E charts' = body.draw E charts' := rfl

/-- Dismissals and charts do not touch each other. -/
theorem applyDismissals_draw (E : ServingEnv β) (charts : List QueryChart) (body : Body)
    (D : List String) :
    applyDismissals E.sha256Hex (body.draw E charts) D =
      (applyDismissals E.sha256Hex body D).draw E charts := by
  have hresult := applyDismissals_result E.sha256Hex body D
  unfold Body.draw
  rw [applyDismissals_withCharts, ← hresult]

/-- What is only added to. -/
structure Grows (s t : State β) : Prop where
  executions : s.executions ⊆ t.executions
  versions : ∀ id, (s.chartLedger id).versions <+: (t.chartLedger id).versions
  cleared : ∀ id, (s.chartLedger id).cleared ⊆ (t.chartLedger id).cleared
  bytesCleared : ∀ id, s.bytesCleared id ⊆ t.bytesCleared id
  seen : ∀ id, s.seen id ⊆ t.seen id

theorem Grows.of_eq (hexecutions : t.executions = s.executions)
    (hcharts : t.chartLedger = s.chartLedger) (hbytes : t.bytesCleared = s.bytesCleared)
    (hseen : t.seen = s.seen) : Grows s t where
  executions := hexecutions ▸ List.Subset.refl _
  versions id := by rw [hcharts]
  cleared id := by rw [hcharts]; exact List.Subset.refl _
  bytesCleared id := by rw [hbytes]; exact List.Subset.refl _
  seen id := by rw [hseen]; exact List.Subset.refl _

/-- Versions keep their numbers. -/
theorem Grows.get_version (hg : Grows s t) {n : Nat} {mapping : List QueryChart}
    (h : (s.chartLedger id).versions[n]? = some mapping) :
    (t.chartLedger id).versions[n]? = some mapping := by
  obtain ⟨hn, rfl⟩ := List.getElem?_eq_some_iff.mp h
  exact List.prefix_iff_getElem?.mp (hg.versions id) n hn

theorem Origin.mono {e : Execution} {mapping : List QueryChart}
    (h : Origin s id version e mapping) (hg : Grows s t) : Origin t id version e mapping where
  ran := hg.executions h.ran
  query := h.query
  mapping := hg.get_version h.mapping
  later := h.later
  patched := h.patched.imp_right fun hcleared => hg.cleared id hcleared

theorem IsBody.mono {body : Body} (h : IsBody E s id version body) (hg : Grows s t) :
    IsBody E t id version body := by
  obtain ⟨e, mapping, horigin, hbody⟩ := h
  exact ⟨e, mapping, horigin.mono hg, hbody⟩

theorem IsAnswer.mono {answer : PollChanged} (h : IsAnswer E s id version answer)
    (hg : Grows s t) : IsAnswer E t id version answer := by
  obtain ⟨e, mapping, horigin, D, hD, hbody⟩ := h
  exact ⟨e, mapping, horigin.mono hg, D, hg.seen id hD, hbody⟩

theorem Served.mono {x : Polled β} (h : Served E (s.chartLedger id) x) (hg : Grows s t) :
    Served E (t.chartLedger id) x where
  body := by
    obtain ⟨mapping, hversion, hbody⟩ := h.body
    exact ⟨mapping, hg.get_version hversion, hbody⟩
  current := h.current
  bytes response hresponse := by
    obtain ⟨later, mapping, hversion, hrest⟩ := h.bytes response hresponse
    exact ⟨later, mapping, hg.get_version hversion, hrest⟩

/-! ## Answers -/

variable {body : Body} {answer : PollChanged} {request : Request} {caller : Caller}

theorem answerFor_body {sha256Hex : Sha256Hex} {fromCache : Bool}
    (h : answerFor sha256Hex caller body fromCache = some answer) :
    answer.body = applyDismissals sha256Hex body caller.dismissed := by
  unfold answerFor at h
  simp only at h
  split at h
  · split at h
    · cases h
    · rw [← Option.some.inj h]
  · rw [← Option.some.inj h]

/-- The body of an answer is the execution's with the dismissals taken out, and then drawn. -/
theorem IsAnswer.body_eq (h : IsAnswer E s id version answer) :
    ∃ e mapping D, Origin s id version e mapping ∧ D ∈ s.seen id ∧
      answer.body = (applyDismissals E.sha256Hex e.body D).draw E mapping := by
  obtain ⟨e, mapping, horigin, D, hD, hbody⟩ := h
  rw [applyDismissals_draw] at hbody
  exact ⟨e, mapping, D, horigin, hD, hbody⟩

theorem IsAnswer.queryId (h : IsAnswer E s id version answer) : answer.body.queryId = id := by
  obtain ⟨e, mapping, D, horigin, -, hbody⟩ := h.body_eq
  rw [hbody]
  exact (applyDismissals_queryId _ _ _).trans horigin.query

/-- The charts of an answer are those of its version. -/
theorem IsAnswer.drawn (h : IsAnswer E s id version answer) :
    ∃ mapping, (s.chartLedger id).versions[version]? = some mapping ∧
      answer.body = answer.body.draw E mapping := by
  obtain ⟨e, mapping, D, horigin, -, hbody⟩ := h.body_eq
  refine ⟨mapping, horigin.mapping, ?_⟩
  rw [hbody, Body.draw_draw]

/-- An answer of a batch. -/
theorem IsAnswer.served (h : IsAnswer E s id version answer)
    (hstarted : ∀ n ∈ request.started, n ≤ version) :
    Served E (s.chartLedger id) ⟨request.started, answer, version, none⟩ :=
  ⟨h.drawn, hstarted, nofun⟩

/-- An answer that is rendered. -/
theorem IsAnswer.served_render (h : IsAnswer E s id version answer)
    (hstarted : ∀ n ∈ request.started, n ≤ version) :
    Served E (s.chartLedger id)
      ⟨request.started, answer, version, some (Rendered.render E.codec answer)⟩ := by
  refine ⟨h.drawn, hstarted, ?_⟩
  rintro response ⟨⟩
  obtain ⟨mapping, hversion, hbody⟩ := h.drawn
  refine ⟨version, mapping, hversion, Nat.le_refl _, hstarted, ?_⟩
  rw [Rendered.decode_render, ← hbody]

end Origin

end FraudAnalyzer.Queries
