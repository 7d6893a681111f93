import FraudAnalyzer.Queries.CacheInvariant

/-!
# Rendered bytes and the body they stand for

A poll is answered with bytes that were rendered for an earlier poll with the same key. The key
covers a body up to its charts. After a chart edit the bytes are right only because `patch_charts`
and `invalidate_query` take the old charts out of both caches, and neither keeps a request that has
an old body in its hands from putting it back: `old_bytes_outlive_edit`. In the runs of the system
where nothing old is put back, `pollsServed_of_inOrder`.
-/

namespace FraudAnalyzer.Queries

open Charts FlagRules

variable {β : Type}

/-- What must not come between the steps of a request: a poll reads its dismissals, and another set
has the same stamp; a run stores charts that an edit has patched; an edit patches charts that are
older than those of the entry; a poll with patched charts finds bytes with older ones which the edit
has not yet dropped; a poll keeps bytes with charts for which an edit has dropped the bytes. -/
def Stage.InOrder (E : ServingEnv β) (s : State β) : Stage → Prop
  | .opened request query =>
    let dismissed := dismissedFingerprints s.dismissals query.id request.user.id
    ∀ D ∈ s.seen query.id, stamp E.sha256Hex D = stamp E.sha256Hex dismissed → D = dismissed
  | .storing run tagged => ∀ n ∈ (s.chartLedger run.query.id).cleared, n ≤ tagged.version
  | .patching id _ _ read => ∀ entry ∈ s.results.get id, entry.payload.version ≤ read
  | .rendering request answer version =>
    let key := keyFor E.time request.queryId answer
    (s.rendered.get key).isSome → version ∈ (s.chartLedger request.queryId).cleared →
      version ∉ s.bytesCleared request.queryId → version ≤ s.drawn key
  | .keeping request _ version => ∀ n ∈ s.bytesCleared request.queryId, n ≤ version
  | _ => True

def InOrder (E : ServingEnv β) (s : State β) : Action → Prop
  | .advance i _ => ∀ stage ∈ s.operations i, stage.InOrder E s
  | _ => True

instance (E : ServingEnv β) (s : State β) : (stage : Stage) → Decidable (stage.InOrder E s)
  | .opened _ _ => inferInstanceAs (Decidable (∀ D ∈ _, _ → _ = _))
  | .storing _ _ => inferInstanceAs (Decidable (∀ n ∈ _, n ≤ _))
  | .patching _ _ _ _ => inferInstanceAs (Decidable (∀ entry ∈ _, _ ≤ _))
  | .rendering _ _ _ => inferInstanceAs (Decidable (_ = _ → _ ∈ _ → _ ∉ _ → _ ≤ _))
  | .keeping _ _ _ => inferInstanceAs (Decidable (∀ n ∈ _, n ≤ _))
  | .looking _ _ | .lookingStale _ _ | .preloading _ | .executing _ | .flagging _ _
  | .charting _ _ _ _ | .editing _ | .guarded _ | .prepared _ _ | .invalidating _ _ _
  | .refreshing _ _ | .droppingBytes _ _ _ _ | .answering _ _ _ => .isTrue trivial

instance (E : ServingEnv β) (s : State β) : (a : Action) → Decidable (InOrder E s a)
  | .advance _ _ => inferInstanceAs (Decidable (∀ stage ∈ _, Stage.InOrder _ _ stage))
  | .poll _ _ _ _ _ _ | .run _ _ | .schedule _ _ | .look _ _ | .edit _ _ _ _ | .relist _ _
  | .dismiss _ _ _ | .restore _ _ _ | .abort _ => .isTrue trivial

section Steps

variable {E : ServingEnv β} {s t : State β} {id : String}

/-! ## Each step keeps it -/

theorem BytesInv.respond (h : BytesInv E s) (i : Nat) {caller : Caller} {tagged : Tagged}
    (fromCache : Bool) (hcaller : caller.Sound s id) (hheld : HeldSound E s id tagged) :
    BytesInv E (respond E s i caller tagged fromCache) := by
  obtain ⟨hbody, hle⟩ := hheld
  have hstarted : ∀ n ∈ caller.request.started, n ≤ tagged.version := by
    refine hcaller.settled.le h ?_
    rw [hcaller.query]
    exact hle
  unfold Queries.respond
  split
  · exact h.drop i
  next answer hanswer =>
    have hsound := hbody.isAnswer hcaller hanswer
    split
    · refine BytesInv.drop ?_ i
      apply h.notePoll
      rw [hsound.queryId]
      exact hsound.served hstarted
    · exact h.put i ⟨hsound, hstarted⟩

/-- A lookup of the result cache. -/
theorem BytesInv.hit (h : BytesInv E s) (i : Nat) {results : ResultCache Tagged}
    {entry : CacheEntry Tagged} {caller : Caller} (hcaller : caller.Sound s id)
    (hget : s.results.get id = some entry) (hresults : ∀ id', results.get id' = s.results.get id') :
    BytesInv E (Queries.respond E (s.noteHit results id entry.payload) i caller entry.payload
      true) := by
  have hg : Grows s (s.noteHit results id entry.payload) := .of_eq rfl rfl rfl rfl
  exact (h.noteHit id entry.payload hresults).respond i true (hcaller.mono hg)
    ((h.held id entry hget).mono hg rfl)

/-- The body of a run is its execution's. -/
theorem BytesInv.isBody_new (h : BytesInv E s) {e : Execution}
    (hbody : e.body = e.body.draw E (s.db.chartsOf e.body.queryId))
    (hfirst : e.first = (s.chartLedger e.body.queryId).current) :
    IsBody E { s with executions := e :: s.executions } e.body.queryId e.first e.body := by
  refine ⟨e, _, ⟨List.mem_cons_self, rfl, ?_, Nat.le_refl _, .inl rfl⟩, hbody⟩
  rw [hfirst]
  exact (h.tracks e.body.queryId).get_current

theorem BytesInv.perform (h : BytesInv E s) {i : Nat} {input : Input} {stage : Stage}
    (hsound : stage.Sound E s) (hok : stage.InOrder E s)
    (hstep : perform E s i input stage = some t) : BytesInv E t := by
  cases performed_of_perform hstep with
  | ended => exact h.drop i
  | opened request query dismissed hread =>
    subst hread
    obtain ⟨hquery, hsettled⟩ := hsound
    have hcaller : Caller.Sound (s.noteSeen query.id
        (dismissedFingerprints s.dismissals query.id request.user.id)) query.id
        ⟨request, dismissedFingerprints s.dismissals query.id request.user.id⟩ := by
      refine ⟨hquery, hsettled, ?_⟩
      simp only [State.noteSeen, Function.update_self]
      exact List.mem_cons_self
    refine (h.noteSeen hok).put i ?_
    split
    · rintro caller ⟨⟩
      exact hcaller
    · exact hcaller
  | hit caller query entry results hget hresults => exact h.hit i hsound hget hresults
  | missed caller query => exact h.put i hsound
  | hitStale caller query entry results hget hresults => exact h.hit i hsound hget hresults
  | missedStale caller query results hkept =>
    refine (h.shrinkResults hkept).put i ?_
    rintro caller' ⟨⟩
    exact Caller.Sound.mono hsound (.of_eq rfl rfl rfl rfl)
  | preloaded query => exact h.put i (fun _ heq => by cases heq)
  | executed run => exact h.put i hsound
  | flagged run result => exact h.put i hsound
  | charted run result rules flags body version hbody hversion hnew =>
    subst hbody hversion
    refine (h.execute (e := ⟨_, _⟩) hnew).put i ⟨QueryRun.Sound.mono hsound ?_, ?_⟩
    · exact ⟨List.subset_cons_self _ _, fun _ => List.prefix_refl _,
        fun _ => List.Subset.refl _, fun _ => List.Subset.refl _, fun _ => List.Subset.refl _⟩
    · exact h.isBody_new (e := ⟨_, _⟩) rfl rfl
  | stored run tagged results hset =>
    have hheld : HeldSound E s run.query.id tagged := ⟨hsound.2, hok⟩
    refine BytesInv.drop ?_ i
    exact h.storeResult hheld fun id entry hget => ResultCache.get_of_set hset hget
  | returned run tagged results caller hset hcaller =>
    obtain ⟨hrun, hbody⟩ := hsound
    have hheld : HeldSound E s run.query.id tagged := ⟨hbody, hok⟩
    have hstored : BytesInv E { s with results := results } :=
      h.storeResult hheld fun id entry hget => ResultCache.get_of_set hset hget
    have hg : Grows s { s with results := results } := .of_eq rfl rfl rfl rfl
    exact hstored.respond i false ((hrun caller hcaller).mono hg) (hheld.mono hg rfl)
  | found request answer version bytes rendered hget hrendered =>
    obtain ⟨hanswer, hstarted⟩ := hsound
    refine BytesInv.drop ?_ i
    apply (h.touchBytes hrendered).notePoll
    rw [hanswer.queryId]
    refine hanswer.served_found h hstarted hget (hok ?_)
    rw [hget]
    rfl
  | unrendered => exact h.put i hsound
  | kept request answer version =>
    obtain ⟨hanswer, hstarted⟩ := hsound
    refine BytesInv.drop ?_ i
    apply BytesInv.notePoll
    · exact h.keepBytes
        ⟨request.queryId, answer, rfl, Rendered.decode_render _ _, hanswer, hok⟩
    · rw [hanswer.queryId]
      exact hanswer.served_render hstarted
  | guarded => exact h.put i trivial
  | resolved => exact h.put i trivial
  | committed op loaded db =>
    have hcommit := h.commit db
    refine hcommit.put i ?_
    split
    next hkind =>
      rw [hkind]
      have hcurrent := (hcommit.tracks op.query.id).get_current
      exact (List.getElem?_eq_some_iff.mp hcurrent).1
    · trivial
  | invalidated id kind version =>
    have hresults : ∀ id' entry, (s.results.invalidate id).get id' = some entry →
        id' ≠ id ∧ s.results.get id' = some entry := by
      intro id' entry hget
      rw [ResultCache.get_invalidate] at hget
      split at hget
      · cases hget
      next hid => exact ⟨hid, hget⟩
    have hshrunk : BytesInv E { s with results := s.results.invalidate id } :=
      h.shrinkResults fun id' entry hget => (hresults id' entry hget).2
    cases kind with
    | charts =>
      apply (h.clearResults fun id' entry hget => .inr (hresults id' entry hget)).put i
      intro _
      refine ⟨Nat.le_refl _, ?_⟩
      simp only [State.noteClear, Function.update_self]
      exact List.mem_cons_self
    | sql => exact (hshrunk.congr_ledgers _ _).put i (fun heq => by cases heq)
    | rules => exact (hshrunk.congr_ledgers _ _).put i (fun heq => by cases heq)
    | all => exact hshrunk.put i (fun heq => by cases heq)
  | deleted => exact h.put i trivial
  | refreshed id version =>
    exact h.put i ⟨Nat.le_sub_one_of_lt hsound, (h.tracks id).get_current⟩
  | patched id version charts read =>
    obtain ⟨hle, hread⟩ := hsound
    refine (h.patchResults hread hok).put i ?_
    intro _
    refine ⟨hle, ?_⟩
    simp only [State.noteClear, Function.update_self]
    exact List.mem_cons_self
  | dropped id kind version read =>
    refine (h.dropBytes kind fun hkind => (hsound hkind).2).put i ?_
    rintro rfl
    refine ⟨read, ?_, (hsound rfl).1⟩
    simp only [State.noteBytes, Function.update_self]
    exact List.mem_cons_self
  | answered id kind version => exact (h.noteAnswer kind hsound).drop i

/-- The step lemma. -/
theorem BytesInv.step {a : Action} (h : BytesInv E s) (hstep : step E s a = some t)
    (hok : InOrder E s a) : BytesInv E t := by
  cases a with
  | poll i user id sinceHash force batch =>
    simp only [Queries.step] at hstep
    split at hstep
    · exact Option.some.inj hstep ▸ h
    next query howned =>
      obtain rfl := Option.some.inj hstep
      exact h.put i ⟨(getOwned_id howned).symm, h.answered id⟩
  | run i id =>
    simp only [Queries.step] at hstep
    split at hstep
    · exact Option.some.inj hstep ▸ h
    · exact Option.some.inj hstep ▸ h.put i (fun _ heq => by cases heq)
  | schedule i id =>
    simp only [Queries.step] at hstep
    split at hstep
    · exact Option.some.inj hstep ▸ h
    · exact Option.some.inj hstep ▸ h.put i trivial
  | look id clock =>
    simp only [Queries.step] at hstep
    split at hstep
    · exact Option.some.inj hstep ▸ h
    next hfind =>
      exact Option.some.inj hstep ▸ h.noteHit id _ (ResultCache.getFresh_spec hfind).2
  | edit i user id edit =>
    simp only [Queries.step] at hstep
    split at hstep
    · exact Option.some.inj hstep ▸ h
    · exact Option.some.inj hstep ▸ h.put i trivial
  | relist i id => exact Option.some.inj hstep ▸ h.put i trivial
  | advance i input =>
    simp only [Queries.step] at hstep
    split at hstep
    · cases hstep
    next stage hop => exact h.perform (h.operations i stage hop) (hok stage hop) hstep
  | dismiss user id fingerprints =>
    obtain rfl := Option.some.inj hstep
    exact h.of_quiet ⟨rfl, rfl, rfl, rfl, rfl⟩ (fun _ _ hget => .inl hget)
      (fun _ _ hget => .inl ⟨hget, rfl⟩) (fun _ _ hstage => .inl hstage) (fun _ hx => .inl hx)
  | restore user id fingerprints =>
    obtain rfl := Option.some.inj hstep
    exact h.of_quiet ⟨rfl, rfl, rfl, rfl, rfl⟩ (fun _ _ hget => .inl hget)
      (fun _ _ hget => .inl ⟨hget, rfl⟩) (fun _ _ hstage => .inl hstage) (fun _ hx => .inl hx)
  | abort i => exact Option.some.inj hstep ▸ h.drop i

end Steps

/-- **Rendered bytes are the body.** In every run in which no old charts are put back. -/
theorem pollsServed_of_inOrder {E : ServingEnv β} {db : Db} {dismissals : List FlagDismissal}
    {s : State β} {as : List Action}
    (h : Machine.Run (step E) (InOrder E) (State.start db dismissals) as s) :
    ∀ x ∈ s.polls, Served E (s.chartLedger x.answer.body.queryId) x :=
  (h.invariant (fun _ _ _ hI hstep hok => hI.step hstep hok) (bytesInv_start db dismissals)).polls

/-- A poll, an edit of the charts, and two polls that get the new ones. -/
theorem pollsServed_of_inOrder_edited :
    ∃ s : State Sample.Frame,
      (∀ x ∈ s.polls, Served Sample.servingEnv (s.chartLedger x.answer.body.queryId) x) ∧
        s.polls.map Polled.started = [[1], [1], []] := by
  have hrun : ∃ s, Machine.Run (step Sample.servingEnv) (InOrder Sample.servingEnv)
      (State.start Charts.Sample.db [])
      [.run 0 "q", .advance 0 (Sample.input 1), .advance 0 (Sample.input 1),
        .advance 0 (Sample.input 1), .advance 0 (Sample.input 1),
        .poll 1 Charts.Sample.author "q" none false false, .advance 1 (Sample.input 2),
        .advance 1 (Sample.input 2), .advance 1 (Sample.input 2), .advance 1 (Sample.input 2),
        .edit 2 Charts.Sample.author "q" (.replaceCharts []), .advance 2 (Sample.input 3),
        .advance 2 (Sample.input 3), .advance 2 (Sample.input 3), .advance 2 (Sample.input 3),
        .advance 2 (Sample.input 3), .advance 2 (Sample.input 3), .advance 2 (Sample.input 3),
        .poll 3 Charts.Sample.author "q" none false false, .advance 3 (Sample.input 4),
        .advance 3 (Sample.input 4), .advance 3 (Sample.input 4), .advance 3 (Sample.input 4),
        .poll 4 Charts.Sample.author "q" none false false, .advance 4 (Sample.input 5),
        .advance 4 (Sample.input 5), .advance 4 (Sample.input 5)] s ∧
        s.polls.map Polled.started = [[1], [1], []] :=
    ⟨_, Machine.run_of_exec_checked rfl, rfl⟩
  obtain ⟨s, hrun, hpolls⟩ := hrun
  exact ⟨s, pollsServed_of_inOrder hrun, hpolls⟩

/-- A poll has looked for bytes and found none when the charts are edited. It keeps those of its old
body after the edit has dropped the bytes, and the next poll gets them. -/
theorem old_bytes_outlive_edit :
    ∃ as s, Machine.Run (step Sample.servingEnv) Machine.Always (State.start Charts.Sample.db [])
      as s ∧
      ¬ ∀ x ∈ s.polls, Served Sample.servingEnv (s.chartLedger x.answer.body.queryId) x := by
  obtain ⟨s, hrun, hpoll⟩ := @Machine.exists_run_of_exec_any _ _
    (step Sample.servingEnv) (State.start Charts.Sample.db [])
      [.run 0 "q", .advance 0 (Sample.input 1), .advance 0 (Sample.input 1),
        .advance 0 (Sample.input 1), .advance 0 (Sample.input 1),
        .poll 1 Charts.Sample.author "q" none false false, .advance 1 (Sample.input 2),
        .advance 1 (Sample.input 2), .advance 1 (Sample.input 2),
        .edit 2 Charts.Sample.author "q" (.replaceCharts []), .advance 2 (Sample.input 3),
        .advance 2 (Sample.input 3), .advance 2 (Sample.input 3), .advance 2 (Sample.input 3),
        .advance 2 (Sample.input 3), .advance 2 (Sample.input 3), .advance 2 (Sample.input 3),
        .advance 1 (Sample.input 4), .poll 3 Charts.Sample.author "q" none false false,
        .advance 3 (Sample.input 5), .advance 3 (Sample.input 5), .advance 3 (Sample.input 5)]
    (fun s => s.polls.any fun x =>
      1 ∈ x.started && (s.chartLedger x.answer.body.queryId).versions.drop 1 = [[]] &&
        x.response.any fun r =>
          (r.decode Sample.codec).any fun answer => !answer.body.charts.isEmpty) rfl
  refine ⟨_, s, hrun, ?_⟩
  intro h
  obtain ⟨x, hx, htest⟩ := List.any_eq_true.mp hpoll
  simp only [Bool.and_eq_true, decide_eq_true_eq, Option.any_eq_true, Bool.not_eq_true',
    List.isEmpty_eq_false_iff] at htest
  obtain ⟨⟨hstarted, hversions⟩, r, hr, answer, hdecode, hcharts⟩ := htest
  obtain ⟨later, mapping, hmapping, -, hlater, hbody⟩ := (h x hx).bytes r hr
  have hempty : mapping = [] := by
    have hmem : mapping ∈ (s.chartLedger x.answer.body.queryId).versions.drop 1 := by
      refine List.mem_of_getElem? (i := later - 1) ?_
      rw [List.getElem?_drop, Nat.add_sub_cancel' (hlater 1 hstarted)]
      exact hmapping
    rw [hversions] at hmem
    exact List.mem_singleton.mp hmem
  rw [Option.some.inj (hdecode.symm.trans hbody), hempty] at hcharts
  exact hcharts rfl

end FraudAnalyzer.Queries
