import FraudAnalyzer.Queries.Visits

/-!
# What a poll is not told

A poll whose `since_hash` is the hash of the body it would get is answered without one. The hash
covers the columns, the rows and the flags as they are served, but not whether the result was cut
off at its row limit, so a poll can miss that: `cutOff_missed`. In the runs of the system where a
result that was cut off has no twin that was not, nothing is missed: `nothingMissed_of_distinct`.
-/

namespace FraudAnalyzer.Queries

open Charts FlagRules Python

variable {β : Type}

/-! ## The property -/

/-- The payload that the next step has for a poll: one from the cache, or the one of its run. -/
def State.payloadFor (E : ServingEnv β) (s : State β) : Visit → Option (Caller × Body)
  | .own (.advance i input) =>
    match s.operations i with
    | some (.looking caller query) =>
      (s.results.getFresh query.id input.clock).1.map fun entry => (caller, entry.payload.body)
    | some (.lookingStale caller query) =>
      (s.results.getStale E.cache query.id input.clock).1.map fun entry =>
        (caller, entry.payload.body)
    | some (.storing run tagged) => run.caller.map fun caller => (caller, tagged.body)
    | _ => none
  | _ => none

/-- What a client shows of a result. -/
structure Agrees (a b : Body) : Prop extends SameData a b where
  truncated : a.result.truncated = b.result.truncated

/-- A poll that is answered without a body knows one, from an earlier poll of anybody, that agrees
with the one it would have got. -/
def NothingMissed (E : ServingEnv β) (s : State β) (a : Visit) : Prop :=
  ∀ caller body fromCache, s.payloadFor E a = some (caller, body) →
    answerFor E.sha256Hex caller body fromCache = none →
    ∀ x ∈ s.polls, ∀ earlier, x.body E.codec = some earlier →
      earlier.queryId = caller.request.queryId →
      caller.request.sinceHash = some earlier.dataHash →
      Agrees earlier (applyDismissals E.sha256Hex body caller.dismissed)

/-- What must not come between two results of a query: a poll reads its dismissals, and another set
has the same stamp; a run returns the columns, the rows and the flags of an earlier one, and one of
the two was cut off at its row limit. -/
def Stage.Distinct (E : ServingEnv β) (s : State β) : Stage → Prop
  | .opened request query =>
    let dismissed := dismissedFingerprints s.dismissals query.id request.user.id
    ∀ D ∈ s.seen query.id, stamp E.sha256Hex D = stamp E.sha256Hex dismissed → D = dismissed
  | .charting run result _ flags =>
    ∀ e ∈ s.executions, e.body.queryId = run.query.id → e.body.result.columns = result.columns →
      rowsJson (e.body.result.rows.map Subtype.val) = rowsJson (result.rows.map Subtype.val) →
      e.body.flags = flags → e.body.result.truncated = result.truncated
  | _ => True

def Distinct (E : ServingEnv β) (s : State β) : Visit → Prop
  | .own (.advance i _) => ∀ stage ∈ s.operations i, stage.Distinct E s
  | _ => True

instance (E : ServingEnv β) (s : State β) : (stage : Stage) → Decidable (stage.Distinct E s)
  | .opened _ _ => inferInstanceAs (Decidable (∀ D ∈ _, _ → _ = _))
  | .charting _ _ _ _ => inferInstanceAs (Decidable (∀ e ∈ _, _ → _ → _ → _ → _ = _))
  | .looking _ _ | .lookingStale _ _ | .preloading _ | .executing _ | .flagging _ _
  | .storing _ _ | .rendering _ _ _ | .keeping _ _ _ | .editing _ | .guarded _ | .prepared _ _
  | .invalidating _ _ _ | .refreshing _ _ | .patching _ _ _ _ | .droppingBytes _ _ _ _
  | .answering _ _ _ => .isTrue trivial

instance (E : ServingEnv β) (s : State β) : (a : Visit) → Decidable (Distinct E s a)
  | .own (.advance _ _) => inferInstanceAs (Decidable (∀ stage ∈ _, Stage.Distinct _ _ stage))
  | .own (.poll _ _ _ _ _ _) | .own (.run _ _) | .own (.schedule _ _) | .own (.look _ _)
  | .own (.edit _ _ _ _) | .own (.relist _ _) | .own (.dismiss _ _ _) | .own (.restore _ _ _)
  | .own (.abort _) | .published _ _ _ _ _ => .isTrue trivial

section Sharp

variable {E : ServingEnv β} {s t : State β} {id : String} {body : Body} {caller : Caller}

/-! ## What the hash does not cover -/

/-- The hash of a body tells apart what it does not cover. -/
structure SharpInv (E : ServingEnv β) (s : State β) : Prop where
  truncated : ∀ e ∈ s.executions, ∀ e' ∈ s.executions, e.body.queryId = e'.body.queryId →
    SameData e.body e'.body → e.body.result.truncated = e'.body.result.truncated
  stamps : ∀ id, ∀ D ∈ s.seen id, ∀ D' ∈ s.seen id,
    stamp E.sha256Hex D = stamp E.sha256Hex D' → D = D'

theorem sharpInv_start (db : Db) (dismissals : List FlagDismissal) :
    SharpInv E (State.start db dismissals) where
  truncated _ h := absurd h List.not_mem_nil
  stamps _ _ h := absurd h List.not_mem_nil

/-- Only runs and readings of dismissals matter. -/
theorem SharpInv.congr (h : SharpInv E s) (hexecutions : t.executions = s.executions)
    (hseen : t.seen = s.seen) : SharpInv E t where
  truncated := by rw [hexecutions]; exact h.truncated
  stamps := by rw [hseen]; exact h.stamps

theorem SharpInv.noteSeen (h : SharpInv E s) {dismissed : List String}
    (hstamp : ∀ D ∈ s.seen id, stamp E.sha256Hex D = stamp E.sha256Hex dismissed →
      D = dismissed) : SharpInv E (s.noteSeen id dismissed) := by
  refine ⟨h.truncated, ?_⟩
  intro id' D hD D' hD' heq
  by_cases hid : id' = id
  · subst hid
    simp only [State.noteSeen, Function.update_self] at hD hD'
    rcases List.mem_cons.mp hD with rfl | hold
    · rcases List.mem_cons.mp hD' with rfl | hold'
      · rfl
      · exact (hstamp D' hold' heq.symm).symm
    · rcases List.mem_cons.mp hD' with rfl | hold'
      · exact hstamp D hold heq
      · exact h.stamps id' D hold D' hold' heq
  · simp only [State.noteSeen, Function.update_of_ne hid] at hD hD'
    exact h.stamps id' D hD D' hD' heq

theorem SharpInv.execute (h : SharpInv E s) {e : Execution}
    (hnew : ∀ e' ∈ s.executions, e'.body.queryId = e.body.queryId → SameData e'.body e.body →
      e'.body.result.truncated = e.body.result.truncated) :
    SharpInv E { s with executions := e :: s.executions } := by
  refine ⟨?_, h.stamps⟩
  intro a ha b hb hid hdata
  rcases List.mem_cons.mp ha with rfl | hold
  · rcases List.mem_cons.mp hb with rfl | hold'
    · rfl
    · exact (hnew b hold' hid.symm hdata.symm).symm
  · rcases List.mem_cons.mp hb with rfl | hold'
    · exact hnew a hold hid hdata
    · exact h.truncated a hold b hold' hid hdata

theorem SharpInv.respond (h : SharpInv E s) (i : Nat) (caller : Caller) (tagged : Tagged)
    (fromCache : Bool) : SharpInv E (Queries.respond E s i caller tagged fromCache) := by
  unfold Queries.respond
  split
  · exact h.congr rfl rfl
  · split
    · exact h.congr rfl rfl
    · exact h.congr rfl rfl

theorem SharpInv.noteClear (h : SharpInv E s) (id : String) (kind : EditKind) (version : Nat) :
    SharpInv E (s.noteClear id kind version) := by
  cases kind with
  | all => exact h
  | _ => exact h.congr rfl rfl

theorem SharpInv.noteAnswer (h : SharpInv E s) (id : String) (kind : EditKind) (version : Nat) :
    SharpInv E (s.noteAnswer id kind version) := by
  cases kind with
  | all => exact h
  | _ => exact h.congr rfl rfl

theorem SharpInv.noteBytes (h : SharpInv E s) (id : String) (kind : EditKind) (read : Nat) :
    SharpInv E (s.noteBytes id kind read) := by
  cases kind with
  | charts => exact h.congr rfl rfl
  | _ => exact h

theorem SharpInv.perform (h : SharpInv E s) {i : Nat} {input : Input} {stage : Stage}
    (hok : stage.Distinct E s) (hstep : perform E s i input stage = some t) : SharpInv E t := by
  cases performed_of_perform hstep with
  | opened request query dismissed hread =>
    subst hread
    exact (h.noteSeen hok).congr rfl rfl
  | hit caller query =>
    refine SharpInv.respond ?_ i caller _ true
    exact h.congr rfl rfl
  | hitStale caller query =>
    refine SharpInv.respond ?_ i caller _ true
    exact h.congr rfl rfl
  | charted run result rules flags body version hbody =>
    subst hbody
    refine SharpInv.congr (h.execute (e := ⟨_, _⟩) ?_) rfl rfl
    intro e he hid hdata
    exact hok e he hid hdata.columns hdata.rows hdata.flags
  | returned run tagged results caller =>
    refine SharpInv.respond ?_ i caller tagged false
    exact h.congr rfl rfl
  | invalidated id kind version =>
    refine SharpInv.congr (SharpInv.noteClear ?_ id kind version) rfl rfl
    exact h.congr rfl rfl
  | dropped id kind version read =>
    refine SharpInv.congr (SharpInv.noteBytes ?_ id kind read) rfl rfl
    exact h.congr rfl rfl
  | answered id kind version => exact (h.noteAnswer id kind version).congr rfl rfl
  | _ => exact h.congr rfl rfl

/-- The step lemma, under the condition. -/
theorem SharpInv.visit {a : Visit} (h : SharpInv E s) (hstep : visit E s a = some t)
    (hok : Distinct E s a) : SharpInv E t := by
  cases a with
  | published i user chartId sinceHash force =>
    simp only [Queries.visit] at hstep
    split at hstep
    · exact Option.some.inj hstep ▸ h
    · split at hstep
      · exact Option.some.inj hstep ▸ h
      · exact Option.some.inj hstep ▸ h.congr rfl rfl
  | own a =>
    simp only [Queries.visit] at hstep
    cases a with
    | poll i user id sinceHash force batch =>
      simp only [Queries.step] at hstep
      split at hstep
      · exact Option.some.inj hstep ▸ h
      · exact Option.some.inj hstep ▸ h.congr rfl rfl
    | run i id =>
      simp only [Queries.step] at hstep
      split at hstep
      · exact Option.some.inj hstep ▸ h
      · exact Option.some.inj hstep ▸ h.congr rfl rfl
    | schedule i id =>
      simp only [Queries.step] at hstep
      split at hstep
      · exact Option.some.inj hstep ▸ h
      · exact Option.some.inj hstep ▸ h.congr rfl rfl
    | look id clock =>
      simp only [Queries.step] at hstep
      split at hstep
      · exact Option.some.inj hstep ▸ h
      · exact Option.some.inj hstep ▸ h.congr rfl rfl
    | edit i user id edit =>
      simp only [Queries.step] at hstep
      split at hstep
      · exact Option.some.inj hstep ▸ h
      · exact Option.some.inj hstep ▸ h.congr rfl rfl
    | advance i input =>
      simp only [Queries.step] at hstep
      split at hstep
      · cases hstep
      next stage hop => exact h.perform (hok stage hop) hstep
    | relist i id => exact Option.some.inj hstep ▸ h.congr rfl rfl
    | dismiss user id fingerprints => exact Option.some.inj hstep ▸ h.congr rfl rfl
    | restore user id fingerprints => exact Option.some.inj hstep ▸ h.congr rfl rfl
    | abort i => exact Option.some.inj hstep ▸ h.congr rfl rfl

/-! ## Unchanged answers -/

theorem answerFor_none {sha256Hex : Sha256Hex} {fromCache : Bool}
    (h : answerFor sha256Hex caller body fromCache = none) :
    caller.request.sinceHash = some (applyDismissals sha256Hex body caller.dismissed).dataHash := by
  unfold answerFor at h
  simp only at h
  split at h
  next sinceHash hsince =>
    split at h
    next hsame => rw [hsince, hsame.2]
    · cases h
  · cases h

theorem TraceInv.known_of_payloadFor (h : TraceInv E s) {a : Visit}
    (hpayload : s.payloadFor E a = some (caller, body)) :
    caller.Known s caller.request.queryId ∧ body.FromRun s caller.request.queryId := by
  unfold State.payloadFor at hpayload
  split at hpayload
  next i input =>
    split at hpayload
    next caller' query hop =>
      obtain ⟨entry, hfound, heq⟩ := Option.map_eq_some_iff.mp hpayload
      obtain ⟨rfl, rfl⟩ := Prod.mk.inj heq
      have hcaller : caller'.Known s query.id := h.operations i _ hop
      have hget := (ResultCache.getFresh_spec (Prod.ext hfound rfl)).1
      rw [hcaller.query]
      exact ⟨hcaller, h.held _ _ hget⟩
    next caller' query hop =>
      obtain ⟨entry, hfound, heq⟩ := Option.map_eq_some_iff.mp hpayload
      obtain ⟨rfl, rfl⟩ := Prod.mk.inj heq
      have hcaller : caller'.Known s query.id := h.operations i _ hop
      have hget := (ResultCache.getStale_spec (Prod.ext hfound rfl)).1
      rw [hcaller.query]
      exact ⟨hcaller, h.held _ _ hget⟩
    next run tagged hop =>
      obtain ⟨caller', hfound, heq⟩ := Option.map_eq_some_iff.mp hpayload
      obtain ⟨rfl, rfl⟩ := Prod.mk.inj heq
      obtain ⟨hrun, hbody⟩ : run.Known s ∧ tagged.body.FromRun s run.query.id :=
        h.operations i _ hop
      have hcaller := hrun caller' hfound
      rw [hcaller.query]
      exact ⟨hcaller, hbody⟩
    · cases hpayload
  · cases hpayload

/-- Two bodies served with one hash. -/
theorem TraceInv.agrees (h : TraceInv E s) (hsharp : SharpInv E s)
    (hsha : Function.Injective E.sha256Hex) (hplus : ∀ bytes, '+' ∉ (E.sha256Hex bytes).toList)
    {earlier : Body} (hearlier : earlier.FromPoll E s) (hlater : body.FromPoll E s)
    (hid : earlier.queryId = body.queryId) (hhash : earlier.dataHash = body.dataHash) :
    Agrees earlier body := by
  obtain ⟨e, he, D, hD, charts, rfl⟩ := hearlier
  obtain ⟨e', he', D', hD', charts', rfl⟩ := hlater
  simp only [applyDismissals_queryId] at hid
  rw [← hid] at hD'
  obtain ⟨hbase, hdata⟩ := applyDismissals_dataHash_inj hsha hplus (h.hashed e he)
    (h.hashed e' he') (hsharp.stamps _ D hD D' hD') hhash
  have hsame := (h.hashed e he).sameData hsha (h.hashed e' he') hbase
  refine ⟨⟨hdata.columns, hdata.rows, hdata.flags, hdata.dismissedCount⟩, ?_⟩
  simp only [applyDismissals_result]
  exact hsharp.truncated e he e' he' hid hsame

theorem TraceInv.nothingMissed (h : TraceInv E s) (hsharp : SharpInv E s)
    (hsha : Function.Injective E.sha256Hex) (hplus : ∀ bytes, '+' ∉ (E.sha256Hex bytes).toList)
    (a : Visit) : NothingMissed E s a := by
  intro caller body fromCache hpayload hunchanged x hx earlier hearlier hid hsince
  obtain ⟨hcaller, hbody⟩ := h.known_of_payloadFor hpayload
  have hhash := Option.some.inj (hsince.symm.trans (answerFor_none hunchanged))
  refine h.agrees hsharp hsha hplus (h.polls x hx earlier hearlier)
    (hbody.fromPoll hcaller) ?_ hhash
  obtain ⟨e, -, hquery, charts, rfl⟩ := hbody
  rw [applyDismissals_queryId]
  exact hid.trans hquery.symm

end Sharp

namespace Sample

def hexEnv : ServingEnv Frame := { servingEnv with sha256Hex := hexDigest }

theorem hexEnv_sha256Hex : hexEnv.sha256Hex = hexDigest := rfl

/-- The hash of the result of `target`, when there are no rules. -/
def sinceHash : String := canonicalHash hexDigest ["amount"] [[.int 900]] ⟨0, [], [], []⟩

/-- A table that has got a second row. -/
def grown : Target where
  run _ _ := .ok ⟨["amount"], [.single (.int 900), .single (.int 950)], 1⟩
  encodedSize := List.length

/-- A poll of a batch that finds nothing cached, up to the execution. -/
def coldPoll (i : Nat) (since : Option String) (t : Int) : List Visit :=
  [.own (.poll i Charts.Sample.author "q" since false true), .own (.advance i (input t)),
    .own (.advance i (input t)), .own (.advance i (input t))]

/-- The execution, up to where the result is stored. -/
def execution (i : Nat) (input : Input) : List Visit :=
  [.own (.advance i input), .own (.advance i input), .own (.advance i input)]

/-- The one row, whole or cut off. -/
structure IsFirst (truncated : Bool) (body : Body) : Prop where
  columns : body.result.columns = ["amount"]
  rows : body.result.rows.map Subtype.val = [[.int 900]]
  flags : body.flags = ⟨0, [], [], []⟩
  unfiltered : body.dismissedCount = none
  truncated : body.result.truncated = truncated

/-- It was run, so it has the hash. -/
theorem IsFirst.dataHash {truncated : Bool} {body : Body} (h : IsFirst truncated body)
    {s : State Frame} (hs : TraceInv hexEnv s) {id : String} (hbody : body.FromRun s id) :
    body.dataHash = sinceHash := by
  obtain ⟨e, he, -, charts, rfl⟩ := hbody
  have hhash : e.body.dataHash = canonicalHash hexDigest e.body.result.columns
      (e.body.result.rows.map Subtype.val) e.body.flags := (hs.hashed e he).dataHash
  have hrows : e.body.result.rows.map Subtype.val = [[.int 900]] := h.rows
  have hcolumns : e.body.result.columns = ["amount"] := h.columns
  have hflags : e.body.flags = ⟨0, [], [], []⟩ := h.flags
  rw [hrows, hcolumns, hflags] at hhash
  exact hhash

end Sample

/-- **No missed update.** In every run in which no result that was cut off has a twin that was
not. -/
theorem nothingMissed_of_distinct {E : ServingEnv β} (hsha : Function.Injective E.sha256Hex)
    (hplus : ∀ bytes, '+' ∉ (E.sha256Hex bytes).toList) {db : Db}
    {dismissals : List FlagDismissal} {s : State β} {as : List Visit}
    (h : Machine.Run (visit E) (Distinct E) (State.start db dismissals) as s) (a : Visit) :
    NothingMissed E s a := by
  have htrace := TraceInv.of_run h
  have hsharp : SharpInv E s := h.invariant (fun _ _ _ hI hstep hok => hI.visit hstep hok)
    (sharpInv_start db dismissals)
  exact htrace.nothingMissed hsharp hsha hplus a

/-- A poll, and another one that finds its result cached. -/
theorem nothingMissed_of_distinct_cached :
    ∃ s : State Sample.Frame, ∃ caller body,
      NothingMissed Sample.hexEnv s (.own (.advance 1 (Sample.input 2))) ∧
        s.payloadFor Sample.hexEnv (.own (.advance 1 (Sample.input 2))) = some (caller, body) ∧
        caller.request.sinceHash = some body.dataHash ∧
        ∃ x ∈ s.polls, x.answer.body.dataHash = body.dataHash := by
  have hrun : ∃ s caller body x, Machine.Run (visit Sample.hexEnv) (Distinct Sample.hexEnv)
      (State.start Charts.Sample.db [])
      (Sample.coldPoll 0 none 1 ++ Sample.execution 0 (Sample.input 1) ++
        [.own (.advance 0 (Sample.input 1)),
          .own (.poll 1 Charts.Sample.author "q" (some Sample.sinceHash) false true),
          .own (.advance 1 (Sample.input 2))]) s ∧
      s.payloadFor Sample.hexEnv (.own (.advance 1 (Sample.input 2))) = some (caller, body) ∧
      caller.request.sinceHash = some Sample.sinceHash ∧ s.polls = [x] ∧ x.response = none ∧
      Sample.IsFirst false body ∧ Sample.IsFirst false x.answer.body :=
    ⟨_, _, _, _, Machine.run_of_exec_checked rfl, rfl, rfl, rfl, rfl, ⟨rfl, rfl, rfl, rfl, rfl⟩,
      ⟨rfl, rfl, rfl, rfl, rfl⟩⟩
  obtain ⟨s, caller, body, x, hrun, hpayload, hsince, hpolls, hresponse, hbody, hx⟩ := hrun
  have htrace := TraceInv.of_run hrun
  have hmem : x ∈ s.polls := hpolls ▸ List.mem_cons_self
  have hserved := htrace.polls x hmem x.answer.body (by rw [Polled.body, hresponse])
  have hhash := hbody.dataHash htrace (htrace.known_of_payloadFor hpayload).2
  have hplus : ∀ bytes, '+' ∉ (Sample.hexEnv.sha256Hex bytes).toList := by
    rw [Sample.hexEnv_sha256Hex]
    exact plus_not_mem_hexDigest
  refine ⟨s, caller, body, nothingMissed_of_distinct hexDigest_injective hplus hrun _, hpayload, ?_,
    x, hmem, ?_⟩
  · rw [hsince, hhash]
  · rw [hhash, hx.dataHash htrace (hserved.fromRun hx.unfiltered)]

/-- The row limit is lowered to one, and the table has got a second row: the result is the same row,
cut off. The poll has the hash of the body that was not. -/
theorem cutOff_missed :
    Function.Injective Sample.hexEnv.sha256Hex ∧
      ∃ as s a,
        Machine.Run (visit Sample.hexEnv) Machine.Always (State.start Charts.Sample.db []) as s ∧
        (∀ v ∈ as, ∀ user ∈ v.poller, user = Charts.Sample.author) ∧
        ¬ NothingMissed Sample.hexEnv s a := by
  refine ⟨hexDigest_injective, ?_⟩
  have hrun : ∃ s caller body x, Machine.Run (visit Sample.hexEnv) Machine.Always
      (State.start Charts.Sample.db [])
      (Sample.coldPoll 0 none 1 ++ Sample.execution 0 (Sample.input 1) ++
        [.own (.advance 0 (Sample.input 1)),
          .own (.edit 1 Charts.Sample.author "q" (.updateQuery { rowLimit := some (some 1) })),
          .own (.advance 1 (Sample.input 2)), .own (.advance 1 (Sample.input 2)),
          .own (.advance 1 (Sample.input 2)), .own (.advance 1 (Sample.input 2)),
          .own (.advance 1 (Sample.input 2)), .own (.advance 1 (Sample.input 2))] ++
        Sample.coldPoll 2 (some Sample.sinceHash) 3 ++
        Sample.execution 2 { Sample.input 3 with target := Sample.grown }) s ∧
      s.payloadFor Sample.hexEnv (.own (.advance 2 (Sample.input 3))) = some (caller, body) ∧
      caller.request.sinceHash = some Sample.sinceHash ∧ s.polls = [x] ∧ x.response = none ∧
      Sample.IsFirst true body ∧ Sample.IsFirst false x.answer.body ∧
      x.answer.body.queryId = caller.request.queryId ∧ caller.dismissed = [] :=
    ⟨_, _, _, _, Machine.run_of_exec rfl, rfl, rfl, rfl, rfl, ⟨rfl, rfl, rfl, rfl, rfl⟩,
      ⟨rfl, rfl, rfl, rfl, rfl⟩, rfl, rfl⟩
  obtain ⟨s, caller, body, x, hrun, hpayload, hsince, hpolls, hresponse, hbody, hx, hid,
    hdismissed⟩ := hrun
  have htrace := TraceInv.of_run hrun
  have hmem : x ∈ s.polls := hpolls ▸ List.mem_cons_self
  have hanswer : x.body Sample.hexEnv.codec = some x.answer.body := by rw [Polled.body, hresponse]
  have hserved := htrace.polls x hmem x.answer.body hanswer
  have hearlier := hx.dataHash htrace (hserved.fromRun hx.unfiltered)
  have hlater := hbody.dataHash htrace (htrace.known_of_payloadFor hpayload).2
  refine ⟨_, s, .own (.advance 2 (Sample.input 3)), hrun, by decide, ?_⟩
  intro h
  have hsame : applyDismissals Sample.hexEnv.sha256Hex body caller.dismissed = body := by
    rw [hdismissed, applyDismissals, if_pos (.inl rfl)]
  have hunchanged : answerFor Sample.hexEnv.sha256Hex caller body false = none := by
    unfold answerFor
    simp only [hsame, hsince, hlater]
    refine if_pos ⟨?_, trivial⟩
    intro hempty
    have hlength := congrArg String.length hempty
    simp [Sample.sinceHash, canonicalHash] at hlength
  have hagrees := h caller body false hpayload hunchanged x hmem x.answer.body hanswer hid
    (by rw [hsince, hearlier])
  rw [hsame] at hagrees
  have htruncated := hagrees.truncated
  rw [hx.truncated, hbody.truncated] at htruncated
  cases htruncated

end FraudAnalyzer.Queries
