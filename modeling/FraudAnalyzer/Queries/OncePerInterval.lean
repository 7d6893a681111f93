import FraudAnalyzer.Queries.PaceInvariant

/-!
# Once per interval

A query is to run at most once per interval, however it is started. Polls that find nothing do not
know of each other, and an execution that fails leaves no mark that every other kind of start looks
at: `cold_polls_collide`. In the runs of the system where the last execution of a query has left a
mark that the next start has looked at, `spaced_of_marked`.
-/

namespace FraudAnalyzer.Queries.Pacing

variable {P : Type}

section Steps

variable {E : PacingEnv P} {s : Schedule P} {q : String} {r : Runner} {basis : Option Nat}

/-! ## Each step keeps it -/

theorem missed_basis (h : PaceInv E s) (hstale : ∀ e ∈ s.results.get q, ¬ e.isFresh s.now) :
    Missed E q s.now (s.history q) (s.basis q) := by
  have hquery := h.queries q
  intro n hn
  unfold Schedule.basis at hn
  split at hn
  next hnil =>
    obtain rfl := Option.some.inj hn
    rw [hnil]
    exact ⟨Nat.le_refl _, fun _ => ⟨nofun, nofun⟩⟩
  next last older hcons =>
    split at hn
    · cases hn
    next hover =>
      obtain rfl := Option.some.inj hn
      refine ⟨Nat.le_of_eq (by rw [hcons, List.length_cons]), fun _ => ⟨?_, ?_⟩⟩
      · intro l hl
        rw [hcons] at hl
        obtain rfl := Option.some.inj hl
        exact hover
      · intro l hl c hmark
        rcases hquery.kept l hl c hmark with ⟨e, he, rfl⟩ | hwaited
        · exact elapsed_of_not_fresh (hquery.ttl e he) (hstale e he)
        · exact hwaited

theorem getFresh_none_stale {results : ResultCache P}
    (h : s.results.getFresh q s.now = (none, results)) :
    ∀ e ∈ s.results.get q, ¬ e.isFresh s.now := by
  intro e he
  unfold ResultCache.getFresh at h
  rw [he] at h
  simp only at h
  split at h
  · cases h
  next hstale => exact hstale

theorem getStale_none_stale {results : ResultCache P}
    (h : s.results.getStale E.cache q s.now = (none, results)) :
    ∀ e ∈ s.results.get q, ¬ e.isFresh s.now := by
  intro e he hfresh
  have hage : e.ageMs s.now < e.ttlMs := of_decide_eq_true hfresh
  have hgrace := E.grace_pos
  unfold ResultCache.getStale at h
  rw [he] at h
  simp only at h
  split at h
  · omega
  · cases h

theorem not_fresh_of_running (h : PaceInv E s)
    (hrunning : ∃ last ∈ (s.history q).head?, last.runner = r ∧ last.mark = .running) :
    ∀ e ∈ s.results.get q, ¬ e.isFresh s.now := by
  obtain ⟨last, hlast, -, hmark⟩ := hrunning
  intro e he hfresh
  obtain ⟨l, hl, hstored⟩ := (h.queries q).fresh e he hfresh
  obtain rfl := Option.some.inj (hl.symm.trans hlast)
  rw [hmark] at hstored
  cases hstored

theorem PaceInv.requestRefresh (h : PaceInv E s) (hmissed : Missed E q s.now (s.history q) basis) :
    PaceInv E (requestRefresh s q basis) := by
  unfold Pacing.requestRefresh
  split
  · exact h
  · split
    · exact h
    next hcooling =>
      refine h.put ⟨hmissed, fun _ => ?_, nofun⟩ ?_ nofun
      · intro last hlast c hmark
        rcases ((h.queries q).heldOff last hlast c hmark).2 with ⟨moment, hmoment, hle⟩ | hwaited
        · refine Clock.le_elapsedMs_of_reached hle ?_
          have hget : s.cooldown q = some moment := hmoment
          unfold Schedule.coolingDown at hcooling
          simpa [hget] using hcooling
        · exact hwaited
      · rintro q' ⟨⟩
        rfl

theorem PaceInv.advance {t : Schedule P} {turn : Turn} (h : PaceInv E s)
    (hturn : s.turns r = some turn) (hok : Marked E s (.advance r))
    (hstep : advance E s r turn = some t) : PaceInv E t := by
  have hsound := h.turns r turn hturn
  have hrefresh : ∀ q', r = .refresh q' → turn.queryId = q' := by
    rintro q' rfl
    exact h.refresh q' turn hturn
  have hdue : r = .scheduler → turn.queryId ∉ s.due := by
    rintro rfl
    exact h.due turn hturn
  cases turn with
  | looking q =>
    simp only [Pacing.advance] at hstep
    split at hstep
    next fresh results hfind =>
      obtain ⟨hget, hresults⟩ := ResultCache.getFresh_spec hfind
      have hfresh : fresh.isFresh s.now := by
        unfold ResultCache.getFresh at hfind
        rw [hget] at hfind
        simp only at hfind
        split at hfind
        next hfresh => exact hfresh
        · cases hfind
      have htouched : PaceInv E { s with results := results } :=
        h.shrink fun q' => .inl (hresults q')
      split at hstep
      · obtain rfl := Option.some.inj hstep
        apply PaceInv.next
        refine PaceInv.setDueIn (htouched.drop .scheduler) _ ?_
        intro last hlast c hmark
        obtain ⟨l, hl, hstored⟩ := (h.queries q).fresh fresh hget hfresh
        obtain rfl := Option.some.inj (hl.symm.trans hlast)
        rw [hmark] at hstored
        cases hstored
      · exact Option.some.inj hstep ▸ htouched.drop r
    next results hfind =>
      have hstale := getFresh_none_stale hfind
      obtain rfl := ResultCache.getFresh_none hfind
      have hmissed := missed_basis h hstale
      split at hstep
      · obtain rfl := Option.some.inj hstep
        exact h.put ⟨hmissed, nofun, hsound.2⟩ nofun hdue
      next hr =>
        obtain rfl := Option.some.inj hstep
        refine h.put ⟨?_, hmissed⟩ hrefresh hdue
        cases r with
        | poll i => exact ⟨i, rfl⟩
        | refresh q' => exact absurd rfl (hsound.1 q')
        | scheduler => exact (hr rfl).elim
  | lookingStale q basis =>
    obtain ⟨⟨i, rfl⟩, hmissed⟩ := hsound
    simp only [Pacing.advance] at hstep
    split at hstep
    next entry results hfind =>
      obtain rfl := Option.some.inj hstep
      obtain ⟨-, hresults⟩ := ResultCache.getStale_spec hfind
      have htouched : PaceInv E { s with results := results } :=
        h.shrink fun q' => .inl (hresults q')
      exact htouched.putPoll ⟨⟨i, rfl⟩, hmissed⟩
    next results hfind =>
      obtain rfl := Option.some.inj hstep
      have hstale := getStale_none_stale hfind
      have hshrunk : PaceInv E { s with results := results } := by
        apply h.shrink
        intro q'
        unfold ResultCache.getStale at hfind
        split at hfind
        · exact .inl (by rw [(Prod.mk.inj hfind).2])
        · split at hfind
          · rw [← (Prod.mk.inj hfind).2, BudgetCache.get_drop]
            split
            next hq => exact .inr ⟨rfl, hq ▸ hstale⟩
            · exact .inl rfl
          · cases hfind
      refine hshrunk.putPoll ⟨hmissed, ?_, ?_⟩
      · rintro ⟨⟩
      · rintro ⟨⟩
  | requesting q basis =>
    obtain rfl := Option.some.inj hstep
    exact (h.requestRefresh hsound.2).drop r
  | ready q basis =>
    obtain rfl := Option.some.inj hstep
    have hmarked : s.Marked E q r basis := hok _ hturn
    refine (h.begin hmarked hsound).put ?_ hrefresh hdue
    simp only [Turn.Sound, Schedule.begin_, Function.update_self]
    exact ⟨_, rfl, rfl, rfl⟩
  | running q => cases hstep
  | settling q =>
    obtain ⟨hpoll, hover⟩ := hsound
    simp only [Pacing.advance] at hstep
    split at hstep
    · obtain rfl := Option.some.inj hstep
      apply PaceInv.next
      refine PaceInv.setDueIn (s := { s.drop .scheduler with backoff := _ }) ?_ _ ?_
      · have hdrop := h.drop .scheduler
        exact ⟨hdrop.queries, hdrop.turns, hdrop.refresh, hdrop.nodup, hdrop.due, hdrop.waited⟩
      · intro last hlast c hmark
        have hrunner := ((h.queries q).backedOff last hlast c hmark).1
        exact (hover last hlast hrunner c).2 hmark
    next hr =>
      obtain rfl := Option.some.inj hstep
      refine (h.setCooldown none ?_).put trivial hrefresh hdue
      intro last hlast c hmark
      have hrunner := ((h.queries q).heldOff last hlast c hmark).1
      cases r with
      | poll i => exact absurd rfl (hpoll i)
      | refresh q' =>
        obtain rfl : q = q' := hrefresh q' rfl
        exact absurd hmark (hover last hlast hrunner c).1
      | scheduler => exact (hr rfl).elim
  | leaving q => exact Option.some.inj hstep ▸ h.drop r

/-- The backoff of a run that failed is not shorter than the interval, if its bound is not. -/
theorem interval_le_backoff (hbound : E.intervalMs q ≤ E.maxBackoffMs) (factor : Int) :
    E.intervalMs q ≤ min (E.scheduleMs q * min (max (factor * 2) 2) 65536) E.maxBackoffMs := by
  have hbase : E.intervalMs q ≤ E.scheduleMs q := Int.le_max_left _ _
  have hpos : 0 < E.scheduleMs q := Int.lt_of_lt_of_le E.minInterval_pos (Int.le_max_right _ _)
  have hfactor : 1 ≤ min (max (factor * 2) 2) 65536 := by omega
  have hproduct := Int.mul_le_mul_of_nonneg_left hfactor (Int.le_of_lt hpos)
  omega

/-- An execution ends without a result. -/
theorem PaceInv.leave {t : Schedule P} {mark : Mark} (h : PaceInv E s)
    (hturn : s.turns r = some (.running q)) (hnow : t.now = s.now)
    (hturns : t.turns = (s.drop r).turns) (hdue : t.due = s.due) (hresults : t.results = s.results)
    (hhistory : t.history = (s.leave q mark).history)
    (hother : ∀ q', q' ≠ q → t.cooldown q' = s.cooldown q' ∧ t.nextDue q' = s.nextDue q')
    (hover : mark ≠ .running) (hstored : ∀ c, mark ≠ .stored c)
    (hheld : ∀ c, mark = .heldOff c → r = .refresh q ∧ c = t.now ∧
      ∃ moment ∈ t.cooldown q, (c.later (E.intervalMs q)).NotAfter moment)
    (hback : ∀ c, mark = .backedOff c → r = .scheduler ∧ c = t.now ∧
      (E.intervalMs q ≤ E.maxBackoffMs →
        ∃ moment ∈ t.nextDue q, (c.later (E.intervalMs q)).NotAfter moment)) :
    PaceInv E t := by
  have hrunning := h.turns r _ hturn
  have hstale := not_fresh_of_running h hrunning
  have hleft : t.history q = Schedule.setMark mark (s.history q) := by
    rw [hhistory]
    exact Function.update_self _ _ _
  refine (h.drop r).finish (drop_self s r) hrunning hnow hturns hdue hleft ?_ ?_ ?_
  · refine ⟨hover, ?_, fun c hc => absurd hc (hstored c), hheld, hback⟩
    rw [hresults, hnow]
    exact fun e he => ⟨(h.queries q).ttl e he, fun hfresh => absurd hfresh (hstale e he)⟩
  · rintro rfl
    exact h.due _ hturn
  · intro q' hq
    have hsame : t.history q' = s.history q' := by
      rw [hhistory]
      exact Function.update_of_ne hq _ _
    obtain ⟨hcooldown, hnext⟩ := hother q' hq
    rw [hsame, hresults, hcooldown, hnext]
    exact ⟨.refl _, h.queries q'⟩

theorem PaceInv.lose (h : PaceInv E s) (hturn : s.turns r = some (.running q)) :
    PaceInv E ((s.leave q .lost).drop r) :=
  h.leave hturn rfl rfl rfl rfl rfl (fun _ _ => ⟨rfl, rfl⟩) nofun nofun nofun nofun

theorem PaceInv.failAt {t : Schedule P} {turn : Turn} (h : PaceInv E s)
    (hturn : s.turns r = some turn) (hstep : failAt E s r turn = some t) : PaceInv E t := by
  have hsound := h.turns r turn hturn
  cases turn with
  | running q =>
    cases r with
    | poll i =>
      obtain rfl := Option.some.inj hstep
      exact h.lose hturn
    | refresh q' =>
      obtain rfl : q = q' := h.refresh q' _ hturn
      obtain rfl := Option.some.inj hstep
      have hleft : PaceInv E (((s.leave q (.heldOff s.now)).holdOff q (E.intervalMs q)).drop
          (.refresh q)) := by
        refine h.leave hturn rfl rfl rfl rfl rfl ?_ (fun heq => by cases heq)
          (fun _ heq => by cases heq) ?_ (fun _ heq => by cases heq)
        · intro q' hq
          exact ⟨Function.update_of_ne hq _ _, rfl⟩
        · rintro c ⟨⟩
          refine ⟨rfl, rfl, _, Function.update_self _ _ _, ?_⟩
          constructor
          · simp only [Clock.later, Schedule.leave]
            omega
          · simp only [Clock.later, Schedule.leave]
            omega
      have hsound' : Turn.Sound E s.now (s.leave q (.heldOff s.now)).history (.refresh q)
          (.leaving q) := trivial
      have hput := hleft.putRefresh hsound' rfl
      rwa [put_drop] at hput
    | scheduler =>
      obtain rfl := Option.some.inj hstep
      apply PaceInv.next
      have hleft : (reschedule E (s.leave q (.backedOff s.now)) q true).history =
          (s.leave q (.backedOff s.now)).history := rfl
      refine h.leave hturn rfl rfl rfl rfl hleft ?_ (fun heq => by cases heq)
        (fun _ heq => by cases heq) (fun _ heq => by cases heq) ?_
      · intro q' hq
        exact ⟨rfl, Function.update_of_ne hq _ _⟩
      · rintro c ⟨⟩
        refine ⟨rfl, rfl, fun hbound => ⟨_, Function.update_self _ _ _, ?_⟩⟩
        have hle := interval_le_backoff hbound ((s.backoff q).getD 1)
        constructor
        · simp only [Clock.later]
          exact Int.add_le_add_left (Int.mul_le_mul_of_nonneg_left hle (by decide)) _
        · simp only [Clock.later]
          exact Int.add_le_add_left (Int.mul_le_mul_of_nonneg_left hle (by decide)) _
  | ready q basis =>
    cases r with
    | refresh q' =>
      obtain rfl : q = q' := h.refresh q' _ hturn
      obtain rfl := Option.some.inj hstep
      exact (h.setCooldown _ (hsound.2.1 rfl)).putRefresh trivial rfl
    | poll i => exact Option.some.inj hstep ▸ h.drop _
    | scheduler => exact Option.some.inj hstep ▸ h.drop _
  | settling q =>
    cases r with
    | refresh q' =>
      obtain rfl : q = q' := h.refresh q' _ hturn
      obtain rfl := Option.some.inj hstep
      refine (h.setCooldown _ ?_).putRefresh trivial rfl
      intro last hlast c hmark
      have hrunner := ((h.queries q).heldOff last hlast c hmark).1
      exact absurd hmark (hsound.2 last hlast hrunner c).1
    | poll i => exact Option.some.inj hstep ▸ h.drop _
    | scheduler => exact Option.some.inj hstep ▸ h.drop _
  | looking q => exact Option.some.inj hstep ▸ h.drop r
  | lookingStale q basis => exact Option.some.inj hstep ▸ h.drop r
  | requesting q basis => exact Option.some.inj hstep ▸ h.drop r
  | leaving q => cases hstep

theorem PaceInv.skipAt {t : Schedule P} {turn : Turn} (h : PaceInv E s)
    (hturn : s.turns r = some turn) (hstep : skipAt E s r turn = some t) : PaceInv E t := by
  cases turn with
  | ready q basis =>
    cases r with
    | scheduler => exact Option.some.inj hstep ▸ (h.drop .scheduler).next
    | poll i => exact Option.some.inj hstep ▸ h.drop _
    | refresh q' => exact Option.some.inj hstep ▸ h.drop _
  | running q =>
    cases r with
    | refresh q' => exact h.failAt hturn hstep
    | poll i => exact Option.some.inj hstep ▸ h.lose hturn
    | scheduler => exact Option.some.inj hstep ▸ h.lose hturn
  | _ => cases hstep

/-- A result is stored, and others may be pushed out for it. -/
theorem PaceInv.setResults (h : PaceInv E s) (hturn : s.turns r = some (.running q))
    {results : ResultCache P} {dataHash : String} {payload : P}
    (hset : s.results.set E.cache E.size q dataHash payload (E.intervalMs q) s.now = some results) :
    PaceInv E ((s.setResults q results).drop r) := by
  have hrunning := h.turns r _ hturn
  refine (h.drop r).finish (drop_self s r) hrunning rfl rfl rfl
    (by simp only [Schedule.setResults, Schedule.drop, if_true]; rfl) ?_ ?_ ?_
  · refine ⟨?_, ?_, ?_, ?_, ?_⟩
    · split
      · rintro ⟨⟩
      · rintro ⟨⟩
    · intro e he
      rcases ResultCache.entry_of_set hset he with ⟨-, hstored, httl⟩ | ⟨hne, -⟩
      · refine ⟨httl, fun _ => ?_⟩
        have hsome : (results.get q).isSome := Option.isSome_of_mem he
        rw [if_pos hsome, hstored]
      · exact absurd rfl hne
    · intro c hc
      split at hc
      next hsome =>
        obtain rfl := Mark.stored.inj hc
        obtain ⟨e, he⟩ := Option.isSome_iff_exists.mp hsome
        refine ⟨rfl, e, he, ?_⟩
        rcases ResultCache.entry_of_set hset he with ⟨-, hstored, -⟩ | ⟨hne, -⟩
        · exact hstored
        · exact absurd rfl hne
      · cases hc
    · intro c hc
      split at hc
      · cases hc
      · cases hc
    · intro c hc
      split at hc
      · cases hc
      · cases hc
  · rintro rfl
    exact h.due _ hturn
  · intro q' hq
    have hquery := h.queries q'
    have hhistory : (s.setResults q results).history q' =
        if (s.results.get q').any (·.isFresh s.now) && (results.get q').isNone then
          Schedule.push (s.history q')
        else s.history q' := if_neg hq
    simp only [Schedule.drop, hhistory]
    cases hnew : results.get q' with
    | some e =>
      have hold : s.results.get q' = some e := by
        rcases ResultCache.entry_of_set hset hnew with ⟨heq, -⟩ | ⟨-, hold⟩
        · exact absurd heq hq
        · exact hold
      simp only [Option.isNone_some, Bool.and_false, Bool.false_eq_true, if_false]
      rw [hold] at hquery
      refine ⟨.refl _, ?_⟩
      simp only [Schedule.setResults, hnew]
      exact hquery
    | none =>
      simp only [Option.isNone_none, Bool.and_true, Schedule.setResults, hnew]
      split
      next hfresh =>
        obtain ⟨e, he, hfresh⟩ := (Option.any_eq_true _ _).mp hfresh
        exact ⟨softer_push _, hquery.push ⟨e, he, hfresh⟩⟩
      next hstale =>
        refine ⟨.refl _, hquery.expire ?_⟩
        intro e he hfresh
        exact hstale ((Option.any_eq_true _ _).mpr ⟨e, he, hfresh⟩)

theorem PaceInv.move {t : Schedule P} {a : Move P} (h : PaceInv E s) (hok : Marked E s a)
    (hstep : move E s a = some t) : PaceInv E t := by
  cases a with
  | wait now =>
    simp only [Pacing.move] at hstep
    split at hstep
    next hnow => exact Option.some.inj hstep ▸ h.wait hnow
    · cases hstep
  | poll i q =>
    simp only [Pacing.move] at hstep
    split at hstep
    · cases hstep
    · exact Option.some.inj hstep ▸ h.putPoll ⟨nofun, nofun⟩
  | tick queryIds =>
    simp only [Pacing.move] at hstep
    split at hstep
    · cases hstep
    next hidle =>
      split at hstep
      next hnodup =>
        obtain rfl := Option.some.inj hstep
        apply PaceInv.next
        refine ⟨h.queries, (h.drop .scheduler).turns, (h.drop .scheduler).refresh,
          hnodup.filter _, ?_, ?_⟩
        · intro turn hturn
          rw [drop_self] at hturn
          cases hturn
        · intro q hq hbound last hlast c hmark
          have hdue : s.isDue q = true := (List.mem_filter.mp hq).2
          rcases ((h.queries q).backedOff last hlast c hmark).2 hbound with
            ⟨moment, hmoment, hle⟩ | hwaited
          · refine Clock.le_elapsedMs_of_reached hle ?_
            have hget : s.nextDue q = some moment := hmoment
            unfold Schedule.isDue at hdue
            rwa [hget] at hdue
          · exact hwaited
      · cases hstep
  | advance r =>
    obtain ⟨turn, hturn, hstep⟩ := Option.bind_eq_some_iff.mp hstep
    exact h.advance hturn hok hstep
  | finish r dataHash payload =>
    simp only [Pacing.move] at hstep
    split at hstep
    next q hturn =>
      split at hstep
      · cases hstep
      next results hset =>
        have hstored := h.setResults hturn hset
        have hsettled : (∀ i, r ≠ .poll i) →
            PaceInv E ((s.setResults q results).put r (.settling q)) := by
          intro hpoll
          rw [← put_drop]
          refine hstored.put ⟨hpoll, ?_⟩ ?_ ?_
          · intro last hlast _ c
            simp only [Schedule.setResults, Schedule.drop, if_true] at hlast
            cases hhistory : s.history q with
            | nil =>
              rw [hhistory] at hlast
              cases hlast
            | cons head older =>
              rw [hhistory] at hlast
              obtain rfl := Option.some.inj hlast
              simp only
              split
              · constructor <;> intro heq <;> cases heq
              · constructor <;> intro heq <;> cases heq
          · rintro q' rfl
            have hq : q = q' := h.refresh q' _ hturn
            exact hq
          · rintro rfl
            have hq : q ∉ s.due := h.due _ hturn
            exact hq
        cases r with
        | poll i => exact Option.some.inj hstep ▸ hstored
        | refresh q' => exact Option.some.inj hstep ▸ hsettled (fun _ heq => by cases heq)
        | scheduler => exact Option.some.inj hstep ▸ hsettled (fun _ heq => by cases heq)
    · cases hstep
  | fail r =>
    obtain ⟨turn, hturn, hstep⟩ := Option.bind_eq_some_iff.mp hstep
    exact h.failAt hturn hstep
  | skip r =>
    obtain ⟨turn, hturn, hstep⟩ := Option.bind_eq_some_iff.mp hstep
    exact h.skipAt hturn hstep

end Steps

/-- **Once per interval.** In every run in which each execution starts on the mark of the last
one. -/
theorem spaced_of_marked {E : PacingEnv P} {now : Clock} {s : Schedule P} {as : List (Move P)}
    (h : Machine.Run (move E) (Marked E) (Schedule.start now) as s) : Spaced E s := by
  have hinv : PaceInv E s :=
    h.invariant (fun _ _ _ hI hstep hok => hI.move hok hstep) (paceInv_start now)
  exact fun q => (hinv.queries q).spaced

/-- A poll that finds nothing, and six seconds later one that finds its result stale and asks for a
refresh. -/
theorem spaced_of_marked_refreshed :
    ∃ s : Schedule Nat, Spaced Sample.env s ∧
      (s.history "q").map (fun x => (x.at_, x.runner)) =
        [(Sample.clock 7, .refresh "q"), (Sample.clock 0, .poll 0)] := by
  have hrun : ∃ s, Machine.Run (move Sample.env) (Marked Sample.env)
      (Schedule.start (Sample.clock 0))
      (.poll 0 "q" :: Sample.coldPoll 0 ++
        [.wait (Sample.clock 1), .finish (.poll 0) "h" 4096, .wait (Sample.clock 7), .poll 1 "q",
          .advance (.poll 1), .advance (.poll 1), .advance (.poll 1), .advance (.refresh "q")]) s ∧
      (s.history "q").map (fun x => (x.at_, x.runner)) =
        [(Sample.clock 7, .refresh "q"), (Sample.clock 0, .poll 0)] :=
    ⟨_, Machine.run_of_exec_checked rfl, rfl⟩
  obtain ⟨s, hrun, hhistory⟩ := hrun
  exact ⟨s, spaced_of_marked hrun, hhistory⟩

/-- Two polls find nothing, and both run the query at once. -/
theorem cold_polls_collide :
    ∃ as s, Machine.Run (move Sample.env) Machine.Always (Schedule.start (Sample.clock 0)) as s ∧
      ¬ Spaced Sample.env s := by
  have hrun : ∃ s, Machine.Run (move Sample.env) Machine.Always
      (Schedule.start (Sample.clock 0))
      (.poll 0 "q" :: .poll 1 "q" :: Sample.coldPoll 0 ++ Sample.coldPoll 1) s ∧
      (s.history "q").map Start.at_ = [Sample.clock 0, Sample.clock 0] :=
    ⟨_, Machine.run_of_exec rfl, rfl⟩
  obtain ⟨s, hrun, hhistory⟩ := hrun
  refine ⟨_, s, hrun, ?_⟩
  intro h
  have hspaced : ((s.history "q").map Start.at_).Pairwise fun newer older =>
      5000 ≤ older.elapsedMs newer := List.pairwise_map.mpr (h "q")
  rw [hhistory] at hspaced
  exact absurd (List.rel_of_pairwise_cons hspaced List.mem_cons_self) (by decide)

end FraudAnalyzer.Queries.Pacing
