import FraudAnalyzer.Queries.Pacing

/-!
# What the tables say of an execution

An execution leaves a mark: an entry of the result cache, a cooldown or a backoff. The invariant
says what each mark means as long as its execution is the last one, and what a runner that is about
to execute has found when it looked.
-/

namespace FraudAnalyzer.Queries.Pacing

variable {P : Type}

/-! ## The property -/

/-- Any two executions of a query start at least its interval apart. -/
def Spaced (E : PacingEnv P) (s : Schedule P) : Prop :=
  ∀ queryId, (s.history queryId).Pairwise fun newer older =>
    E.intervalMs queryId ≤ older.at_.elapsedMs newer.at_

/-- The runner has looked at the mark of the last execution, which is over: its result was stored
when the runner missed in the cache, and nothing pushed it out while it was fresh; it was a refresh
that failed, and this is one; it was a scheduled run that failed, and so is this, and the backoff
does not end before the interval. -/
def Mark.Seen (E : PacingEnv P) (queryId : String) (r : Runner) (basis : Option Nat)
    (started : Nat) : Mark → Prop
  | .running => False
  | .stored _ => basis = some started
  | .heldOff _ => r = .refresh queryId
  | .backedOff _ => r = .scheduler ∧ E.intervalMs queryId ≤ E.maxBackoffMs
  | .lost => False

instance (E : PacingEnv P) (queryId : String) (r : Runner) (basis : Option Nat) (started : Nat) :
    (mark : Mark) → Decidable (mark.Seen E queryId r basis started)
  | .running | .lost => .isFalse id
  | .stored _ => inferInstanceAs (Decidable (_ = _))
  | .heldOff _ => inferInstanceAs (Decidable (_ = _))
  | .backedOff _ => inferInstanceAs (Decidable (_ ∧ _))

/-- The first execution needs no mark. -/
def Schedule.Marked (E : PacingEnv P) (s : Schedule P) (queryId : String) (r : Runner)
    (basis : Option Nat) : Prop :=
  ∀ last ∈ (s.history queryId).head?, last.mark.Seen E queryId r basis (s.history queryId).length

instance (E : PacingEnv P) (s : Schedule P) (queryId : String) (r : Runner) (basis : Option Nat) :
    Decidable (s.Marked E queryId r basis) :=
  inferInstanceAs (Decidable (∀ last ∈ (s.history queryId).head?, _))

def Turn.Marked (E : PacingEnv P) (s : Schedule P) (r : Runner) : Turn → Prop
  | .ready queryId basis => s.Marked E queryId r basis
  | _ => True

instance (E : PacingEnv P) (s : Schedule P) (r : Runner) :
    (turn : Turn) → Decidable (turn.Marked E s r)
  | .ready queryId basis => inferInstanceAs (Decidable (s.Marked E queryId r basis))
  | .looking _ | .lookingStale _ _ | .requesting _ _ | .running _ | .settling _ | .leaving _ =>
    .isTrue trivial

/-- An execution starts only so. -/
def Marked (E : PacingEnv P) (s : Schedule P) : Move P → Prop
  | .advance r => ∀ turn ∈ s.turns r, turn.Marked E s r
  | _ => True

instance (E : PacingEnv P) (s : Schedule P) : (a : Move P) → Decidable (Marked E s a)
  | .advance r => inferInstanceAs (Decidable (∀ turn ∈ s.turns r, turn.Marked E s r))
  | .wait _ | .poll _ _ | .tick _ | .finish _ _ _ | .fail _ | .skip _ => .isTrue trivial

/-! ## The invariant -/

section Invariant

variable {E : PacingEnv P} {s : Schedule P} {q : String} {r : Runner} {basis : Option Nat}
  {now now' : Clock} {history : List Start}

/-- If the last execution has left this mark, the interval has passed since. -/
def Waited (E : PacingEnv P) (q : String) (now : Clock) (history : List Start)
    (mark : Clock → Mark) : Prop :=
  ∀ last ∈ history.head?, ∀ c, last.mark = mark c → E.intervalMs q ≤ c.elapsedMs now

/-- What the tables say of a query. -/
structure QueryInv (E : PacingEnv P) (q : String) (now : Clock) (entry : Option (CacheEntry P))
    (cooldown nextDue : Option Clock) (history : List Start) : Prop where
  spaced : history.Pairwise fun newer older =>
    E.intervalMs q ≤ older.at_.elapsedMs newer.at_
  past : ∀ x ∈ history, x.at_.NotAfter now
  after : ∀ last ∈ history.head?, ∀ c,
    last.mark = .stored c ∨ last.mark = .heldOff c ∨ last.mark = .backedOff c → last.at_.NotAfter c
  ttl : ∀ e ∈ entry, e.ttlMs = E.intervalMs q
  fresh : ∀ e ∈ entry, e.isFresh now → ∃ last ∈ history.head?, last.mark = .stored e.stored
  kept : ∀ last ∈ history.head?, ∀ c, last.mark = .stored c →
    (∃ e ∈ entry, e.stored = c) ∨ E.intervalMs q ≤ c.elapsedMs now
  heldOff : ∀ last ∈ history.head?, ∀ c, last.mark = .heldOff c → last.runner = .refresh q ∧
    ((∃ moment ∈ cooldown, (c.later (E.intervalMs q)).NotAfter moment) ∨
      E.intervalMs q ≤ c.elapsedMs now)
  backedOff : ∀ last ∈ history.head?, ∀ c, last.mark = .backedOff c → last.runner = .scheduler ∧
    (E.intervalMs q ≤ E.maxBackoffMs →
      (∃ moment ∈ nextDue, (c.later (E.intervalMs q)).NotAfter moment) ∨
        E.intervalMs q ≤ c.elapsedMs now)

/-- A miss in the cache: if no execution has started since, the result that was last stored had
gone stale. -/
def Missed (E : PacingEnv P) (q : String) (now : Clock) (history : List Start)
    (basis : Option Nat) : Prop :=
  ∀ n ∈ basis, n ≤ history.length ∧ (n = history.length →
    (∀ last ∈ history.head?, last.mark ≠ .running) ∧ Waited E q now history .stored)

/-- What a runner has looked at. -/
def Turn.Sound (E : PacingEnv P) (now : Clock) (history : String → List Start) (r : Runner) :
    Turn → Prop
  | .looking q => (∀ q', r ≠ .refresh q') ∧
    (r = .scheduler → E.intervalMs q ≤ E.maxBackoffMs → Waited E q now (history q) .backedOff)
  | .lookingStale q basis => (∃ i, r = .poll i) ∧ Missed E q now (history q) basis
  | .requesting q basis => (∃ i, r = .poll i) ∧ Missed E q now (history q) basis
  | .ready q basis => Missed E q now (history q) basis ∧
    (r = .refresh q → Waited E q now (history q) .heldOff) ∧
    (r = .scheduler → E.intervalMs q ≤ E.maxBackoffMs → Waited E q now (history q) .backedOff)
  | .running q => ∃ last ∈ (history q).head?, last.runner = r ∧ last.mark = .running
  | .settling q => (∀ i, r ≠ .poll i) ∧ ∀ last ∈ (history q).head?, last.runner = r →
    ∀ c, last.mark ≠ .heldOff c ∧ last.mark ≠ .backedOff c
  | .leaving _ => True

def Turn.queryId : Turn → String
  | .looking q | .lookingStale q _ | .requesting q _ | .ready q _ | .running q | .settling q
  | .leaving q => q

structure PaceInv (E : PacingEnv P) (s : Schedule P) : Prop where
  queries : ∀ q, QueryInv E q s.now (s.results.get q) (s.cooldown q) (s.nextDue q) (s.history q)
  turns : ∀ r turn, s.turns r = some turn → turn.Sound E s.now s.history r
  refresh : ∀ q turn, s.turns (.refresh q) = some turn → turn.queryId = q
  nodup : s.due.Nodup
  due : ∀ turn, s.turns .scheduler = some turn → turn.queryId ∉ s.due
  waited : ∀ q ∈ s.due, E.intervalMs q ≤ E.maxBackoffMs →
    Waited E q s.now (s.history q) .backedOff

/-! ## Time goes by -/

theorem Waited.mono {mark : Clock → Mark} (h : Waited E q now history mark)
    (hnow : now.NotAfter now') : Waited E q now' history mark :=
  fun last hlast c hmark => Int.le_trans (h last hlast c hmark) (Clock.elapsedMs_mono c hnow)

theorem Missed.mono (h : Missed E q now history basis) (hnow : now.NotAfter now') :
    Missed E q now' history basis := by
  intro n hn
  obtain ⟨hle, hsame⟩ := h n hn
  exact ⟨hle, fun heq => ⟨(hsame heq).1, (hsame heq).2.mono hnow⟩⟩

theorem QueryInv.mono {entry : Option (CacheEntry P)} {cooldown nextDue : Option Clock}
    (h : QueryInv E q now entry cooldown nextDue history) (hnow : now.NotAfter now') :
    QueryInv E q now' entry cooldown nextDue history where
  spaced := h.spaced
  past x hx := (h.past x hx).trans hnow
  after := h.after
  ttl := h.ttl
  fresh e he hfresh := by
    apply h.fresh e he
    have hfresh := of_decide_eq_true hfresh
    apply decide_eq_true
    exact Int.lt_of_le_of_lt (Clock.elapsedMs_mono e.stored hnow) hfresh
  kept last hlast c hmark :=
    (h.kept last hlast c hmark).imp_right fun hle => Int.le_trans hle (Clock.elapsedMs_mono c hnow)
  heldOff last hlast c hmark := by
    obtain ⟨hrunner, hheld⟩ := h.heldOff last hlast c hmark
    exact ⟨hrunner, hheld.imp_right fun hle => Int.le_trans hle (Clock.elapsedMs_mono c hnow)⟩
  backedOff last hlast c hmark := by
    obtain ⟨hrunner, hback⟩ := h.backedOff last hlast c hmark
    exact ⟨hrunner, fun hbound =>
      (hback hbound).imp_right fun hle => Int.le_trans hle (Clock.elapsedMs_mono c hnow)⟩

theorem Turn.Sound.mono {turn : Turn} {histories : String → List Start}
    (h : turn.Sound E now histories r) (hnow : now.NotAfter now') :
    turn.Sound E now' histories r := by
  cases turn with
  | looking q => exact ⟨h.1, fun hr hbound => (h.2 hr hbound).mono hnow⟩
  | lookingStale q basis => exact ⟨h.1, h.2.mono hnow⟩
  | requesting q basis => exact ⟨h.1, h.2.mono hnow⟩
  | ready q basis =>
    obtain ⟨hmissed, hheld, hback⟩ := h
    exact ⟨hmissed.mono hnow, fun hr => (hheld hr).mono hnow,
      fun hr hbound => (hback hr hbound).mono hnow⟩
  | running q => exact h
  | settling q => exact h
  | leaving q => trivial

theorem PaceInv.wait (h : PaceInv E s) (hnow : s.now.NotAfter now) :
    PaceInv E { s with now := now } where
  queries q := (h.queries q).mono hnow
  turns r turn hturn := (h.turns r turn hturn).mono hnow
  refresh := h.refresh
  nodup := h.nodup
  due := h.due
  waited q hq hbound := (h.waited q hq hbound).mono hnow

theorem paceInv_start (now : Clock) : PaceInv E (Schedule.start (P := P) now) where
  queries q :=
    { spaced := .nil
      past := fun _ h => absurd h List.not_mem_nil
      after := fun _ h => by cases h
      ttl := fun _ h => by cases h
      fresh := fun _ h => by cases h
      kept := fun _ h => by cases h
      heldOff := fun _ h => by cases h
      backedOff := fun _ h => by cases h }
  turns _ _ h := by cases h
  refresh _ _ h := by cases h
  nodup := .nil
  due _ h := by cases h
  waited _ h := absurd h List.not_mem_nil

/-! ## Steps of one runner -/

theorem Turn.Sound.congr {turn : Turn} {histories histories' : String → List Start}
    (h : turn.Sound E now histories r)
    (heq : histories' turn.queryId = histories turn.queryId) :
    turn.Sound E now histories' r := by
  cases turn with
  | leaving q => trivial
  | _ =>
    simp only [Turn.queryId] at heq
    simp only [Turn.Sound, heq] at h ⊢
    exact h

theorem PaceInv.put (h : PaceInv E s) {turn : Turn} (hsound : turn.Sound E s.now s.history r)
    (hrefresh : ∀ q, r = .refresh q → turn.queryId = q)
    (hdue : r = .scheduler → turn.queryId ∉ s.due) : PaceInv E (s.put r turn) where
  queries := h.queries
  turns r' turn' hturn := by
    simp only [Schedule.put, Function.update_apply] at hturn
    split at hturn
    next hr => rw [hr, ← Option.some.inj hturn]; exact hsound
    · exact h.turns r' turn' hturn
  refresh q turn' hturn := by
    simp only [Schedule.put, Function.update_apply] at hturn
    split at hturn
    next hr => rw [← Option.some.inj hturn]; exact hrefresh q hr.symm
    · exact h.refresh q turn' hturn
  nodup := h.nodup
  due turn' hturn := by
    simp only [Schedule.put, Function.update_apply] at hturn
    split at hturn
    next hr => rw [← Option.some.inj hturn]; exact hdue hr.symm
    · exact h.due turn' hturn
  waited := h.waited

theorem PaceInv.putPoll (h : PaceInv E s) {i : Nat} {turn : Turn}
    (hsound : turn.Sound E s.now s.history (.poll i)) : PaceInv E (s.put (.poll i) turn) :=
  h.put hsound (fun _ heq => by cases heq) (fun heq => by cases heq)

theorem PaceInv.putRefresh (h : PaceInv E s) {turn : Turn}
    (hsound : turn.Sound E s.now s.history (.refresh q)) (hq : turn.queryId = q) :
    PaceInv E (s.put (.refresh q) turn) :=
  h.put hsound (fun _ heq => by cases heq; exact hq) (fun heq => by cases heq)

theorem PaceInv.drop (h : PaceInv E s) (r : Runner) : PaceInv E (s.drop r) where
  queries := h.queries
  turns r' turn hturn := by
    simp only [Schedule.drop, Function.update_apply] at hturn
    split at hturn
    · cases hturn
    · exact h.turns r' turn hturn
  refresh q turn hturn := by
    simp only [Schedule.drop, Function.update_apply] at hturn
    split at hturn
    · cases hturn
    · exact h.refresh q turn hturn
  nodup := h.nodup
  due turn hturn := by
    simp only [Schedule.drop, Function.update_apply] at hturn
    split at hturn
    · cases hturn
    · exact h.due turn hturn
  waited := h.waited

@[simp] theorem drop_self (s : Schedule P) (r : Runner) : (s.drop r).turns r = none := by
  simp only [Schedule.drop, Function.update_self]

@[simp] theorem put_drop (s : Schedule P) (r : Runner) (turn : Turn) :
    (s.drop r).put r turn = s.put r turn := by
  simp only [Schedule.put, Schedule.drop, Function.update_idem]

/-- A step that changes the tables of one query. -/
theorem PaceInv.update {t : Schedule P} (h : PaceInv E s) (q : String) (hnow : t.now = s.now)
    (hturns : t.turns = s.turns) (hdue : t.due = s.due)
    (hother : ∀ q', q' ≠ q → t.results.get q' = s.results.get q' ∧ t.cooldown q' = s.cooldown q' ∧
      t.nextDue q' = s.nextDue q' ∧ t.history q' = s.history q')
    (hquery : QueryInv E q s.now (t.results.get q) (t.cooldown q) (t.nextDue q) (t.history q))
    (hsound : ∀ r turn, s.turns r = some turn → turn.queryId = q →
      turn.Sound E s.now t.history r)
    (hwaited : q ∈ s.due → E.intervalMs q ≤ E.maxBackoffMs →
      Waited E q s.now (t.history q) .backedOff) : PaceInv E t where
  queries q' := by
    rw [hnow]
    by_cases hq : q' = q
    · rw [hq]
      exact hquery
    · obtain ⟨hresults, hcooldown, hnext, hhistory⟩ := hother q' hq
      rw [hresults, hcooldown, hnext, hhistory]
      exact h.queries q'
  turns r turn hturn := by
    rw [hnow]
    rw [hturns] at hturn
    by_cases hq : turn.queryId = q
    · exact hsound r turn hturn hq
    · exact (h.turns r turn hturn).congr (hother _ hq).2.2.2
  refresh := by rw [hturns]; exact h.refresh
  nodup := by rw [hdue]; exact h.nodup
  due := by rw [hturns, hdue]; exact h.due
  waited q' hq' hbound := by
    rw [hdue] at hq'
    rw [hnow]
    by_cases hq : q' = q
    · subst hq
      exact hwaited hq' hbound
    · rw [(hother q' hq).2.2.2]
      exact h.waited q' hq' hbound

/-- The interval has passed since the last execution started. -/
theorem QueryInv.elapsed {entry : Option (CacheEntry P)} {cooldown nextDue : Option Clock}
    (h : QueryInv E q now entry cooldown nextDue history) {last : Start}
    (hlast : last ∈ history.head?)
    {c : Clock} (hmark : last.mark = .stored c ∨ last.mark = .heldOff c ∨ last.mark = .backedOff c)
    (hwaited : E.intervalMs q ≤ c.elapsedMs now) : E.intervalMs q ≤ last.at_.elapsedMs now :=
  Int.le_trans hwaited (Clock.elapsedMs_anti (h.after last hlast c hmark) now)

/-- It has, when an execution starts as it should. -/
theorem PaceInv.elapsed_of_marked (h : PaceInv E s) (hmarked : s.Marked E q r basis)
    (hsound : Turn.Sound E s.now s.history r (.ready q basis)) {last : Start}
    (hlast : last ∈ (s.history q).head?) : last.mark ≠ .running ∧
      E.intervalMs q ≤ last.at_.elapsedMs s.now ∧
      ∀ c, last.mark = .stored c → E.intervalMs q ≤ c.elapsedMs s.now := by
  obtain ⟨hmissed, hheld, hback⟩ := hsound
  have hquery := h.queries q
  have hseen := hmarked last hlast
  cases hmark : last.mark with
  | running =>
    rw [hmark] at hseen
    exact hseen.elim
  | stored c =>
    rw [hmark] at hseen
    have hwaited := ((hmissed _ hseen).2 rfl).2 last hlast c hmark
    refine ⟨nofun, hquery.elapsed hlast (.inl hmark) hwaited, ?_⟩
    rintro c' ⟨⟩
    exact hwaited
  | heldOff c =>
    rw [hmark] at hseen
    have hwaited := hheld hseen last hlast c hmark
    exact ⟨nofun, hquery.elapsed hlast (.inr (.inl hmark)) hwaited, nofun⟩
  | backedOff c =>
    rw [hmark] at hseen
    have hwaited := hback hseen.1 hseen.2 last hlast c hmark
    exact ⟨nofun, hquery.elapsed hlast (.inr (.inr hmark)) hwaited, nofun⟩
  | lost =>
    rw [hmark] at hseen
    exact hseen.elim

/-- An execution starts. -/
theorem PaceInv.begin (h : PaceInv E s) (hmarked : s.Marked E q r basis)
    (hsound : Turn.Sound E s.now s.history r (.ready q basis)) :
    PaceInv E (s.begin_ q r) := by
  have hquery := h.queries q
  have helapsed := fun (last : Start) (hlast : last ∈ (s.history q).head?) =>
    h.elapsed_of_marked hmarked hsound hlast
  refine h.update q rfl rfl rfl ?_ ?_ ?_ ?_
  · intro q' hq
    refine ⟨rfl, rfl, rfl, ?_⟩
    simp only [Schedule.begin_, Function.update_of_ne hq]
  · simp only [Schedule.begin_, Function.update_self]
    refine ⟨?_, ?_, ?_, hquery.ttl, ?_, ?_, ?_, ?_⟩
    · refine List.pairwise_cons.mpr ⟨?_, hquery.spaced⟩
      intro x hx
      cases hhistory : s.history q with
      | nil => rw [hhistory] at hx; cases hx
      | cons last older =>
        have hlast : last ∈ (s.history q).head? := by rw [hhistory]; rfl
        rw [hhistory] at hx
        rcases List.mem_cons.mp hx with rfl | hold
        · exact (helapsed x hlast).2.1
        · have hspaced := hquery.spaced
          rw [hhistory] at hspaced
          have hpast := hquery.past last (by rw [hhistory]; exact List.mem_cons_self)
          exact Int.le_trans (List.rel_of_pairwise_cons hspaced hold)
            (Clock.elapsedMs_mono x.at_ hpast)
    · intro x hx
      rcases List.mem_cons.mp hx with rfl | hold
      · exact .refl _
      · exact hquery.past x hold
    · rintro last ⟨⟩ c (hmark | hmark | hmark)
      · cases hmark
      · cases hmark
      · cases hmark
    · intro e he hfresh
      obtain ⟨last, hlast, hmark⟩ := hquery.fresh e he hfresh
      have hwaited := (helapsed last hlast).2.2 e.stored hmark
      have hage : e.stored.elapsedMs s.now < e.ttlMs := of_decide_eq_true hfresh
      rw [hquery.ttl e he] at hage
      omega
    · rintro last ⟨⟩ c hmark
      cases hmark
    · rintro last ⟨⟩ c hmark
      cases hmark
    · rintro last ⟨⟩ c hmark
      cases hmark
  · intro r' turn hturn hq
    have hold := h.turns r' turn hturn
    have hmissed : ∀ basis', Missed E q s.now (s.history q) basis' →
        Missed E q s.now ((s.begin_ q r).history q) basis' := by
      intro basis' hm n hn
      have hle := (hm n hn).1
      simp only [Schedule.begin_, Function.update_self, List.length_cons]
      exact ⟨Nat.le_succ_of_le hle, fun heq => by omega⟩
    have hwaited : ∀ mark : Clock → Mark, (∀ c, mark c ≠ .running) →
        Waited E q s.now ((s.begin_ q r).history q) mark := by
      intro mark hmark last hlast c heq
      simp only [Schedule.begin_, Function.update_self] at hlast
      obtain rfl := Option.some.inj hlast
      exact absurd heq.symm (hmark c)
    cases turn with
    | looking q' =>
      obtain rfl : q' = q := hq
      exact ⟨hold.1, fun _ _ => hwaited _ (fun _ heq => by cases heq)⟩
    | lookingStale q' basis' =>
      obtain rfl : q' = q := hq
      exact ⟨hold.1, hmissed _ hold.2⟩
    | requesting q' basis' =>
      obtain rfl : q' = q := hq
      exact ⟨hold.1, hmissed _ hold.2⟩
    | ready q' basis' =>
      obtain rfl : q' = q := hq
      exact ⟨hmissed _ hold.1, fun _ => hwaited _ (fun _ heq => by cases heq),
        fun _ _ => hwaited _ (fun _ heq => by cases heq)⟩
    | running q' =>
      obtain rfl : q' = q := hq
      obtain ⟨last, hlast, -, hrunning⟩ := hold
      exact absurd hrunning (helapsed last hlast).1
    | settling q' =>
      obtain rfl : q' = q := hq
      refine ⟨hold.1, ?_⟩
      intro last hlast _ c
      simp only [Schedule.begin_, Function.update_self] at hlast
      obtain rfl := Option.some.inj hlast
      constructor
      · rintro ⟨⟩
      · rintro ⟨⟩
    | leaving q' => trivial
  · intro _ _ last hlast c hmark
    simp only [Schedule.begin_, Function.update_self] at hlast
    obtain rfl := Option.some.inj hlast
    cases hmark

/-! ## Results that go -/

section Entry

variable {entry : Option (CacheEntry P)} {cooldown nextDue : Option Clock}

theorem elapsed_of_not_fresh {e : CacheEntry P} (httl : e.ttlMs = E.intervalMs q)
    (hstale : ¬ e.isFresh now) : E.intervalMs q ≤ e.stored.elapsedMs now := by
  have hage : ¬ e.stored.elapsedMs now < e.ttlMs := fun hlt => hstale (decide_eq_true hlt)
  omega

/-- A stale result goes. -/
theorem QueryInv.expire (h : QueryInv E q now entry cooldown nextDue history)
    (hstale : ∀ e ∈ entry, ¬ e.isFresh now) :
    QueryInv E q now none cooldown nextDue history where
  spaced := h.spaced
  past := h.past
  after := h.after
  ttl := nofun
  fresh := nofun
  kept last hlast c hmark := by
    rcases h.kept last hlast c hmark with ⟨e, he, rfl⟩ | hwaited
    · exact .inr (elapsed_of_not_fresh (h.ttl e he) (hstale e he))
    · exact .inr hwaited
  heldOff := h.heldOff
  backedOff := h.backedOff

/-- A history with its last result pushed out, or as it was. -/
structure Softer (new old : List Start) : Prop where
  length : new.length = old.length
  head : ∀ last ∈ new.head?, last ∈ old.head? ∨
    last.mark = .lost ∧ ∃ kept ∈ old.head?, ∃ c, kept.mark = .stored c
  running : ∀ last ∈ old.head?, last.mark = .running → last ∈ new.head?

theorem Softer.refl (history : List Start) : Softer history history :=
  ⟨rfl, fun _ h => .inl h, fun _ h _ => h⟩

/-- What `push` does, case by case. -/
theorem push_cases (history : List Start) :
    Schedule.push history = history ∨
      ∃ at_ runner c older, history = ⟨at_, runner, .stored c⟩ :: older ∧
        Schedule.push history = ⟨at_, runner, .lost⟩ :: older := by
  unfold Schedule.push
  split
  next at_ runner c older => exact .inr ⟨at_, runner, c, older, rfl, rfl⟩
  · exact .inl rfl

theorem softer_push (history : List Start) : Softer (Schedule.push history) history := by
  rcases push_cases history with hsame | ⟨at_, runner, c, older, rfl, hpush⟩
  · rw [hsame]
    exact .refl history
  · rw [hpush]
    refine ⟨rfl, ?_, ?_⟩
    · rintro last ⟨⟩
      exact .inr ⟨rfl, _, rfl, c, rfl⟩
    · rintro last ⟨⟩ hrunning
      cases hrunning

/-- A fresh result is pushed out. -/
theorem QueryInv.push (h : QueryInv E q now entry cooldown nextDue history)
    (hfresh : ∃ e ∈ entry, e.isFresh now) :
    QueryInv E q now none cooldown nextDue (Schedule.push history) := by
  obtain ⟨e, he, hfresh⟩ := hfresh
  obtain ⟨last, hlast, hmark⟩ := h.fresh e he hfresh
  cases history with
  | nil => cases hlast
  | cons head older =>
    obtain rfl := Option.some.inj hlast
    obtain ⟨at_, runner, mark⟩ := head
    obtain rfl : mark = .stored e.stored := hmark
    refine ⟨?_, ?_, ?_, nofun, nofun, ?_, ?_, ?_⟩
    · exact List.pairwise_cons.mpr (List.pairwise_cons.mp h.spaced)
    · intro x hx
      rcases List.mem_cons.mp hx with rfl | hold
      · exact h.past ⟨at_, runner, .stored e.stored⟩ List.mem_cons_self
      · exact h.past x (List.mem_cons_of_mem _ hold)
    · rintro last ⟨⟩ c (hmark | hmark | hmark)
      · cases hmark
      · cases hmark
      · cases hmark
    · rintro last ⟨⟩ c hmark
      cases hmark
    · rintro last ⟨⟩ c hmark
      cases hmark
    · rintro last ⟨⟩ c hmark
      cases hmark

theorem Waited.softer {new : List Start} {mark : Clock → Mark} (h : Waited E q now history mark)
    (hsofter : Softer new history) (hmark : ∀ c, mark c ≠ .lost) : Waited E q now new mark := by
  intro last hlast c heq
  rcases hsofter.head last hlast with hold | ⟨hlost, -⟩
  · exact h last hold c heq
  · exact absurd (heq.symm.trans hlost) (hmark c)

theorem Missed.softer {new : List Start} (h : Missed E q now history basis)
    (hsofter : Softer new history) : Missed E q now new basis := by
  intro n hn
  obtain ⟨hle, hsame⟩ := h n hn
  rw [hsofter.length]
  refine ⟨hle, ?_⟩
  intro heq
  obtain ⟨hover, hwaited⟩ := hsame heq
  refine ⟨?_, hwaited.softer hsofter nofun⟩
  intro last hlast
  rcases hsofter.head last hlast with hold | ⟨hlost, -⟩
  · exact hover last hold
  · rw [hlost]
    nofun

theorem Turn.Sound.softer {turn : Turn} {histories histories' : String → List Start}
    (h : turn.Sound E now histories r)
    (hsofter : Softer (histories' turn.queryId) (histories turn.queryId)) :
    turn.Sound E now histories' r := by
  cases turn with
  | looking q => exact ⟨h.1, fun hr hbound => (h.2 hr hbound).softer hsofter nofun⟩
  | lookingStale q basis => exact ⟨h.1, h.2.softer hsofter⟩
  | requesting q basis => exact ⟨h.1, h.2.softer hsofter⟩
  | ready q basis =>
    obtain ⟨hmissed, hheld, hback⟩ := h
    exact ⟨hmissed.softer hsofter, fun hr => (hheld hr).softer hsofter nofun,
      fun hr hbound => (hback hr hbound).softer hsofter nofun⟩
  | running q =>
    obtain ⟨last, hlast, hrunner, hmark⟩ := h
    exact ⟨last, hsofter.running last hlast hmark, hrunner, hmark⟩
  | settling q =>
    refine ⟨h.1, ?_⟩
    intro last hlast hrunner c
    rcases hsofter.head last hlast with hold | ⟨hlost, -⟩
    · exact h.2 last hold hrunner c
    · rw [hlost]
      exact ⟨nofun, nofun⟩
  | leaving q => trivial

end Entry

/-! ## The end of an execution -/

/-- The other runners have looked at what they had looked at. -/
theorem Turn.Sound.setMark {turn : Turn} {histories : String → List Start} {r' : Runner}
    {mark : Mark} (h : turn.Sound E now histories r') (hne : r' ≠ r) (hq : turn.queryId = q)
    (hrunning : ∃ last ∈ (histories q).head?, last.runner = r ∧ last.mark = .running)
    (hheld : ∀ c, mark = .heldOff c → r = .refresh q)
    (hback : ∀ c, mark = .backedOff c → r = .scheduler) {histories' : String → List Start}
    (hnew : histories' q = Schedule.setMark mark (histories q)) :
    turn.Sound E now histories' r' := by
  obtain ⟨last, hlast, hrunner, hmark⟩ := hrunning
  cases hhistory : histories q with
  | nil => rw [hhistory] at hlast; cases hlast
  | cons head older =>
    obtain rfl : head = last := by
      rw [hhistory] at hlast
      exact Option.some.inj hlast
    rw [hhistory] at hnew
    have hmissed : ∀ basis, Missed E q now (histories q) basis →
        Missed E q now (histories' q) basis := by
      intro basis hm n hn
      obtain ⟨hle, hsame⟩ := hm n hn
      rw [hhistory] at hle hsame
      rw [hnew]
      refine ⟨hle, ?_⟩
      intro heq
      exact absurd hmark ((hsame heq).1 head rfl)
    have hwaited : ∀ m : Clock → Mark, (∀ c, mark ≠ m c) → Waited E q now (histories' q) m := by
      intro m hm l hl c heq
      rw [hnew] at hl
      obtain rfl := Option.some.inj hl
      exact absurd heq (hm c)
    cases turn with
    | looking q' =>
      obtain rfl : q' = q := hq
      exact ⟨h.1, fun hr _ => hwaited _ fun c heq => hne (hr.trans (hback c heq).symm)⟩
    | lookingStale q' basis =>
      obtain rfl : q' = q := hq
      exact ⟨h.1, hmissed _ h.2⟩
    | requesting q' basis =>
      obtain rfl : q' = q := hq
      exact ⟨h.1, hmissed _ h.2⟩
    | ready q' basis =>
      obtain rfl : q' = q := hq
      exact ⟨hmissed _ h.1,
        fun hr => hwaited _ fun c heq => hne (hr.trans (hheld c heq).symm),
        fun hr _ => hwaited _ fun c heq => hne (hr.trans (hback c heq).symm)⟩
    | running q' =>
      obtain rfl : q' = q := hq
      obtain ⟨l, hl, hr, -⟩ := h
      rw [hhistory] at hl
      obtain rfl := Option.some.inj hl
      exact absurd (hr.symm.trans hrunner) hne
    | settling q' =>
      obtain rfl : q' = q := hq
      refine ⟨h.1, ?_⟩
      intro l hl hr
      rw [hnew] at hl
      obtain rfl := Option.some.inj hl
      exact absurd (hr.symm.trans hrunner) hne
    | leaving q' => trivial

/-- The mark that an execution leaves now, with the tables as they are then. -/
structure Leaves (E : PacingEnv P) (t : Schedule P) (q : String) (r : Runner) (mark : Mark) :
    Prop where
  ended : mark ≠ .running
  entry : ∀ e ∈ t.results.get q, e.ttlMs = E.intervalMs q ∧
    (e.isFresh t.now → mark = .stored e.stored)
  stored : ∀ c, mark = .stored c → c = t.now ∧ ∃ e ∈ t.results.get q, e.stored = c
  heldOff : ∀ c, mark = .heldOff c → r = .refresh q ∧ c = t.now ∧
    ∃ moment ∈ t.cooldown q, (c.later (E.intervalMs q)).NotAfter moment
  backedOff : ∀ c, mark = .backedOff c → r = .scheduler ∧ c = t.now ∧
    (E.intervalMs q ≤ E.maxBackoffMs →
      ∃ moment ∈ t.nextDue q, (c.later (E.intervalMs q)).NotAfter moment)

theorem PaceInv.finish {t : Schedule P} (h : PaceInv E s) (hidle : s.turns r = none)
    (hrunning : ∃ last ∈ (s.history q).head?, last.runner = r ∧ last.mark = .running)
    (hnow : t.now = s.now) (hturns : t.turns = s.turns) (hdue : t.due = s.due) {mark : Mark}
    (hnew : t.history q = Schedule.setMark mark (s.history q)) (hleaves : Leaves E t q r mark)
    (hq : r = .scheduler → q ∉ s.due)
    (hother : ∀ q', q' ≠ q → Softer (t.history q') (s.history q') ∧
      QueryInv E q' s.now (t.results.get q') (t.cooldown q') (t.nextDue q') (t.history q')) :
    PaceInv E t := by
  have hquery := h.queries q
  have hrunning' := hrunning
  obtain ⟨last, hlast, hrunner, hmark⟩ := hrunning
  cases hhistory : s.history q with
  | nil => rw [hhistory] at hlast; cases hlast
  | cons head older =>
    obtain rfl : head = last := by
      rw [hhistory] at hlast
      exact Option.some.inj hlast
    rw [hhistory] at hquery
    have hhead : t.history q = { head with mark := mark } :: older := by rw [hnew, hhistory]; rfl
    refine ⟨?_, ?_, ?_, ?_, ?_, ?_⟩
    · intro q'
      rw [hnow]
      by_cases heq : q' = q
      · subst heq
        rw [hhead]
        refine ⟨?_, ?_, ?_, ?_, ?_, ?_, ?_, ?_⟩
        · exact List.pairwise_cons.mpr (List.pairwise_cons.mp hquery.spaced)
        · intro x hx
          rcases List.mem_cons.mp hx with rfl | hold
          · exact hquery.past head List.mem_cons_self
          · exact hquery.past x (List.mem_cons_of_mem _ hold)
        · rintro l ⟨⟩ c hc
          have hc : c = t.now := by
            rcases hc with hc | hc | hc
            · exact (hleaves.stored c hc).1
            · exact (hleaves.heldOff c hc).2.1
            · exact (hleaves.backedOff c hc).2.1
          rw [hc, hnow]
          exact hquery.past head List.mem_cons_self
        · exact fun e he => (hleaves.entry e he).1
        · intro e he hfresh
          rw [← hnow] at hfresh
          exact ⟨_, rfl, (hleaves.entry e he).2 hfresh⟩
        · rintro l ⟨⟩ c hc
          exact .inl (hleaves.stored c hc).2
        · rintro l ⟨⟩ c hc
          obtain ⟨hr, -, hmoment⟩ := hleaves.heldOff c hc
          exact ⟨hrunner.trans hr, .inl hmoment⟩
        · rintro l ⟨⟩ c hc
          obtain ⟨hr, -, hmoment⟩ := hleaves.backedOff c hc
          exact ⟨hrunner.trans hr, fun hbound => .inl (hmoment hbound)⟩
      · exact (hother q' heq).2
    · intro r' turn hturn
      rw [hnow]
      rw [hturns] at hturn
      by_cases heq : turn.queryId = q
      · refine (h.turns r' turn hturn).setMark ?_ heq hrunning'
          (fun c hc => (hleaves.heldOff c hc).1)
          (fun c hc => (hleaves.backedOff c hc).1) hnew
        rintro rfl
        rw [hidle] at hturn
        cases hturn
      · exact (h.turns r' turn hturn).softer (hother _ heq).1
    · rw [hturns]
      exact h.refresh
    · rw [hdue]
      exact h.nodup
    · rw [hturns, hdue]
      exact h.due
    · intro q' hq' hbound
      rw [hdue] at hq'
      rw [hnow]
      by_cases heq : q' = q
      · subst heq
        intro l hl c hc
        rw [hhead] at hl
        obtain rfl := Option.some.inj hl
        exact absurd hq' (hq (hleaves.backedOff c hc).1)
      · exact (h.waited q' hq' hbound).softer (hother q' heq).1 nofun

/-! ## The tables of the refresher and of the scheduler -/

theorem PaceInv.setCooldown (h : PaceInv E s) (cooldown : Option Clock)
    (hheld : ∀ last ∈ (s.history q).head?, ∀ c, last.mark = .heldOff c →
      E.intervalMs q ≤ c.elapsedMs s.now) :
    PaceInv E { s with cooldown := Function.update s.cooldown q cooldown } := by
  have hquery := h.queries q
  refine h.update q rfl rfl rfl ?_ ?_ ?_ (h.waited q)
  · intro q' hq
    exact ⟨rfl, Function.update_of_ne hq _ _, rfl, rfl⟩
  · refine ⟨hquery.spaced, hquery.past, hquery.after, hquery.ttl, hquery.fresh, hquery.kept, ?_,
      hquery.backedOff⟩
    intro last hlast c hmark
    exact ⟨(hquery.heldOff last hlast c hmark).1, .inr (hheld last hlast c hmark)⟩
  · exact fun r turn hturn _ => h.turns r turn hturn

theorem PaceInv.setDueIn (h : PaceInv E s) (delayMs : Int)
    (hback : ∀ last ∈ (s.history q).head?, ∀ c, last.mark ≠ .backedOff c) :
    PaceInv E (s.setDueIn q delayMs) := by
  have hquery := h.queries q
  refine h.update q rfl rfl rfl ?_ ?_ ?_ (h.waited q)
  · intro q' hq
    exact ⟨rfl, rfl, Function.update_of_ne hq _ _, rfl⟩
  · refine ⟨hquery.spaced, hquery.past, hquery.after, hquery.ttl, hquery.fresh, hquery.kept,
      hquery.heldOff, ?_⟩
    exact fun last hlast c hmark => absurd hmark (hback last hlast c)
  · exact fun r turn hturn _ => h.turns r turn hturn

/-- The scheduler goes on. -/
theorem PaceInv.next (h : PaceInv E (s.drop .scheduler)) : PaceInv E s.next := by
  unfold Schedule.next
  split
  · exact h
  next q due hdue =>
    have hnodup : (q :: due).Nodup := hdue ▸ h.nodup
    have hrest : PaceInv E { s.drop .scheduler with due := due } := by
      refine ⟨h.queries, h.turns, h.refresh, (List.nodup_cons.mp hnodup).2, ?_, ?_⟩
      · intro turn hturn
        simp only [drop_self] at hturn
        cases hturn
      · intro q' hq'
        exact h.waited q' (hdue ▸ List.mem_cons_of_mem _ hq')
    have hsound : Turn.Sound E s.now s.history .scheduler (.looking q) :=
      ⟨nofun, fun _ hbound => h.waited q (hdue ▸ List.mem_cons_self) hbound⟩
    have hput := hrest.put hsound nofun fun _ => (List.nodup_cons.mp hnodup).1
    simpa only [Schedule.put, Schedule.drop, Function.update_idem] using hput

/-- Results that go from the cache had gone stale. -/
theorem PaceInv.shrink (h : PaceInv E s) {results : ResultCache P}
    (hresults : ∀ q, results.get q = s.results.get q ∨
      results.get q = none ∧ ∀ e ∈ s.results.get q, ¬ e.isFresh s.now) :
    PaceInv E { s with results := results } := by
  refine ⟨?_, h.turns, h.refresh, h.nodup, h.due, h.waited⟩
  intro q
  rcases hresults q with hsame | ⟨hnone, hstale⟩
  · simp only [hsame]
    exact h.queries q
  · simp only [hnone]
    exact (h.queries q).expire hstale

end Invariant

end FraudAnalyzer.Queries.Pacing
