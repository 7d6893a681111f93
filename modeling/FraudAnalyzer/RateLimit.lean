import FraudAnalyzer.Errors
import FraudAnalyzer.Lib.Meter
import FraudAnalyzer.Lib.OrderedDict
import FraudAnalyzer.Lib.Run
import FraudAnalyzer.Charts.Fingerprint
import FraudAnalyzer.Python.Text
import Mathlib.Data.Rat.Floor

/-!
# Request budgets

`app/ratelimit.py`. The table holds one window and one count for each client, so the hits of a
client in one window are metered: the meter is restarted by a hit of the client that is stamped in
another window, and by the purge of a large table. The timestamp is read before the lock is taken,
so hits reach the table in any order.
-/

namespace FraudAnalyzer.RateLimit

open Python

/-- `WINDOW_SECONDS` -/
def windowSeconds : ℤ := 60

/-- A table with more keys is purged. -/
def maxKeys : Nat := 10000

/-- `_counts` of a `_Window`: the window and the count of each client. -/
abbrev Counts := OrderedDict String (ℤ × Nat)

/-- `int(now // WINDOW_SECONDS)` -/
def windowOf (now : ℚ) : ℤ := ⌊now / windowSeconds⌋

/-- `WINDOW_SECONDS - int(now % WINDOW_SECONDS)` -/
def resetIn (now : ℚ) : ℤ := windowSeconds - ⌊now - windowOf now * windowSeconds⌋

/-- `_Window.hit`: whether the request is allowed, and the seconds until the window resets. -/
def hit (counts : Counts) (key : String) (limit : ℤ) (now : ℚ) : Counts × (Bool × ℤ) :=
  let window := windowOf now
  let (currentWindow, count) := (counts.get key).getD (window, 0)
  let (currentWindow, count) :=
    if currentWindow ≠ window then (window, 0) else (currentWindow, count)
  let count := count + 1
  let counts := counts.assign key (currentWindow, count)
  let counts :=
    if maxKeys < counts.size then counts.filterValues fun v => v.1 = window else counts
  (counts, (decide ((count : ℤ) ≤ limit), resetIn now))

/-! ## The middleware -/

inductive Bucket where
  | execution
  | general
  deriving DecidableEq

def Bucket.name : Bucket → String
  | .execution => "execution"
  | .general => "general"

/-- `s.endswith(end)` -/
def endsWith (s tail : String) : Bool := tail.toList.isSuffixOf s.toList

/-- `_is_execution` -/
def isExecution (path method : String) : Bool :=
  if contains path "/run" || contains path "/poll" || endsWith path "/query/preview" then true
  else if endsWith path "/test" then true
  else if endsWith path "/flagged/refresh" then true
  else if contains path "/queries" && (method = "POST" || method = "PUT") then
    !(endsWith path "/flag-rules" || endsWith path "/flag-dismissals")
  else false

/-- What is read of a request; `now` is its `time.time()`. -/
structure Request where
  path : String
  method : String
  /-- The `authorization` header, empty if there is none. -/
  authorization : String
  /-- The `x-forwarded-for` header. -/
  forwarded : Option String
  /-- `request.client.host` -/
  host : Option String
  now : ℚ

/-- `client_key` -/
def clientKey (u : Unicode) (sha256Hex : Sha256Hex) (r : Request) : String :=
  let header := r.authorization.toList
  let scheme := String.ofList (header.takeWhile (· ≠ ' '))
  let credential := strip u (String.ofList ((header.dropWhile (· ≠ ' ')).drop 1))
  if u.lower scheme = "bearer" ∧ credential ≠ "" then
    "session:" ++ String.ofList ((sha256Hex credential.toUTF8).toList.take 32)
  else
    match r.forwarded.filter (· ≠ "") with
    | some forwarded => "ip:" ++ strip u (String.ofList (forwarded.toList.takeWhile (· ≠ ',')))
    | none => "ip:" ++ r.host.getD "unknown"

def Request.bucket (r : Request) : Bucket :=
  if isExecution r.path r.method then .execution else .general

/-- The answer to a request over the budget, with its `Retry-After`. -/
def refusal (limit : ℤ) (bucket : Bucket) (resetIn : ℤ) : AppError × ℤ :=
  (⟨.rateLimited,
    "Rate limit of " ++ toString limit ++ " requests per minute exceeded. Retry in " ++
      toString resetIn ++ "s.",
    [("limit_per_minute", .ofInt limit), ("bucket", .str bucket.name),
      ("retry_after_s", .ofInt resetIn)]⟩, resetIn)

/-- `RateLimitMiddleware.dispatch`: `none` if the request is passed on. `limits` are
`rate_limit_execution_per_minute` and `rate_limit_per_minute`. -/
def dispatch (u : Unicode) (sha256Hex : Sha256Hex) (limits : Bucket → ℤ) (tables : Bucket → Counts)
    (r : Request) : (Bucket → Counts) × Option (AppError × ℤ) :=
  let limit := limits r.bucket
  if limit ≤ 0 then (tables, none)
  else
    let (counts, allowed, resetIn) := hit (tables r.bucket) (clientKey u sha256Hex r) limit r.now
    (Function.update tables r.bucket counts,
      if allowed then none else some (refusal limit r.bucket resetIn))

/-! ## Hits -/

/-- A request at a bucket: the client, and the time that it was stamped with. -/
structure Hit where
  key : String
  now : ℚ

def Hit.window (h : Hit) : ℤ := windowOf h.now

/-- The hit is the client's, and stamped in the window. -/
def Hit.In (h : Hit) (key : String) (window : ℤ) : Prop := h.key = key ∧ h.window = window

instance (h : Hit) (key : String) (window : ℤ) : Decidable (h.In key window) :=
  inferInstanceAs (Decidable (_ ∧ _))

/-- The table after a hit. -/
def after (limit : ℤ) (counts : Counts) (h : Hit) : Counts := (hit counts h.key limit h.now).1

/-- The table after hits, in the order in which they take the lock. -/
def tableAfter (limit : ℤ) (hits : List Hit) : Counts := hits.foldl (after limit) .empty

/-- Each hit with whether it is allowed. -/
def records (limit : ℤ) (counts : Counts) : List Hit → List (Hit × Bool)
  | [] => []
  | h :: hits =>
    (h, (hit counts h.key limit h.now).2.1) :: records limit (after limit counts h) hits

/-- Which hits of a client that are stamped in a window are allowed, in order. -/
def outcomes (limit : ℤ) (hits : List Hit) (key : String) (window : ℤ) : List Bool :=
  ((records limit .empty hits).filter fun r => r.1.In key window).map Prod.snd

/-! ## The meter of a client's window -/

/-- What an entry counts for a window. -/
def heldOf (entry : Option (ℤ × Nat)) (window : ℤ) : Nat :=
  match entry with
  | none => 0
  | some (current, count) => if current = window then count else 0

/-- The count that is held for a client in a window. -/
def held (counts : Counts) (key : String) (window : ℤ) : Nat := heldOf (counts.get key) window

/-- The table has too many keys with this one. -/
def TooMany (counts : Counts) (key : String) : Prop :=
  maxKeys < counts.size + if (counts.get key).isSome then 0 else 1

instance (counts : Counts) (key : String) : Decidable (TooMany counts key) :=
  inferInstanceAs (Decidable (_ < _))

/-- The hit restarts the count of the client in the window: it is stamped in another window, and is
the client's own or made on a table with too many keys. -/
def Restarts (counts : Counts) (h : Hit) (key : String) (window : ℤ) : Prop :=
  h.window ≠ window ∧ (h.key = key ∨ TooMany counts h.key)

instance (counts : Counts) (h : Hit) (key : String) (window : ℤ) :
    Decidable (Restarts counts h key window) :=
  inferInstanceAs (Decidable (_ ∧ _))

/-- The hit, for the meter. -/
def eventOf (counts : Counts) (h : Hit) (key : String) (window : ℤ) : Meter.Event :=
  if h.In key window then .spend
  else if Restarts counts h key window then .restart
  else .idle

/-- The hits, for the meter. -/
def events (limit : ℤ) (counts : Counts) (key : String) (window : ℤ) :
    List Hit → List Meter.Event
  | [] => []
  | h :: hits =>
    eventOf counts h key window :: events limit (after limit counts h) key window hits

section Metered

variable {limit : ℤ} {counts : Counts} {h : Hit} {hits : List Hit} {key : String} {window : ℤ}

theorem held_eq {current : ℤ} {count : Nat}
    (h : (counts.get key).getD (window, 0) = (current, count)) :
    held counts key window = if current = window then count else 0 := by
  unfold held
  cases hget : counts.get key with
  | none =>
    rw [hget] at h
    cases h
    simp [heldOf]
  | some entry =>
    rw [hget] at h
    cases h
    rfl

/-- The purge keeps the entries of its window. -/
theorem heldOf_filter_self (entry : Option (ℤ × Nat)) (window : ℤ) :
    heldOf (entry.filter fun v => v.1 = window) window = heldOf entry window := by
  cases entry with
  | none => rfl
  | some v =>
    rw [Option.filter_some]
    by_cases hsame : v.1 = window
    · simp [hsame]
    · simp [heldOf, hsame]

/-- And no others. -/
theorem heldOf_filter_of_ne (entry : Option (ℤ × Nat)) {current : ℤ} (h : current ≠ window) :
    heldOf (entry.filter fun v => v.1 = current) window = 0 := by
  cases entry with
  | none => rfl
  | some v =>
    rw [Option.filter_some]
    by_cases hsame : v.1 = current
    · simp [heldOf, hsame, h]
    · simp [heldOf, hsame]

theorem tooMany_iff (v : ℤ × Nat) :
    maxKeys < (counts.assign key v).size ↔ TooMany counts key := by
  rw [OrderedDict.size_assign]
  rfl

/-- What a hit does. -/
theorem hit_eq (counts : Counts) (key : String) (limit : ℤ) (now : ℚ) :
    hit counts key limit now =
      (if TooMany counts key then
          (counts.assign key (windowOf now, held counts key (windowOf now) + 1)).filterValues
            fun v => v.1 = windowOf now
        else counts.assign key (windowOf now, held counts key (windowOf now) + 1),
        (decide (((held counts key (windowOf now) + 1 : Nat) : ℤ) ≤ limit), resetIn now)) := by
  obtain ⟨⟨current, count⟩, hentry⟩ : ∃ entry, (counts.get key).getD (windowOf now, 0) = entry :=
    ⟨_, rfl⟩
  have hheld := held_eq hentry
  unfold hit
  by_cases hsame : current = windowOf now
  · rw [if_pos hsame] at hheld
    simp [hentry, hsame, hheld, tooMany_iff]
  · rw [if_neg hsame] at hheld
    simp [hentry, hsame, hheld, tooMany_iff]

/-- The entry of a client after a hit. -/
theorem get_after (limit : ℤ) (counts : Counts) (h : Hit) (key : String) :
    (after limit counts h).get key =
      if h.key = key then some (h.window, held counts key h.window + 1)
      else if TooMany counts h.key then
        (counts.get key).filter fun v => v.1 = h.window
      else counts.get key := by
  unfold after
  rw [hit_eq]
  change (if _ then _ else _ : Counts).get key = _
  by_cases hkey : h.key = key
  · subst hkey
    rw [if_pos rfl]
    split
    · rw [OrderedDict.get_filterValues, OrderedDict.get_assign, if_pos rfl]
      simp [Option.filter, Hit.window]
    · rw [OrderedDict.get_assign, if_pos rfl]
      rfl
  · rw [if_neg hkey]
    split
    · rw [OrderedDict.get_filterValues, OrderedDict.get_assign, if_neg (Ne.symm hkey)]
      rfl
    · rw [OrderedDict.get_assign, if_neg (Ne.symm hkey)]

/-- **One hit** moves the meter by its event. -/
theorem held_after (limit : ℤ) (counts : Counts) (h : Hit) (key : String) (window : ℤ) :
    held (after limit counts h) key window =
      Meter.reading (held counts key window) [eventOf counts h key window] := by
  unfold held eventOf Restarts Hit.In
  rw [get_after]
  by_cases hwindow : h.window = window
  · subst hwindow
    by_cases hkey : h.key = key
    · simp [hkey, heldOf, held, Meter.reading]
    · by_cases hmany : TooMany counts h.key
      · simp [hkey, hmany, heldOf_filter_self, Meter.reading]
      · simp [hkey, hmany, Meter.reading]
  · by_cases hkey : h.key = key
    · simp [hkey, hwindow, heldOf, Meter.reading]
    · by_cases hmany : TooMany counts h.key
      · simp [hkey, hwindow, hmany, heldOf_filter_of_ne _ hwindow, Meter.reading]
      · simp [hkey, hwindow, hmany, Meter.reading]

theorem allowed_hit (limit : ℤ) (counts : Counts) (h : Hit) :
    (hit counts h.key limit h.now).2.1 = decide (held counts h.key h.window + 1 ≤ limit.toNat) := by
  rw [hit_eq]
  change decide _ = decide _
  rw [decide_eq_decide]
  change ((held counts h.key h.window + 1 : Nat) : ℤ) ≤ limit ↔ _
  omega

/-- **The outcomes are the meter's grants.** -/
theorem outcomes_eq_grants (limit : ℤ) (counts : Counts) (hits : List Hit) (key : String)
    (window : ℤ) :
    ((records limit counts hits).filter fun r => r.1.In key window).map Prod.snd =
      Meter.grants limit.toNat (held counts key window) (events limit counts key window hits) := by
  induction hits generalizing counts with
  | nil => rfl
  | cons h hits ih =>
    have hrest := ih (after limit counts h)
    rw [held_after] at hrest
    rw [records, events]
    by_cases hin : h.In key window
    · have hevent : eventOf counts h key window = .spend := if_pos hin
      obtain ⟨rfl, rfl⟩ := hin
      rw [List.filter_cons_of_pos (by simp [Hit.In]), List.map_cons, hevent, Meter.grants,
        allowed_hit]
      rw [hevent] at hrest
      exact congrArg _ hrest
    · rw [List.filter_cons_of_neg (by simpa using hin), hrest]
      unfold eventOf
      rw [if_neg hin]
      split
      · rfl
      · rfl

/-- The hits of a client in a window. -/
theorem spends_events (limit : ℤ) (counts : Counts) (hits : List Hit) (key : String) (window : ℤ) :
    Meter.spends (events limit counts key window hits) = hits.countP fun h => h.In key window := by
  induction hits generalizing counts with
  | nil => rfl
  | cons h hits ih =>
    rw [events, List.countP_cons, ← ih (after limit counts h)]
    unfold eventOf
    by_cases hin : h.In key window
    · simp [hin]
    · rw [if_neg hin]
      split
      · simp [hin]
      · simp [hin]

theorem eventOf_eq_restart :
    eventOf counts h key window = .restart ↔ Restarts counts h key window := by
  unfold eventOf
  constructor
  · intro hevent
    split at hevent
    · cases hevent
    · split at hevent
      next hrestarts => exact hrestarts
      · cases hevent
  · intro hrestarts
    rw [if_neg fun hin => hrestarts.1 hin.2, if_pos hrestarts]

theorem spend_mem_events (limit : ℤ) (counts : Counts) (hits : List Hit) (key : String)
    (window : ℤ) :
    .spend ∈ events limit counts key window hits ↔ ∃ x ∈ hits, x.In key window := by
  rw [← Meter.spends_pos, spends_events, List.countP_pos_iff]
  simp only [decide_eq_true_eq]

theorem events_append (limit : ℤ) (counts : Counts) (before later : List Hit) (key : String)
    (window : ℤ) :
    events limit counts key window (before ++ later) =
      events limit counts key window before ++
        events limit (before.foldl (after limit) counts) key window later := by
  induction before generalizing counts with
  | nil => rfl
  | cons x before ih => exact congrArg _ (ih (after limit counts x))

/-- An event is a hit's. -/
theorem exists_hit_of_events {es fs : List Meter.Event} {e : Meter.Event}
    (heq : events limit counts key window hits = es ++ e :: fs) :
    ∃ before h later, hits = before ++ h :: later ∧
      events limit counts key window before = es ∧
      eventOf (before.foldl (after limit) counts) h key window = e ∧
      events limit (after limit (before.foldl (after limit) counts) h) key window later = fs := by
  induction es generalizing counts hits with
  | nil =>
    cases hits with
    | nil => cases heq
    | cons h hits =>
      obtain ⟨he, hfs⟩ := List.cons.inj heq
      exact ⟨[], h, hits, rfl, rfl, he, hfs⟩
  | cons e' es ih =>
    cases hits with
    | nil => cases heq
    | cons x hits =>
      obtain ⟨rfl, hrest⟩ := List.cons.inj heq
      obtain ⟨before, h, later, rfl, hes, he, hfs⟩ := ih hrest
      exact ⟨x :: before, h, later, rfl, congrArg _ hes, he, hfs⟩

end Metered

/-! ## The budget -/

/-- The count of the client in the window is restarted between two of its hits. -/
def CutShort (limit : ℤ) (hits : List Hit) (key : String) (window : ℤ) : Prop :=
  ∃ before h later, hits = before ++ h :: later ∧ (∃ x ∈ before, x.In key window) ∧
    (∃ x ∈ later, x.In key window) ∧ Restarts (tableAfter limit before) h key window

/-- What is promised of the hits at one bucket. -/
structure Budget (limit : ℤ) (hits : List Hit) : Prop where
  /-- No more hits are allowed in a window than the limit. -/
  bounded : ∀ key window, ((outcomes limit hits key window).count true : ℤ) ≤ limit
  /-- No hit changes the outcome for another client within its window. -/
  independent : ∀ before h later, hits = before ++ h :: later → ∀ key, key ≠ h.key →
    outcomes limit (before ++ later) key h.window = outcomes limit hits key h.window

/-- A client that makes more hits in a window than the limit has its count there kept from the first
of them to the last one: in these hits, and in these but one of another client in the window. -/
structure Kept (limit : ℤ) (hits : List Hit) : Prop where
  all : ∀ key window, limit < hits.countP (fun h => h.In key window) →
    ¬CutShort limit hits key window
  others : ∀ before h later, hits = before ++ h :: later → ∀ key, key ≠ h.key →
    limit < hits.countP (fun x => x.In key h.window) →
      ¬CutShort limit (before ++ later) key h.window

section Budgets

variable {limit : ℤ} {hits : List Hit} {key : String} {window : ℤ}

theorem cut_events_iff (limit : ℤ) (hits : List Hit) (key : String) (window : ℤ) :
    Meter.Cut (events limit .empty key window hits) ↔ CutShort limit hits key window := by
  constructor
  · rintro ⟨es, fs, heq, hes, hfs⟩
    obtain ⟨before, h, later, hhits, rfl, he, rfl⟩ := exists_hit_of_events heq
    exact ⟨before, h, later, hhits, (spend_mem_events _ _ _ _ _).mp hes,
      (spend_mem_events _ _ _ _ _).mp hfs, eventOf_eq_restart.mp he⟩
  · rintro ⟨before, h, later, rfl, hbefore, hlater, hrestarts⟩
    refine ⟨_, _, ?_, (spend_mem_events limit .empty before key window).mpr hbefore,
      (spend_mem_events limit (after limit (tableAfter limit before) h) later key window).mpr
        hlater⟩
    rw [events_append, events]
    exact congrArg _ (congrArg (· :: _) (eventOf_eq_restart.mpr hrestarts))

theorem outcomes_eq (limit : ℤ) (hits : List Hit) (key : String) (window : ℤ) :
    outcomes limit hits key window =
      Meter.grants limit.toNat 0 (events limit .empty key window hits) :=
  outcomes_eq_grants limit .empty hits key window

/-- **One client in one window.** -/
theorem bounded_iff (hlimit : 0 < limit) (hits : List Hit) (key : String) (window : ℤ) :
    ((outcomes limit hits key window).count true : ℤ) ≤ limit ↔
      (limit < hits.countP (fun h => h.In key window) → ¬CutShort limit hits key window) := by
  have hpos : 0 < limit.toNat := by omega
  have hbound := @Meter.count_grants_le_iff _ (events limit .empty key window hits) hpos
  rw [← outcomes_eq, spends_events, cut_events_iff] at hbound
  constructor
  · intro hle hover
    exact hbound.mp (by omega) (by omega)
  · intro h
    have hle := hbound.mpr fun hover => h (by omega)
    omega

/-- Where the count is kept, the hit number `n` is allowed just when `n` is within the limit. -/
theorem outcomes_of_kept (h : limit < hits.countP (fun h => h.In key window) →
    ¬CutShort limit hits key window) (hlimit : 0 < limit) :
    outcomes limit hits key window =
      Meter.plain limit.toNat 0 (hits.countP fun h => h.In key window) := by
  rw [outcomes_eq, Meter.grants_eq_plain, spends_events]
  rw [spends_events, cut_events_iff]
  exact fun hover => h (by omega)

/-- A hit of another client is not counted. -/
theorem countP_without (before later : List Hit) {h : Hit} (hkey : key ≠ h.key) (window : ℤ) :
    (before ++ later).countP (fun x => x.In key window) =
      (before ++ h :: later).countP fun x => x.In key window := by
  have hnot : ¬h.In key window := fun hin => hkey hin.1.symm
  rw [List.countP_append, List.countP_append, List.countP_cons_of_neg (by simpa using hnot)]

end Budgets

/-- **The budget is kept** exactly when the count of each client that goes over it is kept. -/
theorem budget_iff {limit : ℤ} (hlimit : 0 < limit) (hits : List Hit) :
    Budget limit hits ↔ Kept limit hits := by
  constructor
  · rintro ⟨hbounded, hindependent⟩
    refine ⟨fun key window => (bounded_iff hlimit hits key window).mp (hbounded key window), ?_⟩
    rintro before h later rfl key hkey hover
    have hle := hbounded key h.window
    rw [← hindependent before h later rfl key hkey, bounded_iff hlimit] at hle
    rw [countP_without before later hkey] at hle
    exact hle hover
  · rintro ⟨hall, hothers⟩
    refine ⟨fun key window => (bounded_iff hlimit hits key window).mpr (hall key window), ?_⟩
    rintro before h later rfl key hkey
    have hless : limit < (before ++ later).countP (fun x => x.In key h.window) →
        ¬CutShort limit (before ++ later) key h.window := by
      rw [countP_without before later hkey]
      exact hothers before h later rfl key hkey
    rw [outcomes_of_kept hless hlimit, outcomes_of_kept (hall key h.window) hlimit,
      countP_without before later hkey]

/-! ## The requests of a bucket -/

section Dispatch

variable {u : Unicode} {sha256Hex : Sha256Hex} {limits : Bucket → ℤ} {tables : Bucket → Counts}
  {bucket : Bucket}

def Request.hit (u : Unicode) (sha256Hex : Sha256Hex) (r : Request) : Hit :=
  ⟨clientKey u sha256Hex r, r.now⟩

theorem dispatch_own {r : Request} (hlimit : 0 < limits r.bucket) :
    (dispatch u sha256Hex limits tables r).1 r.bucket =
        after (limits r.bucket) (tables r.bucket) (r.hit u sha256Hex) ∧
      (dispatch u sha256Hex limits tables r).2.isNone =
        (hit (tables r.bucket) (clientKey u sha256Hex r) (limits r.bucket) r.now).2.1 := by
  unfold dispatch
  rw [if_neg (Int.not_le.mpr hlimit)]
  refine ⟨Function.update_self _ _ _, ?_⟩
  dsimp only
  split
  next hallowed => exact hallowed.symm
  next hrefused => exact (Bool.eq_false_iff.mpr hrefused).symm

/-- A request of the other bucket leaves the table. -/
theorem dispatch_other {r : Request} (h : bucket ≠ r.bucket) :
    (dispatch u sha256Hex limits tables r).1 bucket = tables bucket := by
  unfold dispatch
  dsimp only
  split
  · rfl
  · exact Function.update_of_ne h _ _

/-- **The requests of a bucket are hits at its table**, whatever requests of the other come between
them: those are passed on that are allowed. -/
theorem passed_eq (hlimit : 0 < limits bucket) (rs : List Request) :
    ((rs.zip (Machine.outputs (dispatch u sha256Hex limits) tables rs)).filter fun p =>
        p.1.bucket = bucket).map (fun p => p.2.isNone) =
      (records (limits bucket) (tables bucket)
        ((rs.filter fun r => r.bucket = bucket).map (Request.hit u sha256Hex))).map Prod.snd := by
  induction rs generalizing tables with
  | nil => rfl
  | cons r rs ih =>
    have hrest := @ih (dispatch u sha256Hex limits tables r).1
    rw [Machine.outputs, List.zip_cons_cons]
    by_cases hbucket : r.bucket = bucket
    · subst hbucket
      obtain ⟨htable, hpassed⟩ := @dispatch_own u sha256Hex limits tables r hlimit
      rw [List.filter_cons_of_pos (by simp), List.filter_cons_of_pos (by simp), List.map_cons,
        List.map_cons, records, List.map_cons, hpassed, hrest, htable]
      rfl
    · rw [List.filter_cons_of_neg (by simpa using hbucket),
        List.filter_cons_of_neg (by simpa using hbucket), hrest,
        dispatch_other (Ne.symm hbucket)]

/-- A limit of zero disables the bucket. -/
theorem dispatch_disabled {r : Request} (h : limits r.bucket ≤ 0) :
    dispatch u sha256Hex limits tables r = (tables, none) := if_pos h

end Dispatch

/-! ## In order and out of it -/

/-- Stamps that reach the table in the order of their windows keep every count. -/
theorem kept_of_ordered (limit : ℤ) {hits : List Hit}
    (h : (hits.map Hit.window).Pairwise (· ≤ ·)) : Kept limit hits := by
  have hnone : ∀ hs : List Hit, (hs.map Hit.window).Pairwise (· ≤ ·) → ∀ key window,
      ¬CutShort limit hs key window := by
    rintro hs hordered key window ⟨before, h, later, rfl, ⟨x, hx, hxin⟩, ⟨y, hy, hyin⟩, hne, -⟩
    rw [List.pairwise_map, List.pairwise_append] at hordered
    obtain ⟨-, hafter, hcross⟩ := hordered
    have hle := hcross x hx h List.mem_cons_self
    have hge := (List.pairwise_cons.mp hafter).1 y hy
    rw [hxin.2] at hle
    rw [hyin.2] at hge
    exact hne (Int.le_antisymm hge hle)
  refine ⟨fun key window _ => hnone hits h key window, ?_⟩
  rintro before x later rfl key - -
  refine hnone _ (h.sublist (List.Sublist.map _ ?_)) key x.window
  exact (List.Sublist.refl before).append (List.sublist_cons_self x later)

namespace Sample

/-- Two hits in a window and one in the next, in order. -/
def ordered : List Hit := [⟨"ip:10.0.0.7", 58⟩, ⟨"ip:10.0.0.7", 59⟩, ⟨"ip:10.0.0.7", 60⟩]

/-- The hit that was stamped first takes the lock between two that were stamped later. -/
def overtaken : List Hit := [⟨"ip:10.0.0.7", 60⟩, ⟨"ip:10.0.0.7", 59⟩, ⟨"ip:10.0.0.7", 60⟩]

end Sample

theorem budget_iff_ordered : (0 : ℤ) < 1 ∧ Budget 1 Sample.ordered :=
  ⟨by decide, (budget_iff (by decide) Sample.ordered).mpr (kept_of_ordered 1 (by decide +kernel))⟩

/-- Two hits are allowed in one window under a limit of one. -/
theorem overtaken_over_budget :
    outcomes 1 Sample.overtaken "ip:10.0.0.7" 1 = [true, true] ∧ ¬Budget 1 Sample.overtaken := by
  have houtcomes : outcomes 1 Sample.overtaken "ip:10.0.0.7" 1 = [true, true] := by decide +kernel
  refine ⟨houtcomes, fun h => ?_⟩
  have hbounded := h.bounded "ip:10.0.0.7" 1
  rw [houtcomes] at hbounded
  exact absurd hbounded (by decide)

end FraudAnalyzer.RateLimit
