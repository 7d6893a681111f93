import FraudAnalyzer.Queries.Pacing
import FraudAnalyzer.Queries.Refresher
import Mathlib.Data.Rat.Floor

/-!
# Whether a limit has elapsed

`app/clock.py`, `CacheEntry.is_fresh`, `_is_due` and `_cooling_down`, at readings of any fineness:
the clocks are in seconds, as the code reads them, and the arithmetic is exact. The three checks
give one verdict. Where both clocks read whole microseconds they are the checks of the caches, the
schedule and the refresher.
-/

namespace FraudAnalyzer.Queries

/-- `time.monotonic()` and `time.time()`, in seconds. -/
structure Reading where
  mono : ℚ
  wall : ℚ
  deriving DecidableEq

/-- `elapsed_ms` -/
def elapsedMs (start now : Reading) : ℚ :=
  max (max ((now.mono - start.mono) * 1000) ((now.wall - start.wall) * 1000)) 0

/-- `int(x)` drops the fraction. -/
def truncate (x : ℚ) : ℤ := if 0 ≤ x then ⌊x⌋ else ⌈x⌉

/-! ## The checks -/

/-- What a `CacheEntry` says of its age. -/
structure EntryAge where
  storedAt : ℚ
  storedWall : ℚ
  ttlMs : ℤ

namespace EntryAge

/-- An entry that is stored now. -/
def stored (now : Reading) (ttlMs : ℤ) : EntryAge := ⟨now.mono, now.wall, ttlMs⟩

/-- `age_ms`; `given` is its `now`. -/
def ageMs (entry : EntryAge) (given : Option ℚ) (now : Reading) : ℤ :=
  match given with
  | some given => truncate ((given - entry.storedAt) * 1000)
  | none => truncate (elapsedMs ⟨entry.storedAt, entry.storedWall⟩ now)

/-- `is_fresh` -/
def isFresh (entry : EntryAge) (given : Option ℚ) (now : Reading) : Bool :=
  entry.ageMs given now < entry.ttlMs

end EntryAge

/-- `_next_due` and `_next_due_wall`, in milliseconds. -/
structure DueTable where
  nextDue : String → Option ℚ
  nextDueWall : String → Option ℚ

namespace DueTable

/-- `_is_due` -/
def isDue (table : DueTable) (queryId : String) (now : Reading) : Bool :=
  if (table.nextDue queryId).getD 0 ≤ now.mono * 1000 then true
  else (table.nextDueWall queryId).any fun wall => wall ≤ now.wall * 1000

/-- `_set_due_in` -/
def setDueIn (table : DueTable) (queryId : String) (delayMs : ℚ) (now : Reading) : DueTable where
  nextDue := Function.update table.nextDue queryId (some (now.mono * 1000 + delayMs))
  nextDueWall := Function.update table.nextDueWall queryId (some (now.wall * 1000 + delayMs))

end DueTable

/-- `_cooldown_until` and `_cooldown_wall`, in seconds. -/
structure CooldownTable where
  cooldownUntil : String → Option ℚ
  cooldownWall : String → Option ℚ

namespace CooldownTable

/-- `_cooling_down` -/
def coolingDown (table : CooldownTable) (queryId : String) (now : Reading) : Bool :=
  match table.cooldownUntil queryId with
  | none => false
  | some until_ =>
    if until_ ≤ now.mono then false
    else (table.cooldownWall queryId).all fun wallUntil => now.wall < wallUntil

/-- `_hold_off` -/
def holdOff (table : CooldownTable) (queryId : String) (intervalMs : ℤ) (now : Reading) :
    CooldownTable :=
  let holdS : ℚ := (max intervalMs 1 : ℤ) / 1000
  ⟨Function.update table.cooldownUntil queryId (some (now.mono + holdS)),
    Function.update table.cooldownWall queryId (some (now.wall + holdS))⟩

end CooldownTable

/-! ## One verdict -/

/-- By the larger of the two elapsed times. -/
def LimitElapsed (start now : Reading) (limitMs : ℤ) : Prop :=
  limitMs ≤ max ((now.mono - start.mono) * 1000) ((now.wall - start.wall) * 1000)

instance (start now : Reading) (limitMs : ℤ) : Decidable (LimitElapsed start now limitMs) :=
  inferInstanceAs (Decidable (_ ≤ _))

section Verdict

variable {start now : Reading} {limitMs : ℤ}

theorem limitElapsed_iff :
    LimitElapsed start now limitMs ↔
      start.mono * 1000 + limitMs ≤ now.mono * 1000 ∨
        start.wall * 1000 + limitMs ≤ now.wall * 1000 := by
  unfold LimitElapsed
  rw [le_max_iff, sub_mul, sub_mul, le_sub_iff_add_le', le_sub_iff_add_le']

/-- Dropping the fraction of a time does not decide whether a whole limit is reached. -/
theorem truncate_lt_iff {x : ℚ} (hx : 0 ≤ x) : truncate x < limitMs ↔ x < limitMs := by
  rw [truncate, if_pos hx, Int.floor_lt]

theorem elapsedMs_nonneg (start now : Reading) : 0 ≤ elapsedMs start now := le_max_right _ _

theorem elapsedMs_lt_iff (hlimit : 0 < limitMs) :
    elapsedMs start now < limitMs ↔ ¬LimitElapsed start now limitMs := by
  have hpos : (0 : ℚ) < limitMs := by exact_mod_cast hlimit
  unfold elapsedMs LimitElapsed
  rw [max_lt_iff, not_le]
  exact ⟨fun h => h.1, fun h => ⟨h, hpos⟩⟩

theorem isFresh_stored (hlimit : 0 < limitMs) :
    (EntryAge.stored start limitMs).isFresh none now = true ↔ ¬LimitElapsed start now limitMs := by
  rw [EntryAge.isFresh, decide_eq_true_eq]
  exact (truncate_lt_iff (elapsedMs_nonneg _ _)).trans (elapsedMs_lt_iff hlimit)

theorem isDue_setDueIn (table : DueTable) (queryId : String) :
    (table.setDueIn queryId limitMs start).isDue queryId now = true ↔
      LimitElapsed start now limitMs := by
  rw [limitElapsed_iff]
  simp only [DueTable.isDue, DueTable.setDueIn, Function.update_self, Option.getD_some,
    Option.any_some]
  split
  next hmono => simp [hmono]
  next hmono => simp [hmono]

theorem coolingDown_holdOff (table : CooldownTable) (queryId : String) (hlimit : 0 < limitMs) :
    (table.holdOff queryId limitMs start).coolingDown queryId now = true ↔
      ¬LimitElapsed start now limitMs := by
  have hmax : max limitMs 1 = limitMs := max_eq_left hlimit
  have hscale : ∀ s n : ℚ, s + limitMs / 1000 ≤ n ↔ s * 1000 + limitMs ≤ n * 1000 := by
    intro s n
    constructor <;>
      intro h <;> linarith
  rw [limitElapsed_iff, ← hscale, ← hscale]
  simp only [CooldownTable.coolingDown, CooldownTable.holdOff, Function.update_self, hmax,
    Option.all_some]
  split
  next hmono => simp [hmono]
  next hmono => simp [hmono]

end Verdict

/-- The checks of a wait of `limitMs` that began at `start`, whatever the tables held before. -/
structure ChecksAgree (start now : Reading) (limitMs : ℤ) : Prop where
  entry : (EntryAge.stored start limitMs).isFresh none now = true ↔
    ¬LimitElapsed start now limitMs
  schedule : ∀ (table : DueTable) (queryId : String),
    (table.setDueIn queryId limitMs start).isDue queryId now = true ↔
      LimitElapsed start now limitMs
  refresher : ∀ (table : CooldownTable) (queryId : String),
    (table.holdOff queryId limitMs start).coolingDown queryId now = true ↔
      ¬LimitElapsed start now limitMs

theorem checksAgree (start now : Reading) {limitMs : ℤ} (hlimit : 0 < limitMs) :
    ChecksAgree start now limitMs where
  entry := isFresh_stored hlimit
  schedule := isDue_setDueIn
  refresher table queryId := coolingDown_holdOff table queryId hlimit

namespace Sample

/-- The machine has slept for a minute, and its monotonic clock with it. -/
theorem checksAgree_asleep :
    0 < 60000 ∧ LimitElapsed ⟨100, 5000⟩ ⟨100, 5060⟩ 60000 ∧
      ¬LimitElapsed ⟨100, 5000⟩ ⟨100, 5060⟩ 60001 ∧
      ChecksAgree ⟨100, 5000⟩ ⟨100, 5060⟩ 60000 ∧ ChecksAgree ⟨100, 5000⟩ ⟨100, 5060⟩ 60001 := by
  refine ⟨by decide, ?_, ?_, checksAgree _ _ (by decide), checksAgree _ _ (by decide)⟩
  · norm_num [LimitElapsed]
  · norm_num [LimitElapsed]

end Sample

/-! ## Clocks of whole microseconds -/

/-- Both clocks in seconds. -/
def Reading.ofClock (c : Clock) : Reading := ⟨c.mono / 1000000, c.wall / 1000000⟩

def EntryAge.ofEntry {P : Type} (entry : CacheEntry P) : EntryAge :=
  .stored (.ofClock entry.stored) entry.ttlMs

def DueTable.ofSchedule {P : Type} (s : Pacing.Schedule P) : DueTable where
  nextDue queryId := (s.nextDue queryId).map fun due => (due.mono : ℚ) / 1000
  nextDueWall queryId := (s.nextDue queryId).map fun due => (due.wall : ℚ) / 1000

def CooldownTable.ofRefresher (s : Refreshing.Refresher) : CooldownTable where
  cooldownUntil queryId := (s.cooldownUntil queryId).map fun until_ : ℤ => (until_ : ℚ) / 1000000
  cooldownWall queryId := (s.cooldownWall queryId).map fun until_ : ℤ => (until_ : ℚ) / 1000000

section Microseconds

variable {P : Type} {start now : Clock}

/-- Reading a table through `f` after a moment was noted in it. -/
theorem map_update {A : Type} (f : A → ℚ) (table : String → Option A) (queryId : String) (a : A) :
    (fun id => (Function.update table queryId (some a) id).map f) =
      Function.update (fun id => (table id).map f) queryId (some (f a)) := by
  funext id
  by_cases hid : id = queryId
  · subst hid
    simp
  · simp [hid]

theorem elapsedMs_ofClock :
    elapsedMs (.ofClock start) (.ofClock now) = (start.elapsed now : ℚ) / (1000 : ℕ) := by
  have hscale : ∀ a b : ℤ, ((a : ℚ) / 1000000 - b / 1000000) * 1000 = ((a - b : ℤ) : ℚ) / 1000 := by
    intro a b
    push_cast
    ring
  have hzero : (0 : ℚ) = ((0 : ℤ) : ℚ) / 1000 := by norm_num
  simp only [elapsedMs, Reading.ofClock, Clock.elapsed, hscale, Nat.cast_ofNat]
  rw [hzero, max_div_div_right (by norm_num), max_div_div_right (by norm_num), ← Int.cast_max,
    ← Int.cast_max]

theorem truncate_elapsedMs :
    truncate (elapsedMs (.ofClock start) (.ofClock now)) = start.elapsedMs now := by
  rw [truncate, if_pos (elapsedMs_nonneg _ _), elapsedMs_ofClock, Rat.floor_intCast_div_natCast]
  rfl

theorem isFresh_ofEntry (entry : CacheEntry P) :
    (EntryAge.ofEntry entry).isFresh none (.ofClock now) = entry.isFresh now := by
  unfold EntryAge.isFresh CacheEntry.isFresh CacheEntry.ageMs
  rw [← truncate_elapsedMs]
  rfl

/-- A moment in the table is in milliseconds. -/
theorem div_le_ofClock {a b : ℤ} : (a : ℚ) / 1000 ≤ (b : ℚ) / 1000000 * 1000 ↔ a ≤ b := by
  have h : (b : ℚ) / 1000000 * 1000 = b / 1000 := by ring
  rw [h, div_le_div_iff_of_pos_right (by norm_num), Int.cast_le]

/-- `time.monotonic()` counts from a moment before the program was started. -/
theorem isDue_ofSchedule (s : Pacing.Schedule P) (queryId : String) (hmono : 0 ≤ s.now.mono) :
    (DueTable.ofSchedule s).isDue queryId (.ofClock s.now) = s.isDue queryId := by
  unfold Pacing.Schedule.isDue DueTable.isDue
  cases hdue : s.nextDue queryId with
  | none =>
    have hpos : (0 : ℚ) ≤ (s.now.mono : ℚ) / 1000000 * 1000 := by positivity
    simp [DueTable.ofSchedule, hdue, Reading.ofClock, hpos]
  | some due =>
    simp only [DueTable.ofSchedule, hdue, Reading.ofClock, Option.map_some, Option.getD_some,
      Option.any_some, div_le_ofClock, Clock.reached]
    split
    next hpast => simp [hpast]
    next hfuture => simp [hfuture]

theorem ofSchedule_setDueIn (s : Pacing.Schedule P) (queryId : String) (delayMs : ℤ) :
    DueTable.ofSchedule (s.setDueIn queryId delayMs) =
      (DueTable.ofSchedule s).setDueIn queryId delayMs (.ofClock s.now) := by
  have hscale : ∀ a : ℤ, ((a + 1000 * delayMs : ℤ) : ℚ) / 1000 = a / 1000000 * 1000 + delayMs := by
    intro a
    push_cast
    ring
  simp only [DueTable.ofSchedule, DueTable.setDueIn, Pacing.Schedule.setDueIn, map_update,
    Clock.later, Reading.ofClock, hscale]

theorem coolingDown_ofRefresher (s : Refreshing.Refresher) (queryId : String) :
    (CooldownTable.ofRefresher s).coolingDown queryId (.ofClock s.now) = s.coolingDown queryId := by
  have hle : ∀ a b : ℤ, (a : ℚ) / 1000000 ≤ b / 1000000 ↔ a ≤ b := by
    intro a b
    rw [div_le_div_iff_of_pos_right (by norm_num), Int.cast_le]
  have hlt : ∀ a b : ℤ, (a : ℚ) / 1000000 < b / 1000000 ↔ a < b := by
    intro a b
    rw [div_lt_div_iff_of_pos_right (by norm_num), Int.cast_lt]
  unfold Refreshing.Refresher.coolingDown CooldownTable.coolingDown
  cases huntil : s.cooldownUntil queryId with
  | none => simp [CooldownTable.ofRefresher, huntil]
  | some until_ =>
    cases hwall : s.cooldownWall queryId with
    | none => simp [CooldownTable.ofRefresher, huntil, hwall, Reading.ofClock, hle]
    | some wallUntil =>
      simp [CooldownTable.ofRefresher, huntil, hwall, Reading.ofClock, hle, hlt]

theorem ofRefresher_holdOff (s : Refreshing.Refresher) (queryId : String) (intervalMs : ℤ) :
    CooldownTable.ofRefresher (s.holdOff queryId intervalMs) =
      (CooldownTable.ofRefresher s).holdOff queryId intervalMs (.ofClock s.now) := by
  have hscale : ∀ a : ℤ, ((a + 1000 * max intervalMs 1 : ℤ) : ℚ) / 1000000 =
      a / 1000000 + (max intervalMs 1 : ℤ) / 1000 := by
    intro a
    push_cast
    ring
  simp only [CooldownTable.ofRefresher, CooldownTable.holdOff, Refreshing.Refresher.holdOff,
    map_update, Clock.later, Reading.ofClock, hscale]

end Microseconds

end FraudAnalyzer.Queries
