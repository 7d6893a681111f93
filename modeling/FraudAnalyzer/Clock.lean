import Mathlib.Order.Basic

/-!
# Two clocks

`app/clock.py`. A reading holds both clocks at one moment, in microseconds.
-/

namespace FraudAnalyzer

/-- `time.monotonic()` and `time.time()` -/
structure Clock where
  mono : Int
  wall : Int
  deriving DecidableEq

/-- `elapsed_ms`, in microseconds: the larger reading, and never negative. -/
def Clock.elapsed (start now : Clock) : Int :=
  max (max (now.mono - start.mono) (now.wall - start.wall)) 0

/-- `int(elapsed_ms(..))` -/
def Clock.elapsedMs (start now : Clock) : Int := start.elapsed now / 1000

namespace Clock

/-- Neither clock went back. -/
structure NotAfter (a b : Clock) : Prop where
  mono : a.mono ≤ b.mono
  wall : a.wall ≤ b.wall

instance (a b : Clock) : Decidable (NotAfter a b) :=
  decidable_of_iff (a.mono ≤ b.mono ∧ a.wall ≤ b.wall)
    ⟨fun h => ⟨h.1, h.2⟩, fun h => ⟨h.mono, h.wall⟩⟩

/-- The moment so many milliseconds later, noted on both clocks. -/
def later (c : Clock) (delayMs : Int) : Clock := ⟨c.mono + 1000 * delayMs, c.wall + 1000 * delayMs⟩

/-- Both clocks have advanced equally. -/
def InStep (a b : Clock) : Prop := b.mono - a.mono = b.wall - a.wall

instance (a b : Clock) : Decidable (InStep a b) := Int.instDecidableEq _ _

/-- Either clock has passed a moment noted on both. -/
def reached (moment now : Clock) : Bool := moment.mono ≤ now.mono || moment.wall ≤ now.wall

variable {a b c now : Clock} {delayMs : Int}

theorem NotAfter.refl (a : Clock) : NotAfter a a := ⟨Int.le_refl _, Int.le_refl _⟩

theorem NotAfter.trans (h : NotAfter a b) (h' : NotAfter b c) : NotAfter a c :=
  ⟨Int.le_trans h.mono h'.mono, Int.le_trans h.wall h'.wall⟩

theorem NotAfter.later (h : NotAfter a b) (hdelay : 0 ≤ delayMs) :
    NotAfter a (b.later delayMs) := by
  obtain ⟨hmono, hwall⟩ := h
  constructor <;>
    simp only [Clock.later] <;> omega

theorem NotAfter.later_later {delayMs' : Int} (h : NotAfter a b) (hdelay : delayMs ≤ delayMs') :
    NotAfter (a.later delayMs) (b.later delayMs') := by
  obtain ⟨hmono, hwall⟩ := h
  constructor <;>
    simp only [Clock.later] <;> omega

theorem InStep.refl (a : Clock) : InStep a a := by
  unfold InStep
  omega

theorem InStep.trans (h : InStep a b) (h' : InStep b c) : InStep a c := by
  unfold InStep at *
  omega

theorem InStep.symm (h : InStep a b) : InStep b a := by
  unfold InStep at *
  omega

theorem InStep.later (h : InStep a b) (delayMs : Int) : InStep a (b.later delayMs) := by
  unfold InStep at *
  simp only [Clock.later]
  omega

/-- Where the clocks advance equally, a moment that either of them has passed is over. -/
theorem notAfter_of_reached (h : a.InStep now) (hreached : a.reached now = true) :
    NotAfter a now := by
  unfold InStep at h
  simp only [reached, Bool.or_eq_true, decide_eq_true_eq] at hreached
  constructor <;> omega

theorem later_notAfter_later_iff {delayMs' : Int} :
    (c.later delayMs).NotAfter (c.later delayMs') ↔ delayMs ≤ delayMs' := by
  constructor
  · rintro ⟨hmono, -⟩
    simp only [later] at hmono
    omega
  · intro h
    constructor <;>
      simp only [later] <;> omega

/-- As time goes by, more has elapsed. -/
theorem elapsedMs_mono (c : Clock) (h : NotAfter a b) : c.elapsedMs a ≤ c.elapsedMs b := by
  unfold elapsedMs
  apply Int.ediv_le_ediv (by decide)
  obtain ⟨hmono, hwall⟩ := h
  unfold elapsed
  omega

/-- And since an earlier moment. -/
theorem elapsedMs_anti (h : NotAfter a b) (now : Clock) : b.elapsedMs now ≤ a.elapsedMs now := by
  unfold elapsedMs
  apply Int.ediv_le_ediv (by decide)
  obtain ⟨hmono, hwall⟩ := h
  unfold elapsed
  omega

/-- A delay that has been waited out has elapsed. -/
theorem le_elapsedMs_of_reached (h : NotAfter (c.later delayMs) a) (hreached : a.reached now) :
    delayMs ≤ c.elapsedMs now := by
  obtain ⟨hmono, hwall⟩ := h
  simp only [reached, Bool.or_eq_true, decide_eq_true_eq] at hreached
  simp only [later] at hmono hwall
  unfold elapsedMs elapsed
  omega

end Clock

end FraudAnalyzer
