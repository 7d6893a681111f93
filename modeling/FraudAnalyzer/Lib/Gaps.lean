import Mathlib.Data.List.Basic

/-!
# Pairs of elements with only a gap between them

`Reaches between P l`: two elements of the list satisfy `P`, and everything between them satisfies
`between`. Dropping elements that may stand in the gap does not change it (`reaches_filter`), so a
search that first drops them finds what a search through them finds.
-/

namespace Gaps

variable {α : Type*} {between between' gap skip : α → Bool} {P Q : α → α → Prop} {l : List α}

/-- Two elements of the list satisfy `P` and everything between them satisfies `between`. -/
def Reaches (between : α → Bool) (P : α → α → Prop) (l : List α) : Prop :=
  ∃ pre a mid b post, l = pre ++ a :: (mid ++ b :: post) ∧ P a b ∧ ∀ m ∈ mid, between m = true

/-- No element may stand between. -/
def noGap : α → Bool := fun _ => false

theorem Reaches.mono (hb : ∀ m, between m = true → between' m = true)
    (hP : ∀ a ∈ l, ∀ b ∈ l, P a b → Q a b) (h : Reaches between P l) : Reaches between' Q l := by
  obtain ⟨pre, a, mid, b, post, rfl, hab, hmid⟩ := h
  exact ⟨pre, a, mid, b, post, rfl, hP a (by simp) b (by simp) hab, fun m hm => hb m (hmid m hm)⟩

theorem not_reaches_nil : ¬ Reaches between P [] := by
  rintro ⟨pre, a, mid, b, post, h, -⟩
  simp at h

/-- The first element is the first of such a pair, or the pair is in the rest. -/
theorem reaches_cons {a : α} :
    Reaches between P (a :: l) ↔
      (∃ mid b post, l = mid ++ b :: post ∧ P a b ∧ ∀ m ∈ mid, between m = true) ∨
        Reaches between P l := by
  constructor
  · rintro ⟨pre, a', mid, b, post, h, hab, hmid⟩
    cases pre with
    | nil =>
      obtain ⟨rfl, rfl⟩ := List.cons.inj h
      exact .inl ⟨mid, b, post, rfl, hab, hmid⟩
    | cons x pre =>
      obtain ⟨rfl, rfl⟩ := List.cons.inj h
      exact .inr ⟨pre, a', mid, b, post, rfl, hab, hmid⟩
  · rintro (⟨mid, b, post, rfl, hab, hmid⟩ | ⟨pre, a', mid, b, post, rfl, hab, hmid⟩)
    · exact ⟨[], a, mid, b, post, rfl, hab, hmid⟩
    · exact ⟨a :: pre, a', mid, b, post, rfl, hab, hmid⟩

/-- With no gap allowed, the first element pairs with the head of the rest. -/
theorem reaches_noGap_cons {a : α} :
    Reaches noGap P (a :: l) ↔ (∃ b ∈ l.head?, P a b) ∨ Reaches noGap P l := by
  rw [reaches_cons]
  refine or_congr_left ⟨?_, ?_⟩
  · rintro ⟨mid, b, post, rfl, hab, hmid⟩
    cases mid with
    | nil => exact ⟨b, by simp, hab⟩
    | cons m mid => exact absurd (hmid m (by simp)) Bool.false_ne_true
  · rintro ⟨b, hb, hab⟩
    cases l with
    | nil => simp at hb
    | cons c post =>
      obtain rfl : c = b := by simpa using hb
      exact ⟨[], c, post, rfl, hab, by simp⟩

/-- **Dropping the gaps**: a pair that may have gap elements between it is a pair of the list
without them. -/
theorem reaches_filter (hP : ∀ a b, P a b → gap a = false ∧ gap b = false) :
    Reaches (fun m => gap m || skip m) P l ↔ Reaches skip P (l.filter fun m => !gap m) := by
  constructor
  · rintro ⟨pre, a, mid, b, post, rfl, hab, hmid⟩
    obtain ⟨ha, hb⟩ := hP a b hab
    refine ⟨pre.filter fun m => !gap m, a, mid.filter fun m => !gap m, b,
      post.filter fun m => !gap m, by simp [ha, hb], hab, fun m hm => ?_⟩
    obtain ⟨hm, hgap⟩ := List.mem_filter.mp hm
    simpa [show gap m = false by simpa using hgap] using hmid m hm
  · rintro ⟨pre, a, mid, b, post, hl, hab, hmid⟩
    obtain ⟨l₁, l₂, rfl, -, h₂⟩ := List.filter_eq_append_iff.mp hl
    obtain ⟨g₁, l₃, rfl, -, -, h₃⟩ := List.filter_eq_cons_iff.mp h₂
    obtain ⟨l₄, l₅, rfl, h₄, h₅⟩ := List.filter_eq_append_iff.mp h₃
    obtain ⟨g₂, l₆, rfl, hg₂, -, -⟩ := List.filter_eq_cons_iff.mp h₅
    refine ⟨l₁ ++ g₁, a, l₄ ++ g₂, b, l₆, by simp, hab, fun m hm => ?_⟩
    rcases List.mem_append.mp hm with hm | hm
    · -- an element before the second one is a gap or was kept
      by_cases hgap : gap m = true
      · simp [hgap]
      · have hkept : m ∈ mid := h₄ ▸ List.mem_filter.mpr ⟨hm, by simp [hgap]⟩
        simp [hmid m hkept]
    · have hgap : gap m = true := by simpa using hg₂ m hm
      simp [hgap]

end Gaps
