import FraudAnalyzer.Lib.Table
import Mathlib.Data.List.Sort

/-!
# Agreement apart from what is hidden

Two lists agree when the elements that are shown are the same ones, in the same order. A computation
that drops every hidden element then gives the same result for both, whether it filters, maps or
searches.
-/

def AgreeOn {α : Type} (shown : α → Bool) (l l' : List α) : Prop := l.filter shown = l'.filter shown

namespace AgreeOn

variable {α β : Type} {shown : α → Bool} {l l' : List α}

theorem symm (h : AgreeOn shown l l') : AgreeOn shown l' l := Eq.symm h

theorem mem_iff (h : AgreeOn shown l l') {a : α} (ha : shown a = true) : a ∈ l ↔ a ∈ l' := by
  have hfilter : a ∈ l.filter shown ↔ a ∈ l'.filter shown := by rw [show l.filter shown = _ from h]
  simpa [ha] using hfilter

/-- What a partial function keeps of lists that agree. -/
theorem filterMap (h : AgreeOn shown l l') {f f' : α → Option β}
    (hf : ∀ a ∈ l, shown a = false → f a = none) (hf' : ∀ a ∈ l', shown a = false → f' a = none)
    (hsame : ∀ a ∈ l, shown a = true → f a = f' a) : l.filterMap f = l'.filterMap f' := by
  have hdrop : ∀ (k : List α) (g : α → Option β), (∀ a ∈ k, shown a = false → g a = none) →
      k.filterMap g = (k.filter shown).filterMap g := by
    intro k g hg
    rw [List.filterMap_filter]
    refine List.filterMap_congr fun a ha => ?_
    cases hshown : shown a with
    | true => rfl
    | false => simp [hg a ha hshown]
  rw [hdrop l f hf, hdrop l' f' hf', ← show l.filter shown = _ from h]
  refine List.filterMap_congr fun a ha => ?_
  exact hsame a (List.mem_filter.mp ha).1 (List.mem_filter.mp ha).2

theorem filter (h : AgreeOn shown l l') {p p' : α → Bool}
    (hp : ∀ a ∈ l, shown a = false → p a = false) (hp' : ∀ a ∈ l', shown a = false → p' a = false)
    (hsame : ∀ a ∈ l, shown a = true → p a = p' a) : l.filter p = l'.filter p' := by
  rw [← List.filterMap_eq_filter, ← List.filterMap_eq_filter]
  refine h.filterMap ?_ ?_ ?_
  · intro a ha hshown
    simp [Option.guard, hp a ha hshown]
  · intro a ha hshown
    simp [Option.guard, hp' a ha hshown]
  · intro a ha hshown
    simp only [Option.guard, hsame a ha hshown]

theorem any (h : AgreeOn shown l l') {p p' : α → Bool}
    (hp : ∀ a ∈ l, shown a = false → p a = false) (hp' : ∀ a ∈ l', shown a = false → p' a = false)
    (hsame : ∀ a ∈ l, shown a = true → p a = p' a) : l.any p = l'.any p' := by
  have hfilter := h.filter hp hp' hsame
  rw [Bool.eq_iff_iff, List.any_eq_true, List.any_eq_true]
  have hmem : ∀ a, (a ∈ l ∧ p a = true) ↔ (a ∈ l' ∧ p' a = true) := by
    intro a
    rw [← List.mem_filter, ← List.mem_filter, hfilter]
  simp only [hmem]

/-! What is done to both alike leaves them in agreement. -/

theorem keep (h : AgreeOn shown l l') (p : α → Bool) :
    AgreeOn shown (l.filter p) (l'.filter p) := by
  unfold AgreeOn at h ⊢
  rw [List.filter_filter, List.filter_filter]
  simp only [Bool.and_comm (shown _)]
  rw [← List.filter_filter, h, List.filter_filter]

theorem append (h : AgreeOn shown l l') (k : List α) : AgreeOn shown (l ++ k) (l' ++ k) := by
  unfold AgreeOn at h ⊢
  rw [List.filter_append, List.filter_append, h]

theorem congr (h : AgreeOn shown l l') {shown' : α → Bool} (hl : ∀ a ∈ l, shown' a = shown a)
    (hl' : ∀ a ∈ l', shown' a = shown a) : AgreeOn shown' l l' := by
  unfold AgreeOn at h ⊢
  rw [List.filter_congr hl, List.filter_congr hl', h]

theorem map (h : AgreeOn shown l l') {f : α → α} (hf : ∀ a, shown (f a) = shown a) :
    AgreeOn shown (l.map f) (l'.map f) := by
  have hcomp : shown ∘ f = shown := funext hf
  unfold AgreeOn at h ⊢
  rw [List.filter_map, List.filter_map, hcomp, h]

/-- Tables that agree have the same row under a key that is shown. -/
theorem get {ρ κ : Type} [DecidableEq κ] {key : ρ → κ} {shown : κ → Bool} {t t' : Table key}
    (h : AgreeOn (fun r => shown (key r)) t.rows t'.rows) {k : κ} (hk : shown k = true) :
    t.get k = t'.get k := by
  ext r
  rw [Table.get_iff_mem, Table.get_iff_mem]
  constructor
  · rintro ⟨hmem, rfl⟩
    exact ⟨(h.mem_iff hk).mp hmem, rfl⟩
  · rintro ⟨hmem, rfl⟩
    exact ⟨(h.mem_iff hk).mpr hmem, rfl⟩

end AgreeOn

theorem any_congr_of_mem {α : Type} {l : List α} {p q : α → Bool} (h : ∀ a ∈ l, p a = q a) :
    l.any p = l.any q := by
  rw [Bool.eq_iff_iff, List.any_eq_true, List.any_eq_true]
  exact exists_congr fun a => and_congr_right fun ha => by rw [h a ha]

/-- Both computations fail, in the same way, or both succeed with results that are related. -/
inductive SameOutcome {ε α β : Type} (R : α → β → Prop) : Except ε α → Except ε β → Prop
  | error (e : ε) : SameOutcome R (.error e) (.error e)
  | ok {a : α} {b : β} (h : R a b) : SameOutcome R (.ok a) (.ok b)

/-- A sort reads its order at the elements only. -/
theorem insertionSort_congr {α : Type} {r r' : α → α → Prop} [DecidableRel r] [DecidableRel r']
    {l : List α} (h : ∀ a ∈ l, ∀ b ∈ l, r a b ↔ r' a b) :
    l.insertionSort r = l.insertionSort r' := by
  have hinsert : ∀ (a : α) (k : List α), (∀ b ∈ k, r a b ↔ r' a b) →
      k.orderedInsert r a = k.orderedInsert r' a := by
    intro a k hk
    induction k with
    | nil => rfl
    | cons b k ih =>
      have hb := hk b List.mem_cons_self
      rw [List.orderedInsert, List.orderedInsert, ih fun c hc => hk c (List.mem_cons_of_mem _ hc)]
      simp only [hb]
  induction l with
  | nil => rfl
  | cons a l ih =>
    rw [List.insertionSort_cons, List.insertionSort_cons,
      ih fun b hb c hc => h b (List.mem_cons_of_mem _ hb) c (List.mem_cons_of_mem _ hc)]
    refine hinsert a _ fun b hb => ?_
    exact h a List.mem_cons_self b (List.mem_cons_of_mem _ ((List.mem_insertionSort r').mp hb))
