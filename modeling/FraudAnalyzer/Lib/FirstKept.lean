import Mathlib.Data.Finset.Insert

/-!
# The first of each key

A loop over a list that keeps an element unless it has seen its key. The list it keeps has each key
of the list once (`exists_mem_firsts`, `pairwise_firsts`), and the loop leaves such a list as it is
(`firsts_eq_self`).
-/

namespace FirstKept

variable {α κ : Type*} [DecidableEq κ] {key : α → κ} {xs : List α} {seen : Finset κ} {x : α}

/-- The elements whose key has not been seen, each the first of its key. -/
def firsts (key : α → κ) : List α → Finset κ → List α
  | [], _ => []
  | x :: xs, seen =>
    if key x ∈ seen then firsts key xs seen else x :: firsts key xs (insert (key x) seen)

theorem firsts_sublist (xs : List α) (seen : Finset κ) : (firsts key xs seen).Sublist xs := by
  induction xs generalizing seen with
  | nil => exact .slnil
  | cons x xs ih =>
    rw [firsts]
    split
    · exact (ih seen).cons x
    · exact (ih (insert (key x) seen)).cons_cons x

theorem notMem_of_mem_firsts (h : x ∈ firsts key xs seen) : key x ∉ seen := by
  induction xs generalizing seen with
  | nil => cases h
  | cons y xs ih =>
    rw [firsts] at h
    split at h
    · exact ih h
    next hy =>
      rcases List.mem_cons.mp h with rfl | hx
      · exact hy
      · exact fun hseen => ih hx (Finset.mem_insert_of_mem hseen)

/-- No key is lost. -/
theorem exists_mem_firsts (h : x ∈ xs) (hseen : key x ∉ seen) :
    ∃ y ∈ firsts key xs seen, key y = key x := by
  induction xs generalizing seen with
  | nil => cases h
  | cons z xs ih =>
    rw [firsts]
    split
    next hz =>
      rcases List.mem_cons.mp h with rfl | hx
      · exact absurd hz hseen
      · exact ih hx hseen
    · by_cases hsame : key x = key z
      · exact ⟨z, List.mem_cons_self, hsame.symm⟩
      · have hx : x ∈ xs := (List.mem_cons.mp h).resolve_left fun hxz => hsame (hxz ▸ rfl)
        have hnew : key x ∉ insert (key z) seen := by
          rw [Finset.mem_insert, not_or]
          exact ⟨hsame, hseen⟩
        obtain ⟨y, hy, hkey⟩ := ih hx hnew
        exact ⟨y, List.mem_cons_of_mem _ hy, hkey⟩

/-- No key is kept twice. -/
theorem pairwise_firsts (xs : List α) (seen : Finset κ) :
    (firsts key xs seen).Pairwise fun a b => key a ≠ key b := by
  induction xs generalizing seen with
  | nil => exact .nil
  | cons x xs ih =>
    rw [firsts]
    split
    · exact ih seen
    · refine .cons (fun y hy => ?_) (ih _)
      intro hsame
      exact notMem_of_mem_firsts hy (hsame ▸ Finset.mem_insert_self ..)

/-- What is kept comes before the rest of its key. -/
theorem rel_of_mem_firsts {r : α → α → Prop} (hxs : xs.Pairwise r) (hrefl : ∀ a, r a a)
    {y : α} (hx : x ∈ firsts key xs seen) (hy : y ∈ xs) (hkey : key y = key x) : r x y := by
  induction xs generalizing seen with
  | nil => cases hy
  | cons z xs ih =>
    obtain ⟨hz, hrest⟩ := List.pairwise_cons.mp hxs
    have hnotin := notMem_of_mem_firsts hx
    rw [firsts] at hx
    split at hx
    next hseen =>
      rcases List.mem_cons.mp hy with rfl | hy
      · exact absurd (hkey ▸ hseen) hnotin
      · exact ih hrest hx hy
    next =>
      rcases List.mem_cons.mp hx with rfl | hx
      · rcases List.mem_cons.mp hy with rfl | hy
        · exact hrefl y
        · exact hz y hy
      · rcases List.mem_cons.mp hy with rfl | hy
        · have hinsert := notMem_of_mem_firsts hx
          exact absurd (hkey ▸ Finset.mem_insert_self ..) hinsert
        · exact ih hrest hx hy

/-- A list that has each key once is kept. -/
theorem firsts_eq_self (hseen : ∀ x ∈ xs, key x ∉ seen)
    (hdistinct : xs.Pairwise fun a b => key a ≠ key b) : firsts key xs seen = xs := by
  induction xs generalizing seen with
  | nil => rfl
  | cons x xs ih =>
    obtain ⟨hx, hxs⟩ := List.forall_mem_cons.mp hseen
    obtain ⟨hnew, hrest⟩ := List.pairwise_cons.mp hdistinct
    have hnone : ∀ y ∈ xs, key y ∉ insert (key x) seen := by
      intro y hy
      rw [Finset.mem_insert, not_or]
      exact ⟨(hnew y hy).symm, hxs y hy⟩
    rw [firsts, if_neg hx, ih hnone hrest]

end FirstKept
