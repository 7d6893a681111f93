import Mathlib.Data.List.Basic
import Mathlib.Logic.Function.Basic

/-!
# Versions of a value, and copies taken of it

A value is changed in place while others hold copies of what it was. The ledger keeps its versions
in the order they were committed; a version is known by its number. `cleared` are the versions whose
writer has thrown the copies away, `answered` those whose writer has told its caller that it is
done.

A copy is `Fresh` when it is, for every cleared version, that version or a later one. A fresh copy
stays fresh when a version is committed. It can lose this only by a `clear`, and that is when the
writer drops the copies.
-/

structure Ledger (ν : Type) where
  versions : List ν
  cleared : List Nat
  answered : List Nat

namespace Ledger

variable {ν : Type} {l : Ledger ν} {v w : ν} {n : Nat}

/-- The value before anything is written. -/
def start (v : ν) : Ledger ν := ⟨[v], [], []⟩

/-- The number the next version gets. -/
def next (l : Ledger ν) : Nat := l.versions.length

def store (l : Ledger ν) (v : ν) : Ledger ν := { l with versions := l.versions ++ [v] }

/-- The number of the newest version. -/
def current (l : Ledger ν) : Nat := l.versions.length - 1

/-- The value as it is after a commit; a version if it changed. -/
def observe [DecidableEq ν] (l : Ledger ν) (v : ν) : Ledger ν :=
  if l.versions.getLast? = some v then l else l.store v

def clear (l : Ledger ν) (n : Nat) : Ledger ν := { l with cleared := n :: l.cleared }

def answer (l : Ledger ν) (n : Nat) : Ledger ν := { l with answered := n :: l.answered }

/-- The value is version `n` or a later one. -/
def Since (l : Ledger ν) (n : Nat) (v : ν) : Prop := v ∈ l.versions.drop n

def Fresh (l : Ledger ν) (v : ν) : Prop := ∀ n ∈ l.cleared, l.Since n v

instance [DecidableEq ν] (l : Ledger ν) (n : Nat) (v : ν) : Decidable (l.Since n v) :=
  inferInstanceAs (Decidable (_ ∈ _))

instance [DecidableEq ν] (l : Ledger ν) (v : ν) : Decidable (l.Fresh v) :=
  inferInstanceAs (Decidable (∀ n ∈ l.cleared, _))

/-- Nobody is answered before the copies are gone. -/
def ClearsFirst (l : Ledger ν) : Prop := ∀ n ∈ l.answered, n ∈ l.cleared

/-- The newest version is the value. -/
def Tracks (l : Ledger ν) (v : ν) : Prop := l.versions.getLast? = some v

theorem Tracks.start (v : ν) : (Ledger.start v).Tracks v := rfl

theorem Tracks.observe [DecidableEq ν] (l : Ledger ν) (v : ν) : (l.observe v).Tracks v := by
  unfold Tracks Ledger.observe
  split
  next h => exact h
  · exact List.getLast?_concat

theorem Tracks.get_current (h : l.Tracks v) : l.versions[l.current]? = some v := by
  unfold Tracks at h
  rwa [List.getLast?_eq_getElem?] at h

/-- Versions are added at the end. -/
theorem prefix_observe [DecidableEq ν] (l : Ledger ν) (v : ν) :
    l.versions <+: (l.observe v).versions := by
  unfold observe
  split
  · exact List.prefix_refl _
  · exact List.prefix_append _ _

theorem since_store (h : l.Since n v) (w : ν) : (l.store w).Since n v := by
  unfold Since store
  rw [List.drop_append]
  exact List.mem_append_left _ h

/-- The version being committed is later than all the others. -/
theorem since_store_self (h : n ≤ l.next) (v : ν) : (l.store v).Since n v := by
  unfold Since store
  rw [List.drop_append_of_le_length h]
  exact List.mem_append_right _ (List.mem_singleton_self v)

/-- What can be found from a version on after a commit. -/
theorem since_of_store (h : (l.store w).Since n v) : l.Since n v ∨ v = w := by
  unfold Since store at h
  rw [List.drop_append, List.mem_append] at h
  rcases h with hold | hnew
  · exact .inl hold
  · exact .inr (List.mem_singleton.mp (List.mem_of_mem_drop hnew))

theorem since_observe [DecidableEq ν] (h : l.Since n v) (w : ν) : (l.observe w).Since n v := by
  unfold observe
  split
  · exact h
  · exact since_store h w

theorem Fresh.store (h : l.Fresh v) (w : ν) : (l.store w).Fresh v :=
  fun n hn => since_store (h n hn) w

theorem cleared_observe [DecidableEq ν] (l : Ledger ν) (v : ν) :
    (l.observe v).cleared = l.cleared := by
  unfold observe
  split
  · rfl
  · rfl

theorem answered_observe [DecidableEq ν] (l : Ledger ν) (v : ν) :
    (l.observe v).answered = l.answered := by
  unfold observe
  split
  · rfl
  · rfl

theorem Fresh.observe [DecidableEq ν] (h : l.Fresh v) (w : ν) : (l.observe w).Fresh v := by
  intro n hn
  rw [cleared_observe] at hn
  exact since_observe (h n hn) w

theorem Fresh.answer (h : l.Fresh v) (n : Nat) : (l.answer n).Fresh v := h

theorem ClearsFirst.start (v : ν) : (Ledger.start v).ClearsFirst :=
  fun _ h => absurd h List.not_mem_nil

theorem ClearsFirst.store (h : l.ClearsFirst) (v : ν) : (l.store v).ClearsFirst := h

theorem ClearsFirst.observe [DecidableEq ν] (h : l.ClearsFirst) (v : ν) :
    (l.observe v).ClearsFirst := by
  unfold ClearsFirst
  rw [answered_observe, cleared_observe]
  exact h

theorem ClearsFirst.clear (h : l.ClearsFirst) (n : Nat) : (l.clear n).ClearsFirst :=
  fun m hm => List.mem_cons_of_mem n (h m hm)

theorem ClearsFirst.answer (h : l.ClearsFirst) (hn : n ∈ l.cleared) :
    (l.answer n).ClearsFirst := by
  intro m hm
  rcases List.mem_cons.mp hm with rfl | hold
  · exact hn
  · exact h m hold

/-- A fresh copy is not older than any version whose writer has answered. -/
theorem Fresh.since_answered (h : l.Fresh v) (hl : l.ClearsFirst) :
    ∀ n ∈ l.answered, l.Since n v :=
  fun n hn => h n (hl n hn)

/-! ## Ledgers of many values -/

section Family

variable {ι : Type} [DecidableEq ι] (f : ι → Ledger ν) (i j : ι) (n : Nat)

theorem versions_update_clear :
    (Function.update f i ((f i).clear n) j).versions = (f j).versions := by
  rw [Function.update_apply]
  split
  next h => rw [h, clear]
  · rfl

theorem answered_update_clear :
    (Function.update f i ((f i).clear n) j).answered = (f j).answered := by
  rw [Function.update_apply]
  split
  next h => rw [h, clear]
  · rfl

theorem cleared_subset_update_clear :
    (f j).cleared ⊆ (Function.update f i ((f i).clear n) j).cleared := by
  rw [Function.update_apply]
  split
  next h => rw [h, clear]; exact List.subset_cons_self _ _
  · exact List.Subset.refl _

theorem versions_update_answer :
    (Function.update f i ((f i).answer n) j).versions = (f j).versions := by
  rw [Function.update_apply]
  split
  next h => rw [h, answer]
  · rfl

theorem cleared_update_answer :
    (Function.update f i ((f i).answer n) j).cleared = (f j).cleared := by
  rw [Function.update_apply]
  split
  next h => rw [h, answer]
  · rfl

theorem ClearsFirst.update_clear {f : ι → Ledger ν} (h : ∀ j, (f j).ClearsFirst) (i : ι) (n : Nat)
    (j : ι) : (Function.update f i ((f i).clear n) j).ClearsFirst := by
  rw [Function.update_apply]
  split
  · exact (h i).clear n
  · exact h j

theorem ClearsFirst.update_answer {f : ι → Ledger ν} (h : ∀ j, (f j).ClearsFirst) {i : ι} {n : Nat}
    (hn : n ∈ (f i).cleared) (j : ι) : (Function.update f i ((f i).answer n) j).ClearsFirst := by
  rw [Function.update_apply]
  split
  · exact (h i).answer hn
  · exact h j

theorem Fresh.update_answer {f : ι → Ledger ν} {j : ι} {v : ν} (h : (f j).Fresh v) (i : ι)
    (n : Nat) : (Function.update f i ((f i).answer n) j).Fresh v := by
  unfold Fresh Since
  rw [versions_update_answer, cleared_update_answer]
  exact h

end Family

end Ledger
