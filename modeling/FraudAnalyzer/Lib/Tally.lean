import FraudAnalyzer.Lib.OrderedDict
import Mathlib.Algebra.BigOperators.Group.List.Lemmas
import Mathlib.Algebra.GroupWithZero.Nat

/-!
# Totals by key

A loop over weighted items that keeps an entry for each key, as `entries.setdefault(key, ..)` does,
and adds each item to the entry of its key. What an entry counts is the weight of the items with its
key. Further lemmas split a count over a list by the values of a function.
-/

namespace OrderedDict

variable {κ ν γ : Type} [DecidableEq κ]

/-- One turn: the entry of the key, a fresh one if there is none, with the item added. -/
def note (key : γ → κ) (fresh : γ → ν) (add : ν → γ → ν) (entries : OrderedDict κ ν) (g : γ) :
    OrderedDict κ ν :=
  entries.assign (key g) (add ((entries.get (key g)).getD (fresh g)) g)

def tally (key : γ → κ) (fresh : γ → ν) (add : ν → γ → ν) (gs : List γ) : OrderedDict κ ν :=
  gs.foldl (note key fresh add) .empty

section Lemmas

variable {key : γ → κ} {fresh : γ → ν} {add : ν → γ → ν}

theorem tally_concat (gs : List γ) (g : γ) :
    tally key fresh add (gs ++ [g]) = note key fresh add (tally key fresh add gs) g := by
  rw [tally, List.foldl_append]
  rfl

/-- What an entry counts. -/
theorem count_tally (count : ν → Nat) (weight : γ → Nat) (hfresh : ∀ g, count (fresh g) = 0)
    (hadd : ∀ e g, count (add e g) = count e + weight g) (gs : List γ) (k : κ) :
    (((tally key fresh add gs).get k).map count).getD 0 =
      ((gs.filter fun g => key g = k).map weight).sum := by
  induction gs using List.reverseRecOn with
  | nil => rfl
  | append_singleton gs g ih =>
    have hold : count (((tally key fresh add gs).get (key g)).getD (fresh g)) =
        (((tally key fresh add gs).get (key g)).map count).getD 0 := by
      cases (tally key fresh add gs).get (key g) with
      | none => exact hfresh g
      | some e => rfl
    rw [tally_concat, note, get_assign, List.filter_append, List.map_append, List.sum_append, ← ih]
    by_cases hk : k = key g
    · subst hk
      simp only [if_true, Option.map_some, Option.getD_some, hadd, hold]
      simp
    · simp [hk, Ne.symm hk]

/-- There is an entry for the key of each item. -/
theorem get_tally_isSome {gs : List γ} {k : κ} :
    ((tally key fresh add gs).get k).isSome = true ↔ ∃ g ∈ gs, key g = k := by
  induction gs using List.reverseRecOn with
  | nil => exact iff_of_false nofun fun ⟨_, h, _⟩ => nomatch h
  | append_singleton gs g ih =>
    rw [tally_concat, note, get_assign]
    by_cases hk : k = key g
    · rw [if_pos hk]
      exact iff_of_true rfl ⟨g, List.mem_append_right _ List.mem_cons_self, hk.symm⟩
    · rw [if_neg hk, ih]
      constructor
      · rintro ⟨g', hg', hkey⟩
        exact ⟨g', List.mem_append_left _ hg', hkey⟩
      · rintro ⟨g', hg', hkey⟩
        rcases List.mem_append.mp hg' with hold | hnew
        · exact ⟨g', hold, hkey⟩
        · rw [List.mem_singleton.mp hnew] at hkey
          exact absurd hkey.symm hk

/-- An entry knows its key. -/
theorem key_of_tally (keyOf : ν → κ) (hfresh : ∀ g, keyOf (fresh g) = key g)
    (hadd : ∀ e g, keyOf (add e g) = keyOf e) {gs : List γ} {k : κ} {e : ν}
    (h : (tally key fresh add gs).get k = some e) : keyOf e = k := by
  induction gs using List.reverseRecOn generalizing k e with
  | nil => cases h
  | append_singleton gs g ih =>
    rw [tally_concat, note, get_assign] at h
    split at h
    next hk =>
      obtain rfl := Option.some.inj h
      rw [hadd, hk]
      cases hget : (tally key fresh add gs).get (key g) with
      | none => exact hfresh g
      | some old => exact ih hget
    next => exact ih h

/-- An entry has what its first item gives it and the others of its key keep. -/
theorem of_tally (P : ν → Prop) {gs : List γ} {k : κ} {e : ν}
    (hfirst : ∀ g ∈ gs, key g = k → P (add (fresh g) g))
    (hnext : ∀ g ∈ gs, key g = k → ∀ e, P e → P (add e g))
    (h : (tally key fresh add gs).get k = some e) : P e := by
  induction gs using List.reverseRecOn generalizing e with
  | nil => cases h
  | append_singleton gs g ih =>
    have hold : ∀ {e}, (tally key fresh add gs).get k = some e → P e :=
      ih (fun g' hg' => hfirst g' (List.mem_append_left _ hg'))
        fun g' hg' => hnext g' (List.mem_append_left _ hg')
    rw [tally_concat, note, get_assign] at h
    split at h
    next hk =>
      have hmem : g ∈ gs ++ [g] := List.mem_append_right _ List.mem_cons_self
      obtain rfl := Option.some.inj h
      cases hget : (tally key fresh add gs).get (key g) with
      | none => exact hfirst g hmem hk.symm
      | some old => exact hnext g hmem hk.symm old (hold (hk ▸ hget))
    next => exact hold h

/-- A measure that no item lowers, and that each raises to its own, bounds all items of a key. -/
theorem le_of_tally (measure : ν → Nat) (weight : γ → Nat)
    (hkeep : ∀ e g, measure e ≤ measure (add e g)) (hraise : ∀ e g, weight g ≤ measure (add e g))
    {gs : List γ} {k : κ} {e : ν} (h : (tally key fresh add gs).get k = some e) :
    ∀ g ∈ gs, key g = k → weight g ≤ measure e := by
  induction gs using List.reverseRecOn generalizing e with
  | nil => exact fun _ hg => nomatch hg
  | append_singleton gs last ih =>
    intro g hg hkey
    rw [tally_concat, note, get_assign] at h
    rcases List.mem_append.mp hg with hg | hg
    · split at h
      next hk =>
        obtain rfl := Option.some.inj h
        cases hget : (tally key fresh add gs).get (key last) with
        | none =>
          have hsome : ((tally key fresh add gs).get (key last)).isSome = true :=
            get_tally_isSome.mpr ⟨g, hg, hkey.trans hk⟩
          rw [hget] at hsome
          cases hsome
        | some old =>
          rw [← hk] at hget
          exact (ih hget g hg hkey).trans (hkeep _ _)
      next => exact ih h g hg hkey
    · rw [List.mem_singleton] at hg
      subst hg
      rw [if_pos hkey.symm] at h
      obtain rfl := Option.some.inj h
      exact hraise _ _

end Lemmas

/-- The values of a dictionary whose entries know their keys, in any order. -/
theorem find?_values {d : OrderedDict κ ν} {values : List ν} (keyOf : ν → κ)
    (hvalues : values.Perm (d.entries.map Prod.snd))
    (hkey : ∀ k e, d.get k = some e → keyOf e = k) (k : κ) :
    (values.find? fun e => keyOf e = k) = d.get k := by
  have hmem : ∀ e, e ∈ values ↔ d.get (keyOf e) = some e := by
    intro e
    rw [hvalues.mem_iff, List.mem_map]
    constructor
    · rintro ⟨⟨k', e'⟩, hentry, rfl⟩
      have hget := get_iff_mem.mpr hentry
      rwa [hkey k' e' hget]
    · intro hget
      exact ⟨(keyOf e, e), get_iff_mem.mp hget, rfl⟩
  cases hfind : values.find? fun e => keyOf e = k with
  | some e =>
    have hk : keyOf e = k := by simpa using List.find?_some hfind
    rw [← hk]
    exact ((hmem e).mp (List.mem_of_find?_eq_some hfind)).symm
  | none =>
    cases hget : d.get k with
    | none => rfl
    | some e =>
      have hk := hkey k e hget
      have hnot := List.find?_eq_none.mp hfind e ((hmem e).mpr (hk ▸ hget))
      simp [hk] at hnot

end OrderedDict

/-! ## Counts split by a function -/

section Counts

variable {α κ : Type}

theorem getD_map_false (o : Option α) (p : α → Bool) : (o.map p).getD false = o.any p := by
  cases o with
  | none => rfl
  | some a => rfl

/-- A sum over the elements that meet a condition. -/
theorem sum_map_filter (l : List α) (p : α → Bool) (f : α → Nat) :
    ((l.filter p).map f).sum = (l.map fun a => if p a then f a else 0).sum := by
  induction l with
  | nil => rfl
  | cons a l ih =>
    rw [List.filter_cons, List.map_cons, List.sum_cons]
    split
    · rw [List.map_cons, List.sum_cons, ih]
    · rw [ih, Nat.zero_add]

theorem countP_mem_cons [DecidableEq κ] (l : List α) (g : α → κ) {k : κ} {ks : List κ}
    (hk : k ∉ ks) :
    l.countP (fun a => g a ∈ k :: ks) =
      (l.countP fun a => g a = k) + l.countP fun a => g a ∈ ks := by
  induction l with
  | nil => rfl
  | cons a l ih =>
    rw [List.countP_cons, List.countP_cons, List.countP_cons, ih]
    by_cases ha : g a = k
    · simp only [ha, hk, List.mem_cons, or_false, decide_true, if_true, decide_false,
        Bool.false_eq_true, if_false]
      omega
    · simp only [ha, List.mem_cons, false_or, decide_false, Bool.false_eq_true, if_false]
      omega

/-- The elements whose value is one of a list, counted value by value. -/
theorem countP_mem_eq_sum [DecidableEq κ] (l : List α) (g : α → κ) {ks : List κ} (hks : ks.Nodup) :
    l.countP (fun a => g a ∈ ks) = (ks.map fun k => l.countP fun a => g a = k).sum := by
  induction ks with
  | nil => simp
  | cons k ks ih =>
    rw [List.nodup_cons] at hks
    rw [List.map_cons, List.sum_cons, ← ih hks.2, countP_mem_cons l g hks.1]

end Counts
