import FraudAnalyzer.Python.Text
import Mathlib.Data.List.DropRight

/-!
# What the Unicode database says

The facts of the interpreter's database that the comparison of texts rests on: what it says of
ASCII, of digits, and of the characters with an ASCII case. `Unicode.ascii` has them too.
-/

namespace FraudAnalyzer.Python

/-- `s.isascii()` -/
def IsAscii (s : String) : Prop := ∀ c ∈ s.toList, c.toNat < 128

/-- The facts of the database. -/
structure Unicode.Lawful (u : Unicode) : Prop where
  isSpace_ascii : ∀ c, c.toNat < 128 → u.isSpace c = Unicode.ascii.isSpace c
  digit_ascii : ∀ c, c.toNat < 128 → u.digit c = Unicode.ascii.digit c
  lower_ascii : ∀ s, IsAscii s → u.lower s = Unicode.ascii.lower s
  casefold_ascii : ∀ s, IsAscii s → u.casefold s = Unicode.ascii.casefold s
  /-- ASCII characters and the digits of any script are lowered one by one. -/
  mem_lower : ∀ s, ∀ c ∈ s.toList, c.toNat < 128 ∨ (u.digit c).isSome = true →
    c.toLower ∈ (u.lower s).toList
  /-- Nothing else is lowered to an ASCII digit. -/
  lower_digits : ∀ s, (∀ c ∈ (u.lower s).toList, c.isDigit = true) → u.lower s = s
  /-- What is lowered to ASCII is folded alike. -/
  casefold_eq_lower : ∀ s, IsAscii (u.lower s) → u.casefold s = u.lower s
  casefold_ne_empty : ∀ s, s ≠ "" → u.casefold s ≠ ""
  /-- Nothing but ASCII is folded to the characters of a number. -/
  casefold_number : ∀ s, (∀ c ∈ (u.casefold s).toList, isNumberChar c = true) → IsAscii s

/-! ## ASCII -/

theorem toNat_toLower (c : Char) :
    c.toLower.toNat = if 65 ≤ c.toNat ∧ c.toNat ≤ 90 then c.toNat + 32 else c.toNat := by
  have hupper : (c.val ≥ 'A'.val ∧ c.val ≤ 'Z'.val) ↔ 65 ≤ c.toNat ∧ c.toNat ≤ 90 := by
    simp only [ge_iff_le, UInt32.le_iff_toNat_le]
    rfl
  unfold Char.toLower
  split
  next h =>
    have hbounds := hupper.mp h
    rw [if_pos hbounds]
    change (c.val + ('a'.val - 'A'.val)).toNat = c.val.toNat + 32
    have hval : c.val.toNat ≤ 90 := hbounds.2
    rw [UInt32.toNat_add]
    have hdiff : ('a'.val - 'A'.val).toNat = 32 := by decide
    rw [hdiff]
    omega
  next h => rw [if_neg (mt hupper.mpr h)]

theorem isDigit_iff {c : Char} : c.isDigit = true ↔ 48 ≤ c.toNat ∧ c.toNat ≤ 57 := by
  unfold Char.isDigit
  simp only [Bool.and_eq_true, decide_eq_true_eq, ge_iff_le, UInt32.le_iff_toNat_le]
  rfl

/-- A lower-case letter keeps its case, and so does what is no letter. -/
theorem toLower_eq_self {c : Char} (h : ¬ (65 ≤ c.toNat ∧ c.toNat ≤ 90)) : c.toLower = c := by
  apply Char.ext
  apply UInt32.toNat_inj.mp
  exact (toNat_toLower c).trans (if_neg h)

theorem isAscii_of_number {c : Char} (h : isNumberChar c = true) : c.toNat < 128 := by
  simp only [isNumberChar, Bool.or_eq_true, beq_iff_eq] at h
  rcases h with ((((hdigit | rfl) | rfl) | rfl) | rfl) | rfl
  · have := (isDigit_iff.mp hdigit).2
    omega
  all_goals decide

theorem isAscii_of_toLower {c : Char} (h : c.toLower.toNat < 128) : c.toNat < 128 := by
  rw [toNat_toLower] at h
  split at h
  · omega
  · exact h

theorem isDigit_of_toLower {c : Char} (h : c.toLower.isDigit = true) : c.toLower = c := by
  rw [isDigit_iff, toNat_toLower] at h
  apply toLower_eq_self
  split at h
  · omega
  · omega

theorem toList_lower_ascii (s : String) :
    (Unicode.ascii.lower s).toList = s.toList.map Char.toLower :=
  String.toList_ofList

theorem lawful_ascii : Unicode.ascii.Lawful where
  isSpace_ascii _ _ := rfl
  digit_ascii _ _ := rfl
  lower_ascii _ _ := rfl
  casefold_ascii _ _ := rfl
  mem_lower s c hc _ := by
    rw [toList_lower_ascii]
    exact List.mem_map_of_mem hc
  lower_digits s h := by
    apply String.toList_injective
    rw [toList_lower_ascii] at h ⊢
    rw [List.forall_mem_map] at h
    conv_rhs => rw [← List.map_id s.toList]
    exact List.map_congr_left fun c hc => isDigit_of_toLower (h c hc)
  casefold_eq_lower _ _ := rfl
  casefold_ne_empty s hs h := by
    have hnil := congrArg String.toList h
    rw [show (Unicode.ascii.casefold s).toList = s.toList.map Char.toLower from
      String.toList_ofList] at hnil
    exact hs (String.toList_injective (List.map_eq_nil_iff.mp hnil))
  casefold_number s h := by
    intro c hc
    rw [show (Unicode.ascii.casefold s).toList = s.toList.map Char.toLower from
      String.toList_ofList, List.forall_mem_map] at h
    exact isAscii_of_toLower (isAscii_of_number (h c hc))

/-! ## Surrounding blanks -/

section Strip

variable {u : Unicode} {s : String} {c : Char}

theorem toList_strip (u : Unicode) (s : String) :
    (strip u s).toList = (s.toList.dropWhile u.isSpace).rdropWhile u.isSpace :=
  String.toList_ofList

@[simp] theorem strip_strip (u : Unicode) (s : String) : strip u (strip u s) = strip u s := by
  apply String.toList_injective
  rw [toList_strip, toList_strip]
  have hhead : ((s.toList.dropWhile u.isSpace).rdropWhile u.isSpace).dropWhile u.isSpace =
      (s.toList.dropWhile u.isSpace).rdropWhile u.isSpace := by
    rw [List.dropWhile_eq_self_iff]
    intro hlen
    have hstart := List.rdropWhile_prefix u.isSpace (s.toList.dropWhile u.isSpace)
    rw [hstart.getElem]
    exact List.dropWhile_get_zero_not _ _ _
  rw [hhead, List.rdropWhile_idempotent]

/-- What is no blank stays. -/
theorem mem_strip (h : c ∈ s.toList) (hc : u.isSpace c = false) : c ∈ (strip u s).toList := by
  have hmem : ∀ cs : List Char, c ∈ cs → c ∈ cs.dropWhile u.isSpace := by
    intro cs hcs
    rw [← List.takeWhile_append_dropWhile (p := u.isSpace) (l := cs), List.mem_append] at hcs
    rcases hcs with htake | hdrop
    · have hspace := List.mem_takeWhile_imp htake
      rw [hc] at hspace
      cases hspace
    · exact hdrop
  rw [toList_strip, List.rdropWhile, List.mem_reverse]
  exact hmem _ (List.mem_reverse.mpr (hmem _ h))

/-- A text without blanks. -/
theorem strip_eq_self_of_forall (h : ∀ c ∈ s.toList, u.isSpace c = false) : strip u s = s := by
  apply String.toList_injective
  have hdrop : s.toList.dropWhile u.isSpace = s.toList := by
    rw [List.dropWhile_eq_self_iff]
    intro hlen
    simp [h _ (List.getElem_mem hlen)]
  rw [toList_strip, hdrop, List.rdropWhile_eq_self_iff]
  intro hne
  simp [h _ (List.getLast_mem hne)]

/-- A leading blank goes. -/
theorem strip_cons (hc : u.isSpace c = true) (cs : List Char) :
    strip u (String.ofList (c :: cs)) = strip u (String.ofList cs) := by
  apply String.toList_injective
  simp only [toList_strip, String.toList_ofList, List.dropWhile_cons_of_pos hc]

end Strip

end FraudAnalyzer.Python
