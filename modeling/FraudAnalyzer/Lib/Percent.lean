import Mathlib.Data.List.Infix
import Mathlib.Data.UInt

/-!
# Percent escapes in byte strings

`decode` replaces each `%HH` by the byte it names; the escape of a zero byte ends the text. A text
decodes to itself exactly when it has no escape (`decode_eq_self_iff`): every escape makes the
result shorter.
-/

namespace Percent

abbrev Bytes := List UInt8

/-- The bytes of a text, in UTF-8. -/
def bytes (s : String) : Bytes := s.toUTF8.data.toList

/-- `%` -/
def percent : UInt8 := 0x25

/-- The value of a hexadecimal digit, in either case. -/
def hexValue (b : UInt8) : Option UInt8 :=
  if 0x30 ≤ b ∧ b ≤ 0x39 then some (b - 0x30)
  else if 0x41 ≤ b ∧ b ≤ 0x46 then some (b - 0x41 + 10)
  else if 0x61 ≤ b ∧ b ≤ 0x66 then some (b - 0x61 + 10)
  else none

/-- The byte an escape names: both digits are hexadecimal. -/
def octet (h l : UInt8) : Option UInt8 :=
  match hexValue h, hexValue l with
  | some h, some l => some (h * 16 + l)
  | _, _ => none

/-- Decode the escapes. -/
def decode : Bytes → Bytes
  | [] => []
  | [b] => [b]
  | [b, c] => [b, c]
  | b :: h :: l :: rest =>
    if b = percent then
      match octet h l with
      | some o => if o = 0 then [] else o :: decode rest
      | none => b :: decode (h :: l :: rest)
    else b :: decode (h :: l :: rest)

/-- The text has an escape. -/
def HasEscape (s : Bytes) : Prop :=
  ∃ pre h l post, s = pre ++ percent :: h :: l :: post ∧ (octet h l).isSome = true

/-- At an escape, what is decoded is at least two characters shorter. -/
theorem decode_escape_length {h l : UInt8} {rest : Bytes} (hsome : (octet h l).isSome = true)
    (ih : (decode rest).length ≤ rest.length) :
    (decode (percent :: h :: l :: rest)).length ≤ rest.length + 1 := by
  obtain ⟨o, ho⟩ := Option.isSome_iff_exists.mp hsome
  by_cases hzero : o = 0 <;> simp [decode, ho, hzero, ih]

theorem decode_plain {b h l : UInt8} {rest : Bytes} (hb : ¬ (b = percent ∧ (octet h l).isSome)) :
    decode (b :: h :: l :: rest) = b :: decode (h :: l :: rest) := by
  by_cases hp : b = percent
  · subst hp
    have hnone : octet h l = none := by simpa using hb
    simp [decode, hnone]
  · simp [decode, hp]

theorem decode_length_le (s : Bytes) : (decode s).length ≤ s.length := by
  induction s using decode.induct with
  | case1 => simp [decode]
  | case2 b => simp [decode]
  | case3 b c => simp [decode]
  | case4 h l rest hoct => simp [decode, hoct]
  | case5 h l rest o hoct hzero ih =>
    have := decode_escape_length (h := h) (l := l) (by simp [hoct]) ih
    simp only [List.length_cons]
    omega
  | case6 h l rest hoct ih => rw [decode_plain (by simp [hoct])]; simpa using ih
  | case7 b h l rest hb ih => rw [decode_plain (by simp [hb])]; simpa using ih

theorem hasEscape_cons {b : UInt8} {s : Bytes} :
    HasEscape (b :: s) ↔
      (b = percent ∧ ∃ h l post, s = h :: l :: post ∧ (octet h l).isSome = true) ∨ HasEscape s := by
  constructor
  · rintro ⟨pre, h, l, post, heq, hsome⟩
    cases pre with
    | nil =>
      obtain ⟨rfl, rfl⟩ := List.cons.inj heq
      exact .inl ⟨rfl, h, l, post, rfl, hsome⟩
    | cons x pre =>
      obtain ⟨rfl, rfl⟩ := List.cons.inj heq
      exact .inr ⟨pre, h, l, post, rfl, hsome⟩
  · rintro (⟨rfl, h, l, post, rfl, hsome⟩ | ⟨pre, h, l, post, rfl, hsome⟩)
    · exact ⟨[], h, l, post, rfl, hsome⟩
    · exact ⟨b :: pre, h, l, post, rfl, hsome⟩

theorem not_hasEscape_of_length {s : Bytes} (h : s.length < 3) : ¬ HasEscape s := by
  rintro ⟨pre, h', l, post, rfl, -⟩
  simp at h
  omega

/-- **Decoding keeps exactly the texts without an escape.** -/
theorem decode_eq_self_iff (s : Bytes) : decode s = s ↔ ¬ HasEscape s := by
  induction s using decode.induct with
  | case1 => simp [decode, not_hasEscape_of_length]
  | case2 b => simp [decode, not_hasEscape_of_length]
  | case3 b c => simp [decode, not_hasEscape_of_length]
  | case4 h l rest hoct =>
    refine iff_of_false (by simp [decode, hoct]) (not_not_intro ?_)
    exact ⟨[], h, l, rest, rfl, by simp [hoct]⟩
  | case5 h l rest o hoct hzero ih =>
    refine iff_of_false (fun heq => ?_) (not_not_intro ⟨[], h, l, rest, rfl, by simp [hoct]⟩)
    have hlen := decode_escape_length (h := h) (l := l) (by simp [hoct]) (decode_length_le rest)
    rw [heq] at hlen
    simp only [List.length_cons] at hlen
    omega
  | case6 h l rest hoct ih =>
    have hno : ¬ ∃ h' l' post, h :: l :: rest = h' :: l' :: post ∧ (octet h' l').isSome = true := by
      rintro ⟨h', l', post, heq, hsome⟩
      simp only [List.cons.injEq] at heq
      obtain ⟨rfl, rfl, rfl⟩ := heq
      simp [hoct] at hsome
    rw [decode_plain (by simp [hoct]), hasEscape_cons, List.cons_eq_cons, ih]
    simp only [true_and, hno, and_false, false_or]
  | case7 b h l rest hb ih =>
    rw [decode_plain (by simp [hb]), hasEscape_cons, List.cons_eq_cons, ih]
    simp only [true_and, hb, false_and, false_or]

end Percent
