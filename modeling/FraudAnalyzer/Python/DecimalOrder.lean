import FraudAnalyzer.Lib.Scientific
import FraudAnalyzer.Python.Casing
import FraudAnalyzer.Python.Decimal

/-!
# The numbers that decimals are

The comparison of decimals is that of the rational numbers they stand for. And what the constructor
on a text accepts: a digit at least.
-/

namespace FraudAnalyzer.Python.Decimal

/-- The coefficient with its sign. -/
def signed (d : Decimal) : Int := (if d.neg then -1 else 1) * d.coeff

/-- The number. -/
def value (d : Decimal) : ℚ := Scientific.value 10 d.signed d.exp

theorem value_scaled {d : Decimal} {e : Int} (he : e ≤ d.exp) :
    Scientific.value 10 (d.scaled e) e = d.value := by
  have hexp : e + ((d.exp - e).toNat : ℕ) = d.exp := by omega
  have hshift := Scientific.value_mul_pow (b := 10) (by decide) d.signed e (d.exp - e).toNat
  rw [hexp] at hshift
  exact hshift

/-- **Comparison is exact.** -/
theorem compareTo_eq (a b : Decimal) : a.compareTo b = compare a.value b.value := by
  rw [compareTo, ← value_scaled (min_le_left a.exp b.exp),
    ← value_scaled (min_le_right a.exp b.exp), Scientific.compare_value (by decide)]

/-! ## The constructor on a text -/

section Parse

variable {u : Unicode} {cs : List Char} {text : String} {d : Decimal}

/-- The constructor on the text without underscores, in ASCII. -/
def parseAscii (cs : List Char) : Option Decimal :=
  let (neg, body) := readSign cs
  let whole := body.takeWhile Char.isDigit
  let (fraction, rest) := readFraction (body.dropWhile Char.isDigit)
  if whole = [] ∧ fraction = [] then none
  else do
    let exponent ← readExponent rest
    let d : Decimal := ⟨neg, digitsValue (whole ++ fraction), exponent - fraction.length⟩
    if d.inRange then return d else none

theorem parse_eq_bind (u : Unicode) (text : String) :
    parse u text = (asciiText u text.toList).bind parseAscii := rfl

/-- What is read is in range. -/
theorem inRange_of_parse (h : parse u text = some d) : d.inRange = true := by
  rw [parse_eq_bind] at h
  obtain ⟨cs, -, hparse⟩ := Option.bind_eq_some_iff.mp h
  unfold parseAscii at hparse
  simp only at hparse
  split at hparse
  · cases hparse
  · obtain ⟨exponent, -, hread⟩ := Option.bind_eq_some_iff.mp hparse
    split at hread
    next hrange =>
      obtain rfl := Option.some.inj hread
      exact hrange
    · cases hread

theorem mem_of_mem_readSign {c : Char} (h : c ∈ (readSign cs).2) : c ∈ cs := by
  unfold readSign at h
  split at h
  · exact List.mem_cons_of_mem _ h
  · exact List.mem_cons_of_mem _ h
  · exact h

theorem mem_of_mem_readFraction {c : Char} (h : c ∈ (readFraction cs).1) : c ∈ cs := by
  unfold readFraction at h
  split at h
  · exact List.mem_cons_of_mem _ ((List.takeWhile_prefix _).subset h)
  · cases h

theorem isDigit_of_mem_readFraction {c : Char} (h : c ∈ (readFraction cs).1) :
    c.isDigit = true := by
  unfold readFraction at h
  split at h
  · exact List.mem_takeWhile_imp h
  · cases h

/-- A number has a digit. -/
theorem exists_digit_of_parseAscii (h : parseAscii cs = some d) :
    ∃ c ∈ cs, c.isDigit = true := by
  unfold parseAscii at h
  dsimp only at h
  split at h
  · cases h
  next hdigits =>
    rw [not_and_or] at hdigits
    rcases hdigits with hwhole | hfraction
    · obtain ⟨c, hc⟩ := List.exists_mem_of_ne_nil _ hwhole
      exact ⟨c, mem_of_mem_readSign ((List.takeWhile_prefix _).subset hc),
        List.mem_takeWhile_imp hc⟩
    · obtain ⟨c, hc⟩ := List.exists_mem_of_ne_nil _ hfraction
      exact ⟨c, mem_of_mem_readSign ((List.dropWhile_suffix _).subset (mem_of_mem_readFraction hc)),
        isDigit_of_mem_readFraction hc⟩

theorem exists_of_mem_asciiText {c : Char} {text : List Char} (h : asciiText u text = some cs)
    (hc : c ∈ cs) : ∃ c' ∈ text, asciiOf u c' = some (some c) := by
  induction text generalizing cs with
  | nil =>
    obtain rfl := Option.some.inj h
    cases hc
  | cons a text ih =>
    rw [asciiText] at h
    split at h
    next rest hnone hrest =>
      obtain rfl := Option.some.inj h
      obtain ⟨c', hc', hsome⟩ := ih hrest hc
      exact ⟨c', List.mem_cons_of_mem _ hc', hsome⟩
    next b rest hb hrest =>
      obtain rfl := Option.some.inj h
      rcases List.mem_cons.mp hc with rfl | hc
      · exact ⟨a, List.mem_cons_self, hb⟩
      · obtain ⟨c', hc', hsome⟩ := ih hrest hc
        exact ⟨c', List.mem_cons_of_mem _ hc', hsome⟩
    · cases h

/-- The text of a number has a digit, of some script. -/
theorem exists_digit_of_parse (h : parse u text = some d) :
    ∃ c ∈ text.toList, c.isDigit = true ∨ (u.digit c).isSome = true := by
  rw [parse_eq_bind] at h
  obtain ⟨cs, hcs, hparse⟩ := Option.bind_eq_some_iff.mp h
  obtain ⟨c, hc, hdigit⟩ := exists_digit_of_parseAscii hparse
  obtain ⟨c', hc', hascii⟩ := exists_of_mem_asciiText hcs hc
  refine ⟨c', hc', ?_⟩
  unfold asciiOf at hascii
  split at hascii
  · cases hascii
  · split at hascii
    · obtain rfl := Option.some.inj (Option.some.inj hascii)
      exact .inl hdigit
    · obtain ⟨value, hvalue, -⟩ := Option.map_eq_some_iff.mp hascii
      exact .inr (Option.isSome_of_eq_some hvalue)

end Parse

/-! ## Digits -/

section Digits

variable {u : Unicode} {n : ℕ} {cs ds : List Char}

theorem digitsValue_toDigits (n : ℕ) : digitsValue (Nat.toDigits 10 n) = n := by
  unfold digitsValue
  rw [← Nat.ofDigitChars_eq_foldl]
  exact Nat.ofDigitChars_ten_toDigits

theorem isDigit_toDigits {c : Char} (hc : c ∈ Nat.toDigits 10 n) : c.isDigit = true :=
  Nat.isDigit_of_mem_toDigits (by decide) (by decide) hc

/-- The digits without trailing zeros are those of the number that ten does not divide. -/
theorem rdropWhile_toDigits (hn : n ≠ 0) : ∃ m k : ℕ, n = m * 10 ^ k ∧ ¬ 10 ∣ m ∧
    (Nat.toDigits 10 n).rdropWhile (· = '0') = Nat.toDigits 10 m ∧
    (Nat.toDigits 10 n).length = (Nat.toDigits 10 m).length + k := by
  induction n using Nat.strong_induction_on with
  | _ n ih =>
    by_cases hdvd : 10 ∣ n
    · -- the last digit is a zero
      have hge : 10 ≤ n := Nat.le_of_dvd (Nat.pos_of_ne_zero hn) hdvd
      have hmod : n % 10 = 0 := Nat.mod_eq_zero_of_dvd hdvd
      obtain ⟨m, k, hvalue, hm, htext, hlength⟩ := ih (n / 10) (by omega) (by omega)
      have hdigits : Nat.toDigits 10 n = Nat.toDigits 10 (n / 10) ++ ['0'] := by
        rw [Nat.toDigits_of_base_le (by decide) hge, hmod]
        rfl
      refine ⟨m, k + 1, ?_, hm, ?_, ?_⟩
      · rw [pow_succ, ← mul_assoc, ← hvalue]
        omega
      · rw [hdigits, List.rdropWhile_concat_pos _ _ _ (by simp)]
        exact htext
      · rw [hdigits, List.length_append, hlength]
        rfl
    · refine ⟨n, 0, by simp, hdvd, ?_, rfl⟩
      have hlast : ((n % 10).digitChar = '0') → False := by
        rw [Nat.digitChar_eq_zero]
        omega
      by_cases hge : 10 ≤ n
      · rw [Nat.toDigits_of_base_le (by decide) hge, List.rdropWhile_concat_neg]
        simpa using hlast
      · have hsmall : n % 10 = n := Nat.mod_eq_of_lt (by omega)
        rw [Nat.toDigits_of_lt_base (by omega), List.rdropWhile_singleton, if_neg]
        rw [hsmall] at hlast
        simpa using hlast

/-- An ASCII text without underscores is read as it is. -/
theorem asciiText_ascii (h : ∀ c ∈ cs, isNumberChar c = true) : asciiText u cs = some cs := by
  induction cs with
  | nil => rfl
  | cons c cs ih =>
    rw [List.forall_mem_cons] at h
    have hne : c ≠ '_' := by
      rintro rfl
      exact absurd h.1 (by decide)
    have hpos : 0 < c.toNat := by
      apply Nat.pos_of_ne_zero
      intro hzero
      have hnul : c = Char.ofNat 0 := Char.toNat_inj.mp hzero
      rw [hnul] at h
      exact absurd h.1 (by decide)
    have hascii : asciiOf u c = some (some c) := by
      have hlt := isAscii_of_number h.1
      rw [asciiOf, if_neg hne, if_pos ⟨hpos, by omega⟩]
    rw [asciiText, hascii, ih h.2]

/-- The end of the digits: nothing, or an exponent. -/
def EndsDigits : List Char → Prop
  | [] => True
  | c :: _ => c = 'e' ∨ c = 'E'

theorem readSign_digit (hds : ∀ c ∈ ds, c.isDigit = true) (hne : ds ≠ []) (rest : List Char) :
    readSign (ds ++ rest) = (false, ds ++ rest) := by
  cases ds with
  | nil => exact absurd rfl hne
  | cons c ds =>
    have hc := hds c List.mem_cons_self
    unfold readSign
    split
    next heq =>
      obtain ⟨rfl, -⟩ := List.cons.inj heq
      exact absurd hc (by decide)
    next heq =>
      obtain ⟨rfl, -⟩ := List.cons.inj heq
      exact absurd hc (by decide)
    · rfl

/-- A sign, digits and an exponent. -/
theorem parseAscii_digits (neg : Bool) (hds : ∀ c ∈ ds, c.isDigit = true) (hne : ds ≠ [])
    {rest : List Char} (hrest : EndsDigits rest) {exponent : ℤ}
    (hexponent : readExponent rest = some exponent)
    (hrange : inRange ⟨neg, digitsValue ds, exponent⟩ = true) :
    parseAscii ((if neg then ['-'] else []) ++ ds ++ rest) =
      some ⟨neg, digitsValue ds, exponent⟩ := by
  have hsign : readSign ((if neg then ['-'] else []) ++ ds ++ rest) = (neg, ds ++ rest) := by
    cases neg with
    | true => rfl
    | false => exact readSign_digit hds hne rest
  have hend : rest.takeWhile Char.isDigit = [] ∧ rest.dropWhile Char.isDigit = rest ∧
      readFraction rest = ([], rest) := by
    cases rest with
    | nil => exact ⟨rfl, rfl, rfl⟩
    | cons c rest =>
      rcases hrest with rfl | rfl
      · exact ⟨rfl, rfl, rfl⟩
      · exact ⟨rfl, rfl, rfl⟩
  have hwhole : (ds ++ rest).takeWhile Char.isDigit = ds := by
    rw [List.takeWhile_append_of_pos hds, hend.1, List.append_nil]
  have hafter : (ds ++ rest).dropWhile Char.isDigit = rest := by
    rw [List.dropWhile_append_of_pos hds, hend.2.1]
  unfold parseAscii
  simp only [hsign, hwhole, hafter, hend.2.2, hne, false_and, if_false, hexponent, List.append_nil,
    List.length_nil, Nat.cast_zero, Int.sub_zero]
  simp [hrange]

end Digits

end FraudAnalyzer.Python.Decimal
