import FraudAnalyzer.Python.DecimalOrder
import Mathlib.Tactic.FieldSimp

/-!
# Written numbers

The number that an ASCII text of digits, with a sign, a point and an exponent, stands for, and that
the constructor of decimals reads this number.
-/

namespace FraudAnalyzer.Python

inductive Sign where
  | none
  | plus
  | minus

namespace Sign

def text : Sign → List Char
  | .none => []
  | .plus => ['+']
  | .minus => ['-']

def neg : Sign → Bool
  | .minus => true
  | _ => false

end Sign

/-- The exponent of a written number: a letter, a sign and digits. -/
structure Power where
  letter : Char
  sign : Sign
  digits : List Char
  isLetter : letter = 'e' ∨ letter = 'E'
  ne_nil : digits ≠ []
  isDigit : ∀ c ∈ digits, c.isDigit = true

/-- A number as it is written in ASCII: `[sign] digits [. digits] [exponent]`. -/
structure Numeral where
  sign : Sign
  whole : List Char
  /-- What follows the point, if there is one. -/
  fraction : Option (List Char)
  power : Option Power
  ne_nil : whole ++ fraction.getD [] ≠ []
  isDigit : ∀ c ∈ whole ++ fraction.getD [], c.isDigit = true

def Power.text (p : Power) : List Char := p.letter :: (p.sign.text ++ p.digits)

/-- The exponent. -/
def Power.value (p : Power) : ℤ :=
  (if p.sign.neg then -1 else 1) * Decimal.digitsValue p.digits

namespace Numeral

/-- The point and what follows it. -/
def point (n : Numeral) : List Char :=
  match n.fraction with
  | none => []
  | some ds => '.' :: ds

/-- The exponent's text. -/
def tail (n : Numeral) : List Char :=
  match n.power with
  | none => []
  | some p => p.text

def text (n : Numeral) : List Char := n.sign.text ++ (n.whole ++ (n.point ++ n.tail))

/-- The power of ten that is written. -/
def exponent (n : Numeral) : ℤ := (n.power.map Power.value).getD 0

/-- The number that is written. -/
def value (n : Numeral) : ℚ :=
  (if n.sign.neg then -1 else 1) *
    (Decimal.digitsValue n.whole +
      Decimal.digitsValue (n.fraction.getD []) / 10 ^ (n.fraction.getD []).length) * 10 ^ n.exponent

/-- The number that is read. -/
def decimal (n : Numeral) : Decimal :=
  ⟨n.sign.neg, Decimal.digitsValue (n.whole ++ n.fraction.getD []),
    n.exponent - (n.fraction.getD []).length⟩

end Numeral

section Written

variable {u : Unicode} {cs ds rest : List Char} {n : Numeral}

/-- Leading digits count by the places that follow them. -/
theorem digitsValue_append (cs ds : List Char) : Decimal.digitsValue (cs ++ ds) =
    Decimal.digitsValue cs * 10 ^ ds.length + Decimal.digitsValue ds := by
  induction ds using List.reverseRecOn with
  | nil => simp [Decimal.digitsValue]
  | append_singleton ds d ih =>
    have hlast : ∀ xs : List Char, Decimal.digitsValue (xs ++ [d]) =
        10 * Decimal.digitsValue xs + (d.toNat - '0'.toNat) := by
      intro xs
      simp only [Decimal.digitsValue, List.foldl_append, List.foldl_cons, List.foldl_nil]
    rw [← List.append_assoc, hlast, ih, hlast, List.length_append, List.length_singleton, pow_succ]
    ring

/-- **What is read is what is written.** -/
theorem value_decimal (n : Numeral) : n.decimal.value = n.value := by
  have hscale : (10 : ℚ) ^ (n.exponent - ((n.fraction.getD []).length : ℤ)) =
      10 ^ n.exponent / 10 ^ (n.fraction.getD []).length := by
    rw [zpow_sub₀ (by norm_num), zpow_natCast]
  have hpos : (10 : ℚ) ^ (n.fraction.getD []).length ≠ 0 := pow_ne_zero _ (by norm_num)
  simp only [Decimal.value, Scientific.value, Decimal.signed, Numeral.decimal, Numeral.value,
    digitsValue_append, Nat.cast_ofNat, hscale]
  push_cast
  field_simp

theorem readSign_append (sign : Sign) (hds : ∀ c ∈ ds, c.isDigit = true)
    (hrest : ds ≠ [] ∨ ∃ tail, rest = '.' :: tail) :
    Decimal.readSign (sign.text ++ (ds ++ rest)) = (sign.neg, ds ++ rest) := by
  cases sign with
  | none =>
    by_cases hne : ds = []
    · obtain ⟨tail, rfl⟩ := hrest.resolve_left (not_not.mpr hne)
      subst hne
      rfl
    · exact Decimal.readSign_digit hds hne rest
  | plus => rfl
  | minus => rfl

/-- The exponent is read. -/
theorem readExponent_power (p : Power) : Decimal.readExponent p.text = some p.value := by
  have hsign := @readSign_append p.digits [] p.sign p.isDigit (.inl p.ne_nil)
  have hall : p.digits.all Char.isDigit = true := List.all_eq_true.mpr p.isDigit
  rw [List.append_nil] at hsign
  rw [Power.text, Decimal.readExponent, if_pos p.isLetter, hsign]
  simp only [p.ne_nil, hall, ne_eq, not_false_eq_true, and_self, if_true, Power.value]
  cases p.sign.neg with
  | true => simp
  | false => simp

theorem readExponent_tail (n : Numeral) : Decimal.readExponent n.tail = some n.exponent := by
  unfold Numeral.tail Numeral.exponent
  cases n.power with
  | none => rfl
  | some p => exact readExponent_power p

/-- The exponent begins with a letter. -/
theorem takeWhile_tail (n : Numeral) :
    n.tail.takeWhile Char.isDigit = [] ∧ n.tail.dropWhile Char.isDigit = n.tail ∧
      Decimal.readFraction n.tail = ([], n.tail) := by
  unfold Numeral.tail
  cases n.power with
  | none => exact ⟨rfl, rfl, rfl⟩
  | some p =>
    obtain ⟨letter, sign, digits, hletter, -, -⟩ := p
    rcases hletter with rfl | rfl
    · exact ⟨rfl, rfl, rfl⟩
    · exact ⟨rfl, rfl, rfl⟩

theorem whole_isDigit (n : Numeral) : ∀ c ∈ n.whole, c.isDigit = true :=
  fun c hc => n.isDigit c (List.mem_append_left _ hc)

theorem fraction_isDigit (n : Numeral) : ∀ c ∈ n.fraction.getD [], c.isDigit = true :=
  fun c hc => n.isDigit c (List.mem_append_right _ hc)

/-- The digits before the point, and what comes next. -/
theorem takeWhile_whole (n : Numeral) :
    (n.whole ++ (n.point ++ n.tail)).takeWhile Char.isDigit = n.whole ∧
      (n.whole ++ (n.point ++ n.tail)).dropWhile Char.isDigit = n.point ++ n.tail := by
  rw [List.takeWhile_append_of_pos (whole_isDigit n),
    List.dropWhile_append_of_pos (whole_isDigit n)]
  have htail := takeWhile_tail n
  unfold Numeral.point
  cases n.fraction with
  | none => exact ⟨by rw [List.nil_append, htail.1, List.append_nil], htail.2.1⟩
  | some ds => exact ⟨List.append_nil _, rfl⟩

theorem readFraction_point (n : Numeral) :
    Decimal.readFraction (n.point ++ n.tail) = (n.fraction.getD [], n.tail) := by
  have htail := takeWhile_tail n
  have hdigits := fraction_isDigit n
  unfold Numeral.point
  cases hfraction : n.fraction with
  | none => exact htail.2.2
  | some ds =>
    rw [hfraction, Option.getD_some] at hdigits
    rw [Option.getD_some, List.cons_append, Decimal.readFraction,
      List.takeWhile_append_of_pos hdigits, List.dropWhile_append_of_pos hdigits, htail.1,
      htail.2.1, List.append_nil]

theorem readSign_text (n : Numeral) :
    Decimal.readSign n.text = (n.sign.neg, n.whole ++ (n.point ++ n.tail)) := by
  refine readSign_append n.sign (whole_isDigit n) ?_
  by_cases hwhole : n.whole = []
  · right
    have hne := n.ne_nil
    unfold Numeral.point
    cases hfraction : n.fraction with
    | none => simp [hwhole, hfraction] at hne
    | some ds => exact ⟨ds ++ n.tail, rfl⟩
  · exact .inl hwhole

theorem isNumberChar_sign {sign : Sign} {c : Char} (hc : c ∈ sign.text) :
    isNumberChar c = true := by
  cases sign with
  | none => cases hc
  | plus =>
    obtain rfl := List.mem_singleton.mp hc
    rfl
  | minus =>
    obtain rfl := List.mem_singleton.mp hc
    rfl

theorem isNumberChar_point {c : Char} (hc : c ∈ n.point) : isNumberChar c = true := by
  have hdigits := fraction_isDigit n
  unfold Numeral.point at hc
  cases hfraction : n.fraction with
  | none =>
    rw [hfraction] at hc
    cases hc
  | some ds =>
    rw [hfraction] at hc hdigits
    rcases List.mem_cons.mp hc with rfl | hc
    · rfl
    · exact isNumberChar_of_isDigit (hdigits c hc)

theorem isNumberChar_power {p : Power} {c : Char} (hc : c ∈ p.text) : isNumberChar c = true := by
  rcases List.mem_cons.mp hc with rfl | hc
  · rcases p.isLetter with hletter | hletter
    · rw [hletter]
      rfl
    · rw [hletter]
      rfl
  · rcases List.mem_append.mp hc with hc | hc
    · exact isNumberChar_sign hc
    · exact isNumberChar_of_isDigit (p.isDigit c hc)

theorem isNumberChar_tail {c : Char} (hc : c ∈ n.tail) : isNumberChar c = true := by
  unfold Numeral.tail at hc
  cases hpower : n.power with
  | none =>
    rw [hpower] at hc
    cases hc
  | some p =>
    rw [hpower] at hc
    exact isNumberChar_power hc

/-- The characters of a number. -/
theorem isNumberChar_text {c : Char} (hc : c ∈ n.text) : isNumberChar c = true := by
  simp only [Numeral.text, List.mem_append] at hc
  rcases hc with hc | hc | hc | hc
  · exact isNumberChar_sign hc
  · exact isNumberChar_of_isDigit (whole_isDigit n c hc)
  · exact isNumberChar_point hc
  · exact isNumberChar_tail hc

/-- **A written number is read**, unless it is out of the type's range. -/
theorem parse_text (u : Unicode) (hrange : n.decimal.inRange = true) :
    Decimal.parse u (String.ofList n.text) = some n.decimal := by
  rw [Decimal.parse_eq_bind, String.toList_ofList,
    Decimal.asciiText_ascii fun c hc => isNumberChar_text hc, Option.bind_some]
  have hdigits : ¬(n.whole = [] ∧ n.fraction.getD [] = []) := by
    rintro ⟨hwhole, hfraction⟩
    exact n.ne_nil (by rw [hwhole, hfraction, List.append_nil])
  unfold Decimal.parseAscii
  simp only [readSign_text, takeWhile_whole, readFraction_point, readExponent_tail, hdigits,
    if_false]
  exact if_pos hrange

end Written

end FraudAnalyzer.Python
