import FraudAnalyzer.Lists.Matching
import FraudAnalyzer.Python.DecimalOrder

/-!
# Numbers, words and keys

How the readings of a cell keep apart: a number is no boolean word. A key is of one number, a number
has one key, and a text that is folded to the key of a number is that number.
-/

namespace FraudAnalyzer.Lists

open Python

/-- A cell or a value is a number. -/
def IsNumber (u : Unicode) (cell : Cell) (q : ℚ) : Prop :=
  ∃ d, asNumber u cell = some d ∧ d.value = q

/-! ## Words -/

section Words

variable {u : Unicode} {cell : Cell} {s : String}

theorem isBoolWord_str : isBoolWord u (.str s) = true ↔
    u.lower (strip u s) ∈ trueWords ++ falseWords := by
  simp only [isBoolWord, decide_eq_true_eq]

/-- The words are of letters. -/
theorem isLower_of_mem_word {word : String} (hword : word ∈ trueWords ++ falseWords) {c : Char}
    (hc : c ∈ word.toList) : c.isLower = true := by
  have hall : ((trueWords ++ falseWords).all fun word => word.toList.all Char.isLower) = true := by
    decide
  exact List.all_eq_true.mp (List.all_eq_true.mp hall word hword) c hc

theorem isLower_iff {c : Char} : c.isLower = true ↔ 97 ≤ c.toNat ∧ c.toNat ≤ 122 := by
  unfold Char.isLower
  simp only [Bool.and_eq_true, decide_eq_true_eq, ge_iff_le, UInt32.le_iff_toNat_le]
  rfl

/-- A character that is not lowered to a letter keeps its text from being a word. -/
theorem isBoolWord_eq_false_of_mem (hu : u.Lawful) {c : Char} (hc : c ∈ (strip u s).toList)
    (hkept : c.toNat < 128 ∨ (u.digit c).isSome = true) (hlower : c.toLower.isLower = false) :
    isBoolWord u (.str s) = false := by
  rw [Bool.eq_false_iff]
  intro hword
  have hletter := isLower_of_mem_word (isBoolWord_str.mp hword) (hu.mem_lower _ c hc hkept)
  rw [hlower] at hletter
  cases hletter

theorem digit_isLower (hu : u.Lawful) {c : Char}
    (hc : c.isDigit = true ∨ (u.digit c).isSome = true) : c.toLower.isLower = false := by
  rw [Bool.eq_false_iff, ne_eq, isLower_iff, toNat_toLower]
  by_cases hascii : c.toNat < 128
  · have hdigit : c.isDigit = true := by
      rcases hc with hdigit | hsome
      · exact hdigit
      · rw [hu.digit_ascii c hascii] at hsome
        by_contra hnot
        simp [Unicode.ascii, hnot] at hsome
    have hbounds := isDigit_iff.mp hdigit
    split
    · omega
    · omega
  · split
    · omega
    · omega

/-- **A number is no boolean word.** -/
theorem isBoolWord_of_asNumber (hu : u.Lawful) {d : Decimal} (h : asNumber u cell = some d) :
    isBoolWord u cell = false := by
  cases cell with
  | str s =>
    simp only [asNumber] at h
    split at h
    · cases h
    · obtain ⟨c, hc, hdigit⟩ := Decimal.exists_digit_of_parse h
      refine isBoolWord_eq_false_of_mem hu hc ?_ (digit_isLower hu hdigit)
      rcases hdigit with hascii | hother
      · have hbounds := isDigit_iff.mp hascii
        exact .inl (by omega)
      · exact .inr hother
  | _ => rfl

end Words

/-! ## The key of a number -/

section NumberKeys

variable {u : Unicode} {a b d : Decimal} {cs : List Char}

/-- The end of a key. -/
def exponentText (e : ℤ) : List Char := if e = 0 then [] else 'e' :: (toString e).toList

theorem toList_toString_int (e : ℤ) :
    (toString e).toList = (if decide (e < 0) then ['-'] else []) ++ Nat.toDigits 10 e.natAbs := by
  cases e with
  | ofNat n =>
    have hneg : ¬ Int.ofNat n < 0 := Int.not_lt.mpr (Int.natCast_nonneg n)
    rw [decide_eq_false hneg]
    exact Nat.toList_repr
  | negSucc n =>
    have hneg : Int.negSucc n < 0 := Int.negSucc_lt_zero n
    rw [decide_eq_true hneg]
    exact (String.toList_append ..).trans (congrArg _ Nat.toList_repr)

/-- A key is the sign, the digits without trailing zeros, and the exponent that is left. -/
theorem toList_numberKey (hd : d.coeff ≠ 0) : ∃ m k : ℕ, d.coeff = m * 10 ^ k ∧ ¬ 10 ∣ m ∧
    d.digits.length = (Nat.toDigits 10 m).length + k ∧
    (numberKey d).toList =
      (if d.neg then ['-'] else []) ++ Nat.toDigits 10 m ++ exponentText (d.exp + k) := by
  obtain ⟨m, k, hvalue, hm, htext, hlength⟩ := Decimal.rdropWhile_toDigits hd
  have hdigits : d.digits = Nat.toDigits 10 d.coeff := Nat.toList_repr
  have htext' : (d.digits.reverse.dropWhile (· = '0')).reverse = Nat.toDigits 10 m := by
    rw [hdigits]
    exact htext
  have hne : Nat.toDigits 10 m ≠ [] := Nat.toDigits_ne_nil
  refine ⟨m, k, hvalue, hm, hdigits ▸ hlength, ?_⟩
  unfold numberKey
  simp only [htext', hne, if_false]
  simp only [hdigits, hlength, Nat.add_sub_cancel_left, exponentText, String.toList_append,
    apply_ite String.toList, String.toList_ofList]
  rfl

theorem numberKey_zero (hd : d.coeff = 0) : numberKey d = "0" := by
  have hdigits : d.digits = ['0'] := by
    rw [Decimal.digits, hd]
    rfl
  simp [numberKey, hdigits]

theorem signed_eq_zero_iff : d.signed = 0 ↔ d.coeff = 0 := by
  unfold Decimal.signed
  cases d.neg with
  | true => simp
  | false => simp

/-- The number, by the digits of its key. -/
theorem value_eq_of_coeff {m k : ℕ} (h : d.coeff = m * 10 ^ k) :
    d.value = Scientific.value 10 ((if d.neg then -1 else 1) * m) (d.exp + k) := by
  rw [← Scientific.value_mul_pow (by decide), Decimal.value, Decimal.signed, h]
  push_cast
  rw [mul_assoc]

/-- **One number has one key.** -/
theorem numberKey_eq_of_value_eq (h : a.value = b.value) : numberKey a = numberKey b := by
  have hzero : a.coeff = 0 ↔ b.coeff = 0 := by
    rw [← signed_eq_zero_iff, ← signed_eq_zero_iff,
      ← Scientific.value_eq_zero_iff (b := 10) (e := a.exp) (by decide),
      ← Scientific.value_eq_zero_iff (b := 10) (e := b.exp) (by decide)]
    exact iff_of_eq (congrArg (· = 0) h)
  by_cases ha : a.coeff = 0
  · rw [numberKey_zero ha, numberKey_zero (hzero.mp ha)]
  · obtain ⟨m, k, hm, hdvd, -, hkey⟩ := toList_numberKey ha
    obtain ⟨n, l, hn, hdvd', -, hkey'⟩ := toList_numberKey (mt hzero.mpr ha)
    rw [value_eq_of_coeff hm, value_eq_of_coeff hn] at h
    have hsign : ∀ (neg : Bool) (x : ℕ), ¬ 10 ∣ x →
        ¬ ((10 : ℕ) : ℤ) ∣ (if neg then -1 else 1) * x := by
      intro neg x hx
      cases neg with
      | true => simpa [Int.dvd_neg] using fun hdvd => hx (by exact_mod_cast hdvd)
      | false => simpa using fun hdvd => hx (by exact_mod_cast hdvd)
    obtain ⟨hsame, hexp⟩ := Scientific.eq_of_value_eq (by decide) (hsign _ _ hdvd)
      (hsign _ _ hdvd') h
    have hmpos : m ≠ 0 := by
      rintro rfl
      exact hdvd (dvd_zero _)
    have hneg : a.neg = b.neg ∧ m = n := by
      cases ha : a.neg with
      | true =>
        cases hb : b.neg with
        | true => simpa [ha, hb] using hsame
        | false =>
          simp only [ha, hb, if_true, Bool.false_eq_true, if_false] at hsame
          omega
      | false =>
        cases hb : b.neg with
        | true =>
          simp only [ha, hb, if_true, Bool.false_eq_true, if_false] at hsame
          omega
        | false => simpa [ha, hb] using hsame
    apply String.toList_injective
    rw [hkey, hkey', hneg.1, hneg.2, hexp]

/-- A text that is lowered to no letters is that text. -/
theorem eq_of_map_toLower {ds : List Char} (h : cs.map Char.toLower = ds)
    (hds : ∀ c ∈ ds, c.isLower = false) : cs = ds := by
  have hself : ∀ c ∈ cs, c.toLower = c := by
    intro c hc
    have hnot := hds c.toLower (h ▸ List.mem_map_of_mem hc)
    rw [Bool.eq_false_iff, ne_eq, isLower_iff, toNat_toLower] at hnot
    apply toLower_eq_self
    intro hupper
    rw [if_pos hupper] at hnot
    omega
  rw [← h]
  exact (List.map_id cs).symm.trans (List.map_congr_left fun c hc => (hself c hc).symm)

theorem isLower_digit {c : Char} (h : c.isDigit = true) : c.isLower = false := by
  have hbounds := isDigit_iff.mp h
  rw [Bool.eq_false_iff, ne_eq, isLower_iff]
  omega

/-- The characters of a signed number. -/
theorem minus_or_digit {neg : Bool} {n : ℕ} {c : Char}
    (hc : c ∈ (if neg then ['-'] else []) ++ Nat.toDigits 10 n) : c = '-' ∨ c.isDigit = true := by
  rcases List.mem_append.mp hc with hsign | hdigit
  · cases neg with
    | true => exact .inl (List.mem_singleton.mp hsign)
    | false => cases hsign
  · exact .inr (Decimal.isDigit_toDigits hdigit)

theorem isLower_signed {neg : Bool} {n : ℕ} {c : Char}
    (hc : c ∈ (if neg then ['-'] else []) ++ Nat.toDigits 10 n) : c.isLower = false := by
  rcases minus_or_digit hc with rfl | hdigit
  · rfl
  · exact isLower_digit hdigit

theorem isNumberChar_signed {neg : Bool} {n : ℕ} {c : Char}
    (hc : c ∈ (if neg then ['-'] else []) ++ Nat.toDigits 10 n) : isNumberChar c = true := by
  rcases minus_or_digit hc with rfl | hdigit
  · rfl
  · exact isNumberChar_of_isDigit hdigit

theorem readExponent_toString {c : Char} (hc : c = 'e' ∨ c = 'E') (e : ℤ) :
    Decimal.readExponent (c :: (toString e).toList) = some e := by
  have hdigits : ∀ x ∈ Nat.toDigits 10 e.natAbs, x.isDigit = true :=
    fun x hx => Decimal.isDigit_toDigits hx
  have hne : Nat.toDigits 10 e.natAbs ≠ [] := Nat.toDigits_ne_nil
  have hsign : Decimal.readSign (toString e).toList =
      (decide (e < 0), Nat.toDigits 10 e.natAbs) := by
    rw [toList_toString_int]
    cases hneg : decide (e < 0) with
    | true => rfl
    | false => simpa using Decimal.readSign_digit hdigits hne []
  have hall : (Nat.toDigits 10 e.natAbs).all Char.isDigit = true := List.all_eq_true.mpr hdigits
  rw [Decimal.readExponent, if_pos hc, hsign]
  simp only [hne, hall, ne_eq, not_false_eq_true, and_self, if_true, decide_eq_true_eq,
    Decimal.digitsValue_toDigits]
  congr 1
  split
  · omega
  · omega

theorem isNumberChar_toString {e : ℤ} {c : Char} (hc : c ∈ (toString e).toList) :
    isNumberChar c = true := by
  rw [toList_toString_int] at hc
  exact isNumberChar_signed hc

/-- The exponent of a key, in either case. -/
theorem readExponent_of_exponentText {e : ℤ} (h : cs.map Char.toLower = exponentText e) :
    Decimal.EndsDigits cs ∧ Decimal.readExponent cs = some e ∧
      ∀ c ∈ cs, isNumberChar c = true := by
  unfold exponentText at h
  split at h
  next hzero =>
    obtain rfl := List.map_eq_nil_iff.mp h
    exact ⟨trivial, by rw [hzero]; rfl, fun _ hc => absurd hc List.not_mem_nil⟩
  next hne =>
    obtain ⟨c, rest, rfl, hc, hrest⟩ := List.map_eq_cons_iff.mp h
    have hsame : rest = (toString e).toList := by
      refine eq_of_map_toLower hrest fun x hx => ?_
      rw [toList_toString_int] at hx
      exact isLower_signed hx
    have hcase : c = 'e' ∨ c = 'E' := by
      have hnat := congrArg Char.toNat hc
      rw [toNat_toLower] at hnat
      split at hnat
      · refine .inr (Char.toNat_inj.mp ?_)
        have h101 : 'e'.toNat = 101 := rfl
        have h69 : 'E'.toNat = 69 := rfl
        omega
      · exact .inl (Char.toNat_inj.mp hnat)
    refine ⟨hcase, hsame ▸ readExponent_toString hcase e, ?_⟩
    rw [List.forall_mem_cons]
    refine ⟨?_, fun x hx => isNumberChar_toString (hsame ▸ hx)⟩
    rcases hcase with rfl | rfl
    · rfl
    · rfl

/-- **A key is a spelling of its number**, and so is a text with that lower case. -/
theorem parse_of_toLower (u : Unicode) (hd : d.inRange = true) {text : String}
    (h : text.toList.map Char.toLower = (numberKey d).toList) :
    ∃ d', Decimal.parse u text = some d' ∧ d'.value = d.value := by
  by_cases hzero : d.coeff = 0
  · rw [numberKey_zero hzero] at h
    have htext : text.toList = ['0'] := eq_of_map_toLower h (List.forall_mem_singleton.mpr rfl)
    refine ⟨⟨false, 0, 0⟩, ?_, ?_⟩
    · rw [Decimal.parse_eq_bind, htext,
        Decimal.asciiText_ascii (List.forall_mem_singleton.mpr rfl)]
      decide
    · have hsigned : d.signed = 0 := signed_eq_zero_iff.mpr hzero
      rw [Decimal.value, Decimal.value, hsigned]
      simp [Decimal.signed]
  · obtain ⟨m, k, hm, -, hlength, hkey⟩ := toList_numberKey hzero
    rw [hkey] at h
    obtain ⟨front, rest, hsplit, hfront, hrest⟩ := List.map_eq_append_iff.mp h
    have hdigits : ∀ c ∈ Nat.toDigits 10 m, c.isDigit = true :=
      fun c hc => Decimal.isDigit_toDigits hc
    have hsame : front = (if d.neg then ['-'] else []) ++ Nat.toDigits 10 m :=
      eq_of_map_toLower hfront fun c hc => isLower_signed hc
    obtain ⟨hends, hexponent, hnumber⟩ := readExponent_of_exponentText hrest
    -- the adjusted exponent is that of the decimal, and its own exponent is no smaller
    have hrange : Decimal.inRange ⟨d.neg, Decimal.digitsValue (Nat.toDigits 10 m), d.exp + k⟩ =
        true := by
      simp only [Decimal.inRange, Bool.and_eq_true, decide_eq_true_eq] at hd ⊢
      have hown : Decimal.digits ⟨d.neg, Decimal.digitsValue (Nat.toDigits 10 m), d.exp + k⟩ =
          Nat.toDigits 10 m := by
        rw [Decimal.digitsValue_toDigits]
        exact Nat.toList_repr
      rw [hown]
      omega
    refine ⟨⟨d.neg, m, d.exp + k⟩, ?_, ?_⟩
    · have hall : ∀ c ∈ text.toList, isNumberChar c = true := by
        intro c hc
        rw [hsplit, hsame] at hc
        rcases List.mem_append.mp hc with hc | hc
        · exact isNumberChar_signed hc
        · exact hnumber c hc
      have hparse := Decimal.parseAscii_digits d.neg hdigits Nat.toDigits_ne_nil hends hexponent
        hrange
      rw [Decimal.digitsValue_toDigits] at hparse
      rw [Decimal.parse_eq_bind, Decimal.asciiText_ascii hall, hsplit, hsame]
      exact hparse
    · rw [value_eq_of_coeff hm]
      rfl

/-- A key has no letter but the one of its exponent. -/
theorem mem_numberKey {c : Char} (hc : c ∈ (numberKey d).toList) :
    c = '-' ∨ c.isDigit = true ∨ c = 'e' := by
  by_cases hd : d.coeff = 0
  · rw [numberKey_zero hd] at hc
    obtain rfl := List.mem_singleton.mp hc
    exact .inr (.inl rfl)
  · obtain ⟨m, k, -, -, -, hkey⟩ := toList_numberKey hd
    rw [hkey, List.mem_append] at hc
    rcases hc with hfront | hexponent
    · rcases minus_or_digit hfront with hminus | hdigit
      · exact .inl hminus
      · exact .inr (.inl hdigit)
    · unfold exponentText at hexponent
      split at hexponent
      · cases hexponent
      · rcases List.mem_cons.mp hexponent with rfl | hdigits
        · exact .inr (.inr rfl)
        · rw [toList_toString_int] at hdigits
          rcases minus_or_digit hdigits with hminus | hdigit
          · exact .inl hminus
          · exact .inr (.inl hdigit)

theorem isNumberChar_numberKey {c : Char} (hc : c ∈ (numberKey d).toList) :
    isNumberChar c = true := by
  rcases mem_numberKey hc with rfl | hdigit | rfl
  · rfl
  · exact isNumberChar_of_isDigit hdigit
  · rfl

theorem map_toLower_numberKey (d : Decimal) :
    (numberKey d).toList.map Char.toLower = (numberKey d).toList := by
  have hself : ∀ c ∈ (numberKey d).toList, c.toLower = c := by
    intro c hc
    rcases mem_numberKey hc with rfl | hdigit | rfl
    · rfl
    · have hbounds := isDigit_iff.mp hdigit
      exact toLower_eq_self (by omega)
    · rfl
  exact (List.map_congr_left hself).trans (List.map_id _)

theorem numberKey_ne_empty (d : Decimal) : numberKey d ≠ "" := by
  intro hempty
  by_cases hd : d.coeff = 0
  · rw [numberKey_zero hd] at hempty
    exact absurd hempty (by decide)
  · obtain ⟨m, k, -, -, -, hkey⟩ := toList_numberKey hd
    rw [hempty] at hkey
    have hnil := (List.append_eq_nil_iff.mp hkey.symm).1
    exact Nat.toDigits_ne_nil (List.append_eq_nil_iff.mp hnil).2

/-- **One key is of one number.** -/
theorem numberKey_eq_iff (ha : a.inRange = true) (hb : b.inRange = true) :
    numberKey a = numberKey b ↔ a.value = b.value := by
  refine ⟨fun h => ?_, numberKey_eq_of_value_eq⟩
  obtain ⟨a', ha', hvalue⟩ := parse_of_toLower .ascii ha (map_toLower_numberKey a)
  obtain ⟨b', hb', hvalue'⟩ := parse_of_toLower .ascii hb (map_toLower_numberKey b)
  rw [h, hb'] at ha'
  obtain rfl := Option.some.inj ha'
  exact hvalue.symm.trans hvalue'

end NumberKeys

/-! ## The texts of numbers -/

section NumberTexts

variable {u : Unicode} {s : String}

theorem isSpace_number (hu : u.Lawful) {c : Char} (h : isNumberChar c = true) :
    u.isSpace c = false := by
  rw [hu.isSpace_ascii c (isAscii_of_number h)]
  simp only [isNumberChar, Bool.or_eq_true, beq_iff_eq] at h
  rcases h with ((((hdigit | rfl) | rfl) | rfl) | rfl) | rfl
  · have hbounds := isDigit_iff.mp hdigit
    have hspace : c ≠ ' ' := by
      rintro rfl
      exact absurd hdigit (by decide)
    simp only [Unicode.ascii, beq_false_of_ne hspace, Bool.false_or, Bool.or_eq_false_iff,
      Bool.and_eq_false_iff, decide_eq_false_iff_not]
    omega
  all_goals rfl

theorem strip_number (hu : u.Lawful) (h : ∀ c ∈ s.toList, isNumberChar c = true) :
    strip u s = s :=
  strip_eq_self_of_forall fun c hc => isSpace_number hu (h c hc)

theorem toLower_number {c : Char} (h : isNumberChar c = true) : isNumberChar c.toLower = true := by
  simp only [isNumberChar, Bool.or_eq_true, beq_iff_eq] at h
  rcases h with ((((hdigit | rfl) | rfl) | rfl) | rfl) | rfl
  · have hbounds := isDigit_iff.mp hdigit
    rw [toLower_eq_self (by omega)]
    exact isNumberChar_of_isDigit hdigit
  all_goals rfl

/-- Each word has a letter that no number has. -/
theorem isBoolWord_number (hu : u.Lawful) (h : ∀ c ∈ s.toList, isNumberChar c = true) :
    isBoolWord u (.str s) = false := by
  rw [Bool.eq_false_iff]
  intro hword
  have hall : ((trueWords ++ falseWords).all fun word => word.toList.any fun c => !isNumberChar c) =
      true := by decide
  rw [isBoolWord_str, strip_number hu h, hu.lower_ascii s fun c hc => isAscii_of_number (h c hc)]
    at hword
  obtain ⟨c, hc, hnot⟩ := List.any_eq_true.mp (List.all_eq_true.mp hall _ hword)
  rw [toList_lower_ascii] at hc
  obtain ⟨x, hx, rfl⟩ := List.mem_map.mp hc
  rw [toLower_number (h x hx)] at hnot
  cases hnot

theorem inRange_of_asNumber_str {d : Decimal} (h : asNumber u (.str s) = some d) :
    d.inRange = true := by
  simp only [asNumber] at h
  split at h
  · cases h
  · exact Decimal.inRange_of_parse h

theorem asNumber_str (hu : u.Lawful) (h : ∀ c ∈ s.toList, isNumberChar c = true) (hne : s ≠ "") :
    asNumber u (.str s) = Decimal.parse u s := by
  simp only [asNumber, strip_number hu h, hne, if_false]

theorem asNumber_float (hu : u.Lawful) (x : PyFloat) :
    asNumber u (.str (String.ofList x.repr.chars)) = asNumber u (.float x) := by
  refine asNumber_str hu (fun c hc => ?_) fun hempty => ?_
  · rw [String.toList_ofList] at hc
    exact x.repr.all_number c hc
  · have hnil := congrArg String.toList hempty
    rw [String.toList_ofList] at hnil
    exact x.repr.ne_nil hnil

/-- A text that is folded to the key of a number is a number. -/
theorem isSome_of_casefold (hu : u.Lawful) (hs : strip u s = s) {d : Decimal}
    (hd : d.inRange = true) (h : u.casefold s = numberKey d) :
    (asNumber u (.str s)).isSome = true := by
  have hascii : IsAscii s := by
    refine hu.casefold_number s fun c hc => ?_
    rw [h] at hc
    exact isNumberChar_numberKey hc
  rw [hu.casefold_ascii s hascii] at h
  have hlower : s.toList.map Char.toLower = (numberKey d).toList := by
    rw [← h]
    exact (toList_lower_ascii s).symm
  have hne : s ≠ "" := by
    rintro rfl
    exact numberKey_ne_empty d h.symm
  obtain ⟨d', hparse, -⟩ := parse_of_toLower u hd hlower
  simp only [asNumber, hs, hne, if_false, hparse]
  rfl

/-- An integer is read back from its text. -/
theorem asNumber_int (hu : u.Lawful) {n : ℤ} (hn : (Decimal.ofInt n).inRange = true) :
    asNumber u (.str (toString n)) = asNumber u (.int n) := by
  have hchars : ∀ c ∈ (toString n).toList, isNumberChar c = true := fun c hc =>
    isNumberChar_toString hc
  have hne : toString n ≠ "" := by
    intro hempty
    have hnil := congrArg String.toList hempty
    rw [toList_toString_int] at hnil
    exact Nat.toDigits_ne_nil (List.append_eq_nil_iff.mp hnil).2
  have hdigits : ∀ c ∈ Nat.toDigits 10 n.natAbs, c.isDigit = true :=
    fun c hc => Decimal.isDigit_toDigits hc
  have hsame : (⟨decide (n < 0), Decimal.digitsValue (Nat.toDigits 10 n.natAbs), 0⟩ : Decimal) =
      .ofInt n := by
    rw [Decimal.digitsValue_toDigits]
    rfl
  have hends : Decimal.EndsDigits [] := trivial
  have hexponent : Decimal.readExponent [] = some 0 := rfl
  have hparse := Decimal.parseAscii_digits (decide (n < 0)) hdigits Nat.toDigits_ne_nil hends
    hexponent (hsame ▸ hn)
  rw [List.append_nil, hsame, ← toList_toString_int] at hparse
  rw [asNumber_str hu hchars hne, Decimal.parse_eq_bind, Decimal.asciiText_ascii hchars]
  exact hparse

end NumberTexts

/-! ## The texts of lists and dictionaries -/

section Brackets

variable {u : Unicode} {s : String} {c : Char} {rest : List Char}

theorem toList_toStr_list (items : List Cell) : ((Cell.list items).toStr u).toList =
    '[' :: ((join ", " (Cell.reprItems u items)).toList ++ [']']) := by
  change ("[" ++ join ", " (Cell.reprItems u items) ++ "]").toList = _
  simp

theorem toList_toStr_dict (entries : List (String × Cell)) : ((Cell.dict entries).toStr u).toList =
    '\x7b' :: ((join ", " (Cell.reprEntries u entries)).toList ++ ['\x7d']) := by
  change ("\x7b" ++ join ", " (Cell.reprEntries u entries) ++ "\x7d").toList = _
  simp

theorem isAscii_bracket (hbracket : c = '[' ∨ c = '\x7b') : c.toNat < 128 := by
  rcases hbracket with rfl | rfl
  · decide
  · decide

/-- A text with a bracket is no word. -/
theorem isBoolWord_bracket (hu : u.Lawful) (hbracket : c = '[' ∨ c = '\x7b')
    (hc : c ∈ (strip u s).toList) : isBoolWord u (.str s) = false := by
  refine isBoolWord_eq_false_of_mem hu hc (.inl (isAscii_bracket hbracket)) ?_
  rcases hbracket with rfl | rfl
  · decide
  · decide

/-- A text that begins with a bracket is no number. -/
theorem parse_bracket (u : Unicode) (hbracket : c = '[' ∨ c = '\x7b')
    (hlist : s.toList = c :: rest) : Decimal.parse u s = none := by
  have hascii : Decimal.asciiOf u c = some (some c) := by
    rcases hbracket with rfl | rfl
    · rfl
    · rfl
  have hnone : ∀ cs, Decimal.parseAscii (c :: cs) = none := by
    intro cs
    rcases hbracket with rfl | rfl
    · rfl
    · rfl
  rw [Decimal.parse_eq_bind, hlist, Decimal.asciiText, hascii]
  cases Decimal.asciiText u rest with
  | none => rfl
  | some cs => exact hnone cs

end Brackets

end FraudAnalyzer.Lists
