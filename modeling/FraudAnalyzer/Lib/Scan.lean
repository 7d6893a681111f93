import Mathlib.Data.List.Infix

/-!
# Left-to-right scanners and when two of them agree

A lexer is a rule applied at the first character of each lexeme. It sees the characters already
read (nearest first), the character itself and the text after it, and answers with what it reports
there, if anything, and with how many further characters the lexeme takes. `spans` runs the rule
from left to right and collects what it reports.

`spans_eq_iff` compares two rules: they report the same spans of a text exactly when they give the
same answer at each place where the *first* one starts a lexeme. The comparison walks along one of
the two scans only, so a lexer with look-ahead or backtracking is met with one local statement.
-/

namespace Scan

variable {α κ : Type*}

/-- A scanning rule: read characters (nearest first), current character, rest of the text. -/
abbrev Lexer (α κ : Type*) := List α → α → List α → Option κ × Nat

/-- A reported lexeme: what it is, where it starts and how many characters it has. -/
structure Span (κ : Type*) where
  kind : κ
  start : Nat
  length : Nat
  deriving DecidableEq, Repr

/-- The position `i` is strictly inside the span, after its first character. -/
def Span.covers (s : Span κ) (i : Nat) : Bool :=
  s.start < i && i < s.start + s.length

/-- The spans reported in `text`, which starts at position `pos` after `skip` characters that
belong to a lexeme already begun. -/
def spansFrom (lex : Lexer α κ) : Nat → List α → Nat → List α → List (Span κ)
  | _, _, _, [] => []
  | skip + 1, before, pos, c :: rest => spansFrom lex skip (c :: before) (pos + 1) rest
  | 0, before, pos, c :: rest =>
    match lex before c rest with
    | (some k, n) => ⟨k, pos, n + 1⟩ :: spansFrom lex n (c :: before) (pos + 1) rest
    | (none, n) => spansFrom lex n (c :: before) (pos + 1) rest

/-- The spans a lexer reports, from left to right. -/
def spans (lex : Lexer α κ) (text : List α) : List (Span κ) :=
  spansFrom lex 0 [] 0 text

/-- `P` holds at each place where the lexer starts a lexeme. -/
def AtStartsFrom (lex : Lexer α κ) (P : List α → α → List α → Prop) :
    Nat → List α → List α → Prop
  | _, _, [] => True
  | skip + 1, before, c :: rest => AtStartsFrom lex P skip (c :: before) rest
  | 0, before, c :: rest =>
    P before c rest ∧ AtStartsFrom lex P (lex before c rest).2 (c :: before) rest

/-- `P` holds at each place of the text where the lexer starts a lexeme. -/
def AtStarts (lex : Lexer α κ) (P : List α → α → List α → Prop) (text : List α) : Prop :=
  AtStartsFrom lex P 0 [] text

section Lemmas

variable {lex lex' : Lexer α κ} {P Q : List α → α → List α → Prop}

/-- No span starts before the place the scan is at. -/
theorem le_start_of_mem_spansFrom {skip pos : Nat} {before text : List α} {s : Span κ}
    (h : s ∈ spansFrom lex skip before pos text) : pos ≤ s.start := by
  induction text generalizing skip before pos with
  | nil => simp [spansFrom] at h
  | cons c rest ih =>
    cases skip with
    | succ skip => exact Nat.le_of_succ_le (ih h)
    | zero =>
      rw [spansFrom] at h
      split at h
      · rcases List.mem_cons.mp h with rfl | h
        · exact Nat.le_refl _
        · exact Nat.le_of_succ_le (ih h)
      · exact Nat.le_of_succ_le (ih h)

/-- At a place where the first lexer reports something, the two scans go on alike only if the
second one gives the same answer. -/
theorem spansFrom_cons_inj {before : List α} {c : α} {rest : List α} {pos : Nat} {k : κ} {n : Nat}
    (hk : lex before c rest = (some k, n))
    (h : spansFrom lex 0 before pos (c :: rest) = spansFrom lex' 0 before pos (c :: rest)) :
    lex' before c rest = (some k, n) ∧
      spansFrom lex n (c :: before) (pos + 1) rest =
        spansFrom lex' n (c :: before) (pos + 1) rest := by
  rcases hk' : lex' before c rest with ⟨_ | k', n'⟩
  · -- the second lexer reports only later spans, so its first one cannot be this one
    simp only [spansFrom, hk, hk'] at h
    have hmem : (⟨k, pos, n + 1⟩ : Span κ) ∈ spansFrom lex' n' (c :: before) (pos + 1) rest :=
      h ▸ List.mem_cons_self
    exact absurd (le_start_of_mem_spansFrom hmem) (Nat.not_succ_le_self pos)
  · simp only [spansFrom, hk, hk'] at h
    obtain ⟨hspan, htail⟩ := List.cons.inj h
    obtain ⟨rfl, -, hn⟩ := Span.mk.inj hspan
    obtain rfl : n = n' := Nat.succ.inj hn
    exact ⟨rfl, htail⟩

/-- The agreement of two scans from any point on. -/
theorem spansFrom_eq_iff
    (hsilent : ∀ before c rest, (lex before c rest).1 = none →
      lex' before c rest = lex before c rest)
    (text : List α) (skip : Nat) (before : List α) (pos : Nat) :
    spansFrom lex skip before pos text = spansFrom lex' skip before pos text ↔
      AtStartsFrom lex (fun b c r => lex' b c r = lex b c r) skip before text := by
  induction text generalizing skip before pos with
  | nil => simp [spansFrom, AtStartsFrom]
  | cons c rest ih =>
    cases skip with
    | succ skip => exact ih skip (c :: before) (pos + 1)
    | zero =>
      rcases hlex : lex before c rest with ⟨k | k, n⟩
      · have hlex' : lex' before c rest = (none, n) := by rw [hsilent _ _ _ (by rw [hlex]), hlex]
        simp only [spansFrom, AtStartsFrom, hlex, hlex', true_and]
        exact ih n (c :: before) (pos + 1)
      · constructor
        · intro h
          obtain ⟨hlex', htail⟩ := spansFrom_cons_inj hlex h
          exact ⟨hlex'.trans hlex.symm, hlex ▸ (ih n (c :: before) (pos + 1)).mp htail⟩
        · rintro ⟨hhere, hrest⟩
          rw [hlex] at hhere hrest
          simp only [spansFrom, hlex, hhere]
          rw [(ih n (c :: before) (pos + 1)).mpr hrest]

/-- **Agreement of two lexers.** Where the first reports nothing the second does the same as it;
then the two report the same spans exactly when they answer alike at each lexeme the first
starts. -/
theorem spans_eq_iff
    (hsilent : ∀ before c rest, (lex before c rest).1 = none →
      lex' before c rest = lex before c rest)
    (text : List α) :
    spans lex text = spans lex' text ↔ AtStarts lex (fun b c r => lex' b c r = lex b c r) text :=
  spansFrom_eq_iff hsilent text 0 [] 0

theorem AtStartsFrom.congr {text : List α} {skip : Nat} {before : List α}
    (h : ∀ b c r, (c :: r) <:+ text → (P b c r ↔ Q b c r)) :
    AtStartsFrom lex P skip before text ↔ AtStartsFrom lex Q skip before text := by
  induction text generalizing skip before with
  | nil => simp [AtStartsFrom]
  | cons c rest ih =>
    have htail : ∀ b d r, (d :: r) <:+ rest → (P b d r ↔ Q b d r) := fun b d r hr =>
      h b d r (hr.trans (List.suffix_cons c rest))
    cases skip with
    | succ skip => exact ih htail
    | zero => exact and_congr (h before c rest (List.suffix_refl _)) (ih htail)

/-- Conditions that agree on the suffixes of the text hold at the same lexeme starts. -/
theorem AtStarts.congr {text : List α} (h : ∀ b c r, (c :: r) <:+ text → (P b c r ↔ Q b c r)) :
    AtStarts lex P text ↔ AtStarts lex Q text :=
  AtStartsFrom.congr h

end Lemmas

end Scan
