import FraudAnalyzer.Lib.Scan
import FraudAnalyzer.Security.SqlGuard

/-!
# Two lexers of quoted text

`_check_unambiguous_lexing` exists because the guard's parser and the databases disagree about
where a literal ends. Both are modelled here as scanning rules. The parser's patterns are
`'(''|\\'|[^'])*'` and `"(""|\\"|[^"])*"`, matched with backtracking: a backslash before the quote
keeps the literal open whenever some later quote can close it. The standard lexer knows no escape
but the doubled quote. Comments, dollar quotes and whatever else both lexers pass over alike is the
parameter `other`.

The check refuses `\'` only. `lexersAgree_iff` says which accepted texts the two lexers read alike.
-/

namespace FraudAnalyzer.Security

open Python Scan

/-! ## Where a literal ends -/

/-- Characters up to and including the closing quote `q`, for the standard lexer: the first quote
that is not doubled. -/
def closeStandard (q : Char) : List Char → Option Nat
  | [] => none
  | [c] => if c = q then some 1 else none
  | c :: d :: rest =>
    if c = q then
      if d = q then (closeStandard q rest).map (· + 2) else some 1
    else (closeStandard q (d :: rest)).map (· + 1)

/-- Characters up to and including the closing quote `q`, for the pattern `(qq|\q|[^q])*q`. The
repetition takes as much as it can; when the text after a choice cannot be matched, the next choice
is tried. -/
def closeSqlparse (q : Char) : List Char → Option Nat
  | [] => none
  | [c] => if c = q then some 1 else none
  | c :: d :: rest =>
    if c = q then
      if d = q then (closeSqlparse q rest).map (· + 2) <|> some 1 else some 1
    else if c = '\\' ∧ d = q then
      (closeSqlparse q rest).map (· + 2) <|> (closeSqlparse q (d :: rest)).map (· + 1)
    else (closeSqlparse q (d :: rest)).map (· + 1)

/-- No backslash stands directly before a quote `q` of the literal, and one directly before its
closing quote has no further `q` after it. `rest` is the text after the opening quote, `n` the
literal's length from there. -/
def NoEscapedQuote (q : Char) (rest : List Char) (n : Nat) : Prop :=
  ¬ ['\\', q] <:+: rest.take (n - 1) ∧
    ((rest.take (n - 1)).getLast? = some '\\' → q ∉ rest.drop n)

section Closing

variable {q : Char} {rest : List Char} {n : Nat}

theorem closeStandard_pos (h : closeStandard q rest = some n) : 0 < n := by
  induction rest using closeStandard.induct q generalizing n with
  | case1 => simp [closeStandard] at h
  | case2 => simp [closeStandard] at h; omega
  | case3 c hc => simp [closeStandard, hc] at h
  | case4 rest ih => simp [closeStandard] at h; omega
  | case5 d rest hd => simp [closeStandard, hd] at h; omega
  | case6 c d rest hc ih => simp [closeStandard, hc] at h; omega

/-- The pattern at a doubled quote: both quotes, or the first as the closing one. -/
theorem closeSqlparse_doubled (q : Char) (rest : List Char) :
    closeSqlparse q (q :: q :: rest) = ((closeSqlparse q rest).map (· + 2) <|> some 1) := by
  simp [closeSqlparse]

/-- The pattern at a quote that is not doubled. -/
theorem closeSqlparse_quote {d : Char} (hd : d ≠ q) (rest : List Char) :
    closeSqlparse q (q :: d :: rest) = some 1 := by
  simp [closeSqlparse, hd]

/-- The pattern at an escaped quote: the escape, or a plain backslash. -/
theorem closeSqlparse_escape (hq : q ≠ '\\') (rest : List Char) :
    closeSqlparse q ('\\' :: q :: rest) =
      ((closeSqlparse q rest).map (· + 2) <|> (closeSqlparse q (q :: rest)).map (· + 1)) := by
  simp [closeSqlparse, hq.symm]

/-- The pattern at any other character. -/
theorem closeSqlparse_plain {c d : Char} (hc : c ≠ q) (hesc : ¬ (c = '\\' ∧ d = q))
    (rest : List Char) :
    closeSqlparse q (c :: d :: rest) = (closeSqlparse q (d :: rest)).map (· + 1) := by
  simp only [closeSqlparse, hc, hesc, if_false]

/-- The pattern fails only where no quote is left. -/
theorem closeSqlparse_eq_none : closeSqlparse q rest = none ↔ q ∉ rest := by
  induction rest using closeSqlparse.induct q with
  | case1 => simp [closeSqlparse]
  | case2 => simp [closeSqlparse]
  | case3 c hc => simp [closeSqlparse, hc, Ne.symm hc]
  | case4 rest ih => simp [closeSqlparse_doubled]
  | case5 d rest hd => simp [closeSqlparse_quote hd]
  | case6 c d rest hc hesc ih₁ ih₂ =>
    obtain ⟨rfl, rfl⟩ := hesc
    simp [closeSqlparse_escape (Ne.symm hc), ih₂]
  | case7 c d rest hc hesc ih => simp [closeSqlparse_plain hc hesc, ih, Ne.symm hc]

theorem closeSqlparse_pos (h : closeSqlparse q rest = some n) : 0 < n := by
  induction rest using closeSqlparse.induct q generalizing n with
  | case1 => simp [closeSqlparse] at h
  | case2 => simp [closeSqlparse] at h; omega
  | case3 c hc => simp [closeSqlparse, hc] at h
  | case4 rest ih =>
    cases hr : closeSqlparse q rest <;> simp [closeSqlparse_doubled, hr] at h <;> omega
  | case5 d rest hd => simp [closeSqlparse_quote hd] at h; omega
  | case6 c d rest hc hesc ih₁ ih₂ =>
    obtain ⟨rfl, rfl⟩ := hesc
    rw [closeSqlparse_escape (Ne.symm hc)] at h
    cases hr : closeSqlparse d rest <;> simp [hr] at h <;> omega
  | case7 c d rest hc hesc ih => simp [closeSqlparse_plain hc hesc] at h; omega

/-- Once the pattern is one quote behind the standard lexer it cannot meet it at the closing quote:
it takes the quotes of a run in pairs, and the standard lexer takes them in the other pairs. -/
theorem closeSqlparse_shifted_ne (h : closeStandard q rest = some n) :
    closeSqlparse q (q :: rest) ≠ some (n + 1) := by
  have hn := closeStandard_pos h
  induction rest using closeStandard.induct q generalizing n with
  | case1 => simp [closeStandard] at h
  | case2 => simp [closeSqlparse]; omega
  | case3 c hc => simp [closeStandard, hc] at h
  | case4 rest ih =>
    simp only [closeStandard, if_true, Option.map_eq_some_iff] at h
    obtain ⟨m, hm, rfl⟩ := h
    have hne := ih hm (closeStandard_pos hm)
    rw [closeSqlparse_doubled]
    cases hr : closeSqlparse q (q :: rest) with
    | none => simp
    | some k =>
      rw [hr] at hne
      simp at hne ⊢
      omega
  | case5 d rest hd =>
    simp only [closeStandard, if_true, hd, if_false, Option.some.injEq] at h
    subst h
    rw [closeSqlparse_doubled]
    cases hr : closeSqlparse q (d :: rest) with
    | none => simp
    | some k =>
      have := closeSqlparse_pos hr
      simp
      omega
  | case6 c d rest hc ih =>
    rw [closeSqlparse_quote hc]
    simp
    omega

/-- A first character that is no backslash does not matter. -/
theorem noEscapedQuote_cons {c : Char} (hc : c ≠ '\\') (hn : 0 < n) :
    NoEscapedQuote q (c :: rest) (n + 1) ↔ NoEscapedQuote q rest n := by
  obtain ⟨m, rfl⟩ := Nat.exists_eq_add_of_lt hn
  have hprefix : ¬ ['\\', q] <+: c :: rest.take m := fun h =>
    hc (List.cons_prefix_cons.mp h).1.symm
  have hlast : (c :: rest.take m).getLast? = some '\\' ↔ (rest.take m).getLast? = some '\\' := by
    cases rest.take m with
    | nil => simp [hc]
    | cons d l => simp [List.getLast?_cons_cons]
  simp only [NoEscapedQuote, Nat.zero_add, Nat.add_sub_cancel, List.take_succ_cons,
    List.drop_succ_cons, List.infix_cons_iff, hprefix, false_or, hlast]

/-- A backslash that no quote follows does not matter either. -/
theorem noEscapedQuote_backslash {d : Char} (hd : d ≠ q) (hn : 1 < n) :
    NoEscapedQuote q ('\\' :: d :: rest) (n + 1) ↔ NoEscapedQuote q (d :: rest) n := by
  obtain ⟨m, rfl⟩ : ∃ m, n = m + 2 := ⟨n - 2, by omega⟩
  have hprefix : ¬ ['\\', q] <+: '\\' :: d :: rest.take m := fun h =>
    hd (List.cons_prefix_cons.mp (List.cons_prefix_cons.mp h).2).1.symm
  simp only [NoEscapedQuote, show m + 2 + 1 - 1 = m + 2 from rfl, show m + 2 - 1 = m + 1 from rfl,
    List.take_succ_cons, List.drop_succ_cons, List.infix_cons_iff (a := '\\'), hprefix, false_or,
    List.getLast?_cons_cons]

/-- A literal whose first character is not its quote is longer than the quote. -/
theorem one_lt_closeStandard {d : Char} (hd : d ≠ q) (h : closeStandard q (d :: rest) = some n) :
    1 < n := by
  cases rest with
  | nil => simp [closeStandard, hd] at h
  | cons e rest =>
    simp only [closeStandard, hd, if_false, Option.map_eq_some_iff] at h
    obtain ⟨m, hm, rfl⟩ := h
    have := closeStandard_pos hm
    omega

/-- The case of a backslash before a quote: the lexers part, unless it is the closing quote and the
last one of the text. -/
theorem closeSqlparse_escape_eq_iff (hq : q ≠ '\\') (h : closeStandard q (q :: rest) = some n) :
    closeSqlparse q ('\\' :: q :: rest) = some (n + 1) ↔
      NoEscapedQuote q ('\\' :: q :: rest) (n + 1) := by
  rw [closeSqlparse_escape hq]
  by_cases hdoubled : ∃ rest', rest = q :: rest'
  · -- the literal goes on after the quote, so a quote of it is escaped
    obtain ⟨rest, rfl⟩ := hdoubled
    simp only [closeStandard, if_true, Option.map_eq_some_iff] at h
    obtain ⟨m, hm, rfl⟩ := h
    have hinfix : ['\\', q] <:+: ('\\' :: q :: q :: rest).take (m + 2 + 1 - 1) := by
      refine List.IsPrefix.isInfix ⟨(q :: rest).take m, ?_⟩
      simp
    have hne := closeSqlparse_shifted_ne hm
    cases hr : closeSqlparse q (q :: rest) with
    | none => exact absurd (closeSqlparse_eq_none.mp hr) (by simp)
    | some k =>
      rw [hr] at hne
      simp only [Option.map_some, NoEscapedQuote, hinfix, not_true, false_and,
        iff_false]
      simp at hne ⊢
      omega
  · -- the quote closes the literal
    have hone : n = 1 := by
      cases rest with
      | nil => simpa [closeStandard, eq_comm] using h
      | cons e rest =>
        have he : e ≠ q := fun he => hdoubled ⟨rest, by rw [he]⟩
        simpa [closeStandard, he, eq_comm] using h
    subst hone
    have hclose : closeSqlparse q (q :: rest) = some 1 := by
      cases rest with
      | nil => simp [closeSqlparse]
      | cons e rest => exact closeSqlparse_quote (fun he => hdoubled ⟨rest, by rw [he]⟩) rest
    have hcond : NoEscapedQuote q ('\\' :: q :: rest) 2 ↔ q ∉ rest := by
      simp [NoEscapedQuote, List.infix_cons_iff]
    rw [hclose, hcond, ← closeSqlparse_eq_none]
    cases hr : closeSqlparse q rest with
    | none => simp
    | some k =>
      have := closeSqlparse_pos hr
      simp
      omega

/-- **Where the two lexers close a literal alike**: they do when no quote of the literal is
escaped, and only then. -/
theorem closeSqlparse_eq_iff (hq : q ≠ '\\') (h : closeStandard q rest = some n) :
    closeSqlparse q rest = some n ↔ NoEscapedQuote q rest n := by
  induction rest using closeStandard.induct q generalizing n with
  | case1 => simp [closeStandard] at h
  | case2 =>
    simp only [closeStandard, if_true, Option.some.injEq] at h
    subst h
    simp [closeSqlparse, NoEscapedQuote]
  | case3 c hc => simp [closeStandard, hc] at h
  | case4 rest ih =>
    simp only [closeStandard, if_true, Option.map_eq_some_iff] at h
    obtain ⟨m, hm, rfl⟩ := h
    have hpos := closeStandard_pos hm
    rw [noEscapedQuote_cons hq (Nat.succ_pos m), noEscapedQuote_cons hq hpos, ← ih hm,
      closeSqlparse_doubled]
    cases hr : closeSqlparse q rest <;> simp
  | case5 d rest hd =>
    simp only [closeStandard, if_true, hd, if_false, Option.some.injEq] at h
    subst h
    simp [closeSqlparse_quote hd, NoEscapedQuote]
  | case6 c d rest hc ih =>
    simp only [closeStandard, hc, if_false, Option.map_eq_some_iff] at h
    obtain ⟨m, hm, rfl⟩ := h
    have hpos := closeStandard_pos hm
    by_cases hesc : c = '\\' ∧ d = q
    · obtain ⟨rfl, rfl⟩ := hesc
      exact closeSqlparse_escape_eq_iff hq hm
    · rw [closeSqlparse_plain hc hesc]
      have hbody : NoEscapedQuote q (c :: d :: rest) (m + 1) ↔ NoEscapedQuote q (d :: rest) m := by
        by_cases hb : c = '\\'
        · subst hb
          have hd : d ≠ q := fun hd => hesc ⟨rfl, hd⟩
          exact noEscapedQuote_backslash hd (one_lt_closeStandard hd hm)
        · exact noEscapedQuote_cons hb hpos
      rw [hbody, ← ih hm]
      simp

end Closing

/-! ## The two lexers -/

inductive QuotedKind where
  | string
  | identifier
  deriving DecidableEq, Repr

/-- A quoted lexeme; an open one runs to the end of the text. -/
structure Quoted where
  kind : QuotedKind
  closed : Bool
  deriving DecidableEq, Repr

/-- What a quote character opens. -/
def quotedKind (c : Char) : Option QuotedKind :=
  if c = '\'' then some .string else if c = '"' then some .identifier else none

/-- Further characters of a lexeme that is not quoted text (a comment, a dollar-quoted string, a
word), which both lexers find alike. -/
abbrev Unquoted := List Char → Char → List Char → Nat

/-- The standard-conforming lexer of the databases. -/
def standardLexer (other : Unquoted) : Lexer Char Quoted := fun before c rest =>
  match quotedKind c with
  | some kind =>
    match closeStandard c rest with
    | some n => (some ⟨kind, true⟩, n)
    | none => (some ⟨kind, false⟩, rest.length)
  | none => (none, other before c rest)

/-- The guard's parser. A quote its pattern cannot match is a token of its own. -/
def sqlparseLexer (other : Unquoted) : Lexer Char Quoted := fun before c rest =>
  match quotedKind c with
  | some kind =>
    match closeSqlparse c rest with
    | some n => (some ⟨kind, true⟩, n)
    | none => (none, 0)
  | none => (none, other before c rest)

/-- The position is inside one of the quoted spans. -/
def insideQuotes (spans : List (Span Quoted)) (i : Nat) : Bool :=
  spans.any fun s => s.covers i

/-- The two lexers find the same quoted spans, and so the same characters inside them. -/
structure LexersAgree (other : Unquoted) (text : List Char) : Prop where
  spans_eq : spans (standardLexer other) text = spans (sqlparseLexer other) text
  inside_eq : ∀ i, insideQuotes (spans (standardLexer other) text) i =
    insideQuotes (spans (sqlparseLexer other) text) i

/-- Each literal and identifier the standard lexer opens is closed, and no quote of an identifier is
escaped. -/
def QuotesPlain (other : Unquoted) (text : List Char) : Prop :=
  AtStarts (standardLexer other)
    (fun _ c rest =>
      (c = '\'' → ∃ n, closeStandard c rest = some n) ∧
        (c = '"' → ∃ n, closeStandard c rest = some n ∧ NoEscapedQuote c rest n)) text

section Agreement

variable {other : Unquoted} {text : List Char} {q : Char} {rest : List Char} {n : Nat}

theorem LexersAgree.of_spans_eq
    (h : spans (standardLexer other) text = spans (sqlparseLexer other) text) :
    LexersAgree other text :=
  ⟨h, fun i => by rw [h]⟩

/-- Where the standard lexer reports nothing the parser does the same. -/
theorem sqlparseLexer_silent {before : List Char} {c : Char}
    (h : (standardLexer other before c rest).1 = none) :
    sqlparseLexer other before c rest = standardLexer other before c rest := by
  unfold standardLexer sqlparseLexer at *
  cases hk : quotedKind c with
  | none => rfl
  | some kind => cases hc : closeStandard c rest <;> simp [hk, hc] at h

/-- The answers at a quote are the same when the literal is closed and no quote of it escaped. -/
theorem lexers_eq_iff_of_quote {kind : QuotedKind} (hk : quotedKind q = some kind)
    (before : List Char) :
    sqlparseLexer other before q rest = standardLexer other before q rest ↔
      ∃ n, closeStandard q rest = some n ∧ NoEscapedQuote q rest n := by
  have hq : q ≠ '\\' := by rintro rfl; simp [quotedKind] at hk
  simp only [sqlparseLexer, standardLexer, hk]
  cases hstd : closeStandard q rest with
  | none => cases hsp : closeSqlparse q rest <;> simp
  | some n =>
    have hiff := closeSqlparse_eq_iff hq hstd
    cases hsp : closeSqlparse q rest with
    | none => simp [hsp] at hiff ⊢; exact hiff
    | some k => simp [hsp] at hiff ⊢; exact hiff

/-- The body of a closed literal, its closing quote and what follows. -/
theorem closeStandard_split (h : closeStandard q rest = some n) :
    rest = rest.take (n - 1) ++ q :: rest.drop n := by
  have hn := closeStandard_pos h
  induction rest using closeStandard.induct q generalizing n with
  | case1 => simp [closeStandard] at h
  | case2 =>
    simp only [closeStandard, if_true, Option.some.injEq] at h
    subst h
    rfl
  | case3 c hc => simp [closeStandard, hc] at h
  | case4 rest ih =>
    simp only [closeStandard, if_true, Option.map_eq_some_iff] at h
    obtain ⟨m, hm, rfl⟩ := h
    have hpos := closeStandard_pos hm
    obtain ⟨k, rfl⟩ := Nat.exists_eq_add_of_lt hpos
    simpa using ih hm hpos
  | case5 d rest hd =>
    simp only [closeStandard, if_true, hd, if_false, Option.some.injEq] at h
    subst h
    rfl
  | case6 c d rest hc ih =>
    simp only [closeStandard, hc, if_false, Option.map_eq_some_iff] at h
    obtain ⟨m, hm, rfl⟩ := h
    have hpos := closeStandard_pos hm
    obtain ⟨k, rfl⟩ := Nat.exists_eq_add_of_lt hpos
    simpa using ih hm hpos

/-- Without a backslash before any quote of the text, none of a closed literal's is escaped. -/
theorem noEscapedQuote_of_not_infix (h : closeStandard q rest = some n)
    (hno : ¬ ['\\', q] <:+: rest) : NoEscapedQuote q rest n := by
  have hsplit := closeStandard_split h
  refine ⟨fun hin => hno (hin.trans (List.take_prefix _ _).isInfix), fun hlast => ?_⟩
  -- a backslash at the end of the body stands before the closing quote
  obtain ⟨body, hbody⟩ := List.getLast?_eq_some_iff.mp hlast
  refine absurd ⟨body, rest.drop n, ?_⟩ hno
  conv_rhs => rw [hsplit, hbody]
  simp

/-- **The lexers agree exactly on plain quotes.** Of the texts the check accepts, the parser and the
databases find the same literals and identifiers in those where every quoted lexeme is closed and
no quote of a double-quoted identifier is escaped. -/
theorem lexersAgree_iff (u : Unicode) (other : Unquoted) (sql : String)
    (haccept : checkUnambiguousLexing u sql = .ok ()) :
    LexersAgree other sql.toList ↔ QuotesPlain other sql.toList := by
  have hsingle : ¬ ['\\', '\''] <:+: sql.toList := by
    intro hin
    have hcontains : contains sql backslashQuote = true := decide_eq_true hin
    simp [checkUnambiguousLexing, hcontains] at haccept
  have hspans : LexersAgree other sql.toList ↔
      spans (standardLexer other) sql.toList = spans (sqlparseLexer other) sql.toList :=
    ⟨LexersAgree.spans_eq, LexersAgree.of_spans_eq⟩
  rw [hspans, spans_eq_iff fun _ _ _ => sqlparseLexer_silent, QuotesPlain]
  refine AtStarts.congr fun before c rest hsuffix => ?_
  by_cases hs : c = '\''
  · subst hs
    rw [lexers_eq_iff_of_quote (show quotedKind '\'' = some .string from rfl)]
    have hno : ¬ ['\\', '\''] <:+: rest := fun hin =>
      hsingle (hin.trans ((List.suffix_cons _ _).trans hsuffix).isInfix)
    constructor
    · rintro ⟨n, hn, -⟩
      exact ⟨fun _ => ⟨n, hn⟩, fun h => absurd h (by decide)⟩
    · rintro ⟨hclosed, -⟩
      obtain ⟨n, hn⟩ := hclosed rfl
      exact ⟨n, hn, noEscapedQuote_of_not_infix hn hno⟩
  · by_cases hd : c = '"'
    · subst hd
      rw [lexers_eq_iff_of_quote (show quotedKind '"' = some .identifier from rfl)]
      exact ⟨fun h => ⟨fun h' => absurd h' (by decide), fun _ => h⟩, fun h => h.2 rfl⟩
    · simp [sqlparseLexer, standardLexer, quotedKind, hs, hd]

end Agreement

/-- No lexeme but quoted text is longer than a character. -/
def noOther : Unquoted := fun _ _ _ => 0

theorem lexersAgree_iff_doubled :
    QuotesPlain noOther "SELECT 'it''s' AS \"a \"\" b\"".toList :=
  (lexersAgree_iff .ascii noOther "SELECT 'it''s' AS \"a \"\" b\"" rfl).mp
    (.of_spans_eq (by decide))

/-- A backslash before the closing quote of an identifier: the call at position 15 is code for the
database, and inside an identifier for the guard. -/
theorem lexers_disagree_escaped_identifier :
    checkUnambiguousLexing .ascii "SELECT 1 \"a\\\", pg_read_file('/etc/passwd') \"b\"" = .ok () ∧
      ¬ LexersAgree noOther "SELECT 1 \"a\\\", pg_read_file('/etc/passwd') \"b\"".toList ∧
      (∀ i ∈ List.range' 15 12,
        insideQuotes (spans (standardLexer noOther)
          "SELECT 1 \"a\\\", pg_read_file('/etc/passwd') \"b\"".toList) i = false ∧
        insideQuotes (spans (sqlparseLexer noOther)
          "SELECT 1 \"a\\\", pg_read_file('/etc/passwd') \"b\"".toList) i = true) := by
  refine ⟨rfl, fun h => absurd h.spans_eq (by decide), by decide⟩

end FraudAnalyzer.Security
