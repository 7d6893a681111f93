import FraudAnalyzer.Lib.Gaps
import FraudAnalyzer.Security.SqlGuard

/-!
# The guard's checks and inert tokens

Whitespace and comments separate the tokens of a statement without being part of it. Comments are
stripped before the checks run, except the optimizer hints, which the parser keeps. This file says
what each check looks for, as a pattern over the token list with a parameter for what may stand
between two tokens of it, and when the verdict is that of the significant tokens alone.
-/

namespace FraudAnalyzer.Security

open Python Policy Gaps

/-- The check refuses. -/
def rejects (verdict : Except AppError Unit) : Bool :=
  match verdict with
  | .ok _ => false
  | .error _ => true

/-- The tokens that are neither whitespace nor comments. -/
def significant (tokens : List Token) : List Token := tokens.filter fun t => !t.isInert

/-! ## What the checks look for -/

/-- A significant token with the given text. -/
def isMark (text : String) (t : Token) : Bool := !t.isInert && t.value == text

/-- A blocked function and the bracket that calls it. -/
def CallsWithParens (u : Unicode) (name following : Token) : Prop :=
  isBlockedName u name = true ∧ isMark "(" following = true

/-- A blocked PostgreSQL function and the dot that calls it on what stands before. -/
def CallsAsField (u : Unicode) (preceding name : Token) : Prop :=
  isMark "." preceding = true ∧ isBlockedName u name = true ∧
    functionName u name ∈ postgresFunctions

/-- A call of a blocked function whose two tokens have only `gap` tokens between them. -/
def BlockedCall (u : Unicode) (gap : Token → Bool) (tokens : List Token) : Prop :=
  Reaches gap (fun a b => CallsWithParens u a b ∨ CallsAsField u a b) tokens

/-- `NO` and `KEY` may stand between `FOR` and the word that locks. -/
def isSkippedWord (u : Unicode) (t : Token) : Bool :=
  t.isKeyword && u.upper t.value ∈ ["NO", "KEY"]

/-- `FOR` and one of the given words. -/
def LocksWith (u : Unicode) (words : List String) (a b : Token) : Prop :=
  isKeywordWord u "FOR" a = true ∧ b.isKeyword = true ∧ u.upper b.value ∈ words

/-- A locking clause with one of the words, through `NO`, `KEY` and `gap` tokens. -/
def LockingClause (u : Unicode) (words : List String) (gap : Token → Bool) (tokens : List Token) :
    Prop :=
  Reaches (fun t => gap t || isSkippedWord u t) (LocksWith u words) tokens

section Tokens

variable {u : Unicode} {t : Token}

theorem isInert_of_isWhitespace (h : t.isWhitespace = true) : t.isInert = true := by
  simp only [Token.isInert, TokenType.isInert, Bool.or_eq_true]
  exact .inl h

theorem TokenType.not_isInert_of_isKeyword {t : TokenType} (h : t.isKeyword = true) :
    t.isInert = false := by
  cases t <;> first | rfl | cases h

theorem TokenType.not_isInert_of_isName {t : TokenType} (h : t.isName = true) :
    t.isInert = false := by
  cases t <;> first | rfl | cases h

theorem not_isInert_of_isKeyword (h : t.isKeyword = true) : t.isInert = false :=
  TokenType.not_isInert_of_isKeyword h

theorem not_isInert_of_isName (h : t.isName = true) : t.isInert = false :=
  TokenType.not_isInert_of_isName h

/-- What picks inert tokens only leaves a significant one out. -/
theorem gap_eq_false {gap : Token → Bool} (hgap : ∀ t, gap t = true → t.isInert = true)
    (ht : t.isInert = false) : gap t = false := by
  cases hg : gap t with
  | false => rfl
  | true => exact absurd ((hgap t hg).symm.trans ht) (by simp)

theorem not_isInert_of_isBlockedName (h : isBlockedName u t = true) : t.isInert = false := by
  simp only [isBlockedName, Bool.and_eq_true, Bool.or_eq_true] at h
  exact h.1.elim not_isInert_of_isName not_isInert_of_isKeyword

/-- A comment is not a one-character mark: it starts with an opener. -/
theorem isMark_of_value {text : String} (hw : t.isWhitespace = false)
    (hopen : commentOpeners.any (startsWith text) = false) (hv : t.value = text) :
    isMark text t = true := by
  have hcomment : t.ttype.isComment = false := by
    cases hc : t.ttype.isComment with
    | false => rfl
    | true => rw [← hv, t.comment_opens hc] at hopen; cases hopen
  have hblank : t.ttype.isWhitespace = false := hw
  simp [isMark, Token.isInert, TokenType.isInert, hcomment, hblank, hv]

theorem isKeyword_of_isKeywordWord {word : String} (h : isKeywordWord u word t = true) :
    t.isKeyword = true := by
  simp only [isKeywordWord, Bool.and_eq_true] at h
  exact h.1

end Tokens

/-! ## What each check finds -/

section Checks

variable {u : Unicode} {tokens : List Token}

/-- The keyword check reads the significant tokens only. -/
theorem checkKeywords_significant :
    checkKeywords u tokens = checkKeywords u (significant tokens) := by
  induction tokens with
  | nil => rfl
  | cons t rest ih =>
    cases hi : t.isInert with
    | false =>
      rw [significant, List.filter_cons_of_pos (by simp [hi]), ← significant]
      simp only [checkKeywords, ih]
    | true =>
      have hkeyword : t.isKeyword = false := by
        cases hk : t.isKeyword with
        | false => rfl
        | true => rw [not_isInert_of_isKeyword hk] at hi; cases hi
      have hname : ¬ (t.ttype = .name ∨ t.ttype = .nameBuiltin) := by
        intro h
        have hn : t.isName = true := by rcases h with h | h <;> simp [Token.isName, h] <;> rfl
        rw [not_isInert_of_isName hn] at hi
        cases hi
      rw [significant, List.filter_cons_of_neg (by simp [hi]), ← significant, ← ih]
      simp [checkKeywords, hkeyword, hname]

/-- The step of `_check_functions` at one token: what calls it is the next token or the one
before. -/
theorem rejects_checkCalls {preceding : Option Token}
    (hw : ∀ t ∈ tokens, t.isWhitespace = false) (hp : ∀ p ∈ preceding, p.isWhitespace = false) :
    rejects (checkCalls u preceding tokens) = true ↔
      (∃ p ∈ preceding, ∃ t ∈ tokens.head?, CallsAsField u p t) ∨
        BlockedCall u noGap tokens := by
  induction tokens generalizing preceding with
  | nil => simp [checkCalls, rejects, BlockedCall, not_reaches_nil]
  | cons t rest ih =>
    have hrest : ∀ t ∈ rest, t.isWhitespace = false := fun t ht => hw t (List.mem_cons_of_mem _ ht)
    have ht : t.isWhitespace = false := hw t List.mem_cons_self
    have ih := @ih (some t) hrest (by simpa using ht)
    -- the two ways of calling the token, in the words of the pattern
    have hparens : (rest.head?.any fun f => f.value == "(") = true ↔
        ∃ f ∈ rest.head?, isMark "(" f = true := by
      cases rest with
      | nil => simp
      | cons f rest =>
        have hf : f.isWhitespace = false := hrest f List.mem_cons_self
        suffices f.value = "(" ↔ isMark "(" f = true by simpa using this
        exact ⟨isMark_of_value hf (by decide), fun h => by simp [isMark] at h; exact h.2⟩
    have hfield : (preceding.any fun p => p.value == ".") = true ↔
        ∃ p ∈ preceding, isMark "." p = true := by
      cases preceding with
      | none => simp
      | some p =>
        have hp : p.isWhitespace = false := hp p rfl
        suffices p.value = "." ↔ isMark "." p = true by simpa using this
        exact ⟨isMark_of_value hp (by decide), fun h => by simp [isMark] at h; exact h.2⟩
    rw [BlockedCall, reaches_noGap_cons, ← BlockedCall]
    by_cases hcall : isBlockedName u t = true ∧ ((∃ f ∈ rest.head?, isMark "(" f = true) ∨
        (∃ p ∈ preceding, isMark "." p = true) ∧ functionName u t ∈ postgresFunctions)
    · have hreject : rejects (checkCalls u preceding (t :: rest)) = true := by
        have hif : (isBlockedName u t && ((rest.head?.any fun f => f.value == "(") ||
            ((preceding.any fun p => p.value == ".") &&
              decide (functionName u t ∈ postgresFunctions)))) = true := by
          simp only [Bool.and_eq_true, Bool.or_eq_true, decide_eq_true_eq, hparens, hfield]
          exact hcall
        simp [checkCalls, hif, rejects]
      refine iff_of_true hreject ?_
      obtain ⟨hblocked, ⟨f, hf, hmark⟩ | ⟨⟨p, hp, hmark⟩, hpg⟩⟩ := hcall
      · exact .inr (.inl ⟨f, hf, .inl ⟨hblocked, hmark⟩⟩)
      · exact .inl ⟨p, hp, t, rfl, hmark, hblocked, hpg⟩
    · have hnext : checkCalls u preceding (t :: rest) = checkCalls u (some t) rest := by
        have hif : (isBlockedName u t && ((rest.head?.any fun f => f.value == "(") ||
            ((preceding.any fun p => p.value == ".") &&
              decide (functionName u t ∈ postgresFunctions)))) = false := by
          rw [← Bool.not_eq_true]
          simp only [Bool.and_eq_true, Bool.or_eq_true, decide_eq_true_eq, hparens, hfield]
          exact hcall
        simp [checkCalls, hif]
      rw [hnext, ih]
      constructor
      · rintro (⟨p, hpt, f, hf, hcalls⟩ | hrest)
        · obtain rfl : t = p := by simpa using hpt
          exact .inr (.inl ⟨f, hf, .inr hcalls⟩)
        · exact .inr (.inr hrest)
      · rintro (⟨p, hp, t', ht', hmark, hblocked, hpg⟩ | ⟨f, hf, ⟨hblocked, hmark⟩ | hcalls⟩
          | hrest)
        · obtain rfl : t = t' := by simpa using ht'
          exact absurd ⟨hblocked, .inr ⟨⟨p, hp, hmark⟩, hpg⟩⟩ hcall
        · exact absurd ⟨hblocked, .inl ⟨f, hf, hmark⟩⟩ hcall
        · exact .inl ⟨t, rfl, f, hf, hcalls⟩
        · exact .inr hrest

theorem call_not_gap {gap : Token → Bool} (hgap : ∀ t, gap t = true → t.isInert = true)
    (a b : Token) (h : CallsWithParens u a b ∨ CallsAsField u a b) :
    gap a = false ∧ gap b = false := by
  have hno : ∀ t : Token, t.isInert = false → gap t = false := fun _ => gap_eq_false hgap
  have hmark : ∀ text (t : Token), isMark text t = true → t.isInert = false := fun text t h => by
    simp [isMark] at h
    exact h.1
  rcases h with ⟨ha, hb⟩ | ⟨ha, hb, -⟩
  · exact ⟨hno a (not_isInert_of_isBlockedName ha), hno b (hmark _ b hb)⟩
  · exact ⟨hno a (hmark _ a ha), hno b (not_isInert_of_isBlockedName hb)⟩

/-- A call through gaps is a call of the tokens without them. -/
theorem blockedCall_filter {gap : Token → Bool} (hgap : ∀ t, gap t = true → t.isInert = true) :
    BlockedCall u gap tokens ↔ BlockedCall u noGap (tokens.filter fun t => !gap t) := by
  have h : Reaches (fun t => gap t || noGap t) _ tokens ↔ Reaches noGap _ _ :=
    reaches_filter (call_not_gap (u := u) hgap)
  simpa [BlockedCall, noGap] using h

/-- **The function check** refuses the calls that only whitespace separates. -/
theorem rejects_checkFunctions :
    rejects (checkFunctions u tokens) = true ↔ BlockedCall u Token.isWhitespace tokens := by
  rw [checkFunctions, rejects_checkCalls (by simp) (by simp),
    blockedCall_filter fun _ => isInert_of_isWhitespace]
  simp

/-- The words after `FOR` that the locking check reads. -/
theorem locksAfterFor_iff :
    locksAfterFor u tokens = true ↔
      ∃ mid b post, tokens = mid ++ b :: post ∧
        (b.isKeyword = true ∧ u.upper b.value ∈ forbiddenLockingWords) ∧
          ∀ m ∈ mid, isSkippedWord u m = true := by
  induction tokens with
  | nil => simp [locksAfterFor]
  | cons t rest ih =>
    by_cases hskip : isSkippedWord u t = true
    · have hstep : locksAfterFor u (t :: rest) = locksAfterFor u rest := by
        simp only [isSkippedWord, Bool.and_eq_true, decide_eq_true_eq] at hskip
        simp [locksAfterFor, hskip.1, hskip.2]
      rw [hstep, ih]
      constructor
      · rintro ⟨mid, b, post, rfl, hb, hmid⟩
        refine ⟨t :: mid, b, post, rfl, hb, ?_⟩
        simpa [hskip] using hmid
      · rintro ⟨mid, b, post, h, hb, hmid⟩
        cases mid with
        | nil =>
          obtain ⟨rfl, rfl⟩ := List.cons.inj h
          -- a skipped word is not one that locks
          simp only [isSkippedWord, Bool.and_eq_true, decide_eq_true_eq, List.mem_cons,
            List.not_mem_nil, or_false] at hskip
          simp only [forbiddenLockingWords, List.mem_singleton] at hb
          rw [hb.2] at hskip
          exact absurd hskip.2 (by decide)
        | cons m mid =>
          obtain ⟨rfl, rfl⟩ := List.cons.inj h
          exact ⟨mid, b, post, rfl, hb, fun m hm => hmid m (List.mem_cons_of_mem _ hm)⟩
    · have hstep : locksAfterFor u (t :: rest) = true ↔
          t.isKeyword = true ∧ u.upper t.value ∈ forbiddenLockingWords := by
        cases hk : t.isKeyword with
        | false => simp [locksAfterFor, hk]
        | true =>
          have hword : u.upper t.value ∉ ["NO", "KEY"] := by simpa [isSkippedWord, hk] using hskip
          simp only [locksAfterFor, hk, if_true, hword, if_false, decide_eq_true_eq, true_and]
      rw [hstep]
      constructor
      · intro hb
        exact ⟨[], t, rest, rfl, hb, by simp⟩
      · rintro ⟨mid, b, post, h, hb, hmid⟩
        cases mid with
        | nil =>
          obtain ⟨rfl, rfl⟩ := List.cons.inj h
          exact hb
        | cons m mid =>
          obtain ⟨rfl, rfl⟩ := List.cons.inj h
          exact absurd (hmid t List.mem_cons_self) hskip

theorem rejects_checkLocks :
    rejects (checkLocks u tokens) = true ↔
      Reaches (isSkippedWord u) (LocksWith u forbiddenLockingWords) tokens := by
  induction tokens with
  | nil => simp [checkLocks, rejects, not_reaches_nil]
  | cons t rest ih =>
    rw [reaches_cons, checkLocks]
    by_cases hfor : (isKeywordWord u "FOR" t && locksAfterFor u rest) = true
    · rw [if_pos hfor]
      simp only [Bool.and_eq_true] at hfor
      obtain ⟨mid, b, post, hrest, hb, hmid⟩ := locksAfterFor_iff.mp hfor.2
      exact iff_of_true rfl (.inl ⟨mid, b, post, hrest, ⟨hfor.1, hb⟩, hmid⟩)
    · rw [if_neg hfor, ih, or_iff_right]
      rintro ⟨mid, b, post, hrest, ⟨ha, hb⟩, hmid⟩
      refine hfor ?_
      rw [ha, Bool.true_and]
      exact locksAfterFor_iff.mpr ⟨mid, b, post, hrest, hb, hmid⟩

/-- A locking clause through gaps is one of the tokens without them. -/
theorem lockingClause_filter {words : List String} {gap : Token → Bool}
    (hgap : ∀ t, gap t = true → t.isInert = true) :
    LockingClause u words gap tokens ↔
      LockingClause u words noGap (tokens.filter fun t => !gap t) := by
  have hno : ∀ t : Token, t.isKeyword = true → gap t = false := fun _ ht =>
    gap_eq_false hgap (not_isInert_of_isKeyword ht)
  have h : Reaches (fun t => gap t || isSkippedWord u t) (LocksWith u words) tokens ↔ _ :=
    reaches_filter fun a b h => ⟨hno a (isKeyword_of_isKeywordWord h.1), hno b h.2.1⟩
  simpa [LockingClause, noGap] using h

/-- **The locking check** refuses the `FOR ... SHARE` that only whitespace separates. -/
theorem rejects_checkLockingClause :
    rejects (checkLockingClause u tokens) = true ↔
      LockingClause u forbiddenLockingWords Token.isWhitespace tokens := by
  rw [checkLockingClause, rejects_checkLocks,
    lockingClause_filter fun _ => isInert_of_isWhitespace]
  simp [LockingClause, noGap]

end Checks

/-! ## Indifference to inert tokens -/

/-- The three checks give the same verdicts. -/
structure SameVerdicts (u : Unicode) (tokens tokens' : List Token) : Prop where
  keywords : rejects (checkKeywords u tokens) = rejects (checkKeywords u tokens')
  functions : rejects (checkFunctions u tokens) = rejects (checkFunctions u tokens')
  locking : rejects (checkLockingClause u tokens) = rejects (checkLockingClause u tokens')

/-- A blocked call and a locking read, through any inert tokens, are refused. -/
structure RefusesThroughInert (u : Unicode) (tokens : List Token) : Prop where
  calls : Reaches Token.isInert (CallsWithParens u) tokens →
    rejects (checkFunctions u tokens) = true
  locks : LockingClause u ["UPDATE", "SHARE"] Token.isInert tokens →
    rejects (checkKeywords u tokens) = true ∨ rejects (checkLockingClause u tokens) = true

/-- The verdicts on two token lists, and on the first without its inert tokens, are the same, and
what has to be refused through inert tokens is. -/
structure IndifferentToInert (u : Unicode) (tokens tokens' : List Token) : Prop where
  same : SameVerdicts u tokens tokens'
  bare : SameVerdicts u tokens (significant tokens)
  refuses : RefusesThroughInert u tokens
  refuses' : RefusesThroughInert u tokens'

/-- No comment hides the only blocked call or the only locking clause: where there is one through
inert tokens, there is one through whitespace. -/
structure NotHidden (u : Unicode) (tokens : List Token) : Prop where
  call : BlockedCall u Token.isInert tokens → BlockedCall u Token.isWhitespace tokens
  lock : LockingClause u forbiddenLockingWords Token.isInert tokens →
    LockingClause u forbiddenLockingWords Token.isWhitespace tokens

section Indifference

variable {u : Unicode} {tokens tokens' : List Token}

theorem significant_filter {gap : Token → Bool} (hgap : ∀ t, gap t = true → t.isInert = true) :
    ((significant tokens).filter fun t => !gap t) = significant tokens := by
  refine List.filter_eq_self.mpr fun t ht => ?_
  have hinert : t.isInert = false := by simpa using (List.mem_filter.mp ht).2
  rw [gap_eq_false hgap hinert]
  rfl

/-- The significant tokens have the blocked calls that inert tokens separate. -/
theorem blockedCall_significant :
    BlockedCall u Token.isWhitespace (significant tokens) ↔ BlockedCall u Token.isInert tokens := by
  rw [blockedCall_filter fun _ => isInert_of_isWhitespace,
    significant_filter fun _ => isInert_of_isWhitespace, blockedCall_filter fun _ h => h]
  rfl

theorem lockingClause_significant {words : List String} :
    LockingClause u words Token.isWhitespace (significant tokens) ↔
      LockingClause u words Token.isInert tokens := by
  rw [lockingClause_filter fun _ => isInert_of_isWhitespace,
    significant_filter fun _ => isInert_of_isWhitespace, lockingClause_filter fun _ h => h]
  rfl

theorem blockedCall_of_whitespace (h : BlockedCall u Token.isWhitespace tokens) :
    BlockedCall u Token.isInert tokens :=
  h.mono (fun _ => isInert_of_isWhitespace) fun _ _ _ _ => id

theorem lockingClause_of_whitespace {words : List String}
    (h : LockingClause u words Token.isWhitespace tokens) :
    LockingClause u words Token.isInert tokens := by
  refine h.mono (fun t ht => ?_) fun _ _ _ _ => id
  simp only [Bool.or_eq_true] at ht ⊢
  exact ht.imp_left isInert_of_isWhitespace

/-- Where nothing is hidden the function check reads the significant tokens only. -/
theorem NotHidden.rejects_functions (h : NotHidden u tokens) :
    rejects (checkFunctions u tokens) = true ↔ BlockedCall u Token.isInert tokens :=
  rejects_checkFunctions.trans ⟨blockedCall_of_whitespace, h.call⟩

theorem NotHidden.rejects_locking (h : NotHidden u tokens) :
    rejects (checkLockingClause u tokens) = true ↔
      LockingClause u forbiddenLockingWords Token.isInert tokens :=
  rejects_checkLockingClause.trans ⟨lockingClause_of_whitespace, h.lock⟩

/-- `UPDATE` after `FOR` is on the keyword list. -/
theorem rejects_checkKeywords_of_update {t : Token} (ht : t ∈ tokens) (hk : t.isKeyword = true)
    (hw : u.upper t.value = "UPDATE") : rejects (checkKeywords u tokens) = true := by
  induction tokens with
  | nil => simp at ht
  | cons a rest ih =>
    rcases List.mem_cons.mp ht with rfl | ht
    · have hmem : u.upper t.value ∈ forbiddenKeywords := by rw [hw]; decide
      simp [checkKeywords, hk, hmem, rejects]
    · rw [checkKeywords]
      split_ifs
      · rfl
      · exact ih ht
      · rfl
      · exact ih ht
      · exact ih ht

theorem NotHidden.refuses (h : NotHidden u tokens) : RefusesThroughInert u tokens where
  calls hcall := h.rejects_functions.mpr (hcall.mono (fun _ => id) fun _ _ _ _ => .inl)
  locks hlock := by
    obtain ⟨pre, a, mid, b, post, rfl, ⟨hfor, hb, hword⟩, hmid⟩ := hlock
    rcases List.mem_cons.mp hword with hupdate | hshare
    · exact .inl (rejects_checkKeywords_of_update (by simp) hb hupdate)
    · exact .inr (h.rejects_locking.mpr ⟨pre, a, mid, b, post, rfl, ⟨hfor, hb, hshare⟩, hmid⟩)

theorem NotHidden.significant : NotHidden u (significant tokens) where
  call h := by
    rw [blockedCall_filter fun _ => isInert_of_isWhitespace,
      significant_filter fun _ => isInert_of_isWhitespace]
    rwa [blockedCall_filter fun _ h => h, significant_filter fun _ h => h] at h
  lock h := by
    rw [lockingClause_filter fun _ => isInert_of_isWhitespace,
      significant_filter fun _ => isInert_of_isWhitespace]
    rwa [lockingClause_filter fun _ h => h, significant_filter fun _ h => h] at h

/-- Lists with the same significant tokens, with nothing hidden in either, get the same verdicts. -/
theorem NotHidden.sameVerdicts (h : NotHidden u tokens) (h' : NotHidden u tokens')
    (hsame : Security.significant tokens = Security.significant tokens') :
    SameVerdicts u tokens tokens' where
  keywords := by rw [checkKeywords_significant, hsame, ← checkKeywords_significant]
  functions := by
    rw [Bool.eq_iff_iff, h.rejects_functions, h'.rejects_functions, ← blockedCall_significant,
      hsame, blockedCall_significant]
  locking := by
    rw [Bool.eq_iff_iff, h.rejects_locking, h'.rejects_locking, ← lockingClause_significant,
      hsame, lockingClause_significant]

/-- Verdicts that are those of the significant tokens hide nothing. -/
theorem NotHidden.of_sameVerdicts (h : SameVerdicts u tokens (Security.significant tokens)) :
    NotHidden u tokens where
  call hcall := by
    rw [← rejects_checkFunctions, h.functions, rejects_checkFunctions]
    exact blockedCall_significant.mpr hcall
  lock hlock := by
    rw [← rejects_checkLockingClause, h.locking, rejects_checkLockingClause]
    exact lockingClause_significant.mpr hlock

theorem SameVerdicts.symm (h : SameVerdicts u tokens tokens') : SameVerdicts u tokens' tokens :=
  ⟨h.keywords.symm, h.functions.symm, h.locking.symm⟩

theorem SameVerdicts.trans {tokens'' : List Token} (h : SameVerdicts u tokens tokens')
    (h' : SameVerdicts u tokens' tokens'') : SameVerdicts u tokens tokens'' :=
  ⟨h.keywords.trans h'.keywords, h.functions.trans h'.functions, h.locking.trans h'.locking⟩

/-- **Indifference to inert tokens** holds of two token lists with the same significant tokens
exactly when no comment hides a blocked call or a locking clause in either. -/
theorem indifferentToInert_iff (u : Unicode) (tokens tokens' : List Token)
    (hsame : significant tokens = significant tokens') :
    IndifferentToInert u tokens tokens' ↔ NotHidden u tokens ∧ NotHidden u tokens' := by
  constructor
  · intro h
    have hbare' : SameVerdicts u tokens' (significant tokens') := by
      rw [← hsame]
      exact h.same.symm.trans h.bare
    exact ⟨.of_sameVerdicts h.bare, .of_sameVerdicts hbare'⟩
  · rintro ⟨h, h'⟩
    have hidem : significant (significant tokens) = significant tokens :=
      significant_filter fun _ h => h
    exact ⟨h.sameVerdicts h' hsame, h.sameVerdicts .significant hidem.symm, h.refuses, h'.refuses⟩

end Indifference

/-- An optimizer hint. -/
def hint : Token := ⟨.commentMultilineHint, "/*+ x */", fun _ => by decide⟩

/-- `SELECT pg_read_file(1)`, with the tokens `gap` before the bracket. -/
def readFileCall (gap : List Token) : List Token :=
  [.of .keywordDml "SELECT", .of .whitespace " ", .of .name "pg_read_file"] ++ gap ++
    [.of (.other "Punctuation") "(", .of (.other "Number.Integer") "1",
      .of (.other "Punctuation") ")"]

/-- `FOR SHARE`, with the tokens `gap` between the words. -/
def forShare (gap : List Token) : List Token :=
  .of .keyword "FOR" :: gap ++ [.of .keyword "SHARE"]

theorem indifferentToInert_iff_readFileCall :
    IndifferentToInert .ascii (readFileCall [.of .whitespace " "]) (readFileCall []) ↔
      NotHidden .ascii (readFileCall [.of .whitespace " "]) ∧ NotHidden .ascii (readFileCall []) :=
  indifferentToInert_iff .ascii (readFileCall [.of .whitespace " "]) (readFileCall []) rfl

/-- A hint between the name and the bracket, or between the words of the locking clause, turns the
refusal into an acceptance. -/
theorem hint_hides :
    significant (readFileCall [hint]) = significant (readFileCall []) ∧
      rejects (checkFunctions .ascii (readFileCall [])) = true ∧
      rejects (checkFunctions .ascii (readFileCall [hint])) = false ∧
      significant (forShare [hint]) = significant (forShare []) ∧
      rejects (checkLockingClause .ascii (forShare [])) = true ∧
      rejects (checkLockingClause .ascii (forShare [hint])) = false ∧
      ¬ IndifferentToInert .ascii (readFileCall [hint]) (readFileCall []) := by
  have haccept : rejects (checkFunctions .ascii (readFileCall [hint])) = false := by decide
  have hreject : rejects (checkFunctions .ascii (readFileCall [])) = true := by decide
  refine ⟨rfl, hreject, haccept, rfl, by decide, by decide, fun h => ?_⟩
  exact absurd (haccept.symm.trans (h.same.functions.trans hreject)) Bool.false_ne_true

end FraudAnalyzer.Security
