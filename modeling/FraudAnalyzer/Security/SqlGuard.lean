import FraudAnalyzer.Errors
import FraudAnalyzer.Policy.SqlAllowlist

/-!
# The SELECT-only SQL validator

`app/security/sql_guard.py`. The tokenizer is a third-party package; the guard sees it through
`SqlParse`: the text without comments, and the statements of a text with their type and flattened
tokens. Everything the guard itself decides is defined here, in its order of checks.
-/

namespace FraudAnalyzer.Security

open Python Policy

/-! ## Tokens -/

/-- The token types the guard tells apart; `other` is any further type, by its name. -/
inductive TokenType where
  | keyword
  | keywordDml
  | keywordDdl
  | keywordDcl
  | keywordCte
  | name
  | nameBuiltin
  | namePlaceholder
  | stringSymbol
  | whitespace
  | newline
  | commentSingle
  | commentMultiline
  | commentSingleHint
  | commentMultilineHint
  | other (path : String)
  deriving DecidableEq, Repr

namespace TokenType

/-- `_KEYWORD_TYPES` -/
def isKeyword : TokenType → Bool
  | keyword | keywordDml | keywordDdl | keywordDcl | keywordCte => true
  | _ => false

/-- `_NAME_TYPES` -/
def isName : TokenType → Bool
  | name | nameBuiltin | namePlaceholder | stringSymbol => true
  | _ => false

/-- `ttype in T.Whitespace`, the token's `is_whitespace`. -/
def isWhitespace : TokenType → Bool
  | whitespace | newline => true
  | _ => false

/-- `ttype in T.Comment`, hint comments included. -/
def isComment : TokenType → Bool
  | commentSingle | commentMultiline | commentSingleHint | commentMultilineHint => true
  | _ => false

/-- A type that separates tokens without being one of the statement's own. -/
def isInert (t : TokenType) : Bool := t.isWhitespace || t.isComment

end TokenType

/-- The openers of a comment. -/
def commentOpeners : List String := ["--", "#", "/*"]

/-- A token of the flattened statement. A comment token is the text of a comment, so it starts with
one of the openers. -/
structure Token where
  ttype : TokenType
  value : String
  comment_opens : ttype.isComment = true → commentOpeners.any (startsWith value) = true

namespace Token

def isKeyword (t : Token) : Bool := t.ttype.isKeyword
def isName (t : Token) : Bool := t.ttype.isName
def isWhitespace (t : Token) : Bool := t.ttype.isWhitespace
def isInert (t : Token) : Bool := t.ttype.isInert

/-- A token that is not a comment. -/
def of (ttype : TokenType) (value : String) (h : ttype.isComment = false := by rfl) : Token :=
  ⟨ttype, value, fun hc => absurd (h.symm.trans hc) Bool.false_ne_true⟩

end Token

/-- A parsed statement: its text, its type as `get_type` reports it, its tokens as `flatten`
yields them. -/
structure Statement where
  text : String
  type : String
  tokens : List Token

/-- How a call into the parser fails. -/
inductive ParseFailure where
  | sqlParseError (text : String)
  | recursionError

/-- The third-party parser. -/
structure SqlParse where
  /-- `sqlparse.format(sql, strip_comments=True)` -/
  stripComments : String → Except ParseFailure String
  /-- `sqlparse.parse(sql)` -/
  parse : String → Except ParseFailure (List Statement)

/-! ## The checks -/

/-- `_BACKSLASH_QUOTE` -/
def backslashQuote : String := "\\'"

/-- A character of `[A-Za-z0-9_]`. -/
def isWordChar (c : Char) : Bool := c.isAlphanum || c == '_'

/-- `[uU]&\s*['"]` matches at the front of the text. -/
def unicodeEscapeHere (u : Unicode) : List Char → Bool
  | c :: '&' :: rest =>
    (c == 'u' || c == 'U') &&
      (rest.dropWhile u.isSpace).head?.any fun q => q == '\'' || q == '"'
  | _ => false

/-- `_UNICODE_ESCAPE_LITERAL.search`: a match anywhere that no word character precedes. -/
def unicodeEscapeLiteral (u : Unicode) (before : Option Char) : List Char → Bool
  | [] => false
  | c :: rest =>
    (!before.any isWordChar && unicodeEscapeHere u (c :: rest)) ||
      unicodeEscapeLiteral u (some c) rest

/-- `_check_unambiguous_lexing` -/
def checkUnambiguousLexing (u : Unicode) (sql : String) : Except AppError Unit :=
  if contains sql backslashQuote then
    .error ⟨.invalidSql,
      "The statement contains a backslash before a quote (\\'), which means different things on " ++
        "different databases and cannot be validated safely. Write a literal quote as '' instead.",
      []⟩
  else if unicodeEscapeLiteral u none sql.toList then
    .error ⟨.invalidSql,
      "Unicode-escaped literals (U&'...' / U&\"...\") are not accepted: the escapes hide the " ++
        "real identifier from validation.",
      []⟩
  else .ok ()

/-- The rejection of a forbidden keyword or name. -/
def forbiddenKeyword (u : Unicode) (word : String) : AppError :=
  ⟨.forbiddenKeyword,
    "Forbidden keyword " ++ repr u word ++ ": only read-only SELECT statements are permitted.",
    [("keyword", .str word)]⟩

/-- `_check_keywords` -/
def checkKeywords (u : Unicode) : List Token → Except AppError Unit
  | [] => .ok ()
  | token :: rest =>
    if token.isKeyword then
      if u.upper token.value ∈ forbiddenKeywords then
        .error (forbiddenKeyword u (u.upper token.value))
      else checkKeywords u rest
    else if token.ttype = .name ∨ token.ttype = .nameBuiltin then
      if u.lower token.value ∈ forbiddenNames then
        .error (forbiddenKeyword u (u.upper token.value))
      else checkKeywords u rest
    else checkKeywords u rest

/-- `_QUOTES`: the quote characters stripped from an identifier. -/
def isQuoteChar (c : Char) : Bool := "\"`[]".toList.contains c

/-- The function a name or keyword token may call. -/
def functionName (u : Unicode) (token : Token) : String :=
  u.lower (stripChars isQuoteChar token.value)

/-- The token can carry a function's name and that function is blocked. -/
def isBlockedName (u : Unicode) (token : Token) : Bool :=
  (token.isName || token.isKeyword) && functionName u token ∈ forbiddenFunctions

/-- The loop of `_check_functions` over the tokens that are not whitespace. -/
def checkCalls (u : Unicode) (preceding : Option Token) : List Token → Except AppError Unit
  | [] => .ok ()
  | token :: rest =>
    let calledWithParens := rest.head?.any fun following => following.value == "("
    let calledAsField := (preceding.any fun p => p.value == ".") &&
      functionName u token ∈ postgresFunctions
    if isBlockedName u token && (calledWithParens || calledAsField) then
      .error ⟨.forbiddenFunction,
        "Forbidden function " ++ repr u (functionName u token) ++
          ": it can read the filesystem, open a network connection, change session settings, or " ++
          "stall the server.",
        [("function", .str (functionName u token))]⟩
    else checkCalls u (some token) rest

/-- `_check_functions` -/
def checkFunctions (u : Unicode) (tokens : List Token) : Except AppError Unit :=
  checkCalls u none (tokens.filter fun t => !t.isWhitespace)

/-- A keyword token spelled `word`, in any case. -/
def isKeywordWord (u : Unicode) (word : String) (token : Token) : Bool :=
  token.isKeyword && u.upper token.value == word

/-- The words after a `FOR` reach a forbidden one through `NO` and `KEY`. -/
def locksAfterFor (u : Unicode) : List Token → Bool
  | [] => false
  | following :: rest =>
    if following.isKeyword then
      if u.upper following.value ∈ ["NO", "KEY"] then locksAfterFor u rest
      else u.upper following.value ∈ forbiddenLockingWords
    else false

/-- The loop of `_check_locking_clause` over the tokens that are not whitespace. -/
def checkLocks (u : Unicode) : List Token → Except AppError Unit
  | [] => .ok ()
  | token :: rest =>
    if isKeywordWord u "FOR" token && locksAfterFor u rest then
      .error ⟨.forbiddenKeyword,
        "Forbidden locking clause 'FOR SHARE': it takes row locks on the target database. Only " ++
          "plain reads are permitted.",
        [("keyword", .str "FOR SHARE")]⟩
    else checkLocks u rest

/-- `_check_locking_clause` -/
def checkLockingClause (u : Unicode) (tokens : List Token) : Except AppError Unit :=
  checkLocks u (tokens.filter fun t => !t.isWhitespace)

/-! ## The validator -/

/-- `_parsed`: a parser failure is an invalid statement. -/
def parsed {α : Type} : Except ParseFailure α → Except AppError α
  | .ok a => .ok a
  | .error (.sqlParseError text) =>
    .error ⟨.invalidSql, "The statement could not be parsed: " ++ text, []⟩
  | .error .recursionError =>
    .error ⟨.invalidSql, "The statement is nested too deeply to parse.", []⟩

/-- `text.strip().rstrip(";").strip()` -/
def significantText (u : Unicode) (text : String) : String :=
  strip u (String.ofList ((strip u text).toList.reverse.dropWhile (· == ';')).reverse)

def emptyStatement (message : String) : AppError := ⟨.emptyStatement, message, []⟩

/-- `_validate_uncached`; `maxLength` is the setting `max_sql_length`. -/
def validateUncached (u : Unicode) (sqlparse : SqlParse) (maxLength : Nat) (sql : String) :
    Except AppError String := do
  if strip u sql = "" then
    throw (emptyStatement "No SQL statement was provided.")
  if sql.length > maxLength then
    throw ⟨.sqlTooLong,
      "The statement is " ++ toString sql.length ++ " characters, over the " ++
        toString maxLength ++ " character limit.",
      [("length", .ofInt sql.length), ("max_length", .ofInt maxLength)]⟩
  checkUnambiguousLexing u sql
  let stripped := strip u (← parsed (sqlparse.stripComments sql))
  if stripped = "" ∨ strip u (stripChars (· == ';') stripped) = "" then
    throw (emptyStatement "The statement is empty once comments are removed.")
  let statements := (← parsed (sqlparse.parse stripped)).filter
    fun statement => significantText u statement.text ≠ ""
  match statements with
  | [] => throw (emptyStatement "No executable statement was found.")
  | _ :: _ :: _ =>
    throw ⟨.multipleStatements,
      "Multiple statements are not allowed; found " ++ toString statements.length ++
        ". Submit exactly one SELECT.",
      [("statement_count", .ofInt statements.length)]⟩
  | [statement] =>
    let single := significantText u statement.text
    if statement.type ∉ allowedStatementTypes then
      throw ⟨.nonSelectStatement,
        "Only SELECT statements are permitted; this is " ++
          (if statement.type ≠ "UNKNOWN" then statement.type else "not a SELECT") ++ ".",
        [("statement_type", .str statement.type)]⟩
    checkKeywords u statement.tokens
    checkFunctions u statement.tokens
    checkLockingClause u statement.tokens
    checkUnambiguousLexing u single
    return single

end FraudAnalyzer.Security
