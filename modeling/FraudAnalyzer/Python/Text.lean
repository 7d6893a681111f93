import FraudAnalyzer.Lib.Json
import Mathlib.Data.List.Infix

/-!
# Python strings

`str` operations that the modelled code calls. What depends on the interpreter's Unicode database
is a field of `Unicode`; `Unicode.ascii` is that database on ASCII text, where a run on a fixed
input stays.

Texts are `String`s; a function that scans one works on its list of characters.
-/

namespace FraudAnalyzer.Python

/-- What the interpreter's Unicode database decides. -/
structure Unicode where
  /-- `str.lower` -/
  lower : String → String
  /-- `str.upper` -/
  upper : String → String
  /-- `str.casefold` -/
  casefold : String → String
  /-- `str.isspace` of one character, which is also what `\s` matches -/
  isSpace : Char → Bool
  /-- `str.isprintable` of one character -/
  isPrintable : Char → Bool
  /-- The value of a decimal digit of any script -/
  digit : Char → Option Nat

/-- The database on ASCII text. -/
def Unicode.ascii : Unicode where
  lower s := String.ofList (s.toList.map Char.toLower)
  upper s := String.ofList (s.toList.map Char.toUpper)
  casefold s := String.ofList (s.toList.map Char.toLower)
  isSpace c := c == ' ' || (9 ≤ c.toNat && c.toNat ≤ 13) || (28 ≤ c.toNat && c.toNat ≤ 31)
  isPrintable c := 32 ≤ c.toNat && c.toNat < 127
  digit c := if c.isDigit then some (c.toNat - '0'.toNat) else none

/-- `s.strip(chars)` for the characters `p` picks. -/
def stripChars (p : Char → Bool) (s : String) : String :=
  String.ofList ((s.toList.dropWhile p).reverse.dropWhile p).reverse

/-- `s.strip()`. -/
def strip (u : Unicode) (s : String) : String := stripChars u.isSpace s

/-- `needle in s`. -/
def contains (s needle : String) : Bool := decide (needle.toList <:+: s.toList)

/-- `s.startswith(start)`. -/
def startsWith (s start : String) : Bool := start.toList.isPrefixOf s.toList

/-- `sep.join(parts)`. -/
def join (sep : String) : List String → String
  | [] => ""
  | [s] => s
  | s :: ss => s ++ sep ++ join sep ss

/-- `n` hexadecimal digits of `k`, as in `f"{k:0nx}"`. -/
def hexDigits : Nat → Nat → List Char
  | 0, _ => []
  | n + 1, k => hexDigits n (k / 16) ++ [Json.hexDigit (k % 16)]

/-- One character of `repr(s)` in the given quotes. -/
def reprChar (u : Unicode) (quote c : Char) : List Char :=
  if c = quote ∨ c = '\\' then ['\\', c]
  else if c = '\t' then ['\\', 't']
  else if c = '\n' then ['\\', 'n']
  else if c = '\r' then ['\\', 'r']
  else if u.isPrintable c then [c]
  else if c.toNat < 0x100 then '\\' :: 'x' :: hexDigits 2 c.toNat
  else if c.toNat < 0x10000 then '\\' :: 'u' :: hexDigits 4 c.toNat
  else '\\' :: 'U' :: hexDigits 8 c.toNat

/-- `repr(s)`: single quotes unless the text has one and no double quote. -/
def repr (u : Unicode) (s : String) : String :=
  let quote := if '\'' ∈ s.toList ∧ '"' ∉ s.toList then '"' else '\''
  String.ofList (quote :: s.toList.flatMap (reprChar u quote) ++ [quote])

/-! ## Separators -/

section Split

variable {α : Type} {sep : α} {a b x y : List α}

/-- A text is cut at the first separator in one way. -/
theorem split_at_first (ha : sep ∉ a) (hb : sep ∉ b) (h : a ++ sep :: x = b ++ sep :: y) :
    a = b ∧ x = y := by
  induction a generalizing b with
  | nil =>
    cases b with
    | nil => exact ⟨rfl, (List.cons.inj h).2⟩
    | cons c b =>
      obtain ⟨rfl, -⟩ := List.cons.inj h
      exact absurd List.mem_cons_self hb
  | cons c a ih =>
    cases b with
    | nil =>
      obtain ⟨rfl, -⟩ := List.cons.inj h
      exact absurd List.mem_cons_self ha
    | cons d b =>
      obtain ⟨rfl, hrest⟩ := List.cons.inj h
      obtain ⟨rfl, hxy⟩ := ih (fun hm => ha (List.mem_cons_of_mem _ hm))
        (fun hm => hb (List.mem_cons_of_mem _ hm)) hrest
      exact ⟨rfl, hxy⟩

/-- And at the last one. -/
theorem split_at_last (hx : sep ∉ x) (hy : sep ∉ y) (h : a ++ [sep] ++ x = b ++ [sep] ++ y) :
    a = b ∧ x = y := by
  have hrev := congrArg List.reverse h
  simp only [List.reverse_append, List.reverse_singleton, List.singleton_append] at hrev
  obtain ⟨hxy, hab⟩ := split_at_first (by simpa using hx) (by simpa using hy) hrev
  exact ⟨List.reverse_injective hab, List.reverse_injective hxy⟩

end Split

end FraudAnalyzer.Python
