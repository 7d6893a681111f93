import Mathlib.Data.List.Sort
import Mathlib.Data.String.Basic
import Std.Data.String.ToInt

/-!
# Compact JSON

JSON values with their compact text: no blanks, members in the order given, characters outside
ASCII written as they are. A number is kept as the text of its token, so an integer and a float
that print differently are different values.

`read` inverts `write` (`read_write`), hence `write` is injective. `sortKeys` orders the members of
every object; two objects with the same members in the same order are recovered from their sorted
forms (`eq_of_sortFields_eq`).
-/

/-- The characters a number token is made of. -/
def isNumberChar (c : Char) : Bool :=
  c.isDigit || c == '-' || c == '+' || c == '.' || c == 'e' || c == 'E'

theorem isNumberChar_of_isDigit {c : Char} (h : c.isDigit = true) : isNumberChar c = true := by
  simp [isNumberChar, h]

/-- The text of a number: not empty, and of number characters only. -/
structure NumberToken where
  chars : List Char
  ne_nil : chars ≠ []
  all_number : ∀ c ∈ chars, isNumberChar c = true
  deriving DecidableEq

inductive Json where
  | null
  | bool (b : Bool)
  | num (token : NumberToken)
  | str (s : String)
  | arr (items : List Json)
  | obj (fields : List (String × Json))

namespace Json

/-! ## Strings -/

/-- A hexadecimal digit, lower case. -/
def hexDigit (d : Nat) : Char :=
  if d < 10 then Char.ofNat ('0'.toNat + d) else Char.ofNat ('a'.toNat + (d - 10))

/-- The value of a hexadecimal digit in lower case. -/
def hexValue (c : Char) : Option Nat :=
  if '0' ≤ c ∧ c ≤ '9' then some (c.toNat - '0'.toNat)
  else if 'a' ≤ c ∧ c ≤ 'f' then some (c.toNat - 'a'.toNat + 10)
  else none

/-- A character inside a string: quotes, backslashes and control characters are escaped. -/
def escapeChar (c : Char) : List Char :=
  if c = '"' then ['\\', '"']
  else if c = '\\' then ['\\', '\\']
  else if c = '\n' then ['\\', 'n']
  else if c = '\r' then ['\\', 'r']
  else if c = '\t' then ['\\', 't']
  else if c = Char.ofNat 12 then ['\\', 'f']
  else if c = Char.ofNat 8 then ['\\', 'b']
  else if c.toNat < 32 then
    ['\\', 'u', '0', '0', hexDigit (c.toNat / 16), hexDigit (c.toNat % 16)]
  else [c]

/-- A string with its closing quote. -/
def writeChars : List Char → List Char
  | [] => ['"']
  | c :: cs => escapeChar c ++ writeChars cs

/-- The character an escape of one letter stands for. -/
def unescape (c : Char) : Option Char :=
  if c = '"' then some '"'
  else if c = '\\' then some '\\'
  else if c = 'n' then some '\n'
  else if c = 'r' then some '\r'
  else if c = 't' then some '\t'
  else if c = 'f' then some (Char.ofNat 12)
  else if c = 'b' then some (Char.ofNat 8)
  else none

/-- Read a string up to its closing quote. -/
def readChars : List Char → Option (List Char × List Char)
  | [] => none
  | '"' :: rest => some ([], rest)
  | '\\' :: 'u' :: '0' :: '0' :: h :: l :: rest =>
    match hexValue h, hexValue l, readChars rest with
    | some h, some l, some (cs, rest) => some (Char.ofNat (16 * h + l) :: cs, rest)
    | _, _, _ => none
  | '\\' :: e :: rest =>
    match unescape e, readChars rest with
    | some c, some (cs, rest) => some (c :: cs, rest)
    | _, _ => none
  | c :: rest =>
    match readChars rest with
    | some (cs, rest) => some (c :: cs, rest)
    | none => none

theorem hexValue_hexDigit : ∀ d < 16, hexValue (hexDigit d) = some d := by
  decide

theorem readChars_escape {e c : Char} (he : unescape e = some c) (hu : e ≠ 'u')
    (rest : List Char) :
    readChars ('\\' :: e :: rest) = (readChars rest).map fun p => (c :: p.1, p.2) := by
  rw [readChars]
  · rw [he]
    cases readChars rest <;> rfl
  · intro _ _ _ h
    exact absurd h hu

theorem readChars_plain {c : Char} (hq : c ≠ '"') (hb : c ≠ '\\') (rest : List Char) :
    readChars (c :: rest) = (readChars rest).map fun p => (c :: p.1, p.2) := by
  rw [readChars]
  · cases readChars rest <;> rfl
  all_goals intros; simp_all

theorem readChars_control {c : Char} (hc : c.toNat < 32) (rest : List Char) :
    readChars ('\\' :: 'u' :: '0' :: '0' :: hexDigit (c.toNat / 16) ::
        hexDigit (c.toNat % 16) :: rest) =
      (readChars rest).map fun p => (c :: p.1, p.2) := by
  have hhi : hexValue (hexDigit (c.toNat / 16)) = some (c.toNat / 16) :=
    hexValue_hexDigit _ (by omega)
  have hlo : hexValue (hexDigit (c.toNat % 16)) = some (c.toNat % 16) :=
    hexValue_hexDigit _ (by omega)
  have hval : Char.ofNat (16 * (c.toNat / 16) + c.toNat % 16) = c := by
    rw [Nat.div_add_mod, Char.ofNat_toNat]
  rw [readChars, hhi, hlo]
  cases readChars rest <;> simp [hval]

/-- Reading undoes the escape of one character. -/
theorem readChars_escapeChar (c : Char) (rest : List Char) :
    readChars (escapeChar c ++ rest) = (readChars rest).map fun p => (c :: p.1, p.2) := by
  unfold escapeChar
  split_ifs with hq hb hn hr ht hf hbs hctl
  · subst hq; exact readChars_escape rfl (by decide) rest
  · subst hb; exact readChars_escape rfl (by decide) rest
  · subst hn; exact readChars_escape rfl (by decide) rest
  · subst hr; exact readChars_escape rfl (by decide) rest
  · subst ht; exact readChars_escape rfl (by decide) rest
  · subst hf; exact readChars_escape rfl (by decide) rest
  · subst hbs; exact readChars_escape rfl (by decide) rest
  · exact readChars_control hctl rest
  · exact readChars_plain hq hb rest

theorem readChars_writeChars (cs rest : List Char) :
    readChars (writeChars cs ++ rest) = some (cs, rest) := by
  induction cs with
  | nil => simp [writeChars, readChars]
  | cons c cs ih => rw [writeChars, List.append_assoc, readChars_escapeChar, ih]; rfl

/-! ## Values -/

mutual

/-- The compact text of a value. -/
def write : Json → List Char
  | .null => "null".toList
  | .bool true => "true".toList
  | .bool false => "false".toList
  | .num token => token.chars
  | .str s => '"' :: writeChars s.toList
  | .arr items => '[' :: writeItems false items
  | .obj fields => '{' :: writeFields false fields

/-- Items up to the closing bracket; `more` when a comma comes before the next one. -/
def writeItems (more : Bool) : List Json → List Char
  | [] => [']']
  | v :: vs => (if more then [','] else []) ++ (write v ++ writeItems true vs)

/-- Members up to the closing brace. -/
def writeFields (more : Bool) : List (String × Json) → List Char
  | [] => ['}']
  | (k, v) :: fs =>
    (if more then [','] else []) ++
      ('"' :: (writeChars k.toList ++ ':' :: (write v ++ writeFields true fs)))

end

/-- Read a number token from the front. -/
def readNumber (text : List Char) : Option (Json × List Char) :=
  let chars := text.takeWhile isNumberChar
  if h : chars ≠ [] ∧ chars.all isNumberChar = true then
    some (.num ⟨chars, h.1, List.all_eq_true.mp h.2⟩, text.dropWhile isNumberChar)
  else none

mutual

/-- Read one value from the front; `fuel` bounds the nesting. -/
def readValue : Nat → List Char → Option (Json × List Char)
  | 0, _ => none
  | _ + 1, '"' :: rest => (readChars rest).map fun p => (.str (String.ofList p.1), p.2)
  | fuel + 1, '[' :: rest => (readItems fuel false rest).map fun p => (.arr p.1, p.2)
  | fuel + 1, '{' :: rest => (readFields fuel false rest).map fun p => (.obj p.1, p.2)
  | _ + 1, 'n' :: 'u' :: 'l' :: 'l' :: rest => some (.null, rest)
  | _ + 1, 't' :: 'r' :: 'u' :: 'e' :: rest => some (.bool true, rest)
  | _ + 1, 'f' :: 'a' :: 'l' :: 's' :: 'e' :: rest => some (.bool false, rest)
  | _ + 1, text => readNumber text

/-- Read items up to the closing bracket. -/
def readItems : Nat → Bool → List Char → Option (List Json × List Char)
  | 0, _, _ => none
  | _ + 1, _, ']' :: rest => some ([], rest)
  | fuel + 1, true, ',' :: rest =>
    (readValue fuel rest).bind fun p =>
      (readItems fuel true p.2).map fun q => (p.1 :: q.1, q.2)
  | _ + 1, true, _ => none
  | fuel + 1, false, text =>
    (readValue fuel text).bind fun p =>
      (readItems fuel true p.2).map fun q => (p.1 :: q.1, q.2)

/-- Read members up to the closing brace. -/
def readFields : Nat → Bool → List Char → Option (List (String × Json) × List Char)
  | 0, _, _ => none
  | _ + 1, _, '}' :: rest => some ([], rest)
  | fuel + 1, true, ',' :: '"' :: rest => readMember fuel rest
  | fuel + 1, false, '"' :: rest => readMember fuel rest
  | _ + 1, _, _ => none

/-- Read one member after the opening quote of its key, then the members after it. -/
def readMember : Nat → List Char → Option (List (String × Json) × List Char)
  | 0, _ => none
  | fuel + 1, text =>
    match readChars text with
    | some (k, ':' :: rest) =>
      (readValue fuel rest).bind fun p =>
        (readFields fuel true p.2).map fun q => ((String.ofList k, p.1) :: q.1, q.2)
    | _ => none

end

/-- Read a whole text as one value. -/
def read (text : List Char) : Option Json :=
  match readValue text.length text with
  | some (v, []) => some v
  | _ => none

/-! ## Reading undoes writing -/

/-- The text does not go on with a number character. -/
def EndsNumber (rest : List Char) : Prop := ∀ c ∈ rest.head?, isNumberChar c = false

theorem readNumber_append (token : NumberToken) {rest : List Char} (hrest : EndsNumber rest) :
    readNumber (token.chars ++ rest) = some (.num token, rest) := by
  have hdrop : rest.takeWhile isNumberChar = [] ∧ rest.dropWhile isNumberChar = rest := by
    cases rest with
    | nil => exact ⟨rfl, rfl⟩
    | cons c cs =>
      have hc : isNumberChar c = false := hrest c (by simp)
      simp [hc]
  have htake : (token.chars ++ rest).takeWhile isNumberChar = token.chars := by
    rw [List.takeWhile_append_of_pos token.all_number, hdrop.1, List.append_nil]
  have htail : (token.chars ++ rest).dropWhile isNumberChar = rest := by
    rw [List.dropWhile_append_of_pos token.all_number, hdrop.2]
  simp only [readNumber, htake, htail]
  rw [dif_pos ⟨token.ne_nil, List.all_eq_true.mpr token.all_number⟩]

/-- What a number starts with leaves every other form out. -/
theorem readValue_number (fuel : Nat) (token : NumberToken) {rest : List Char}
    (hrest : EndsNumber rest) :
    readValue (fuel + 1) (token.chars ++ rest) = some (.num token, rest) := by
  rw [← readNumber_append token hrest]
  obtain ⟨chars, hne, hall⟩ := token
  cases chars with
  | nil => exact absurd rfl hne
  | cons c cs =>
    have hc : isNumberChar c = true := hall c (by simp)
    rw [List.cons_append, readValue]
    all_goals
      intro _ h
      obtain ⟨rfl, -⟩ := List.cons.inj h
      exact absurd hc (by decide)

theorem endsNumber_writeItems (vs : List Json) (rest : List Char) :
    EndsNumber (writeItems true vs ++ rest) := by
  cases vs <;> simp [writeItems, EndsNumber] <;> decide

theorem endsNumber_writeFields (fs : List (String × Json)) (rest : List Char) :
    EndsNumber (writeFields true fs ++ rest) := by
  cases fs <;> simp [writeFields, EndsNumber] <;> decide

/-- The text of a value is not empty and does not start with a closing bracket. -/
theorem write_eq_cons (v : Json) : ∃ c cs, v.write = c :: cs ∧ c ≠ ']' := by
  cases v with
  | null => exact ⟨'n', _, rfl, by decide⟩
  | bool b => cases b <;> exact ⟨_, _, rfl, by decide⟩
  | num token =>
    obtain ⟨chars, hne, hall⟩ := token
    cases chars with
    | nil => exact absurd rfl hne
    | cons c cs =>
      refine ⟨c, cs, rfl, ?_⟩
      rintro rfl
      exact absurd (hall ']' (by simp)) (by decide)
  | str s => exact ⟨'"', _, rfl, by decide⟩
  | arr items => exact ⟨'[', _, rfl, by decide⟩
  | obj fields => exact ⟨'\x7b', _, rfl, by decide⟩

mutual

/-- Reading a written value gives it back, with the text after it. -/
theorem readValue_write : ∀ (v : Json) (fuel : Nat) (rest : List Char), EndsNumber rest →
    v.write.length ≤ fuel → readValue fuel (v.write ++ rest) = some (v, rest)
  | v, 0, rest, _, hfuel => by
    obtain ⟨c, cs, hv, -⟩ := write_eq_cons v
    simp [hv] at hfuel
  | .null, fuel + 1, rest, _, _ => by simp [write, readValue]
  | .bool true, fuel + 1, rest, _, _ => by simp [write, readValue]
  | .bool false, fuel + 1, rest, _, _ => by simp [write, readValue]
  | .num token, fuel + 1, rest, hrest, _ => by
    rw [write]
    exact readValue_number fuel token hrest
  | .str s, fuel + 1, rest, _, _ => by
    simp [write, readValue, readChars_writeChars]
  | .arr items, fuel + 1, rest, _, hfuel => by
    simp only [write, List.length_cons] at hfuel
    simp [write, readValue, readItems_write items fuel false rest (by omega)]
  | .obj fields, fuel + 1, rest, _, hfuel => by
    simp only [write, List.length_cons] at hfuel
    simp [write, readValue, readFields_write fields fuel false rest (by omega)]

theorem readItems_write : ∀ (vs : List Json) (fuel : Nat) (more : Bool) (rest : List Char),
    (writeItems more vs).length ≤ fuel →
      readItems fuel more (writeItems more vs ++ rest) = some (vs, rest)
  | [], 0, _, _, hfuel => by simp [writeItems] at hfuel
  | [], fuel + 1, _, rest, _ => by simp [writeItems, readItems]
  | v :: vs, 0, _, _, hfuel => by
    obtain ⟨c, cs, hv, -⟩ := write_eq_cons v
    simp [writeItems, hv] at hfuel
  | v :: vs, fuel + 1, true, rest, hfuel => by
    simp only [writeItems, if_true, List.length_append, List.length_cons, List.length_nil] at hfuel
    have hv := readValue_write v fuel (writeItems true vs ++ rest)
      (endsNumber_writeItems vs rest) (by omega)
    have hvs := readItems_write vs fuel true rest (by omega)
    simp [writeItems, readItems, hv, hvs]
  | v :: vs, fuel + 1, false, rest, hfuel => by
    simp only [writeItems, Bool.false_eq_true, if_false, List.length_append, List.length_nil]
      at hfuel
    obtain ⟨c, cs, hc, hbracket⟩ := write_eq_cons v
    have hpos : 0 < (writeItems true vs).length := by cases vs <;> simp [writeItems]
    have hlen : 0 < v.write.length := by simp [hc]
    have hv := readValue_write v fuel (writeItems true vs ++ rest)
      (endsNumber_writeItems vs rest) (by omega)
    have hvs := readItems_write vs fuel true rest (by omega)
    rw [hc, List.cons_append] at hv
    simp only [writeItems, Bool.false_eq_true, if_false, List.nil_append, List.append_assoc, hc,
      List.cons_append]
    rw [readItems]
    · simp [hv, hvs]
    · intro _ h
      exact absurd (List.cons.inj h).1 hbracket

theorem readFields_write : ∀ (fs : List (String × Json)) (fuel : Nat) (more : Bool)
    (rest : List Char), (writeFields more fs).length ≤ fuel →
      readFields fuel more (writeFields more fs ++ rest) = some (fs, rest)
  | [], 0, _, _, hfuel => by simp [writeFields] at hfuel
  | [], fuel + 1, _, rest, _ => by simp [writeFields, readFields]
  | (k, v) :: fs, 0, more, _, hfuel => by simp [writeFields] at hfuel
  | (k, v) :: fs, 1, more, _, hfuel => by
    cases more <;> simp [writeFields] at hfuel
  | (k, v) :: fs, fuel + 2, more, rest, hfuel => by
    simp only [writeFields, List.length_append, List.length_cons] at hfuel
    have hv := readValue_write v fuel (writeFields true fs ++ rest)
      (endsNumber_writeFields fs rest) (by omega)
    have hfs := readFields_write fs fuel true rest (by omega)
    have hmember : readMember (fuel + 1)
        (writeChars k.toList ++ ':' :: (v.write ++ (writeFields true fs ++ rest))) =
          some ((k, v) :: fs, rest) := by
      simp [readMember, readChars_writeChars, hv, hfs]
    cases more <;> simp [writeFields, readFields, hmember]

end

/-- **Reading undoes writing.** -/
theorem read_write (v : Json) : read v.write = some v := by
  have h := readValue_write v v.write.length [] (by simp [EndsNumber]) (le_refl _)
  rw [List.append_nil] at h
  rw [read, h]

/-- The compact text determines the value. -/
theorem write_injective : Function.Injective write := fun v w h => by
  have hr := congrArg read h
  rw [read_write, read_write] at hr
  exact Option.some.inj hr

/-- Values are compared by their texts. -/
instance : DecidableEq Json := fun _ _ => decidable_of_iff _ write_injective.eq_iff

/-! ## Numbers and sorted members -/

theorem isNumberChar_of_mem_repr {n : Nat} {c : Char} (h : c ∈ n.repr.toList) :
    isNumberChar c = true := by
  rw [Nat.toList_repr] at h
  exact isNumberChar_of_isDigit (Nat.isDigit_of_mem_toDigits (by decide) (by decide) h)

/-- The decimal digits of an integer, with its sign. -/
def intToken : Int → NumberToken
  | .ofNat n =>
    { chars := n.repr.toList
      ne_nil := by rw [Nat.toList_repr]; exact Nat.toDigits_ne_nil
      all_number := fun _ h => isNumberChar_of_mem_repr h }
  | .negSucc n =>
    { chars := '-' :: (n + 1).repr.toList
      ne_nil := List.cons_ne_nil _ _
      all_number := fun c h => by
        rcases List.mem_cons.mp h with rfl | h
        · decide
        · exact isNumberChar_of_mem_repr h }

/-- An integer as a JSON number. -/
def ofInt (n : Int) : Json := .num (intToken n)

/-- A value that may be missing: `null` for nothing. -/
def ofOption {α : Type} (f : α → Json) : Option α → Json
  | none => .null
  | some a => f a

theorem toList_repr_inj {m n : Nat} (h : m.repr.toList = n.repr.toList) : m = n :=
  Nat.repr_injective (String.toList_inj.mp h)

theorem minus_not_mem_repr (n : Nat) : '-' ∉ n.repr.toList := by
  rw [Nat.toList_repr]
  intro h
  exact absurd (Nat.isDigit_of_mem_toDigits (by decide) (by decide) h) (by decide)

theorem ofInt_injective : Function.Injective ofInt := by
  intro m n h
  have hchars := congrArg NumberToken.chars (Json.num.inj h)
  cases m with
  | ofNat m =>
    cases n with
    | ofNat n => rw [toList_repr_inj hchars]
    | negSucc n =>
      refine absurd ?_ (minus_not_mem_repr m)
      rw [show m.repr.toList = '-' :: (n + 1).repr.toList from hchars]
      exact List.mem_cons_self
  | negSucc m =>
    cases n with
    | ofNat n =>
      refine absurd ?_ (minus_not_mem_repr n)
      rw [← show '-' :: (m + 1).repr.toList = n.repr.toList from hchars]
      exact List.mem_cons_self
    | negSucc n => rw [Nat.succ.inj (toList_repr_inj (List.cons.inj hchars).2)]

mutual

/-- The value with the members of every object in the order of their keys. -/
def sortKeys : Json → Json
  | .arr items => .arr (sortItems items)
  | .obj fields => .obj ((sortFields fields).insertionSort fun f g => f.1 ≤ g.1)
  | v => v

def sortItems : List Json → List Json
  | [] => []
  | v :: vs => sortKeys v :: sortItems vs

def sortFields : List (String × Json) → List (String × Json)
  | [] => []
  | (k, v) :: fs => (k, sortKeys v) :: sortFields fs

end

theorem sortItems_eq_map (vs : List Json) : sortItems vs = vs.map sortKeys := by
  induction vs with
  | nil => rfl
  | cons v vs ih => rw [sortItems, ih, List.map_cons]

theorem sortFields_eq_map (fs : List (String × Json)) :
    sortFields fs = fs.map fun f => (f.1, sortKeys f.2) := by
  induction fs with
  | nil => rfl
  | cons f fs ih => rw [sortFields, ih, List.map_cons]

/-- Two lists of members with the same distinct keys in the same order that are permutations of
each other are equal. -/
theorem eq_of_perm_of_keys {β : Type*} {fs gs : List (String × β)}
    (hkeys : fs.map Prod.fst = gs.map Prod.fst) (hnodup : (fs.map Prod.fst).Nodup)
    (h : fs.Perm gs) : fs = gs := by
  induction fs generalizing gs with
  | nil => exact h.nil_eq
  | cons f fs ih =>
    obtain ⟨k, v⟩ := f
    cases gs with
    | nil => simp at hkeys
    | cons g gs =>
      obtain ⟨k', w⟩ := g
      simp only [List.map_cons, List.cons.injEq] at hkeys
      obtain ⟨rfl, hkeys⟩ := hkeys
      simp only [List.map_cons, List.nodup_cons] at hnodup
      have hmem : (k, v) ∈ (k, w) :: gs := h.subset List.mem_cons_self
      rcases List.mem_cons.mp hmem with heq | htail
      · rw [heq] at h ⊢
        rw [ih hkeys hnodup.2 (List.perm_cons _ |>.mp h)]
      · exact absurd (hkeys ▸ List.mem_map_of_mem htail) hnodup.1

/-- An object whose members have distinct keys is known from its sorted form, given the order its
members were in. -/
theorem eq_of_sortFields_eq {fs gs : List (String × Json)}
    (hkeys : fs.map Prod.fst = gs.map Prod.fst) (hnodup : (fs.map Prod.fst).Nodup)
    (h : sortKeys (.obj fs) = sortKeys (.obj gs)) : sortFields fs = sortFields gs := by
  have hsort : (sortFields fs).Perm (sortFields gs) := by
    refine (List.perm_insertionSort (fun f g => f.1 ≤ g.1) _).symm.trans ?_
    rw [Json.obj.inj h]
    exact List.perm_insertionSort _ _
  have hfst : ∀ fs : List (String × Json), (sortFields fs).map Prod.fst = fs.map Prod.fst := by
    intro fs
    rw [sortFields_eq_map, List.map_map]
    rfl
  exact eq_of_perm_of_keys (by rw [hfst, hfst, hkeys]) (by rwa [hfst]) hsort

/-- Sorting keys tells optional values apart when it tells the values apart and none is `null`. -/
theorem sortKeys_ofOption_inj {α : Type} {f : α → Json}
    (hf : Function.Injective fun a => (f a).sortKeys) (hnull : ∀ a, (f a).sortKeys ≠ .null)
    {a b : Option α} (h : (ofOption f a).sortKeys = (ofOption f b).sortKeys) : a = b := by
  cases a with
  | none =>
    cases b with
    | none => rfl
    | some b => exact absurd h.symm (hnull b)
  | some a =>
    cases b with
    | none => exact absurd h (hnull a)
    | some b => rw [hf h]

theorem sortKeys_map_inj {α : Type} {f : α → Json}
    (hf : Function.Injective fun a => (f a).sortKeys) {l m : List α}
    (h : (Json.arr (l.map f)).sortKeys = (Json.arr (m.map f)).sortKeys) : l = m := by
  simp only [sortKeys, sortItems_eq_map, Json.arr.injEq, List.map_map] at h
  exact hf.list_map h

end Json
