import FraudAnalyzer.FlagRules.Dismissals

/-!
# What a data hash covers

`canonical_hash` is over the columns, the rows and the flags of a result, and over nothing else of
it: `canonicalHash_eq_iff`. `apply_dismissals` adds a suffix for the dismissals, so the hash of a
body as it is served says which of its flags are left out: `applyDismissals_dataHash_inj`.
-/

namespace FraudAnalyzer

open Python Policy

/-! ## Flags -/

namespace FlagRules.Flags

theorem hit_injective : Function.Injective fun hit : RuleHit => (hitJson hit).sortKeys := by
  intro a b h
  have hfields := Json.eq_of_sortFields_eq (by rfl) (by simp) h
  simp only [Json.sortFields, List.cons.injEq, Prod.mk.injEq, true_and, and_true] at hfields
  obtain ⟨hid, hname, hseverity, hmatched⟩ := hfields
  obtain ⟨id, name, severity, hits⟩ := a
  obtain ⟨id', name', severity', hits'⟩ := b
  obtain rfl : id = id' := Json.str.inj hid
  obtain rfl : name = name' := Json.str.inj hname
  obtain rfl := FlagSeverity.value_injective (Json.str.inj hseverity)
  obtain rfl : hits = hits' := Int.ofNat.inj (Json.ofInt_injective hmatched)
  rfl

theorem strings_inj {l m : List String}
    (h : (Json.arr (l.map .str)).sortKeys = (Json.arr (m.map .str)).sortKeys) : l = m :=
  Json.sortKeys_map_inj (f := .str) (fun _ _ hst => Json.str.inj hst) h

/-- An object has as many members when they are sorted. -/
theorem length_of_sortKeys {fs gs : List (String × Json)}
    (h : (Json.obj fs).sortKeys = (Json.obj gs).sortKeys) : fs.length = gs.length := by
  have hlength := congrArg List.length (Json.obj.inj h)
  simp only [List.length_insertionSort, Json.sortFields_eq_map, List.length_map] at hlength
  exact hlength

theorem entry_injective :
    Function.Injective fun entry : FlaggedEntry => (entryJson entry).sortKeys := by
  intro a b h
  have hlength := length_of_sortKeys h
  obtain ⟨index, ruleIds, fingerprint⟩ := a
  obtain ⟨index', ruleIds', fingerprint'⟩ := b
  cases fingerprint with
  | none =>
    cases fingerprint' with
    | some f => simp at hlength
    | none =>
      have hfields := Json.eq_of_sortFields_eq (by rfl) (by simp) h
      simp only [Option.map_none, Option.toList_none, List.append_nil, Json.sortFields,
        List.cons.injEq, Prod.mk.injEq, true_and, and_true] at hfields
      obtain ⟨hindex, hids⟩ := hfields
      obtain rfl : index = index' := Int.ofNat.inj (Json.ofInt_injective hindex)
      obtain rfl := strings_inj hids
      rfl
  | some f =>
    cases fingerprint' with
    | none => simp at hlength
    | some f' =>
      have hfields := Json.eq_of_sortFields_eq (by rfl) (by simp) h
      simp only [Option.map_some, Option.toList_some, List.cons_append, List.nil_append,
        Json.sortFields, List.cons.injEq, Prod.mk.injEq, true_and, and_true] at hfields
      obtain ⟨hindex, hids, hfingerprint⟩ := hfields
      obtain rfl : index = index' := Int.ofNat.inj (Json.ofInt_injective hindex)
      obtain rfl := strings_inj hids
      obtain rfl : f = f' := Json.str.inj hfingerprint
      rfl

theorem json_injective : Function.Injective fun flags : Flags => flags.json.sortKeys := by
  intro a b h
  have hfields := Json.eq_of_sortFields_eq (by rfl) (by simp) h
  simp only [Json.sortFields, List.cons.injEq, Prod.mk.injEq, true_and, and_true] at hfields
  obtain ⟨hcount, hrows, hrules, hwarnings⟩ := hfields
  obtain ⟨count, rows, rules, warnings⟩ := a
  obtain ⟨count', rows', rules', warnings'⟩ := b
  obtain rfl : count = count' := Int.ofNat.inj (Json.ofInt_injective hcount)
  obtain rfl := Json.sortKeys_map_inj entry_injective hrows
  obtain rfl := Json.sortKeys_map_inj hit_injective hrules
  obtain rfl := strings_inj hwarnings
  rfl

end FlagRules.Flags

/-! ## Digests -/

/-- A digest in hexadecimal and without collisions: the bytes themselves. -/
def hexDigest : Sha256Hex := fun bytes =>
  String.ofList (bytes.data.toList.flatMap fun b => hexDigits 2 b.toNat)

theorem hexDigits_two (k : Nat) :
    hexDigits 2 k = [Json.hexDigit (k / 16 % 16), Json.hexDigit (k % 16)] := rfl

theorem hexDigit_inj {m n : Nat} (hm : m < 16) (hn : n < 16)
    (h : Json.hexDigit m = Json.hexDigit n) : m = n := by
  have hvalue := congrArg Json.hexValue h
  rw [Json.hexValue_hexDigit m hm, Json.hexValue_hexDigit n hn] at hvalue
  exact Option.some.inj hvalue

theorem flatMap_hexDigits_inj {l m : List UInt8}
    (h : (l.flatMap fun b => hexDigits 2 b.toNat) = m.flatMap fun b => hexDigits 2 b.toNat) :
    l = m := by
  induction l generalizing m with
  | nil =>
    cases m with
    | nil => rfl
    | cons c m => simp [hexDigits_two] at h
  | cons b l ih =>
    cases m with
    | nil => simp [hexDigits_two] at h
    | cons c m =>
      simp only [List.flatMap_cons, hexDigits_two, List.cons_append, List.nil_append,
        List.cons.injEq] at h
      obtain ⟨hhigh, hlow, hrest⟩ := h
      have hhigh' := hexDigit_inj (Nat.mod_lt _ (by decide)) (Nat.mod_lt _ (by decide)) hhigh
      have hlow' := hexDigit_inj (Nat.mod_lt _ (by decide)) (Nat.mod_lt _ (by decide)) hlow
      have hb := b.toNat_lt
      have hc := c.toNat_lt
      obtain rfl : b = c := UInt8.toNat_inj.mp (by omega)
      rw [ih hrest]

theorem hexDigest_injective : Function.Injective hexDigest := fun _ _ h =>
  ByteArray.ext (Array.toList_inj.mp (flatMap_hexDigits_inj (String.ofList_injective h)))

theorem plus_not_mem_hexDigest (bytes : ByteArray) : '+' ∉ (hexDigest bytes).toList := by
  have hdigit : ∀ d < 16, '+' ≠ Json.hexDigit d := by decide
  unfold hexDigest
  rw [String.toList_ofList, List.mem_flatMap]
  rintro ⟨b, -, hb⟩
  simp only [hexDigits_two, List.mem_cons, List.not_mem_nil, or_false] at hb
  rcases hb with hhigh | hlow
  · exact hdigit _ (Nat.mod_lt _ (by decide)) hhigh
  · exact hdigit _ (Nat.mod_lt _ (by decide)) hlow

namespace Queries

open FlagRules

variable {sha256Hex : Sha256Hex}

/-! ## The hash of a result -/

/-- Rows as a client gets them, up to the order of the members of an object. -/
def rowsJson (rows : List (List Cell)) : Json := (Cell.list (rows.map .list)).json.sortKeys

/-- **The hash covers the columns, the rows and the flags**, for a collision-free hash. -/
theorem canonicalHash_eq_iff (hsha : Function.Injective sha256Hex) {columns columns' : List String}
    {rows rows' : List (List Cell)} {flags flags' : Flags} :
    canonicalHash sha256Hex columns rows flags = canonicalHash sha256Hex columns' rows' flags' ↔
      columns = columns' ∧ rowsJson rows = rowsJson rows' ∧ flags = flags' := by
  unfold canonicalHash
  constructor
  · intro h
    have hbytes := hsha (String.append_right_inj _ |>.mp h)
    have htext := congrArg String.toList (String.toByteArray_inj.mp hbytes)
    simp only [String.toList_ofList] at htext
    have hfields := Json.eq_of_sortFields_eq (by rfl) (by simp) (Json.write_injective htext)
    simp only [Json.sortFields, List.cons.injEq, Prod.mk.injEq, true_and, and_true] at hfields
    obtain ⟨hcolumns, hrows, hflags⟩ := hfields
    exact ⟨Flags.strings_inj hcolumns, hrows, Flags.json_injective hflags⟩
  · rintro ⟨rfl, hrows, rfl⟩
    unfold rowsJson at hrows
    simp only [Json.sortKeys, Json.sortFields, hrows]

/-! ## With dismissals -/

/-- What the hash of a body covers: of its result the columns and the rows, and its flags. -/
structure SameData (a b : Body) : Prop where
  columns : a.result.columns = b.result.columns
  rows : rowsJson (a.result.rows.map Subtype.val) = rowsJson (b.result.rows.map Subtype.val)
  flags : a.flags = b.flags
  dismissedCount : a.dismissedCount = b.dismissedCount

/-- A body as it is cached. -/
structure Body.Hashed (sha256Hex : Sha256Hex) (body : Body) : Prop where
  dataHash : body.dataHash =
    canonicalHash sha256Hex body.result.columns (body.result.rows.map Subtype.val) body.flags
  unfiltered : body.dismissedCount = none

variable {a b : Body} {D D' : List String}

theorem SameData.symm (h : SameData a b) : SameData b a :=
  ⟨h.columns.symm, h.rows.symm, h.flags.symm, h.dismissedCount.symm⟩

theorem Body.Hashed.sameData (hsha : Function.Injective sha256Hex) (ha : a.Hashed sha256Hex)
    (hb : b.Hashed sha256Hex) (h : a.dataHash = b.dataHash) : SameData a b := by
  rw [ha.dataHash, hb.dataHash] at h
  obtain ⟨hcolumns, hrows, hflags⟩ := (canonicalHash_eq_iff hsha).mp h
  exact ⟨hcolumns, hrows, hflags, ha.unfiltered.trans hb.unfiltered.symm⟩

/-- A digest has no plus sign, so neither has the hash of a cached body. -/
theorem Body.Hashed.plus_not_mem (hplus : ∀ bytes, '+' ∉ (sha256Hex bytes).toList)
    (h : a.Hashed sha256Hex) : '+' ∉ a.dataHash.toList := by
  rw [h.dataHash, canonicalHash, String.toList_append, List.mem_append]
  rintro (hscheme | hdigest)
  · exact absurd hscheme (by decide)
  · exact hplus _ hdigest

/-- The suffix starts at the plus sign. -/
theorem append_suffix_inj {x y s t : String} (hx : '+' ∉ x.toList) (hy : '+' ∉ y.toList)
    (h : x ++ "+d" ++ s = y ++ "+d" ++ t) : x = y ∧ s = t := by
  have hchars := congrArg String.toList h
  have hsuffix : "+d".toList = ['+', 'd'] := rfl
  simp only [String.toList_append, hsuffix, List.append_assoc, List.cons_append,
    List.nil_append] at hchars
  obtain ⟨hxy, hst⟩ := split_at_first hx hy hchars
  exact ⟨String.toList_inj.mp hxy, String.toList_inj.mp (List.cons.inj hst).2⟩

/-- Which rows are taken out depends on the flags. -/
theorem SameData.applyDismissals (h : SameData a b) (D : List String) :
    SameData (applyDismissals sha256Hex a D) (applyDismissals sha256Hex b D) := by
  unfold FlagRules.applyDismissals
  simp only [h.flags]
  split
  · exact h
  · split
    · exact h
    · exact ⟨h.columns, h.rows, rfl, rfl⟩

/-- **The hash of a served body covers its columns, its rows and its flags**, if the stamp tells the
two sets of dismissals apart. -/
theorem applyDismissals_dataHash_inj (hsha : Function.Injective sha256Hex)
    (hplus : ∀ bytes, '+' ∉ (sha256Hex bytes).toList) (ha : a.Hashed sha256Hex)
    (hb : b.Hashed sha256Hex) (hstamp : stamp sha256Hex D = stamp sha256Hex D' → D = D')
    (h : (applyDismissals sha256Hex a D).dataHash = (applyDismissals sha256Hex b D').dataHash) :
    a.dataHash = b.dataHash ∧
      SameData (applyDismissals sha256Hex a D) (applyDismissals sha256Hex b D') := by
  have hplus_mem : ∀ x s : String, '+' ∈ (x ++ "+d" ++ s).toList := by
    intro x s
    simp [show "+d".toList = ['+', 'd'] from rfl]
  rcases applyDismissals_eq_or sha256Hex a D with hD | hD
  · rcases applyDismissals_eq_or sha256Hex b D' with hD' | hD'
    · rw [hD, hD'] at h ⊢
      exact ⟨h, ha.sameData hsha hb h⟩
    · rw [hD, hD'] at h
      exact absurd (h ▸ hplus_mem _ _) (ha.plus_not_mem hplus)
  · rcases applyDismissals_eq_or sha256Hex b D' with hD' | hD'
    · rw [hD, hD'] at h
      exact absurd (h ▸ hplus_mem _ _) (hb.plus_not_mem hplus)
    · rw [hD, hD'] at h
      obtain ⟨hbase, hsuffix⟩ :=
        append_suffix_inj (ha.plus_not_mem hplus) (hb.plus_not_mem hplus) h
      obtain rfl := hstamp hsuffix
      exact ⟨hbase, (ha.sameData hsha hb hbase).applyDismissals D⟩

end Queries

end FraudAnalyzer
