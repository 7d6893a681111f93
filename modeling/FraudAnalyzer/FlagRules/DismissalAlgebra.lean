import FraudAnalyzer.FlagRules.Legend
import Mathlib.Data.Finset.Sort

/-!
# The algebra of dismissals

The flags of a body are determined by the flagged rows that are kept: `retally` counts these, for
the body and for each rule. So dismissals compose as sets do, and where the digest tells two sets
apart the data hash tells their flags apart.
-/

namespace FraudAnalyzer.FlagRules.DismissalAlgebra

open Python Queries

/-- The flags with these rows and their counts. -/
def retally (flags : Flags) (kept : List FlaggedEntry) : Flags :=
  { flags with
    rows := kept
    flaggedCount := kept.length
    rules := flags.rules.map fun rule =>
      { rule with matched := kept.countP fun row => rule.id ∈ row.ruleIds } }

/-- The counts are those of the rows. -/
structure Tallied (flags : Flags) : Prop where
  flaggedCount : flags.flaggedCount = flags.rows.length
  matched : ∀ rule ∈ flags.rules, rule.matched = flags.rows.countP fun row => rule.id ∈ row.ruleIds

/-- The row's fingerprint is in the set. -/
def Dismissed (D : Finset String) (row : FlaggedEntry) : Prop := ∃ f ∈ D, row.fingerprint = some f

instance (D : Finset String) (row : FlaggedEntry) : Decidable (Dismissed D row) :=
  decidable_of_iff (row.fingerprint.any (· ∈ D) = true) (by
    rw [Option.any_eq_true]
    simp only [decide_eq_true_eq]
    exact ⟨fun ⟨f, hf, hD⟩ => ⟨f, hD, hf⟩, fun ⟨f, hD, hf⟩ => ⟨f, hf, hD⟩⟩)

/-- `apply_dismissals` with a set. -/
def applySet (sha256Hex : Sha256Hex) (body : Body) (D : Finset String) : Body :=
  applyDismissals sha256Hex body (D.sort (· ≤ ·))

/-! ## Counting again -/

section Counting

variable {flags : Flags} {rows kept : List FlaggedEntry} {D D' : Finset String}

/-- Counting once more is counting the last rows. -/
theorem retally_retally (flags : Flags) (kept kept' : List FlaggedEntry) :
    retally (retally flags kept) kept' = retally flags kept' := by
  simp [retally, Function.comp_def]

theorem tallied_retally (flags : Flags) (kept : List FlaggedEntry) :
    Tallied (retally flags kept) where
  flaggedCount := rfl
  matched rule hrule := by
    obtain ⟨old, -, rfl⟩ := List.mem_map.mp hrule
    rfl

/-- Counts that are right do not change. -/
theorem Tallied.retally_rows (h : Tallied flags) : retally flags flags.rows = flags := by
  have hrules : (flags.rules.map fun rule =>
      { rule with matched := flags.rows.countP fun row => rule.id ∈ row.ruleIds }) =
        flags.rules := by
    conv_rhs => rw [← List.map_id flags.rules]
    refine List.map_congr_left fun rule hrule => ?_
    rw [← h.matched rule hrule]
    rfl
  unfold retally
  rw [hrules, ← h.flaggedCount]

theorem keptRows_eq (rows : List FlaggedEntry) (D : Finset String) :
    keptRows rows (D.sort (· ≤ ·)) = rows.filter fun row => ¬Dismissed D row := by
  refine List.filter_congr fun row _ => ?_
  rw [Bool.eq_iff_iff, decide_eq_true_eq, Option.all_eq_true]
  simp only [Finset.mem_sort, decide_eq_true_eq, Dismissed, not_exists, not_and]
  exact ⟨fun h f hD hf => h f hf hD, fun h f hf hD => h f hD hf⟩

theorem dismissed_union {row : FlaggedEntry} :
    Dismissed (D ∪ D') row ↔ Dismissed D row ∨ Dismissed D' row := by
  simp only [Dismissed, Finset.mem_union, or_and_right, exists_or]

theorem filter_union (rows : List FlaggedEntry) (D D' : Finset String) :
    (rows.filter fun row => ¬Dismissed D row).filter (fun row => ¬Dismissed D' row) =
      rows.filter fun row => ¬Dismissed (D ∪ D') row := by
  rw [List.filter_filter]
  refine List.filter_congr fun row _ => ?_
  rw [Bool.eq_iff_iff, Bool.and_eq_true]
  simp only [decide_eq_true_eq, dismissed_union, not_or]
  exact And.comm

end Counting

/-! ## One set -/

section OneSet

variable {sha256Hex : Sha256Hex} {body : Body} {D : Finset String}

/-- Nothing is taken out of the rows, or the body is counted again. -/
theorem applySet_cases (sha256Hex : Sha256Hex) (body : Body) (D : Finset String) :
    (body.flags.rows.filter fun row => ¬Dismissed D row) = body.flags.rows ∧
        applySet sha256Hex body D = body ∨
      (body.flags.rows.filter fun row => ¬Dismissed D row).length < body.flags.rows.length ∧
        applySet sha256Hex body D =
          { body with
            dataHash := body.dataHash ++ "+d" ++ stamp sha256Hex (D.sort (· ≤ ·))
            flags := retally body.flags (body.flags.rows.filter fun row => ¬Dismissed D row)
            dismissedCount := some (body.flags.rows.length -
              (body.flags.rows.filter fun row => ¬Dismissed D row).length) } := by
  rw [← keptRows_eq]
  have hle : (keptRows body.flags.rows (D.sort (· ≤ ·))).length ≤ body.flags.rows.length :=
    List.length_filter_le _ _
  unfold applySet applyDismissals
  dsimp only
  split
  next hnothing =>
    refine .inl ⟨?_, rfl⟩
    rcases hnothing with hempty | hempty
    · rw [hempty]
      simp [keptRows]
    · rw [hempty]
      rfl
  · split
    next hall => exact .inl ⟨List.filter_sublist.eq_of_length hall, rfl⟩
    next hsome => exact .inr ⟨by omega, rfl⟩

/-- The flags of a body with right counts. -/
theorem flags_applySet (h : Tallied body.flags) :
    (applySet sha256Hex body D).flags =
      retally body.flags (body.flags.rows.filter fun row => ¬Dismissed D row) := by
  rcases applySet_cases sha256Hex body D with ⟨hall, hsame⟩ | ⟨-, hserved⟩
  · rw [hsame, hall, h.retally_rows]
  · rw [hserved]

theorem tallied_applySet (h : Tallied body.flags) :
    Tallied (applySet sha256Hex body D).flags := by
  rw [flags_applySet h]
  exact tallied_retally _ _

theorem filter_length_add (rows : List FlaggedEntry) (D : Finset String) :
    (rows.filter fun row => ¬Dismissed D row).length + rows.countP (fun row => Dismissed D row) =
      rows.length := by
  rw [← List.countP_eq_length_filter, Nat.add_comm]
  have hsplit := List.length_eq_countP_add_countP (fun row => decide (Dismissed D row)) (l := rows)
  simpa using hsplit.symm

/-- The rows that were taken out. -/
theorem dismissedCount_applySet (hfull : body.dismissedCount = none) :
    ((applySet sha256Hex body D).dismissedCount).getD 0 =
      body.flags.rows.countP fun row => Dismissed D row := by
  have hadd := filter_length_add body.flags.rows D
  rcases applySet_cases sha256Hex body D with ⟨hall, hsame⟩ | ⟨-, hserved⟩
  · rw [hsame, hfull, Option.getD_none]
    rw [hall] at hadd
    omega
  · rw [hserved, Option.getD_some]
    omega

/-- Each row is taken out once. -/
theorem countP_union (rows : List FlaggedEntry) (D D' : Finset String) :
    (rows.countP fun row => Dismissed D row) +
        ((rows.filter fun row => ¬Dismissed D row).countP fun row => Dismissed D' row) =
      rows.countP fun row => Dismissed (D ∪ D') row := by
  have hfirst := filter_length_add rows D
  have hsecond := filter_length_add (rows.filter fun row => ¬Dismissed D row) D'
  have hboth := filter_length_add rows (D ∪ D')
  rw [filter_union] at hsecond
  omega

theorem applySet_eq_self (h : ∀ row ∈ body.flags.rows, ¬Dismissed D row) :
    applySet sha256Hex body D = body := by
  have hall : (body.flags.rows.filter fun row => ¬Dismissed D row) = body.flags.rows :=
    List.filter_eq_self.mpr fun row hrow => decide_eq_true (h row hrow)
  rcases applySet_cases sha256Hex body D with ⟨-, hsame⟩ | ⟨hlt, -⟩
  · exact hsame
  · rw [hall] at hlt
    exact absurd hlt (Nat.lt_irrefl _)

/-- **Two sets**, one after the other. -/
theorem flags_applySet_applySet (h : Tallied body.flags) (D D' : Finset String) :
    (applySet sha256Hex (applySet sha256Hex body D) D').flags =
      (applySet sha256Hex body (D ∪ D')).flags := by
  rw [flags_applySet (tallied_applySet h), flags_applySet h, flags_applySet h, retally_retally]
  exact congrArg _ (filter_union body.flags.rows D D')

end OneSet

/-! ## The flags of a run -/

section Evaluation

variable {u : Unicode} {sha256Hex : Sha256Hex} {lists : String → Option (List String)}
  {rules : List FlagRule} {columns : List String}

theorem tallied_evaluateFlags (hids : (rules.map FlagRule.id).Nodup) (rows : List (Row columns)) :
    Tallied (evaluateFlags u sha256Hex lists rules columns rows) := by
  unfold evaluateFlags
  split
  · exact ⟨rfl, fun _ hrule => absurd hrule List.not_mem_nil⟩
  · refine ⟨(List.length_map _).symm, fun entry hentry => ?_⟩
    have hspecs : ((specsFromModels u lists rules).map RuleSpec.id).Nodup := by
      rw [specs_eq, List.map_map]
      exact nodup_sortedIds hids
    obtain ⟨rule, -, rfl⟩ := List.mem_map.mp ((rules_perm hspecs rows).mem_iff.mp hentry)
    rw [List.countP_map]
    change (FlagOutcome.citing _ rule.id).length = _
    rw [FlagOutcome.citing, List.length_map, ← List.countP_eq_length_filter]
    rfl

end Evaluation

/-- The body of a run: its flags come from `evaluate_flags` on stored rules, and nothing has been
taken out of it. -/
structure OfRun (sha256Hex : Sha256Hex) (body : Body) : Prop where
  evaluated : ∃ (u : Unicode) (lists : String → Option (List String)) (rules : List FlagRule)
    (columns : List String) (rows : List (Row columns)), (rules.map FlagRule.id).Nodup ∧
      body.flags = evaluateFlags u sha256Hex lists rules columns rows
  full : body.dismissedCount = none

theorem OfRun.tallied {sha256Hex : Sha256Hex} {body : Body} (h : OfRun sha256Hex body) :
    Tallied body.flags := by
  obtain ⟨u, lists, rules, columns, rows, hids, hflags⟩ := h.evaluated
  rw [hflags]
  exact tallied_evaluateFlags hids rows

/-- What `run_saved_query` returns. -/
theorem ofRun_asDict {E : RunEnv} {query : SavedQuery} {rules : List FlagRule}
    {charts : List QueryChart} {now : Instant} {payload : RunPayload}
    (hids : (rules.map FlagRule.id).Nodup)
    (h : runSavedQuery E query rules charts now = .ok payload) (pollIntervalMs : Int) :
    OfRun E.sha256Hex (payload.asDict pollIntervalMs) := by
  unfold runSavedQuery at h
  cases hresult : executeSql E.settings (E.targets query.connectionId) query.sqlText
      query.rowLimit with
  | error e =>
    rw [hresult] at h
    cases h
  | ok result =>
    rw [hresult] at h
    cases h
    exact ⟨⟨E.unicode, E.lists, rules, _, _, hids, rfl⟩, rfl⟩

/-! ## The data hash -/

/-- A lowercase SHA-256 hex digest. -/
def IsFingerprint (f : String) : Prop :=
  f.length = 64 ∧ ∀ c ∈ f.toList, c ∈ "0123456789abcdef".toList

/-- The text of a set that is hashed. -/
def joined (D : Finset String) : String := join "," (D.sort (· ≤ ·))

/-- The shortened digest does not collide on the two texts. -/
def Apart (sha256Hex : Sha256Hex) (s t : String) : Prop :=
  String.ofList ((sha256Hex s.toUTF8).toList.take 16) =
    String.ofList ((sha256Hex t.toUTF8).toList.take 16) → s = t

section Hash

variable {sha256Hex : Sha256Hex} {body : Body} {D D' : Finset String} {xs ys : List String}

theorem IsFingerprint.comma {f : String} (h : IsFingerprint f) : ',' ∉ f.toList := fun hc =>
  absurd (h.2 _ hc) (by decide)

theorem IsFingerprint.ne_empty {f : String} (h : IsFingerprint f) : f ≠ "" := by
  rintro rfl
  exact absurd h.1 (by decide)

/-- A joined text is cut at its commas. -/
theorem splitOn_joined (hxs : ∀ x ∈ xs, IsFingerprint x) (hne : xs ≠ []) :
    (join "," xs).toList.splitOn ',' = xs.map String.toList := by
  induction xs with
  | nil => exact absurd rfl hne
  | cons x xs ih =>
    obtain ⟨hx, hrest⟩ := List.forall_mem_cons.mp hxs
    cases xs with
    | nil => exact List.splitOn_eq_singleton hx.comma
    | cons y xs =>
      have hlist : (join "," (x :: y :: xs)).toList =
          x.toList ++ ',' :: (join "," (y :: xs)).toList := by
        simp [join]
      rw [hlist, List.splitOn_append_cons_self, List.splitOn_eq_singleton hx.comma,
        ih hrest (List.cons_ne_nil _ _)]
      rfl

theorem join_ne_empty (hxs : ∀ x ∈ xs, IsFingerprint x) (hne : xs ≠ []) : join "," xs ≠ "" := by
  intro hempty
  have hpieces := splitOn_joined hxs hne
  rw [hempty] at hpieces
  cases xs with
  | nil => exact hne rfl
  | cons x xs =>
    obtain ⟨hx, -⟩ := List.cons.inj hpieces
    exact (hxs x List.mem_cons_self).ne_empty (String.toList_injective hx.symm)

theorem join_injOn (hxs : ∀ x ∈ xs, IsFingerprint x) (hys : ∀ y ∈ ys, IsFingerprint y)
    (h : join "," xs = join "," ys) : xs = ys := by
  by_cases hx : xs = []
  · subst hx
    by_contra hy
    exact join_ne_empty hys (Ne.symm hy) h.symm
  · by_cases hy : ys = []
    · subst hy
      exact absurd h (join_ne_empty hxs hx)
    · have hpieces := splitOn_joined hxs hx
      rw [h, splitOn_joined hys hy] at hpieces
      have hinjective : Function.Injective String.toList := fun _ _ hsame =>
        String.toList_injective hsame
      exact (List.map_injective_iff.mpr hinjective hpieces).symm

/-- Sets that the digest tells apart have different stamps. -/
theorem sort_eq_of_stamp_eq (hD : ∀ f ∈ D, IsFingerprint f) (hD' : ∀ f ∈ D', IsFingerprint f)
    (hapart : Apart sha256Hex (joined D) (joined D'))
    (h : stamp sha256Hex (D.sort (· ≤ ·)) = stamp sha256Hex (D'.sort (· ≤ ·))) :
    D.sort (· ≤ ·) = D'.sort (· ≤ ·) :=
  join_injOn (fun f hf => hD f ((Finset.mem_sort _).mp hf))
    (fun f hf => hD' f ((Finset.mem_sort _).mp hf)) (hapart h)

end Hash

/-! ## The algebra -/

/-- The flags of a body for sets of dismissed fingerprints. -/
structure Algebra (sha256Hex : Sha256Hex) (body : Body) : Prop where
  rows : ∀ D, (applySet sha256Hex body D).flags.rows =
    body.flags.rows.filter fun row => ¬Dismissed D row
  /-- The counts of the kept rows. -/
  tallied : ∀ D, Tallied (applySet sha256Hex body D).flags
  /-- The rules themselves stay. -/
  rules : ∀ D, ((applySet sha256Hex body D).flags.rules.map fun r => (r.id, r.name, r.severity)) =
    body.flags.rules.map fun r => (r.id, r.name, r.severity)
  dismissedCount : ∀ D, ((applySet sha256Hex body D).dismissedCount).getD 0 =
    body.flags.rows.countP fun row => Dismissed D row
  untouched : ∀ D, (∀ row ∈ body.flags.rows, ¬Dismissed D row) → applySet sha256Hex body D = body
  union : ∀ D D', (applySet sha256Hex (applySet sha256Hex body D) D').flags =
    (applySet sha256Hex body (D ∪ D')).flags
  /-- What the second set takes out comes on top. -/
  removed : ∀ D D', ((applySet sha256Hex body D).dismissedCount).getD 0 +
      ((applySet sha256Hex body D).flags.rows.countP fun row => Dismissed D' row) =
    ((applySet sha256Hex body (D ∪ D')).dismissedCount).getD 0
  /-- One hash is of one served body. -/
  served : ∀ D D', (∀ f ∈ D, IsFingerprint f) → (∀ f ∈ D', IsFingerprint f) →
    Apart sha256Hex (joined D) (joined D') →
    (applySet sha256Hex body D).dataHash = (applySet sha256Hex body D').dataHash →
    applySet sha256Hex body D = applySet sha256Hex body D'

/-- **Dismissals are an algebra of sets** on the flags of every run. -/
theorem algebra_of_run {sha256Hex : Sha256Hex} {body : Body} (h : OfRun sha256Hex body) :
    Algebra sha256Hex body where
  rows D := by rw [flags_applySet h.tallied, retally]
  tallied D := tallied_applySet h.tallied
  rules D := by
    rw [flags_applySet h.tallied, retally, List.map_map]
    rfl
  dismissedCount D := dismissedCount_applySet h.full
  untouched D hnone := applySet_eq_self hnone
  union D D' := flags_applySet_applySet h.tallied D D'
  removed D D' := by
    rw [dismissedCount_applySet h.full, dismissedCount_applySet h.full, flags_applySet h.tallied]
    exact countP_union body.flags.rows D D'
  served D D' hD hD' hapart hhash :=
    applyDismissals_eq_of_dataHash_eq (sort_eq_of_stamp_eq hD hD' hapart) hhash

namespace Sample

/-- 64 hexadecimal digits, the first of them those of a sum over the bytes. -/
def digest : Sha256Hex := fun bytes =>
  String.ofList (hexDigits 64 (bytes.data.toList.foldl (fun h b => h * 257 + b.toNat) 0 * 16 ^ 48))

theorem length_hexDigits (n k : Nat) : (hexDigits n k).length = n := by
  induction n generalizing k with
  | zero => rfl
  | succ n ih => rw [hexDigits, List.length_append, ih, List.length_singleton]

theorem mem_hexDigits {n k : Nat} {c : Char} (h : c ∈ hexDigits n k) :
    c ∈ "0123456789abcdef".toList := by
  have hdigit : ∀ d < 16, Json.hexDigit d ∈ "0123456789abcdef".toList := by decide
  induction n generalizing k with
  | zero => cases h
  | succ n ih =>
    rcases List.mem_append.mp h with hhigh | hlow
    · exact ih hhigh
    · rw [List.mem_singleton.mp hlow]
      exact hdigit _ (Nat.mod_lt _ (by decide))

theorem isFingerprint_digest (bytes : ByteArray) : IsFingerprint (digest bytes) := by
  unfold digest IsFingerprint
  rw [String.length_ofList, String.toList_ofList]
  exact ⟨length_hexDigits _ _, fun _ => mem_hexDigits⟩

def rows : List (Row ["amount"]) := [.single (.int 900), .single (.int 5)]

def first : String := rowFingerprint digest [.int 900]

def second : String := rowFingerprint digest [.int 5]

def flags : Flags :=
  evaluateFlags .ascii digest (fun _ => none) (Overlap.rules .low) ["amount"] rows

/-- A run that two rules mark the first row of, and one of them the second. -/
def body : Body :=
  ⟨"q", 0, ⟨["amount"], rows, false, 0⟩, "h", [], flags, none, 1000⟩

theorem ofRun_body : OfRun digest body :=
  ⟨⟨.ascii, fun _ => none, Overlap.rules .low, ["amount"], rows, by decide, rfl⟩, rfl⟩

theorem apart : Apart digest (joined {first}) (joined {second}) := by
  unfold joined
  rw [Finset.sort_singleton, Finset.sort_singleton]
  intro hdigest
  exact absurd hdigest (by decide +kernel)

end Sample

/-- The two rows are dismissed one after the other, and the served hashes tell which one is. -/
theorem algebra_of_run_body :
    OfRun Sample.digest Sample.body ∧ Algebra Sample.digest Sample.body ∧
      Sample.body.flags.flaggedCount = 2 ∧
      (applySet Sample.digest (applySet Sample.digest Sample.body {Sample.first})
        {Sample.second}).flags.rows = [] ∧
      ((applySet Sample.digest Sample.body
        ({Sample.first} ∪ {Sample.second})).dismissedCount).getD 0 = 2 ∧
      (applySet Sample.digest Sample.body {Sample.first}).dataHash ≠
        (applySet Sample.digest Sample.body {Sample.second}).dataHash := by
  have halgebra := algebra_of_run Sample.ofRun_body
  refine ⟨Sample.ofRun_body, halgebra, by decide, ?_, ?_, fun hhash => ?_⟩
  · rw [halgebra.union, halgebra.rows]
    decide +kernel
  · rw [halgebra.dismissedCount]
    decide +kernel
  · have hserved := halgebra.served {Sample.first} {Sample.second}
      (fun f hf => Finset.mem_singleton.mp hf ▸ Sample.isFingerprint_digest _)
      (fun f hf => Finset.mem_singleton.mp hf ▸ Sample.isFingerprint_digest _) Sample.apart hhash
    have hrows := congrArg (fun served => served.flags.rows) hserved
    rw [halgebra.rows, halgebra.rows] at hrows
    exact absurd hrows (by decide +kernel)

end FraudAnalyzer.FlagRules.DismissalAlgebra
