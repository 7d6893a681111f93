import FraudAnalyzer.FlagRules.ConcurrentDismissals
import FraudAnalyzer.FlagRules.FlaggedView
import FraudAnalyzer.Lib.Agree
import FraudAnalyzer.Queries.Serving

/-!
# Whose dismissals are read

Any sequence of `dismiss`, `restore`, `sync` and `delete_rows`, by any users on any queries. What a
user is served is a function of the findings, the cached payloads and the dismissals of that user,
so it is the same when the dismissals of the others are left out of the sequence (`personal`).
-/

namespace FraudAnalyzer.FlagRules.Reviewing

open Python Queries

/-- What the pages of a user are read from. -/
structure Review where
  store : Store
  results : ResultCache Body

/-- `cache` is whatever happens to the cached payloads. -/
inductive Operation where
  | dismiss (queryId userId : String) (fingerprints : List String)
  | restore (queryId userId : String) (fingerprints : Option (List String))
  | sync (queryId : String) (columns : List String) (rows : List (List Cell)) (outcome : Flags)
    (now : Instant)
  | deleteRows (queryId : String) (fingerprints : Option (List String))
  | cache (results : ResultCache Body)

def apply (sha256Hex : Sha256Hex) (s : Review) : Operation → Review
  | .dismiss queryId userId fingerprints =>
    let stored := Dismissing.storedAmong s.store.flaggedRows queryId fingerprints
    { s with
      store := { s.store with dismissals := dismiss s.store.dismissals queryId userId stored } }
  | .restore queryId userId fingerprints =>
    { s with
      store :=
        { s.store with dismissals := restore s.store.dismissals queryId userId fingerprints } }
  | .sync queryId columns rows outcome now =>
    { s with
      store :=
        { s.store with
          flaggedRows :=
            (FlagRules.sync sha256Hex s.store.flaggedRows queryId columns rows outcome now).1 } }
  | .deleteRows queryId fingerprints =>
    { s with
      store :=
        { s.store with
          flaggedRows := (FlagRules.deleteRows s.store.flaggedRows queryId fingerprints).1 } }
  | .cache results => { s with results := results }

def run (sha256Hex : Sha256Hex) (s : Review) (ops : List Operation) : Review :=
  ops.foldl (apply sha256Hex) s

namespace Operation

/-- Somebody else dismisses or restores. -/
def OfOthers (userId : String) : Operation → Prop
  | .dismiss _ other _ | .restore _ other _ => other ≠ userId
  | _ => False

/-- Somebody dismisses or restores. -/
def IsDismissal : Operation → Prop
  | .dismiss _ _ _ | .restore _ _ _ => True
  | _ => False

end Operation

/-- The dismissals a poll of the user reads. -/
def Review.dismissed (s : Review) (user : User) (queryId : String) : List String :=
  dismissedFingerprints s.store.dismissals queryId user.id

/-- Whatever the user is served is the same: polls of what is cached or has just been run, the run
response, the summary, and the sections of the flagged view. -/
structure SameServed (sha256Hex : Sha256Hex) (user : User) (s t : Review) : Prop where
  cached : ∀ queryId, s.results.get queryId = t.results.get queryId
  polled : ∀ request queryId body fromCache,
    answerFor sha256Hex ⟨request, s.dismissed user queryId⟩ body fromCache =
      answerFor sha256Hex ⟨request, t.dismissed user queryId⟩ body fromCache
  ran : ∀ queryId body, applyDismissals sha256Hex body (s.dismissed user queryId) =
    applyDismissals sha256Hex body (t.dismissed user queryId)
  summary : summary s.store user = summary t.store user
  sections : ∀ now query,
    sectionOf s.store s.results now query user = sectionOf t.store t.results now query user
  view : ∀ now connectionId, flaggedForConnection s.store s.results now connectionId user =
    flaggedForConnection t.store t.results now connectionId user

/-- The same findings and cached payloads, and the same dismissals of the user. -/
structure SameFor (user : User) (s t : Review) : Prop where
  store : t.store = { s.store with dismissals := t.store.dismissals }
  results : s.results = t.results
  own : AgreeOn (fun d => d.userId = user.id) s.store.dismissals t.store.dismissals

/-- Dismissals are personal in a sequence of operations. -/
structure Personal (sha256Hex : Sha256Hex) (user : User) (s : Review) (ops : List Operation) :
    Prop where
  /-- Read from what is the user's own. -/
  function : ∀ t, SameFor user (run sha256Hex s ops) t →
    SameServed sha256Hex user (run sha256Hex s ops) t
  /-- The others leave no trace. -/
  others : ∀ keep : Operation → Bool,
    (∀ op ∈ ops, keep op = false → op.OfOthers user.id) →
      SameServed sha256Hex user (run sha256Hex s ops) (run sha256Hex s (ops.filter keep))
  findings : ∀ before op after, ops = before ++ op :: after → op.IsDismissal →
    (run sha256Hex s (before ++ [op])).store.flaggedRows =
      (run sha256Hex s before).store.flaggedRows
  recorded : ∀ before op after, ops = before ++ op :: after →
    ∀ d ∈ (run sha256Hex s (before ++ [op])).store.dismissals,
      d ∉ (run sha256Hex s before).store.dismissals →
        (∃ fingerprints, op = .dismiss d.queryId d.userId fingerprints) ∧
          ∃ row, (run sha256Hex s before).store.flaggedRows.get (d.queryId, d.rowFingerprint) =
            some row

section Personal

variable {sha256Hex : Sha256Hex} {user : User} {s t : Review} {op : Operation}

/-! ## The four ways to read -/

theorem dismissedFingerprints_eq {l l' : List FlagDismissal}
    (h : AgreeOn (fun d => d.userId = user.id) l l') (queryId : String) :
    dismissedFingerprints l queryId user.id = dismissedFingerprints l' queryId user.id := by
  have hother : ∀ d : FlagDismissal, decide (d.userId = user.id) = false →
      (decide (d.queryId = queryId) && decide (d.userId = user.id)) = false := by
    intro d hd
    rw [hd, Bool.and_false]
  unfold dismissedFingerprints
  rw [h.filter (fun d _ => hother d) (fun d _ => hother d) fun _ _ _ => rfl]

theorem isDismissed_eq (h : SameFor user s t) (row : FlaggedRow) :
    isDismissed s.store user row = isDismissed t.store user row := by
  have hother : ∀ d : FlagDismissal, decide (d.userId = user.id) = false →
      (decide (d.queryId = row.queryId) && decide (d.rowFingerprint = row.rowFingerprint) &&
        decide (d.userId = user.id)) = false := by
    intro d hd
    rw [hd, Bool.and_false]
  exact h.own.any (fun d _ => hother d) (fun d _ => hother d) fun _ _ _ => rfl

theorem joinedRows_eq (h : SameFor user s t) :
    joinedRows s.store user = joinedRows t.store user := by
  have hdismissed := isDismissed_eq h
  unfold joinedRows
  rw [h.store] at hdismissed ⊢
  refine List.filterMap_congr fun row _ => ?_
  unfold joined
  rw [hdismissed row]

theorem sectionOf_eq (h : SameFor user s t) (now : Clock) (query : SavedQuery) :
    sectionOf s.store s.results now query user = sectionOf t.store t.results now query user := by
  have hmine := dismissedFingerprints_eq h.own query.id
  have hundismissed : undismissed s.store query user = undismissed t.store query user := by
    unfold undismissed
    rw [hmine, h.store]
    rfl
  unfold sectionOf
  rw [hmine, hundismissed, h.results, h.store]
  rfl

/-- **A function of the findings, the cached payloads and one's own dismissals.** -/
theorem sameServed_of_sameFor (h : SameFor user s t) : SameServed sha256Hex user s t where
  cached queryId := by rw [h.results]
  polled request queryId body fromCache := by
    rw [Review.dismissed, Review.dismissed, dismissedFingerprints_eq h.own]
  ran queryId body := by
    rw [Review.dismissed, Review.dismissed, dismissedFingerprints_eq h.own]
  summary := by rw [summary, summary, joinedRows_eq h]
  sections := sectionOf_eq h
  view now connectionId := by
    have hqueries : queriesWithRules s.store connectionId user =
        queriesWithRules t.store connectionId user := by
      rw [h.store]
      rfl
    have hsections := sectionOf_eq h now
    unfold flaggedForConnection
    simp only [hqueries, hsections]

/-! ## One operation -/

theorem SameFor.refl (s : Review) : SameFor user s s := ⟨rfl, rfl, rfl⟩

theorem agreeOn_dismiss {l l' : List FlagDismissal} (h : AgreeOn (fun d => d.userId = user.id) l l')
    (queryId userId : String) (fingerprints : List String) :
    AgreeOn (fun d => d.userId = user.id) (dismiss l queryId userId fingerprints)
      (dismiss l' queryId userId fingerprints) := by
  unfold AgreeOn dismiss at *
  simp only [List.filter_append, h]
  by_cases huser : userId = user.id
  · subst huser
    rw [show dismissedFingerprints l queryId user.id = _ from dismissedFingerprints_eq h queryId]
  · simp [List.filter_map, Function.comp_def, huser]

theorem agreeOn_dismiss_left {l l' : List FlagDismissal}
    (h : AgreeOn (fun d => d.userId = user.id) l l') {userId : String} (huser : userId ≠ user.id)
    (queryId : String) (fingerprints : List String) :
    AgreeOn (fun d => d.userId = user.id) (dismiss l queryId userId fingerprints) l' := by
  unfold AgreeOn dismiss at *
  simp [List.filter_map, Function.comp_def, huser, h]

theorem agreeOn_restore {l l' : List FlagDismissal} (h : AgreeOn (fun d => d.userId = user.id) l l')
    (queryId userId : String) (fingerprints : Option (List String)) :
    AgreeOn (fun d => d.userId = user.id) (restore l queryId userId fingerprints)
      (restore l' queryId userId fingerprints) := by
  unfold AgreeOn restore at *
  rw [List.filter_comm, h, List.filter_comm]

theorem agreeOn_restore_left {l l' : List FlagDismissal}
    (h : AgreeOn (fun d => d.userId = user.id) l l') {userId : String} (huser : userId ≠ user.id)
    (queryId : String) (fingerprints : Option (List String)) :
    AgreeOn (fun d => d.userId = user.id) (restore l queryId userId fingerprints) l' := by
  unfold AgreeOn restore at *
  rw [List.filter_comm, h, List.filter_eq_self]
  intro d hd
  have hown := of_decide_eq_true (List.mem_filter.mp hd).2
  simp [hown, Ne.symm huser]

/-- The step lemma: an operation does the same for the user in both. -/
theorem SameFor.apply (h : SameFor user s t) (op : Operation) :
    SameFor user (apply sha256Hex s op) (apply sha256Hex t op) := by
  obtain ⟨hstore, hresults, hown⟩ := h
  have hfindings : t.store.flaggedRows = s.store.flaggedRows := by rw [hstore]
  cases op with
  | dismiss queryId userId fingerprints =>
    refine ⟨?_, hresults, ?_⟩
    · simp only [Reviewing.apply]
      rw [hstore]
    · simp only [Reviewing.apply, hfindings]
      exact agreeOn_dismiss hown queryId userId _
  | restore queryId userId fingerprints =>
    refine ⟨?_, hresults, agreeOn_restore hown queryId userId fingerprints⟩
    simp only [Reviewing.apply]
    rw [hstore]
  | sync queryId columns rows outcome now =>
    refine ⟨?_, hresults, hown⟩
    simp only [Reviewing.apply, hfindings]
    rw [hstore]
  | deleteRows queryId fingerprints =>
    refine ⟨?_, hresults, hown⟩
    simp only [Reviewing.apply, hfindings]
    rw [hstore]
  | cache results => exact ⟨hstore, rfl, hown⟩

/-- What somebody else dismisses or restores is nothing to the user. -/
theorem SameFor.apply_left (h : SameFor user s t) (hop : op.OfOthers user.id) :
    SameFor user (Reviewing.apply sha256Hex s op) t := by
  obtain ⟨hstore, hresults, hown⟩ := h
  cases op with
  | dismiss queryId userId fingerprints =>
    exact ⟨hstore, hresults, agreeOn_dismiss_left hown hop queryId _⟩
  | restore queryId userId fingerprints =>
    exact ⟨hstore, hresults, agreeOn_restore_left hown hop queryId fingerprints⟩
  | sync | deleteRows | cache => exact absurd hop id

/-- The run lemma. -/
theorem SameFor.run {keep : Operation → Bool} {ops : List Operation} (h : SameFor user s t)
    (hkeep : ∀ op ∈ ops, keep op = false → op.OfOthers user.id) :
    SameFor user (run sha256Hex s ops) (run sha256Hex t (ops.filter keep)) := by
  induction ops generalizing s t with
  | nil => exact h
  | cons op ops ih =>
    have hrest := fun op' hop' => hkeep op' (List.mem_cons_of_mem op hop')
    cases hkept : keep op with
    | true =>
      rw [List.filter_cons_of_pos hkept]
      exact ih (h.apply op) hrest
    | false =>
      rw [List.filter_cons_of_neg (by rw [hkept]; exact Bool.false_ne_true)]
      exact ih (h.apply_left (hkeep op List.mem_cons_self hkept)) hrest

/-! ## What a dismissal writes -/

theorem run_append (sha256Hex : Sha256Hex) (s : Review) (before : List Operation)
    (op : Operation) :
    run sha256Hex s (before ++ [op]) = Reviewing.apply sha256Hex (run sha256Hex s before) op := by
  simp [run]

/-- Neither operation writes to the findings. -/
theorem flaggedRows_apply (hop : op.IsDismissal) :
    (Reviewing.apply sha256Hex s op).store.flaggedRows = s.store.flaggedRows := by
  cases op with
  | dismiss | restore => rfl
  | sync | deleteRows | cache => exact absurd hop id

/-- A new dismissal is of a finding that is stored. -/
theorem recorded_apply {d : FlagDismissal}
    (hnew : d ∈ (Reviewing.apply sha256Hex s op).store.dismissals)
    (hold : d ∉ s.store.dismissals) :
    (∃ fingerprints, op = .dismiss d.queryId d.userId fingerprints) ∧
      ∃ row, s.store.flaggedRows.get (d.queryId, d.rowFingerprint) = some row := by
  cases op with
  | dismiss queryId userId fingerprints =>
    rcases List.mem_append.mp hnew with hmem | hmem
    · exact absurd hmem hold
    · obtain ⟨f, hf, rfl⟩ := List.mem_map.mp hmem
      refine ⟨⟨fingerprints, rfl⟩, Option.isSome_iff_exists.mp ?_⟩
      have hstored := List.mem_dedup.mp (List.mem_filter.mp hf).1
      exact (List.mem_filter.mp hstored).2
  | restore queryId userId fingerprints => exact absurd (List.mem_filter.mp hnew).1 hold
  | sync | deleteRows | cache => exact absurd hnew hold

/-- **Dismissals are personal**, in every sequence of operations. -/
theorem personal (sha256Hex : Sha256Hex) (user : User) (s : Review) (ops : List Operation) :
    Personal sha256Hex user s ops where
  function _ h := sameServed_of_sameFor h
  others keep hkeep := sameServed_of_sameFor ((SameFor.refl s).run hkeep)
  findings before op after _ hop := by
    rw [run_append]
    exact flaggedRows_apply hop
  recorded before op after _ d hnew hold := by
    rw [run_append] at hnew
    exact recorded_apply hnew hold

end Personal

end FraudAnalyzer.FlagRules.Reviewing
