import FraudAnalyzer.Python.Text

/-!
# Scrubbing audit details

`scrub_detail`, which drops the members of dicts whose key looks like a credential, and the two
places that call it. It goes into dicts and lists. A tuple comes back as it is, and the JSON column
stores it as an array with whatever it holds.
-/

namespace FraudAnalyzer.Audit

open Python

/-- What a JSON column can store, over the scalars `S`. -/
inductive Detail (S : Type) where
  | scalar (s : S)
  | list (items : List (Detail S))
  | tuple (items : List (Detail S))
  | dict (members : List (String × Detail S))

/-- `FORBIDDEN_DETAIL_KEYS` -/
def forbiddenDetailKeys : List String :=
  ["password", "new_password", "temporary_password", "temp_password", "token", "secret"]

/-- `key.strip().lower() in FORBIDDEN_DETAIL_KEYS` -/
def isForbidden (u : Unicode) (key : String) : Bool :=
  forbiddenDetailKeys.contains (u.lower (strip u key))

namespace Detail

variable {S : Type}

/-- `bool(value)`; `truthy` is that of a scalar. -/
def isTruthy (truthy : S → Bool) : Detail S → Bool
  | scalar s => truthy s
  | list items | tuple items => !items.isEmpty
  | dict members => !members.isEmpty

mutual

/-- `_scrub` -/
def scrub (u : Unicode) : Detail S → Detail S
  | dict members => dict (scrubMembers u members)
  | list items => list (scrubItems u items)
  | tuple items => tuple items
  | scalar s => scalar s

def scrubItems (u : Unicode) : List (Detail S) → List (Detail S)
  | [] => []
  | v :: vs => scrub u v :: scrubItems u vs

def scrubMembers (u : Unicode) : List (String × Detail S) → List (String × Detail S)
  | [] => []
  | (key, v) :: members =>
    if isForbidden u key then scrubMembers u members
    else (key, scrub u v) :: scrubMembers u members

end

mutual

/-- The value without the members a credential may be in, wherever they are. -/
def purge (u : Unicode) : Detail S → Detail S
  | dict members => dict (purgeMembers u members)
  | list items => list (purgeItems u items)
  | tuple items => tuple (purgeItems u items)
  | scalar s => scalar s

def purgeItems (u : Unicode) : List (Detail S) → List (Detail S)
  | [] => []
  | v :: vs => purge u v :: purgeItems u vs

def purgeMembers (u : Unicode) : List (String × Detail S) → List (String × Detail S)
  | [] => []
  | (key, v) :: members =>
    if isForbidden u key then purgeMembers u members
    else (key, purge u v) :: purgeMembers u members

end

mutual

/-- No dict at any depth has a forbidden key. -/
def isClean (u : Unicode) : Detail S → Bool
  | dict members => cleanMembers u members
  | list items | tuple items => cleanItems u items
  | scalar _ => true

def cleanItems (u : Unicode) : List (Detail S) → Bool
  | [] => true
  | v :: vs => isClean u v && cleanItems u vs

def cleanMembers (u : Unicode) : List (String × Detail S) → Bool
  | [] => true
  | (key, v) :: members => !isForbidden u key && isClean u v && cleanMembers u members

end

mutual

/-- The tuples that are reached through dicts and lists, past no forbidden key, are clean. -/
def tuplesClean (u : Unicode) : Detail S → Bool
  | dict members => tuplesCleanMembers u members
  | list items => tuplesCleanItems u items
  | tuple items => cleanItems u items
  | scalar _ => true

def tuplesCleanItems (u : Unicode) : List (Detail S) → Bool
  | [] => true
  | v :: vs => tuplesClean u v && tuplesCleanItems u vs

def tuplesCleanMembers (u : Unicode) : List (String × Detail S) → Bool
  | [] => true
  | (key, v) :: members =>
    (isForbidden u key || tuplesClean u v) && tuplesCleanMembers u members

end

end Detail

variable {S : Type}

/-- `scrub_detail`; `None` is `none`. -/
def scrubDetail (u : Unicode) (truthy : S → Bool) (detail : Option (Detail S)) :
    Option (Detail S) :=
  (detail.filter fun d => d.isTruthy truthy).bind fun d =>
    if (d.scrub u).isTruthy truthy then some (d.scrub u) else none

/-- `_validate_detail`, on every assignment to `AuditLog.detail`. -/
def validateDetail (u : Unicode) (truthy : S → Bool) (detail : Option (Detail S)) :
    Option (Detail S) :=
  scrubDetail u truthy detail

/-- The detail of the row that `record` writes. -/
def recordedDetail (u : Unicode) (truthy : S → Bool) (detail : Option (Detail S)) :
    Option (Detail S) :=
  validateDetail u truthy (scrubDetail u truthy detail)

/-- What a scrubbed detail is to be. -/
structure ScrubsCredentials (u : Unicode) (truthy : S → Bool) (detail : Option (Detail S)) :
    Prop where
  clean : ∀ d, scrubDetail u truthy detail = some d → d.isClean u = true
  inPlace : ∀ d, scrubDetail u truthy detail = some d → ∃ given, detail = some given ∧
    d = given.purge u
  none_iff : scrubDetail u truthy detail = none ↔
    ∀ given, detail = some given → (given.purge u).isTruthy truthy = false
  twice : scrubDetail u truthy (scrubDetail u truthy detail) = scrubDetail u truthy detail
  recorded : recordedDetail u truthy detail = scrubDetail u truthy detail ∧
    recordedDetail u truthy detail = validateDetail u truthy detail

section Scrubbing

variable {u : Unicode} {truthy : S → Bool}

open Detail

mutual

/-- Scrubbing leaves what is in a tuple, and nothing else. -/
theorem isClean_scrub (u : Unicode) : ∀ v : Detail S, (v.scrub u).isClean u = v.tuplesClean u
  | dict members => by
    rw [scrub, isClean, tuplesClean]
    exact cleanMembers_scrub u members
  | list items => by
    rw [scrub, isClean, tuplesClean]
    exact cleanItems_scrub u items
  | tuple items => by rw [scrub, isClean, tuplesClean]
  | scalar s => by rw [scrub, isClean, tuplesClean]

theorem cleanItems_scrub (u : Unicode) :
    ∀ items : List (Detail S), cleanItems u (scrubItems u items) = tuplesCleanItems u items
  | [] => by rw [scrubItems, cleanItems, tuplesCleanItems]
  | v :: vs => by
    rw [scrubItems, cleanItems, tuplesCleanItems, isClean_scrub u v, cleanItems_scrub u vs]

theorem cleanMembers_scrub (u : Unicode) : ∀ members : List (String × Detail S),
    cleanMembers u (scrubMembers u members) = tuplesCleanMembers u members
  | [] => by rw [scrubMembers, cleanMembers, tuplesCleanMembers]
  | (key, v) :: members => by
    rw [scrubMembers, tuplesCleanMembers]
    by_cases hkey : isForbidden u key = true
    · rw [if_pos hkey, hkey, Bool.true_or, Bool.true_and, cleanMembers_scrub u members]
    · rw [if_neg hkey, cleanMembers, isClean_scrub u v, cleanMembers_scrub u members,
        Bool.eq_false_of_not_eq_true hkey, Bool.not_false, Bool.true_and, Bool.false_or]

end

mutual

/-- A second scrubbing finds nothing. -/
theorem scrub_scrub (u : Unicode) : ∀ v : Detail S, (v.scrub u).scrub u = v.scrub u
  | dict members => by rw [scrub, scrub, scrubMembers_scrubMembers u members]
  | list items => by rw [scrub, scrub, scrubItems_scrubItems u items]
  | tuple items => by rw [scrub, scrub]
  | scalar s => by rw [scrub, scrub]

theorem scrubItems_scrubItems (u : Unicode) :
    ∀ items : List (Detail S), scrubItems u (scrubItems u items) = scrubItems u items
  | [] => by rw [scrubItems, scrubItems]
  | v :: vs => by rw [scrubItems, scrubItems, scrub_scrub u v, scrubItems_scrubItems u vs]

theorem scrubMembers_scrubMembers (u : Unicode) : ∀ members : List (String × Detail S),
    scrubMembers u (scrubMembers u members) = scrubMembers u members
  | [] => by rw [scrubMembers, scrubMembers]
  | (key, v) :: members => by
    rw [scrubMembers]
    by_cases hkey : isForbidden u key = true
    · rw [if_pos hkey, scrubMembers_scrubMembers u members]
    · rw [if_neg hkey, scrubMembers, if_neg hkey, scrub_scrub u v,
        scrubMembers_scrubMembers u members]

end

mutual

/-- There is nothing to drop from a clean value. -/
theorem purge_eq_self (u : Unicode) : ∀ v : Detail S, v.isClean u = true → v.purge u = v
  | dict members, h => by rw [purge, purgeMembers_eq_self u members (by rwa [isClean] at h)]
  | list items, h => by rw [purge, purgeItems_eq_self u items (by rwa [isClean] at h)]
  | tuple items, h => by rw [purge, purgeItems_eq_self u items (by rwa [isClean] at h)]
  | scalar s, _ => by rw [purge]

theorem purgeItems_eq_self (u : Unicode) :
    ∀ items : List (Detail S), cleanItems u items = true → purgeItems u items = items
  | [], _ => by rw [purgeItems]
  | v :: vs, h => by
    rw [cleanItems, Bool.and_eq_true] at h
    rw [purgeItems, purge_eq_self u v h.1, purgeItems_eq_self u vs h.2]

theorem purgeMembers_eq_self (u : Unicode) : ∀ members : List (String × Detail S),
    cleanMembers u members = true → purgeMembers u members = members
  | [], _ => by rw [purgeMembers]
  | (key, v) :: members, h => by
    rw [cleanMembers, Bool.and_eq_true, Bool.and_eq_true, Bool.not_eq_true'] at h
    rw [purgeMembers, if_neg (by rw [h.1.1]; exact Bool.false_ne_true), purge_eq_self u v h.1.2,
      purgeMembers_eq_self u members h.2]

end

mutual

/-- Where the tuples are clean, scrubbing drops what is to be dropped. -/
theorem scrub_eq_purge (u : Unicode) :
    ∀ v : Detail S, v.tuplesClean u = true → v.scrub u = v.purge u
  | dict members, h => by
    rw [scrub, purge, scrubMembers_eq_purge u members (by rwa [tuplesClean] at h)]
  | list items, h => by
    rw [scrub, purge, scrubItems_eq_purge u items (by rwa [tuplesClean] at h)]
  | tuple items, h => by
    rw [scrub, purge, purgeItems_eq_self u items (by rwa [tuplesClean] at h)]
  | scalar s, _ => by rw [scrub, purge]

theorem scrubItems_eq_purge (u : Unicode) : ∀ items : List (Detail S),
    tuplesCleanItems u items = true → scrubItems u items = purgeItems u items
  | [], _ => by rw [scrubItems, purgeItems]
  | v :: vs, h => by
    rw [tuplesCleanItems, Bool.and_eq_true] at h
    rw [scrubItems, purgeItems, scrub_eq_purge u v h.1, scrubItems_eq_purge u vs h.2]

theorem scrubMembers_eq_purge (u : Unicode) : ∀ members : List (String × Detail S),
    tuplesCleanMembers u members = true → scrubMembers u members = purgeMembers u members
  | [], _ => by rw [scrubMembers, purgeMembers]
  | (key, v) :: members, h => by
    rw [tuplesCleanMembers, Bool.and_eq_true, Bool.or_eq_true] at h
    rw [scrubMembers, purgeMembers, scrubMembers_eq_purge u members h.2]
    by_cases hkey : isForbidden u key = true
    · rw [if_pos hkey, if_pos hkey]
    · rw [if_neg hkey, if_neg hkey, scrub_eq_purge u v (h.1.resolve_left hkey)]

end

/-- An empty value is clean. -/
theorem isClean_of_not_isTruthy {d : Detail S} (h : d.isTruthy truthy = false) :
    d.isClean u = true := by
  cases d with
  | scalar s => rw [isClean]
  | list items => cases items with
    | nil => rw [isClean, cleanItems]
    | cons v vs => cases h
  | tuple items => cases items with
    | nil => rw [isClean, cleanItems]
    | cons v vs => cases h
  | dict members => cases members with
    | nil => rw [isClean, cleanMembers]
    | cons v vs => cases h

/-- An empty value has nothing to scrub. -/
theorem scrub_of_not_isTruthy {d : Detail S} (h : d.isTruthy truthy = false) : d.scrub u = d := by
  cases d with
  | scalar s => rw [scrub]
  | list items => cases items with
    | nil => rw [scrub, scrubItems]
    | cons v vs => cases h
  | tuple items => rw [scrub]
  | dict members => cases members with
    | nil => rw [scrub, scrubMembers]
    | cons v vs => cases h

/-- What `scrub_detail` returns is a scrubbed value that is not empty. -/
theorem scrubDetail_eq_some {detail : Option (Detail S)} {d : Detail S} :
    scrubDetail u truthy detail = some d ↔
      ∃ given, detail = some given ∧ given.isTruthy truthy = true ∧ d = given.scrub u ∧
        d.isTruthy truthy = true := by
  simp only [scrubDetail, Option.bind_eq_some_iff, Option.filter_eq_some_iff]
  constructor
  · rintro ⟨given, ⟨hdetail, htruthy⟩, hscrub⟩
    split at hscrub
    next hrest =>
      obtain rfl := Option.some.inj hscrub
      exact ⟨given, hdetail, htruthy, rfl, hrest⟩
    next => cases hscrub
  · rintro ⟨given, hdetail, htruthy, rfl, hrest⟩
    exact ⟨given, ⟨hdetail, htruthy⟩, if_pos hrest⟩

/-- Scrubbing twice is scrubbing once. -/
theorem scrubDetail_scrubDetail (detail : Option (Detail S)) :
    scrubDetail u truthy (scrubDetail u truthy detail) = scrubDetail u truthy detail := by
  cases hscrub : scrubDetail u truthy detail with
  | none => rfl
  | some d =>
    obtain ⟨given, -, -, rfl, hrest⟩ := scrubDetail_eq_some.mp hscrub
    exact scrubDetail_eq_some.mpr ⟨_, rfl, hrest, (scrub_scrub u given).symm, hrest⟩

/-- A detail whose tuples are clean comes out as it should. -/
theorem scrubsCredentials_of_tuplesClean {detail : Option (Detail S)}
    (hclean : ∀ d, detail = some d → d.tuplesClean u = true) :
    ScrubsCredentials u truthy detail := by
  refine ⟨fun d hd => ?_, fun d hd => ?_, ?_, scrubDetail_scrubDetail detail,
    scrubDetail_scrubDetail detail, scrubDetail_scrubDetail detail⟩
  · obtain ⟨given, hgiven, -, rfl, -⟩ := scrubDetail_eq_some.mp hd
    exact (isClean_scrub u given).trans (hclean given hgiven)
  · obtain ⟨given, hgiven, -, rfl, -⟩ := scrubDetail_eq_some.mp hd
    exact ⟨given, hgiven, scrub_eq_purge u given (hclean given hgiven)⟩
  · constructor
    · intro hnone given hgiven
      by_cases htruthy : given.isTruthy truthy = true
      · rw [← scrub_eq_purge u given (hclean given hgiven)]
        refine Bool.eq_false_of_not_eq_true fun hrest => ?_
        have hsome := scrubDetail_eq_some.mpr ⟨given, hgiven, htruthy, rfl, hrest⟩
        rw [hnone] at hsome
        cases hsome
      · have hempty := Bool.eq_false_of_not_eq_true htruthy
        rw [purge_eq_self u given (isClean_of_not_isTruthy hempty), hempty]
    · intro hempty
      refine Option.eq_none_iff_forall_ne_some.mpr fun d hd => ?_
      obtain ⟨given, hgiven, -, rfl, hrest⟩ := scrubDetail_eq_some.mp hd
      rw [scrub_eq_purge u given (hclean given hgiven), hempty given hgiven] at hrest
      cases hrest

/-- **No credential comes to rest in an audit entry**, exactly when every tuple that is not dropped
with a forbidden key is free of such keys itself. -/
theorem scrubsCredentials_iff (u : Unicode) (truthy : S → Bool) (detail : Option (Detail S)) :
    ScrubsCredentials u truthy detail ↔ ∀ d, detail = some d → d.tuplesClean u = true := by
  constructor
  · rintro h d rfl
    rw [← isClean_scrub]
    by_cases hrest : (d.scrub u).isTruthy truthy = true
    · by_cases htruthy : d.isTruthy truthy = true
      · exact h.clean _ (scrubDetail_eq_some.mpr ⟨d, rfl, htruthy, rfl, hrest⟩)
      · have hempty := Bool.eq_false_of_not_eq_true htruthy
        rw [scrub_of_not_isTruthy hempty]
        exact isClean_of_not_isTruthy hempty
    · exact isClean_of_not_isTruthy (Bool.eq_false_of_not_eq_true hrest)
  · exact scrubsCredentials_of_tuplesClean

/-- A record of users with a tuple where a list was meant. -/
def usersInTuple : Detail String :=
  .dict [("users", .tuple [.dict [("password", .scalar "x")]])]

/-- A tuple carries a password into the audit table. -/
theorem tuple_keeps_password :
    recordedDetail .ascii (fun s => !s.isEmpty) (some usersInTuple) = some usersInTuple ∧
      usersInTuple.isClean .ascii = false ∧
      ¬ ScrubsCredentials .ascii (fun s => !s.isEmpty) (some usersInTuple) := by
  have hkept :
      scrubDetail .ascii (fun s => !s.isEmpty) (some usersInTuple) = some usersInTuple := by
    rfl
  have hunclean : usersInTuple.isClean .ascii = false := by rfl
  refine ⟨?_, hunclean, fun h => ?_⟩
  · rw [recordedDetail, validateDetail, hkept, hkept]
  · have hclean := h.clean _ hkept
    rw [hunclean] at hclean
    cases hclean

end Scrubbing

end FraudAnalyzer.Audit
