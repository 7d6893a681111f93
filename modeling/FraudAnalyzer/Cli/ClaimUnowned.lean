import FraudAnalyzer.Dashboards.Service

/-!
# Claiming unowned work

`_unowned_counts` and `_claim_unowned` of `app/cli.py`: one transaction that gives every saved query
and every dashboard without an owner to one account. The rows of both tables then have an owner, so
the unique constraints on their names apply to them.
-/

namespace FraudAnalyzer.Cli

open Dashboards

/-- `owner_id` after the claim. -/
def claimedOwner (accountId : String) (ownerId : Option String) : Option String :=
  some (ownerId.getD accountId)

def claimQuery (accountId : String) (query : SavedQuery) : SavedQuery :=
  { query with ownerId := claimedOwner accountId query.ownerId }

/-- `updated_at` is set with the owner. -/
def claimBoard (accountId : String) (now : Instant) (board : Dashboard) : Dashboard :=
  { board with
    ownerId := claimedOwner accountId board.ownerId
    updatedAt := if board.ownerId = none then now else board.updatedAt }

theorem claimQuery_id (accountId : String) (query : SavedQuery) :
    (claimQuery accountId query).id = query.id := rfl

theorem ownerId_claimQuery (accountId : String) (query : SavedQuery) :
    (claimQuery accountId query).ownerId = claimedOwner accountId query.ownerId := rfl

theorem ownerId_claimBoard (accountId : String) (now : Instant) (board : Dashboard) :
    (claimBoard accountId now board).ownerId = claimedOwner accountId board.ownerId := rfl

theorem claimBoard_id (accountId : String) (now : Instant) (board : Dashboard) :
    (claimBoard accountId now board).id = board.id := rfl

/-- `_unowned_counts` -/
def unownedCounts (db : Db) (boards : Boards) : Nat × Nat :=
  (db.queries.rows.countP fun q => q.ownerId = none,
    boards.dashboards.rows.countP fun d => d.ownerId = none)

/-- The columns of `uq_saved_queries_conn_owner_name`, where none is null. -/
def queryName (query : SavedQuery) : Option (String × String × String) :=
  query.ownerId.map fun owner => (query.connectionId, owner, query.name)

/-- The queries after the claim, and the boards. -/
def claimQueries (queries : Table SavedQuery.id) (accountId : String) : Table SavedQuery.id :=
  queries.mapRows (claimQuery accountId) (claimQuery_id accountId)

def claimBoards (dashboards : Table Dashboard.id) (accountId : String) (now : Instant) :
    Table Dashboard.id :=
  dashboards.mapRows (claimBoard accountId now) (claimBoard_id accountId now)

/-- `_claim_unowned`; `none` when a constraint refuses it. -/
def claimUnowned (db : Db) (boards : Boards) (accountId : String) (now : Instant) :
    Option (Db × Boards) :=
  let queries := claimQueries db.queries accountId
  let dashboards := claimBoards boards.dashboards accountId now
  if (queries.rows.filterMap queryName).Nodup ∧ (dashboards.rows.filterMap boardName).Nodup then
    some ({ db with queries := queries }, { boards with dashboards := dashboards })
  else none

theorem claimUnowned_eq_some_iff {db db' : Db} {boards boards' : Boards} {accountId : String}
    {now : Instant} : claimUnowned db boards accountId now = some (db', boards') ↔
      db' = { db with queries := claimQueries db.queries accountId } ∧
      boards' = { boards with dashboards := claimBoards boards.dashboards accountId now } ∧
      ((claimQueries db.queries accountId).rows.filterMap queryName).Nodup ∧
      ((claimBoards boards.dashboards accountId now).rows.filterMap boardName).Nodup := by
  unfold claimUnowned
  simp only
  split
  next hnames =>
    simp only [Option.some.injEq, Prod.mk.injEq, hnames, and_true]
    exact and_congr eq_comm eq_comm
  next hnames =>
    simp only [reduceCtorEq, false_iff, not_and]
    exact fun _ _ hqueries hboards => hnames ⟨hqueries, hboards⟩

theorem get_claimQueries (queries : Table SavedQuery.id) (accountId id : String) :
    (claimQueries queries accountId).get id = (queries.get id).map (claimQuery accountId) :=
  Table.get_mapRows _ _ _ _

theorem get_claimBoards (dashboards : Table Dashboard.id) (accountId : String) (now : Instant)
    (id : String) :
    (claimBoards dashboards accountId now).get id =
      (dashboards.get id).map (claimBoard accountId now) :=
  Table.get_mapRows _ _ _ _

/-! ## When a claim succeeds -/

section Clash

variable {ρ τ ν : Type} {key : ρ → String} (owner : ρ → Option String) (tag : ρ → τ)

/-- No row that has no owner would clash, among the rows of the account. -/
def NoClash (rows : List ρ) (key : ρ → String) (accountId : String) : Prop :=
  ∀ r ∈ rows, owner r = none → ∀ r' ∈ rows, key r' ≠ key r →
    owner r' = none ∨ owner r' = some accountId → tag r' ≠ tag r

/-- The columns of a unique constraint are the owner with the tag, and null where the owner is. -/
def OwnerColumn (column : ρ → Option ν) : Prop :=
  ∀ r r', (∃ v, column r = some v ∧ column r' = some v) ↔
    ∃ o, owner r = some o ∧ owner r' = some o ∧ tag r = tag r'

variable {owner tag}

theorem nodup_claimed_iff {column : ρ → Option ν} (hcolumn : OwnerColumn owner tag column)
    {accountId : String} {claim : ρ → ρ} (hkey : ∀ r, key (claim r) = key r)
    (howner : ∀ r, owner (claim r) = claimedOwner accountId (owner r))
    (htag : ∀ r, tag (claim r) = tag r) {t : Table key} (h : (t.rows.filterMap column).Nodup) :
    ((t.mapRows claim hkey).rows.filterMap column).Nodup ↔
      NoClash owner tag t.rows key accountId := by
  rw [Table.nodup_filterMap_iff] at h ⊢
  have hclaimed : ∀ r : ρ, owner r = none ∨ owner r = some accountId →
      owner (claim r) = some accountId := by
    rintro r (hr | hr) <;> rw [howner, hr] <;> rfl
  constructor
  · intro hunique r hr hnone r' hr' hne hown htags
    obtain ⟨v, hv, hv'⟩ := (hcolumn (claim r) (claim r')).mpr
      ⟨accountId, hclaimed r (.inl hnone), hclaimed r' hown, by rw [htag, htag, htags]⟩
    refine hunique _ (List.mem_map_of_mem hr) _ (List.mem_map_of_mem hr') ?_ v hv hv'
    rw [hkey, hkey]
    exact hne.symm
  · intro hclash x hx x' hx' hne v hv hv'
    obtain ⟨r, hr, rfl⟩ := List.mem_map.mp hx
    obtain ⟨r', hr', rfl⟩ := List.mem_map.mp hx'
    rw [hkey, hkey] at hne
    obtain ⟨o, ho, ho', htags⟩ := (hcolumn _ _).mp ⟨v, hv, hv'⟩
    rw [howner] at ho ho'
    rw [htag, htag] at htags
    cases hrow : owner r with
    | none =>
      rw [hrow] at ho
      obtain rfl : accountId = o := Option.some.inj ho
      refine hclash r hr hrow r' hr' hne.symm ?_ htags.symm
      cases hrow' : owner r' with
      | none => exact .inl rfl
      | some o' => exact .inr (by simpa [claimedOwner, hrow'] using ho')
    | some owned =>
      rw [hrow] at ho
      obtain rfl : owned = o := Option.some.inj ho
      cases hrow' : owner r' with
      | none =>
        rw [hrow'] at ho'
        obtain rfl : accountId = owned := Option.some.inj ho'
        exact hclash r' hr' hrow' r hr hne (.inr hrow) htags
      | some owned' =>
        rw [hrow'] at ho'
        obtain rfl : owned' = owned := Option.some.inj ho'
        obtain ⟨w, hw, hw'⟩ := (hcolumn r r').mpr ⟨owned', hrow, hrow', htags⟩
        exact h r hr r' hr' hne w hw hw'

/-- The rows of another owner stay as they are. -/
theorem filter_claimed_other {accountId other : String} (hother : other ≠ accountId) {claim : ρ → ρ}
    (howner : ∀ r, owner (claim r) = claimedOwner accountId (owner r))
    (hfix : ∀ r, (owner r).isSome → claim r = r) (rows : List ρ) :
    ((rows.map claim).filter fun r => owner r = some other) =
      rows.filter fun r => owner r = some other := by
  have hcomp : (fun r => decide (owner r = some other)) ∘ claim =
      fun r => decide (owner r = some other) := by
    funext r
    rw [Function.comp_apply, howner]
    cases owner r <;> simp [claimedOwner, Ne.symm hother]
  rw [List.filter_map, hcomp]
  refine (List.map_congr_left fun r hr => ?_).trans (List.map_id _)
  have howned := of_decide_eq_true (List.mem_filter.mp hr).2
  exact hfix r (by rw [howned]; rfl)

/-- The account has its rows and those without an owner. -/
theorem filter_claimed_own {accountId : String} {claim : ρ → ρ}
    (hkey : ∀ r, key (claim r) = key r)
    (howner : ∀ r, owner (claim r) = claimedOwner accountId (owner r)) (rows : List ρ) :
    ((rows.map claim).filter fun r => owner r = some accountId).map key =
      (rows.filter fun r => owner r = none || owner r = some accountId).map key := by
  have hcomp : (fun r => decide (owner r = some accountId)) ∘ claim =
      fun r => decide (owner r = none) || decide (owner r = some accountId) := by
    funext r
    rw [Function.comp_apply, howner]
    cases owner r <;> simp [claimedOwner]
  rw [List.filter_map, hcomp, List.map_map]
  exact List.map_congr_left fun r _ => hkey r

theorem countP_claimed {accountId : String} {claim : ρ → ρ}
    (howner : ∀ r, owner (claim r) = claimedOwner accountId (owner r)) (rows : List ρ) :
    (rows.map claim).countP (fun r => owner r = none) = 0 := by
  rw [List.countP_eq_zero]
  intro x hx
  obtain ⟨r, -, rfl⟩ := List.mem_map.mp hx
  rw [howner]
  exact Bool.false_ne_true

end Clash

theorem ownerColumn_queryName :
    OwnerColumn SavedQuery.ownerId (fun q => (q.connectionId, q.name)) queryName := by
  intro q q'
  constructor
  · rintro ⟨v, hv, hv'⟩
    obtain ⟨o, ho, rfl⟩ := Option.map_eq_some_iff.mp hv
    obtain ⟨o', ho', heq⟩ := Option.map_eq_some_iff.mp hv'
    simp only [Prod.mk.injEq] at heq
    obtain ⟨hconn, rfl, hname⟩ := heq
    exact ⟨o', ho, ho', Prod.ext hconn.symm hname.symm⟩
  · rintro ⟨o, ho, ho', htag⟩
    obtain ⟨hconn, hname⟩ := Prod.mk.inj htag
    refine ⟨(q.connectionId, o, q.name), by rw [queryName, ho]; rfl, ?_⟩
    rw [queryName, ho', hconn, hname]
    rfl

theorem ownerColumn_boardName : OwnerColumn Dashboard.ownerId Dashboard.name boardName := by
  intro d d'
  constructor
  · rintro ⟨v, hv, hv'⟩
    obtain ⟨o, ho, rfl⟩ := Option.map_eq_some_iff.mp hv
    obtain ⟨o', ho', heq⟩ := Option.map_eq_some_iff.mp hv'
    simp only [Prod.mk.injEq] at heq
    obtain ⟨rfl, hname⟩ := heq
    exact ⟨o', ho, ho', hname.symm⟩
  · rintro ⟨o, ho, ho', hname⟩
    refine ⟨(o, d.name), by rw [boardName, ho]; rfl, ?_⟩
    rw [boardName, ho', hname]
    rfl

/-- No name of an unowned row is taken by the account, or by another unowned row. -/
structure Claimable (db : Db) (boards : Boards) (accountId : String) : Prop where
  queries : NoClash SavedQuery.ownerId (fun q => (q.connectionId, q.name)) db.queries.rows
    SavedQuery.id accountId
  boards : NoClash Dashboard.ownerId Dashboard.name boards.dashboards.rows Dashboard.id accountId

/-- What a claim leaves: nothing is unowned, the account sees its rows and those that had no owner,
and everybody else sees what they saw. -/
structure Claimed (db : Db) (boards : Boards) (accountId : String) (db' : Db) (boards' : Boards) :
    Prop where
  counts : unownedCounts db' boards' = (0, 0)
  ownQueries : (db'.queries.rows.filter (Queries.visibleTo ⟨accountId, false⟩)).map SavedQuery.id =
    (db.queries.rows.filter fun q =>
      q.ownerId = none || q.ownerId = some accountId).map SavedQuery.id
  ownBoards : (boards'.dashboards.rows.filter (visibleTo ⟨accountId, false⟩)).map Dashboard.id =
    (boards.dashboards.rows.filter fun d => d.ownerId = none || d.ownerId = some accountId).map
      Dashboard.id
  otherQueries : ∀ other, other ≠ accountId →
    db'.queries.rows.filter (Queries.visibleTo ⟨other, false⟩) =
      db.queries.rows.filter (Queries.visibleTo ⟨other, false⟩)
  otherBoards : ∀ other, other ≠ accountId →
    boards'.dashboards.rows.filter (visibleTo ⟨other, false⟩) =
      boards.dashboards.rows.filter (visibleTo ⟨other, false⟩)
  placed : boards'.items = boards.items ∧ db'.charts = db.charts ∧ db'.flagRules = db.flagRules

theorem claimQuery_of_isSome {accountId : String} {query : SavedQuery} (h : query.ownerId.isSome) :
    claimQuery accountId query = query := by
  obtain ⟨owner, howner⟩ := Option.isSome_iff_exists.mp h
  rw [claimQuery, howner, claimedOwner, Option.getD_some, ← howner]

theorem claimBoard_of_isSome {accountId : String} {now : Instant} {board : Dashboard}
    (h : board.ownerId.isSome) : claimBoard accountId now board = board := by
  obtain ⟨owner, howner⟩ := Option.isSome_iff_exists.mp h
  rw [claimBoard, howner, claimedOwner, Option.getD_some, if_neg (by simp), ← howner]

theorem visibleTo_analyst (id : String) :
    Queries.visibleTo ⟨id, false⟩ = (fun q => decide (q.ownerId = some id)) ∧
      visibleTo ⟨id, false⟩ = fun d => decide (d.ownerId = some id) :=
  ⟨funext fun _ => Bool.false_or _, funext fun _ => Bool.false_or _⟩

theorem claimed_of_claimUnowned {db db' : Db} {boards boards' : Boards} {accountId : String}
    {now : Instant} (h : claimUnowned db boards accountId now = some (db', boards')) :
    Claimed db boards accountId db' boards' := by
  obtain ⟨rfl, rfl, -, -⟩ := claimUnowned_eq_some_iff.mp h
  refine ⟨?_, ?_, ?_, fun other hother => ?_, fun other hother => ?_, ⟨rfl, rfl, rfl⟩⟩
  · exact Prod.ext (countP_claimed (ownerId_claimQuery accountId) _)
      (countP_claimed (ownerId_claimBoard accountId now) _)
  · rw [(visibleTo_analyst accountId).1]
    exact filter_claimed_own (claimQuery_id accountId) (ownerId_claimQuery accountId) _
  · rw [(visibleTo_analyst accountId).2]
    exact filter_claimed_own (claimBoard_id accountId now) (ownerId_claimBoard accountId now) _
  · rw [(visibleTo_analyst other).1]
    exact filter_claimed_other hother (ownerId_claimQuery accountId)
      (fun _ => claimQuery_of_isSome) _
  · rw [(visibleTo_analyst other).2]
    exact filter_claimed_other hother (ownerId_claimBoard accountId now)
      (fun _ => claimBoard_of_isSome) _

/-- **A claim is all or nothing**: it goes through exactly when no name clashes, and then nothing is
unowned, the account sees what had no owner, and nobody else sees a change. -/
theorem claimed_iff_claimable {db : Db} {boards : Boards} (accountId : String) (now : Instant)
    (hqueries : (db.queries.rows.filterMap queryName).Nodup)
    (hboards : (boards.dashboards.rows.filterMap boardName).Nodup) :
    (∃ db' boards', claimUnowned db boards accountId now = some (db', boards') ∧
      Claimed db boards accountId db' boards') ↔ Claimable db boards accountId := by
  have hq : ((claimQueries db.queries accountId).rows.filterMap queryName).Nodup ↔ _ :=
    nodup_claimed_iff ownerColumn_queryName (claimQuery_id accountId)
      (ownerId_claimQuery accountId) (fun _ => rfl) hqueries
  have hb : ((claimBoards boards.dashboards accountId now).rows.filterMap boardName).Nodup ↔ _ :=
    nodup_claimed_iff ownerColumn_boardName (claimBoard_id accountId now)
      (ownerId_claimBoard accountId now) (fun _ => rfl) hboards
  constructor
  · rintro ⟨db', boards', h, -⟩
    obtain ⟨-, -, hqueries', hboards'⟩ := claimUnowned_eq_some_iff.mp h
    exact ⟨hq.mp hqueries', hb.mp hboards'⟩
  · intro h
    have hclaim : claimUnowned db boards accountId now = some (_, _) :=
      claimUnowned_eq_some_iff.mpr ⟨rfl, rfl, hq.mpr h.queries, hb.mpr h.boards⟩
    exact ⟨_, _, hclaim, claimed_of_claimUnowned hclaim⟩

namespace Sample

def unowned : Dashboard := ⟨"old", "Fraud", none, 1, 1⟩

theorem nodup_unowned : ([unowned].map Dashboard.id).Nodup := by decide

/-- A board from before there were accounts, next to the query of an analyst. -/
def boards : Boards := ⟨⟨[unowned], nodup_unowned⟩, Table.empty⟩

end Sample

/-- The analyst gets the board. -/
theorem claimed_unowned_board :
    ∃ db' boards', claimUnowned Charts.Sample.db Sample.boards "ann" 5 = some (db', boards') ∧
      Claimed Charts.Sample.db Sample.boards "ann" db' boards' :=
  (claimed_iff_claimable "ann" 5 (by decide) (by decide)).mpr
    ⟨by unfold NoClash; decide, by unfold NoClash; decide⟩

end FraudAnalyzer.Cli
