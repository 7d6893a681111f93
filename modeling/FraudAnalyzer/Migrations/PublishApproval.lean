import FraudAnalyzer.FlagRules.Dismissals

/-!
# Revision 0017: publishing by request, and personal dismissals

The upgrade hands each dismissal to the owner of its query, or to the first administrator where the
query has no owner, and drops those with neither. The downgrade keeps one row of each finding that
anybody had dismissed, as the old key asks. A chart gets the columns of a request, all empty.
-/

namespace FraudAnalyzer.Migrations.PublishApproval

open FlagRules

/-! ## The two schemas -/

/-- `users` -/
structure Account where
  id : String
  isAdmin : Bool
  createdAt : Instant
  deriving DecidableEq

/-- `saved_queries` -/
structure OwnedQuery where
  id : String
  ownerId : Option String
  deriving DecidableEq

/-- `query_charts` at 0016 -/
structure SharedChart where
  id : String
  queryId : String
  isPublic : Bool
  publishedBy : Option String
  publishedAt : Option Instant
  deriving DecidableEq

/-- `flag_dismissals` at 0016 -/
structure SharedDismissal where
  id : String
  queryId : String
  rowFingerprint : String
  deriving DecidableEq

/-- The columns of `uq_flag_dismissals_row` at 0016. -/
def SharedDismissal.finding (d : SharedDismissal) : String × String :=
  (d.queryId, d.rowFingerprint)

/-- A database at revision 0016. -/
structure OldDb where
  users : Table Account.id
  queries : Table OwnedQuery.id
  charts : Table SharedChart.id
  dismissals : Table SharedDismissal.id
  uq_row : (dismissals.rows.map SharedDismissal.finding).Nodup
  fk_owner : ∀ q ∈ queries.rows, ∀ u, q.ownerId = some u → u ∈ users.rows.map Account.id
  fk_query : ∀ d ∈ dismissals.rows, d.queryId ∈ queries.rows.map OwnedQuery.id

/-- `query_charts` at 0017 -/
structure RequestedChart extends PublishColumns where
  id : String
  queryId : String
  deriving DecidableEq

/-- `flag_dismissals` at 0017 -/
structure PersonalDismissal extends FlagDismissal where
  id : String
  deriving DecidableEq

def PersonalDismissal.finding (d : PersonalDismissal) : String × String :=
  (d.queryId, d.rowFingerprint)

/-- A database at revision 0017. -/
structure NewDb where
  users : Table Account.id
  queries : Table OwnedQuery.id
  charts : Table RequestedChart.id
  dismissals : Table PersonalDismissal.id
  uq_row : (dismissals.rows.map PersonalDismissal.toFlagDismissal).Nodup
  fk_owner : ∀ q ∈ queries.rows, ∀ u, q.ownerId = some u → u ∈ users.rows.map Account.id
  fk_query : ∀ d ∈ dismissals.rows, d.queryId ∈ queries.rows.map OwnedQuery.id
  fk_user : ∀ d ∈ dismissals.rows, d.userId ∈ users.rows.map Account.id
  fk_requester : ∀ c ∈ charts.rows, ∀ u, c.publishRequestedBy = some u →
    u ∈ users.rows.map Account.id
  fk_rejecter : ∀ c ∈ charts.rows, ∀ u, c.publishRejectedBy = some u →
    u ∈ users.rows.map Account.id

/-- What anybody has dismissed of a query. -/
def OldDb.dismissed (db : OldDb) (queryId : String) : List String :=
  sortedNames ((db.dismissals.rows.filter fun d => d.queryId = queryId).map
    SharedDismissal.rowFingerprint)

/-- What a person has dismissed of a query. -/
def NewDb.dismissed (db : NewDb) (queryId userId : String) : List String :=
  dismissedFingerprints (db.dismissals.rows.map PersonalDismissal.toFlagDismissal) queryId userId

theorem OldDb.mem_dismissed {db : OldDb} {queryId f : String} :
    f ∈ db.dismissed queryId ↔ (queryId, f) ∈ db.dismissals.rows.map SharedDismissal.finding := by
  rw [OldDb.dismissed, mem_sortedNames, List.mem_map, List.mem_map]
  constructor
  · rintro ⟨d, hd, rfl⟩
    obtain ⟨hmem, hquery⟩ := List.mem_filter.mp hd
    obtain rfl := of_decide_eq_true hquery
    exact ⟨d, hmem, rfl⟩
  · rintro ⟨d, hd, hfinding⟩
    cases hfinding
    exact ⟨d, List.mem_filter.mpr ⟨hd, decide_eq_true rfl⟩, rfl⟩

theorem NewDb.mem_dismissed {db : NewDb} {queryId userId f : String} :
    f ∈ db.dismissed queryId userId ↔
      ∃ d ∈ db.dismissals.rows, d.toFlagDismissal = ⟨queryId, userId, f⟩ := by
  rw [NewDb.dismissed, mem_dismissedFingerprints, List.mem_map]

/-! ## Upgrade -/

/-- A row while `user_id` may be null. -/
structure StagedDismissal extends SharedDismissal where
  userId : Option String

namespace OldDb

variable (db : OldDb)

/-- `SELECT owner_id FROM saved_queries WHERE ..` -/
def ownerOf (queryId : String) : Option String :=
  (db.queries.get queryId).bind OwnedQuery.ownerId

/-- `SELECT id FROM users WHERE role = 'admin' ORDER BY created_at LIMIT 1` -/
def firstAdmin : Option String :=
  (sortedBy Account.createdAt (db.users.rows.filter Account.isAdmin)).head?.map Account.id

/-- The rows after the two `UPDATE`s and the `DELETE`. -/
def staged : List StagedDismissal :=
  let added : List StagedDismissal := db.dismissals.rows.map fun d => ⟨d, none⟩
  let owned := added.map fun d => { d with userId := db.ownerOf d.queryId }
  let adopted := owned.map fun d =>
    if d.userId.isNone then { d with userId := db.firstAdmin } else d
  adopted.filter fun d => !d.userId.isNone

end OldDb

/-- The row under the new schema, where `user_id` is not null. -/
def StagedDismissal.personal? (d : StagedDismissal) : Option PersonalDismissal :=
  d.userId.map fun userId => ⟨⟨d.queryId, userId, d.rowFingerprint⟩, d.id⟩

namespace OldDb

variable (db : OldDb)

/-- Who the dismissals of a query go to. -/
def heir (queryId : String) : Option String := (db.ownerOf queryId).or db.firstAdmin

/-- The row that its heir gets. -/
def handOver (d : SharedDismissal) : Option PersonalDismissal :=
  (db.heir d.queryId).map fun userId => ⟨⟨d.queryId, userId, d.rowFingerprint⟩, d.id⟩

theorem filterMap_staged :
    db.staged.filterMap StagedDismissal.personal? = db.dismissals.rows.filterMap db.handOver := by
  unfold staged
  rw [List.filterMap_filter, List.filterMap_map, List.filterMap_map, List.filterMap_map]
  refine List.filterMap_congr fun d _ => ?_
  simp only [Function.comp_apply, handOver, heir]
  cases db.ownerOf d.queryId with
  | some u => rfl
  | none =>
    cases hadmin : db.firstAdmin with
    | some u => simp [StagedDismissal.personal?]
    | none => simp

theorem handOver_eq_some {d : SharedDismissal} {p : PersonalDismissal} :
    db.handOver d = some p ↔
      db.heir d.queryId = some p.userId ∧ ⟨p.id, p.queryId, p.rowFingerprint⟩ = d := by
  obtain ⟨⟨queryId, userId, f⟩, id⟩ := p
  obtain ⟨id', queryId', f'⟩ := d
  rw [handOver, Option.map_eq_some_iff]
  constructor
  · rintro ⟨u, hheir, hrow⟩
    cases hrow
    exact ⟨hheir, rfl⟩
  · rintro ⟨hheir, hrow⟩
    cases hrow
    exact ⟨userId, hheir, rfl⟩

/-- A key of the new rows is distinct where it tells the old rows apart. -/
theorem nodup_handedOver {κ ν : Type} {old : SharedDismissal → κ} {new : PersonalDismissal → ν}
    (h : (db.dismissals.rows.map old).Nodup)
    (hkey : ∀ d p d' p', db.handOver d = some p → db.handOver d' = some p' → new p = new p' →
      old d = old d') : ((db.dismissals.rows.filterMap db.handOver).map new).Nodup := by
  rw [List.Nodup, List.pairwise_map] at h ⊢
  rw [List.pairwise_filterMap]
  exact h.imp fun {d d'} hne p hp p' hp' hsame => hne (hkey d p d' p' hp hp' hsame)

/-- The dismissals under the new schema. -/
def handedOver : Table PersonalDismissal.id :=
  ⟨db.staged.filterMap StagedDismissal.personal?, by
    rw [db.filterMap_staged]
    refine db.nodup_handedOver db.dismissals.nodup fun d p d' p' hp hp' hid => ?_
    rw [← (db.handOver_eq_some.mp hp).2, ← (db.handOver_eq_some.mp hp').2]
    exact hid⟩

theorem rows_handedOver : db.handedOver.rows = db.dismissals.rows.filterMap db.handOver :=
  db.filterMap_staged

theorem mem_handedOver {p : PersonalDismissal} :
    p ∈ db.handedOver.rows ↔ ∃ d ∈ db.dismissals.rows, db.handOver d = some p := by
  rw [rows_handedOver, List.mem_filterMap]

theorem mem_users_of_owner {queryId u : String} (h : db.ownerOf queryId = some u) :
    u ∈ db.users.rows.map Account.id := by
  obtain ⟨q, hq, howner⟩ := Option.bind_eq_some_iff.mp h
  exact db.fk_owner q (Table.mem_of_get hq) u howner

/-- No administrator is older than the first. -/
theorem firstAdmin_eq_some {u : String} (h : db.firstAdmin = some u) :
    ∃ a ∈ db.users.rows, a.id = u ∧ a.isAdmin = true ∧
      ∀ b ∈ db.users.rows, b.isAdmin = true → a.createdAt ≤ b.createdAt := by
  obtain ⟨a, hhead, hid⟩ := Option.map_eq_some_iff.mp h
  obtain ⟨rest, hsorted⟩ := List.head?_eq_some_iff.mp hhead
  have hmem := mem_sortedBy.mp (hsorted ▸ List.mem_cons_self : a ∈ sortedBy Account.createdAt _)
  obtain ⟨hrow, hadmin⟩ := List.mem_filter.mp hmem
  refine ⟨a, hrow, hid, hadmin, fun b hb hbadmin => ?_⟩
  have hpairwise : (sortedBy Account.createdAt (db.users.rows.filter Account.isAdmin)).Pairwise
      fun a b => a.createdAt ≤ b.createdAt := List.pairwise_insertionSort _ _
  have hbmem : b ∈ sortedBy Account.createdAt (db.users.rows.filter Account.isAdmin) :=
    mem_sortedBy.mpr (List.mem_filter.mpr ⟨hb, hbadmin⟩)
  rw [hsorted] at hpairwise hbmem
  rcases List.mem_cons.mp hbmem with rfl | hbrest
  · exact le_refl _
  · exact List.rel_of_pairwise_cons hpairwise hbrest

theorem mem_users_of_heir {queryId u : String} (h : db.heir queryId = some u) :
    u ∈ db.users.rows.map Account.id := by
  rcases Option.or_eq_some_iff.mp h with howner | ⟨-, hadmin⟩
  · exact db.mem_users_of_owner howner
  · obtain ⟨a, ha, rfl, -⟩ := db.firstAdmin_eq_some hadmin
    exact List.mem_map_of_mem ha

end OldDb

/-- The chart with the columns of a request and a rejection added. -/
def SharedChart.widen (c : SharedChart) : RequestedChart where
  id := c.id
  queryId := c.queryId
  isPublic := c.isPublic
  publishedBy := c.publishedBy
  publishedAt := c.publishedAt
  publishRequestedBy := none
  publishRequestedAt := none
  publishRejectedBy := none
  publishRejectedAt := none
  publishRejectedReason := none

/-- `upgrade` -/
def upgrade (db : OldDb) : NewDb where
  users := db.users
  queries := db.queries
  charts := ⟨db.charts.rows.map SharedChart.widen, by
    rw [List.map_map]
    exact db.charts.nodup⟩
  dismissals := db.handedOver
  uq_row := by
    rw [db.rows_handedOver]
    refine db.nodup_handedOver db.uq_row fun d p d' p' hp hp' hrow => ?_
    rw [← (db.handOver_eq_some.mp hp).2, ← (db.handOver_eq_some.mp hp').2]
    exact congrArg (fun r : FlagDismissal => (r.queryId, r.rowFingerprint)) hrow
  fk_owner := db.fk_owner
  fk_query := by
    intro p hp
    obtain ⟨d, hd, hhand⟩ := db.mem_handedOver.mp hp
    have hquery := db.fk_query d hd
    rwa [← (db.handOver_eq_some.mp hhand).2] at hquery
  fk_user := by
    intro p hp
    obtain ⟨d, -, hhand⟩ := db.mem_handedOver.mp hp
    exact db.mem_users_of_heir (db.handOver_eq_some.mp hhand).1
  fk_requester := by
    rw [List.forall_mem_map]
    exact fun c _ u hnull => by cases hnull
  fk_rejecter := by
    rw [List.forall_mem_map]
    exact fun c _ u hnull => by cases hnull

/-! ## Downgrade -/

namespace NewDb

variable (db : NewDb)

/-- `MIN(id)` of the rows of a finding -/
def minId (finding : String × String) : Option String :=
  (sortedNames ((db.dismissals.rows.filter fun d => d.finding = finding).map
    PersonalDismissal.id)).head?

/-- `SELECT MIN(id) FROM flag_dismissals GROUP BY query_id, row_fingerprint` -/
def minIds : List String :=
  (db.dismissals.rows.map PersonalDismissal.finding).dedup.filterMap db.minId

/-- The rows that the `DELETE` leaves. -/
def keptRows : List PersonalDismissal := db.dismissals.rows.filter fun d => d.id ∈ db.minIds

theorem mem_minIds {id : String} :
    id ∈ db.minIds ↔ ∃ d ∈ db.dismissals.rows, db.minId d.finding = some id := by
  simp only [minIds, List.mem_filterMap, List.mem_dedup, List.mem_map, exists_exists_and_eq_and]

theorem exists_of_minId {finding : String × String} {id : String}
    (h : db.minId finding = some id) :
    ∃ d ∈ db.dismissals.rows, d.finding = finding ∧ d.id = id := by
  have hmem := mem_sortedNames.mp (List.mem_of_head? h)
  obtain ⟨d, hd, rfl⟩ := List.mem_map.mp hmem
  obtain ⟨hrow, hfinding⟩ := List.mem_filter.mp hd
  exact ⟨d, hrow, of_decide_eq_true hfinding, rfl⟩

theorem minId_isSome {d : PersonalDismissal} (h : d ∈ db.dismissals.rows) :
    ∃ id, db.minId d.finding = some id := by
  cases hmin : db.minId d.finding with
  | some id => exact ⟨id, rfl⟩
  | none =>
    have hnil := List.head?_eq_none_iff.mp hmin
    have hmem : d.id ∈ sortedNames ((db.dismissals.rows.filter fun d' =>
        d'.finding = d.finding).map PersonalDismissal.id) :=
      mem_sortedNames.mpr (List.mem_map_of_mem (List.mem_filter.mpr ⟨h, decide_eq_true rfl⟩))
    rw [hnil] at hmem
    cases hmem

/-- A row is kept when its id is the least of its finding. -/
theorem mem_keptRows {d : PersonalDismissal} :
    d ∈ db.keptRows ↔ d ∈ db.dismissals.rows ∧ db.minId d.finding = some d.id := by
  rw [keptRows, List.mem_filter, decide_eq_true_iff, mem_minIds]
  refine and_congr_right fun hd => ⟨?_, fun hmin => ⟨d, hd, hmin⟩⟩
  rintro ⟨d', hd', hmin⟩
  obtain ⟨e, he, hfinding, hid⟩ := db.exists_of_minId hmin
  have heq := Table.get_of_mem he
  rw [hid, Table.get_of_mem hd] at heq
  cases heq
  rwa [hfinding]

/-- One row of each finding is kept. -/
theorem nodup_findings_keptRows : (db.keptRows.map PersonalDismissal.finding).Nodup := by
  have hids : db.keptRows.Pairwise fun a b => a.id ≠ b.id :=
    List.pairwise_map.mp (db.dismissals.nodup.sublist (List.filter_sublist.map _))
  refine List.pairwise_map.mpr (hids.imp_of_mem fun {a b} ha hb hne hsame => hne ?_)
  have hmin := (db.mem_keptRows.mp ha).2
  rw [hsame, (db.mem_keptRows.mp hb).2] at hmin
  exact (Option.some.inj hmin).symm

theorem finding_mem_keptRows {finding : String × String} :
    finding ∈ db.keptRows.map PersonalDismissal.finding ↔
      finding ∈ db.dismissals.rows.map PersonalDismissal.finding := by
  constructor
  · exact fun h => (List.filter_sublist.map _).subset h
  · intro h
    obtain ⟨d, hd, rfl⟩ := List.mem_map.mp h
    obtain ⟨id, hmin⟩ := db.minId_isSome hd
    obtain ⟨e, he, hfinding, rfl⟩ := db.exists_of_minId hmin
    exact List.mem_map.mpr ⟨e, db.mem_keptRows.mpr ⟨he, hfinding ▸ hmin⟩, hfinding⟩

end NewDb

/-- The row without its user. -/
def PersonalDismissal.share (d : PersonalDismissal) : SharedDismissal :=
  ⟨d.id, d.queryId, d.rowFingerprint⟩

/-- The chart without the columns of a request and a rejection. -/
def RequestedChart.narrow (c : RequestedChart) : SharedChart :=
  ⟨c.id, c.queryId, c.isPublic, c.publishedBy, c.publishedAt⟩

/-- `downgrade` -/
def downgrade (db : NewDb) : OldDb where
  users := db.users
  queries := db.queries
  charts := ⟨db.charts.rows.map RequestedChart.narrow, by
    rw [List.map_map]
    exact db.charts.nodup⟩
  dismissals := ⟨db.keptRows.map PersonalDismissal.share, by
    rw [List.map_map]
    exact db.dismissals.nodup.sublist (List.filter_sublist.map _)⟩
  uq_row := by
    rw [List.map_map]
    exact db.nodup_findings_keptRows
  fk_owner := db.fk_owner
  fk_query := by
    rw [List.forall_mem_map]
    exact fun d hd => db.fk_query d (List.mem_of_mem_filter hd)

/-! ## What people have dismissed -/

/-- What the revision is to keep, either way. -/
structure KeepsDismissals (up : OldDb → NewDb) (down : NewDb → OldDb) : Prop where
  handedOver : ∀ db q u f,
    f ∈ (up db).dismissed q u ↔ f ∈ db.dismissed q ∧ db.heir q = some u
  pooled : ∀ db q f, f ∈ (down db).dismissed q ↔ ∃ u, f ∈ db.dismissed q u
  restored : ∀ db, down (up db) = db ↔ ∀ q, db.heir q = none → db.dismissed q = []

theorem mem_dismissed_upgrade {db : OldDb} {q u f : String} :
    f ∈ (upgrade db).dismissed q u ↔ f ∈ db.dismissed q ∧ db.heir q = some u := by
  rw [NewDb.mem_dismissed, OldDb.mem_dismissed, List.mem_map]
  constructor
  · rintro ⟨p, hp, hrow⟩
    obtain ⟨d, hd, hhand⟩ := db.mem_handedOver.mp hp
    obtain ⟨hheir, rfl⟩ := db.handOver_eq_some.mp hhand
    obtain ⟨row, id⟩ := p
    subst hrow
    exact ⟨⟨_, hd, rfl⟩, hheir⟩
  · rintro ⟨⟨d, hd, hfinding⟩, hheir⟩
    cases hfinding
    exact ⟨⟨_, d.id⟩, db.mem_handedOver.mpr ⟨d, hd, db.handOver_eq_some.mpr ⟨hheir, rfl⟩⟩, rfl⟩

theorem mem_dismissed_downgrade {db : NewDb} {q f : String} :
    f ∈ (downgrade db).dismissed q ↔ ∃ u, f ∈ db.dismissed q u := by
  have hfindings : (downgrade db).dismissals.rows.map SharedDismissal.finding =
      db.keptRows.map PersonalDismissal.finding := List.map_map
  rw [OldDb.mem_dismissed, hfindings, NewDb.finding_mem_keptRows, List.mem_map]
  simp only [NewDb.mem_dismissed]
  constructor
  · rintro ⟨d, hd, hfinding⟩
    cases hfinding
    exact ⟨d.userId, d, hd, rfl⟩
  · rintro ⟨u, d, hd, hrow⟩
    exact ⟨d, hd, congrArg (fun r : FlagDismissal => (r.queryId, r.rowFingerprint)) hrow⟩

/-- The downgrade deletes nothing where each finding has one row. -/
theorem keptRows_eq_self {db : NewDb}
    (h : (db.dismissals.rows.map PersonalDismissal.finding).Nodup) :
    db.keptRows = db.dismissals.rows := by
  refine List.filter_eq_self.mpr fun d hd => ?_
  obtain ⟨id, hmin⟩ := db.minId_isSome hd
  obtain ⟨e, he, hfinding, rfl⟩ := db.exists_of_minId hmin
  obtain rfl := List.inj_on_of_nodup_map h he hd hfinding
  exact decide_eq_true (db.mem_minIds.mpr ⟨e, hd, hmin⟩)

theorem nodup_findings_upgrade (db : OldDb) :
    ((upgrade db).dismissals.rows.map PersonalDismissal.finding).Nodup := by
  have hrows : (upgrade db).dismissals.rows = _ := db.rows_handedOver
  rw [hrows]
  refine db.nodup_handedOver db.uq_row fun d p d' p' hp hp' hfinding => ?_
  rw [← (db.handOver_eq_some.mp hp).2, ← (db.handOver_eq_some.mp hp').2]
  exact hfinding

/-- Up and down again, the rows with an heir are as they were. -/
theorem rows_downgrade_upgrade (db : OldDb) :
    (downgrade (upgrade db)).dismissals.rows =
      db.dismissals.rows.filter fun d => (db.heir d.queryId).isSome := by
  have hkept := keptRows_eq_self (nodup_findings_upgrade db)
  have hrows : (upgrade db).dismissals.rows = _ := db.rows_handedOver
  calc (downgrade (upgrade db)).dismissals.rows
      = (upgrade db).keptRows.map PersonalDismissal.share := rfl
    _ = (db.dismissals.rows.filterMap db.handOver).map PersonalDismissal.share := by
        rw [hkept, hrows]
    _ = db.dismissals.rows.filterMap fun d =>
      if (db.heir d.queryId).isSome then some d else none := by
        rw [List.map_filterMap]
        refine List.filterMap_congr fun d _ => ?_
        rw [OldDb.handOver]
        cases db.heir d.queryId with
        | none => rfl
        | some u => rfl
    _ = db.dismissals.rows.filter fun d => (db.heir d.queryId).isSome := by
        rw [← List.filterMap_eq_filter]
        rfl

theorem charts_downgrade_upgrade (db : OldDb) : (downgrade (upgrade db)).charts = db.charts := by
  refine Table.eq_of_rows ?_
  have hrows : (db.charts.rows.map SharedChart.widen).map RequestedChart.narrow =
      db.charts.rows := by
    rw [List.map_map]
    exact List.map_id db.charts.rows
  exact hrows

theorem downgrade_upgrade_iff (db : OldDb) :
    downgrade (upgrade db) = db ↔ ∀ q, db.heir q = none → db.dismissed q = [] := by
  have hrows := rows_downgrade_upgrade db
  have hcharts := charts_downgrade_upgrade db
  constructor
  · intro h q hheir
    rw [List.eq_nil_iff_forall_not_mem]
    intro f hf
    rw [← h, mem_dismissed_downgrade] at hf
    obtain ⟨u, hu⟩ := hf
    obtain ⟨-, hsome⟩ := mem_dismissed_upgrade.mp hu
    rw [hheir] at hsome
    cases hsome
  · intro h
    have hall : (downgrade (upgrade db)).dismissals.rows = db.dismissals.rows := by
      rw [hrows]
      refine List.filter_eq_self.mpr fun d hd => ?_
      cases hheir : db.heir d.queryId with
      | some u => rfl
      | none =>
        have hmem : d.rowFingerprint ∈ db.dismissed d.queryId :=
          OldDb.mem_dismissed.mpr (List.mem_map_of_mem hd)
        rw [h d.queryId hheir] at hmem
        cases hmem
    have hdismissals := Table.eq_of_rows hall
    obtain ⟨users, queries, charts, dismissals, huq, howner, hquery⟩ := db
    generalize hdb : downgrade (upgrade _) = db' at hcharts hdismissals ⊢
    obtain ⟨users', queries', charts', dismissals', huq', howner', hquery'⟩ := db'
    obtain rfl : users = users' := congrArg OldDb.users hdb
    obtain rfl : queries = queries' := congrArg OldDb.queries hdb
    obtain rfl : charts' = charts := hcharts
    obtain rfl : dismissals' = dismissals := hdismissals
    rfl

theorem keepsDismissals : KeepsDismissals upgrade downgrade where
  handedOver _ _ _ _ := mem_dismissed_upgrade
  pooled _ _ _ := mem_dismissed_downgrade
  restored := downgrade_upgrade_iff

end FraudAnalyzer.Migrations.PublishApproval
