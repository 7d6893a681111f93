import FraudAnalyzer.RateLimit
import Mathlib.Order.Bounds.Defs

/-!
# What one client sees of the others

The answers of the middleware, while the stamps reach each table in the order of their windows. The
count that the table holds for a client is then the number of its own requests in the window, at
this bucket (`held_tables`): a purge takes away nothing that is still counted. So a request is
answered from the client's own requests (`answer_tables`), as it would be with no other client.
-/

namespace FraudAnalyzer.RateLimit

open Python

/-- The requests reach each table in the order of their windows. -/
def InOrder (rs : List Request) : Prop :=
  rs.Pairwise fun a b => a.bucket = b.bucket → windowOf a.now ≤ windowOf b.now

section Counting

variable (u : Unicode) (sha256Hex : Sha256Hex) (limits : Bucket → ℤ)

/-- The tables after requests, from the start of the process. -/
def tablesAfter (rs : List Request) : Bucket → Counts :=
  rs.foldl (fun tables r => (dispatch u sha256Hex limits tables r).1) fun _ => .empty

/-- The request is the client's, at the bucket, and stamped in the window. -/
def Request.At (r : Request) (bucket : Bucket) (key : String) (window : ℤ) : Prop :=
  r.bucket = bucket ∧ (r.hit u sha256Hex).In key window

instance (r : Request) (bucket : Bucket) (key : String) (window : ℤ) :
    Decidable (r.At u sha256Hex bucket key window) :=
  inferInstanceAs (Decidable (_ ∧ _))

/-- How many requests of the client are at the bucket in the window. -/
def requestsAt (rs : List Request) (bucket : Bucket) (key : String) (window : ℤ) : Nat :=
  rs.countP fun r => r.At u sha256Hex bucket key window

/-- The answer to a request that has so many of its client's before it. -/
def answerOf (earlier : Nat) (r : Request) : Option (AppError × ℤ) :=
  if limits r.bucket ≤ 0 ∨ (earlier : ℤ) < limits r.bucket then none
  else some (refusal (limits r.bucket) r.bucket (resetIn r.now))

/-- The answer to a request after others, from the client's own among them. -/
def ownAnswer (before : List Request) (r : Request) : Option (AppError × ℤ) :=
  answerOf limits
    (requestsAt u sha256Hex before r.bucket (clientKey u sha256Hex r) (windowOf r.now)) r

end Counting

section Orders

variable {u : Unicode} {sha256Hex : Sha256Hex} {limits : Bucket → ℤ} {bucket : Bucket}
  {key : String} {window : ℤ} {rs before later : List Request} {r : Request}

theorem tablesAfter_concat (rs : List Request) (r : Request) :
    tablesAfter u sha256Hex limits (rs ++ [r]) =
      (dispatch u sha256Hex limits (tablesAfter u sha256Hex limits rs) r).1 := by
  rw [tablesAfter, List.foldl_concat]
  rfl

theorem requestsAt_concat (rs : List Request) (r : Request) :
    requestsAt u sha256Hex (rs ++ [r]) bucket key window =
      requestsAt u sha256Hex rs bucket key window +
        if r.At u sha256Hex bucket key window then 1 else 0 := by
  rw [requestsAt, List.countP_append, List.countP_singleton]
  simp only [decide_eq_true_eq]
  rfl

theorem InOrder.of_concat (h : InOrder (rs ++ [r])) :
    InOrder rs ∧ ∀ x ∈ rs, x.bucket = r.bucket → windowOf x.now ≤ windowOf r.now := by
  obtain ⟨hrs, -, hcross⟩ := List.pairwise_append.mp h
  exact ⟨hrs, fun x hx => hcross x hx r (List.mem_singleton.mpr rfl)⟩

/-- No request is counted in a window that is still to come. -/
theorem requestsAt_eq_zero
    (h : ∀ x ∈ rs, x.bucket = bucket → windowOf x.now < window) :
    requestsAt u sha256Hex rs bucket key window = 0 := by
  rw [requestsAt, List.countP_eq_zero]
  intro x hx hat
  obtain ⟨hbucket, -, hwindow⟩ := of_decide_eq_true hat
  exact absurd hwindow (ne_of_lt (h x hx hbucket))

/-- **The count that a table holds** of a client in the latest window, or one still to come, is the
number of its requests. -/
theorem held_tables (hlimit : 0 < limits bucket) (hrs : InOrder rs)
    (hlatest : ∀ x ∈ rs, x.bucket = bucket → windowOf x.now ≤ window) :
    held (tablesAfter u sha256Hex limits rs bucket) key window =
      requestsAt u sha256Hex rs bucket key window := by
  induction rs using List.reverseRecOn with
  | nil => rfl
  | append_singleton rs r ih =>
    obtain ⟨hbefore, hbelow⟩ := hrs.of_concat
    have hrest := ih hbefore fun x hx => hlatest x (List.mem_append_left _ hx)
    rw [tablesAfter_concat, requestsAt_concat]
    by_cases hbucket : r.bucket = bucket
    · subst hbucket
      rw [(dispatch_own hlimit).1, held_after, hrest]
      have hle := hlatest r (List.mem_append_right _ (List.mem_singleton.mpr rfl)) rfl
      by_cases hin : (r.hit u sha256Hex).In key window
      · rw [show eventOf _ _ key window = .spend from if_pos hin, if_pos ⟨rfl, hin⟩]
        rfl
      rw [if_neg fun hat => hin hat.2]
      by_cases hrestarts : Restarts (tablesAfter u sha256Hex limits rs r.bucket)
          (r.hit u sha256Hex) key window
      · -- the hit is in an earlier window, and so are those before it
        have hlt : windowOf r.now < window := lt_of_le_of_ne hle hrestarts.1
        rw [eventOf_eq_restart.mpr hrestarts,
          requestsAt_eq_zero fun x hx hsame => lt_of_le_of_lt (hbelow x hx hsame) hlt]
        rfl
      · rw [eventOf, if_neg hin, if_neg hrestarts]
        rfl
    · rw [dispatch_other (Ne.symm hbucket), hrest, if_neg fun hat => hbucket hat.1, Nat.add_zero]

/-- **One answer** is given by the client's own requests. -/
theorem answer_tables (h : InOrder (before ++ [r])) :
    (dispatch u sha256Hex limits (tablesAfter u sha256Hex limits before) r).2 =
      ownAnswer u sha256Hex limits before r := by
  unfold ownAnswer answerOf
  by_cases hlimit : limits r.bucket ≤ 0
  · rw [dispatch_disabled hlimit, if_pos (.inl hlimit)]
  · have hpos := Int.not_le.mp hlimit
    obtain ⟨hbefore, hbelow⟩ := h.of_concat
    rw [← held_tables hpos hbefore hbelow]
    unfold dispatch
    rw [if_neg hlimit, hit_eq]
    simp only [decide_eq_true_eq, hlimit, false_or, Nat.cast_add, Nat.cast_one, Int.add_one_le_iff]

/-- The answers to requests after others. -/
theorem outputs_tables (h : InOrder (before ++ later)) :
    Machine.outputs (dispatch u sha256Hex limits) (tablesAfter u sha256Hex limits before) later =
      (later.zipIdx before.length).map fun p =>
        ownAnswer u sha256Hex limits ((before ++ later).take p.2) p.1 := by
  induction later generalizing before with
  | nil => rfl
  | cons r later ih =>
    have hsplit : before ++ r :: later = before ++ [r] ++ later := List.append_cons _ _ _
    have hfirst : InOrder (before ++ [r]) := by
      rw [hsplit] at h
      exact (List.pairwise_append.mp h).1
    have hrest := @ih (before ++ [r]) (hsplit ▸ h)
    rw [tablesAfter_concat, List.length_append, List.length_singleton, ← hsplit] at hrest
    rw [Machine.outputs, List.zipIdx_cons, List.map_cons, answer_tables hfirst, hrest,
      List.take_left]

/-- The requests of a client. -/
def ownRequests (u : Unicode) (sha256Hex : Sha256Hex) (key : String) (rs : List Request) :
    List Request :=
  rs.filter fun r => clientKey u sha256Hex r = key

theorem ownRequests_cons_of_eq (hkey : clientKey u sha256Hex r = key) (rs : List Request) :
    ownRequests u sha256Hex key (r :: rs) = r :: ownRequests u sha256Hex key rs :=
  List.filter_cons_of_pos (by simpa using hkey)

theorem ownRequests_cons_of_ne (hkey : clientKey u sha256Hex r ≠ key) (rs : List Request) :
    ownRequests u sha256Hex key (r :: rs) = ownRequests u sha256Hex key rs :=
  List.filter_cons_of_neg (by simpa using hkey)

theorem ownRequests_append (rs rs' : List Request) :
    ownRequests u sha256Hex key (rs ++ rs') =
      ownRequests u sha256Hex key rs ++ ownRequests u sha256Hex key rs' :=
  List.filter_append ..

/-- Only the client's own requests are looked at. -/
theorem ownAnswer_ownRequests (hkey : clientKey u sha256Hex r = key) (rs : List Request) :
    ownAnswer u sha256Hex limits (ownRequests u sha256Hex key rs) r =
      ownAnswer u sha256Hex limits rs r := by
  unfold ownAnswer requestsAt ownRequests
  rw [List.countP_filter]
  congr 1
  refine List.countP_congr fun x _ => ?_
  rw [hkey]
  simp only [Bool.and_eq_true, decide_eq_true_eq]
  exact ⟨fun hx => hx.1, fun hx => ⟨hx, hx.2.1⟩⟩

/-- The answers to a client after others, with the other clients and without. -/
theorem outputs_ownRequests (key : String) (h : InOrder (before ++ later)) :
    ((later.zip (Machine.outputs (dispatch u sha256Hex limits)
        (tablesAfter u sha256Hex limits before) later)).filter fun p =>
          clientKey u sha256Hex p.1 = key).map Prod.snd =
      Machine.outputs (dispatch u sha256Hex limits)
        (tablesAfter u sha256Hex limits (ownRequests u sha256Hex key before))
        (ownRequests u sha256Hex key later) := by
  induction later generalizing before with
  | nil => rfl
  | cons r later ih =>
    have hsplit : before ++ r :: later = before ++ [r] ++ later := List.append_cons _ _ _
    have hfirst : InOrder (before ++ [r]) := by
      rw [hsplit] at h
      exact (List.pairwise_append.mp h).1
    have hrest := @ih (before ++ [r]) (hsplit ▸ h)
    rw [tablesAfter_concat] at hrest
    rw [Machine.outputs, List.zip_cons_cons]
    rw [ownRequests_append] at hrest
    by_cases hkey : clientKey u sha256Hex r = key
    · have horder : InOrder (ownRequests u sha256Hex key before ++ [r]) := by
        have hown : ownRequests u sha256Hex key [r] = [r] := ownRequests_cons_of_eq hkey []
        rw [← hown, ← ownRequests_append]
        exact hfirst.sublist List.filter_sublist
      rw [ownRequests_cons_of_eq hkey, show ownRequests u sha256Hex key [] = [] from rfl,
        tablesAfter_concat] at hrest
      rw [List.filter_cons_of_pos (by simpa using hkey), List.map_cons, hrest,
        ownRequests_cons_of_eq hkey, Machine.outputs, answer_tables hfirst, answer_tables horder,
        ownAnswer_ownRequests hkey]
    · rw [ownRequests_cons_of_ne hkey, show ownRequests u sha256Hex key [] = [] from rfl,
        List.append_nil] at hrest
      rw [List.filter_cons_of_neg (by simpa using hkey), hrest, ownRequests_cons_of_ne hkey]

theorem seconds_of_refused {tables : Bucket → Counts} {error : AppError} {seconds : ℤ}
    (h : (dispatch u sha256Hex limits tables r).2 = some (error, seconds)) :
    seconds = resetIn r.now := by
  by_cases hlimit : limits r.bucket ≤ 0
  · rw [dispatch_disabled hlimit] at h
    cases h
  · unfold dispatch at h
    rw [if_neg hlimit] at h
    dsimp only at h
    split at h
    · cases h
    · cases h
      rfl

/-- Each answer is the middleware's. -/
theorem exists_dispatch_of_mem {tables : Bucket → Counts} {p : Request × Option (AppError × ℤ)}
    (h : p ∈ rs.zip (Machine.outputs (dispatch u sha256Hex limits) tables rs)) :
    ∃ tables', p.2 = (dispatch u sha256Hex limits tables' p.1).2 := by
  induction rs generalizing tables with
  | nil => cases h
  | cons r rs ih =>
    rw [Machine.outputs, List.zip_cons_cons] at h
    rcases List.mem_cons.mp h with rfl | hmem
    · exact ⟨tables, rfl⟩
    · exact ih hmem

/-- **`Retry-After`** is the least whole number of seconds after which the window is another. -/
theorem isLeast_resetIn (now : ℚ) :
    IsLeast {n : ℤ | windowOf now < windowOf (now + n)} (resetIn now) := by
  have hpos : (0 : ℚ) < windowSeconds := by norm_num [windowSeconds]
  obtain ⟨m, hm⟩ : ∃ m, ⌊now - windowOf now * windowSeconds⌋ = m := ⟨_, rfl⟩
  have hbounds := Int.floor_eq_iff.mp hm
  have hreset : resetIn now = windowSeconds - m := by rw [resetIn, hm]
  refine ⟨?_, ?_⟩
  · change windowOf now < windowOf (now + resetIn now)
    rw [← Int.add_one_le_iff]
    refine Int.le_floor.mpr ((le_div_iff₀ hpos).mpr ?_)
    rw [hreset]
    push_cast
    linarith [hbounds.1]
  · intro n hn
    by_contra hlt
    have hle : n ≤ windowSeconds - m - 1 := by rw [hreset] at hlt; omega
    have hcast : (n : ℚ) ≤ windowSeconds - m - 1 := by exact_mod_cast hle
    refine absurd (Int.add_one_le_iff.mpr hn) (not_le.mpr ?_)
    refine Int.floor_lt.mpr ((div_lt_iff₀ hpos).mpr ?_)
    push_cast
    linarith [hbounds.2]

end Orders

/-- What a client sees, whoever else there is. -/
structure Isolated (u : Unicode) (sha256Hex : Sha256Hex) (limits : Bucket → ℤ) (rs : List Request) :
    Prop where
  /-- A request is refused when as many of its client's own requests as the limit are before it in
  the window, at the bucket. -/
  answers : Machine.outputs (dispatch u sha256Hex limits) (fun _ => .empty) rs =
    rs.zipIdx.map fun p => ownAnswer u sha256Hex limits (rs.take p.2) p.1
  /-- The answers to a client are the ones it gets alone. -/
  alone : ∀ key,
    ((rs.zip (Machine.outputs (dispatch u sha256Hex limits) (fun _ => .empty) rs)).filter
      fun p => clientKey u sha256Hex p.1 = key).map Prod.snd =
    Machine.outputs (dispatch u sha256Hex limits) (fun _ => .empty) (ownRequests u sha256Hex key rs)
  /-- A refusal names the least whole number of seconds after which the window is another. -/
  retry : ∀ p ∈ rs.zip (Machine.outputs (dispatch u sha256Hex limits) (fun _ => .empty) rs),
    ∀ error seconds, p.2 = some (error, seconds) →
      IsLeast {n : ℤ | windowOf p.1.now < windowOf (p.1.now + n)} seconds

/-- **The clients are isolated** as long as the stamps reach each table in the order of their
windows. -/
theorem isolated_of_inOrder (u : Unicode) (sha256Hex : Sha256Hex) (limits : Bucket → ℤ)
    {rs : List Request} (h : InOrder rs) : Isolated u sha256Hex limits rs := by
  have hanswers := @outputs_tables u sha256Hex limits [] rs h
  refine ⟨hanswers, fun key => @outputs_ownRequests u sha256Hex limits [] rs key h, ?_⟩
  intro p hp error seconds hrefused
  obtain ⟨tables, hanswer⟩ := exists_dispatch_of_mem hp
  rw [seconds_of_refused (hanswer.symm.trans hrefused)]
  exact isLeast_resetIn _

namespace OfficeSample

def poll (host : String) (now : ℚ) : Request := ⟨"/queries/q/poll", "GET", "", none, some host, now⟩

/-- Two colleagues poll, one of them more than the limit of one a minute. -/
def polls : List Request :=
  [poll "10.0.0.7" 58, poll "10.0.0.8" 58, poll "10.0.0.8" 59, poll "10.0.0.7" 60]

end OfficeSample

theorem isolated_of_inOrder_polls :
    InOrder OfficeSample.polls ∧ Isolated .ascii bytesDigest (fun _ => 1) OfficeSample.polls := by
  have horder : InOrder OfficeSample.polls := by
    unfold InOrder
    decide +kernel
  exact ⟨horder, isolated_of_inOrder .ascii bytesDigest (fun _ => 1) horder⟩

/-- The one who went over the limit is told to wait a second. -/
example : (Machine.outputs (dispatch .ascii bytesDigest fun _ => 1) (fun _ => .empty)
    OfficeSample.polls).map (fun answer => answer.map Prod.snd) = [none, none, some 1, none] := by
  decide +kernel

end FraudAnalyzer.RateLimit
