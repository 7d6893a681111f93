import Mathlib.Data.Option.Basic
import Mathlib.Tactic.TypeStar

/-!
# Guarded runs of a partial step function

A system is a partial step function `step : σ → α → Option σ`: `none` means that the action is not
enabled. A `Run` takes a list of actions in order; its second parameter `ok` is a condition on the
state *before* each step, so a statement about "every run whose steps all meet a condition" is a
statement about `Run step ok`, and the unconditional one is the case `ok = Always`.

The one induction is `Run.invariant`: what holds at the start and is kept by each step that meets
the condition holds at the end. `exec` is the executable form, used to exhibit concrete runs.
-/

namespace Machine

variable {σ α : Type*}

/-- The condition every step meets. -/
def Always : σ → α → Prop := fun _ _ => True

/-- `Run step ok s as t`: the actions `as`, each enabled and each meeting `ok` in the state before
it, lead from `s` to `t`. -/
inductive Run (step : σ → α → Option σ) (ok : σ → α → Prop) : σ → List α → σ → Prop
  | nil (s : σ) : Run step ok s [] s
  | cons {s t u : σ} {a : α} {as : List α} (hs : step s a = some t) (ha : ok s a)
      (hr : Run step ok t as u) : Run step ok s (a :: as) u

namespace Run

variable {step : σ → α → Option σ} {ok ok' : σ → α → Prop} {s t u : σ} {as bs : List α}

/-- Runs compose. -/
theorem append (h₁ : Run step ok s as t) (h₂ : Run step ok t bs u) :
    Run step ok s (as ++ bs) u := by
  induction h₁ with
  | nil _ => exact h₂
  | cons hs ha _ ih => exact .cons hs ha (ih h₂)

/-- A weaker condition admits the same runs. -/
theorem mono (hok : ∀ s a, ok s a → ok' s a) (h : Run step ok s as t) : Run step ok' s as t := by
  induction h with
  | nil s => exact .nil s
  | cons hs ha _ ih => exact .cons hs (hok _ _ ha) ih

/-- **The invariant rule**: a property of the first state that every step meeting the condition
keeps is a property of the last state. -/
theorem invariant {I : σ → Prop}
    (keep : ∀ s a t, I s → step s a = some t → ok s a → I t) (h : Run step ok s as t) (hI : I s) :
    I t := by
  induction h with
  | nil _ => exact hI
  | cons hs ha _ ih => exact ih (keep _ _ _ hI hs ha)

end Run

/-- `P` holds in every state that the actions lead through, the first and the last included. -/
def Throughout (step : σ → α → Option σ) (P : σ → Prop) : σ → List α → Prop
  | s, [] => P s
  | s, a :: as => P s ∧ ∀ t, step s a = some t → Throughout step P t as

/-- Where each step that meets `env` keeps `P` exactly when it meets the condition, so does each run
of such steps. `I` is an invariant of every run. -/
theorem throughout_iff_of {step : σ → α → Option σ} {env ok : σ → α → Prop} {I P : σ → Prop}
    (keep : ∀ s a t, I s → step s a = some t → I t)
    (hstep : ∀ s a t, I s → P s → env s a → step s a = some t → (P t ↔ ok s a)) {s t : σ}
    {as : List α} (h : Run step env s as t) (hI : I s) (hP : P s) :
    Throughout step P s as ↔ Run step ok s as t := by
  induction h with
  | nil s => exact ⟨fun _ => .nil s, fun _ => hP⟩
  | @cons s u t a as hs ha hr ih =>
    have hu := keep s a u hI hs
    constructor
    · rintro ⟨-, hrest⟩
      have hthrough := hrest u hs
      have hPu : P u := by
        cases as with
        | nil => exact hthrough
        | cons b as => exact hthrough.1
      exact .cons hs ((hstep s a u hI hP ha hs).mp hPu) ((ih hu hPu).mp hthrough)
    · intro hrun
      refine ⟨hP, ?_⟩
      intro u' hs'
      obtain rfl : u = u' := Option.some.inj (hs.symm.trans hs')
      cases hrun with
      | cons hs₂ hok hr₂ =>
        obtain rfl := Option.some.inj (hs.symm.trans hs₂)
        exact (ih hu ((hstep s a u hI hP ha hs).mpr hok)).mpr hr₂

/-- The same for all runs. -/
theorem throughout_iff {step : σ → α → Option σ} {ok : σ → α → Prop} {I P : σ → Prop}
    (keep : ∀ s a t, I s → step s a = some t → I t)
    (hstep : ∀ s a t, I s → P s → step s a = some t → (P t ↔ ok s a)) {s t : σ} {as : List α}
    (h : Run step Always s as t) (hI : I s) (hP : P s) :
    Throughout step P s as ↔ Run step ok s as t :=
  throughout_iff_of keep (fun s a t hI hP _ => hstep s a t hI hP) h hI hP

/-- The state the actions lead to, if each is enabled. -/
def exec (step : σ → α → Option σ) : σ → List α → Option σ
  | s, [] => some s
  | s, a :: as => (step s a).bind fun t => exec step t as

theorem exec_append (step : σ → α → Option σ) (s : σ) (as bs : List α) :
    exec step s (as ++ bs) = (exec step s as).bind fun t => exec step t bs := by
  induction as generalizing s with
  | nil => rfl
  | cons a as ih =>
    simp only [List.cons_append, exec]
    cases step s a with
    | none => rfl
    | some t => exact ih t

/-- An execution of actions that meet the condition in every state is a run. -/
theorem run_of_exec_of_forall {step : σ → α → Option σ} {ok : σ → α → Prop} {s t : σ} {as : List α}
    (hok : ∀ a ∈ as, ∀ s, ok s a) (h : exec step s as = some t) : Run step ok s as t := by
  induction as generalizing s with
  | nil =>
    obtain rfl : s = t := Option.some.inj h
    exact .nil s
  | cons a as ih =>
    obtain ⟨u, hu, ht⟩ := Option.bind_eq_some_iff.mp h
    have hrest : ∀ b ∈ as, ∀ s, ok s b := fun b hb => hok b (List.mem_cons_of_mem _ hb)
    exact .cons hu (hok a List.mem_cons_self s) (ih hrest ht)

/-- An execution is an unconditional run. -/
theorem run_of_exec {step : σ → α → Option σ} {s t : σ} {as : List α}
    (h : exec step s as = some t) : Run step Always s as t :=
  run_of_exec_of_forall (fun _ _ _ => trivial) h

/-- An execution that checks the condition before each step. -/
theorem run_of_exec_checked {step : σ → α → Option σ} {ok : σ → α → Prop}
    [∀ s a, Decidable (ok s a)] {s t : σ} {as : List α}
    (h : exec (fun s a => if ok s a then step s a else none) s as = some t) :
    Run step ok s as t := by
  induction as generalizing s with
  | nil =>
    obtain rfl : s = t := Option.some.inj h
    exact .nil s
  | cons a as ih =>
    obtain ⟨u, hu, ht⟩ := Option.bind_eq_some_iff.mp h
    simp only at hu
    split at hu
    next hok => exact .cons hu hok (ih ht)
    · cases hu

/-- An execution whose last state passes a test exhibits a run to a state passing it. -/
theorem exists_run_of_exec_any {step : σ → α → Option σ} {s : σ} {as : List α} {p : σ → Bool}
    (h : (exec step s as).any p = true) : ∃ t, Run step Always s as t ∧ p t = true := by
  obtain ⟨t, ht, hp⟩ := (Option.any_eq_true p _).mp h
  exact ⟨t, run_of_exec ht, hp⟩

/-! ## What a run answers -/

section Outputs

variable {β : Type*}

/-- The answers to the requests, one after another. -/
def outputs (f : σ → α → σ × β) : σ → List α → List β
  | _, [] => []
  | s, a :: as => (f s a).2 :: outputs f (f s a).1 as

/-- **The unwinding rule**: states that every request answers alike, and leaves related, are not
told apart by any requests. -/
theorem outputs_eq_of_unwinding {f : σ → α → σ × β} {R : σ → σ → Prop} {ok : α → Prop}
    (hanswer : ∀ s t a, ok a → R s t → (f s a).2 = (f t a).2)
    (hkeep : ∀ s t a, ok a → R s t → R (f s a).1 (f t a).1) {s t : σ} {as : List α}
    (has : ∀ a ∈ as, ok a) (h : R s t) : outputs f s as = outputs f t as := by
  induction as generalizing s t with
  | nil => rfl
  | cons a as ih =>
    rw [List.forall_mem_cons] at has
    rw [outputs, outputs, hanswer s t a has.1 h]
    exact congrArg _ (ih has.2 (hkeep s t a has.1 h))

end Outputs

/-! ## What a run logs -/

/-- **The replay rule**: where the log of each step tells what the step does to a view of the state,
the log of a run tells what the run does to it. `I` is an invariant of the runs. -/
theorem Run.replay {ε β : Type*} {step : σ → α → Option σ} {ok : σ → α → Prop} {I : σ → Prop}
    {log : σ → List ε} {view : σ → β} {apply : β → ε → β}
    (keep : ∀ s a t, I s → step s a = some t → ok s a → I t)
    (tell : ∀ s a t, I s → step s a = some t → ok s a →
      ∃ es, log t = log s ++ es ∧ view t = es.foldl apply (view s)) {s t : σ} {as : List α}
    (h : Run step ok s as t) (hI : I s) :
    ∃ es, log t = log s ++ es ∧ view t = es.foldl apply (view s) := by
  induction h with
  | nil s => exact ⟨[], (List.append_nil _).symm, rfl⟩
  | cons hs ha _ ih =>
    obtain ⟨first, hlog, hview⟩ := tell _ _ _ hI hs ha
    obtain ⟨rest, hlog', hview'⟩ := ih (keep _ _ _ hI hs ha)
    refine ⟨first ++ rest, ?_, ?_⟩
    · rw [hlog', hlog, List.append_assoc]
    · rw [hview', hview, List.foldl_append]

end Machine
