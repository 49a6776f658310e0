import Mathlib.Data.List.Basic
import Mathlib.Tactic.TypeStar

/-!
# Runs of a Partial Step Function

A system is given by a step function `step : σ → α → Option σ`: `step s e` is the
state after the event `e`, or `none` when `e` is not enabled in `s`. This module
defines its runs and the induction rules the invariants of a system are proved by. It
knows nothing of any particular system.

A run may be taken under a **step condition** `C s e`, a property of the state before
the step and the event. A result about `RunWhere step C` is a result about exactly the
runs in which every step meets `C`; `Run step` is the case without a condition.

## Main results

* `RunWhere.invariant`: a property of states that every allowed step preserves holds
  at the end of every run that starts in it.
* `RunWhere.invariant_events`: the same for a property of the state and the events
  executed so far.
* `RunWhere.monotone`: a relation that every allowed step establishes between the
  states around it holds between the two ends of a run.
* `runWhere_of_execWhere`, `runWhere_get`: the executable `execWhere` finds runs.
* `getElem?_set_cases`, `getElem?_concat_cases`: the components of a state kept in a list,
  after one has taken a step or one has been added.
-/

namespace TransitionSystem

variable {σ α : Type*}

/-- `RunWhere step C s es t`: the events `es`, each enabled by `step` and each meeting
the condition `C` in the state before it, lead from `s` to `t`. -/
inductive RunWhere (step : σ → α → Option σ) (C : σ → α → Prop) (s : σ) :
    List α → σ → Prop
  | nil : RunWhere step C s [] s
  | snoc {es : List α} {t t' : σ} {e : α} :
      RunWhere step C s es t → C t e → step t e = some t' →
      RunWhere step C s (es ++ [e]) t'

/-- A run without a step condition. -/
abbrev Run (step : σ → α → Option σ) (s : σ) : List α → σ → Prop :=
  RunWhere step (fun _ _ => True) s

variable {step : σ → α → Option σ} {C C' : σ → α → Prop} {s t u : σ}

/-- One allowed step is a run. -/
theorem RunWhere.single {e : α} (hC : C s e) (h : step s e = some t) :
    RunWhere step C s [e] t := by
  have hnil : RunWhere step C s [] s := RunWhere.nil
  exact RunWhere.snoc hnil hC h

/-- Runs compose. -/
theorem RunWhere.append {es es' : List α} (h : RunWhere step C s es t)
    (h' : RunWhere step C t es' u) : RunWhere step C s (es ++ es') u := by
  induction h' with
  | nil => simpa using h
  | snoc _ hC hstep ih =>
      rw [← List.append_assoc]
      exact RunWhere.snoc ih hC hstep

/-- A weaker condition allows more runs. -/
theorem RunWhere.mono (hCC : ∀ s e, C s e → C' s e) {es : List α}
    (h : RunWhere step C s es t) : RunWhere step C' s es t := by
  induction h with
  | nil => exact RunWhere.nil
  | snoc _ hC hstep ih => exact RunWhere.snoc ih (hCC _ _ hC) hstep

/-- Forgetting the condition. -/
theorem RunWhere.toRun {es : List α} (h : RunWhere step C s es t) :
    Run step s es t :=
  h.mono fun _ _ _ => trivial

/-! ### Induction rules -/

/-- **The invariant rule.** A property that holds at the start and is preserved by
every allowed step holds at the end. -/
theorem RunWhere.invariant {I : σ → Prop} (h₀ : I s)
    (hstep : ∀ t e t', I t → C t e → step t e = some t' → I t') {es : List α}
    (h : RunWhere step C s es t) : I t := by
  induction h with
  | nil => exact h₀
  | snoc _ hC hs ih => exact hstep _ _ _ ih hC hs

/-- The invariant rule for a property that also reads the events executed so far, and
may use that the state is reached by them. -/
theorem RunWhere.invariant_events {I : List α → σ → Prop} (h₀ : I [] s)
    (hstep : ∀ es t e t', RunWhere step C s es t → I es t → C t e →
      step t e = some t' → I (es ++ [e]) t') {es : List α}
    (h : RunWhere step C s es t) : I es t := by
  induction h with
  | nil => exact h₀
  | snoc hrun hC hs ih => exact hstep _ _ _ _ hrun ih hC hs

/-- **The monotonicity rule.** A reflexive and transitive relation that holds across
every allowed step from a state with the invariant `I` holds across every run. -/
theorem RunWhere.monotone {I : σ → Prop} {R : σ → σ → Prop} (hrefl : ∀ s, R s s)
    (htrans : ∀ s t u, R s t → R t u → R s u) (h₀ : I s)
    (hI : ∀ t e t', I t → C t e → step t e = some t' → I t')
    (hR : ∀ t e t', I t → C t e → step t e = some t' → R t t') {es : List α}
    (h : RunWhere step C s es t) : R s t := by
  induction h with
  | nil => exact hrefl _
  | snoc hrun hC hs ih =>
      exact htrans _ _ _ ih (hR _ _ _ (hrun.invariant h₀ hI) hC hs)

/-! ### Executing a list of events -/

/-- Execute a list of events, checking the condition at every step: `none` as soon as
an event is not enabled or does not meet the condition. -/
def execWhere (step : σ → α → Option σ) (C : σ → α → Prop)
    [∀ s e, Decidable (C s e)] : σ → List α → Option σ
  | s, [] => some s
  | s, e :: es =>
      if C s e then (step s e).bind fun s' => execWhere step C s' es else none

/-- Execute a list of events without a condition. -/
abbrev exec (step : σ → α → Option σ) : σ → List α → Option σ :=
  execWhere step fun _ _ => True

/-- **Executions are runs.** -/
theorem runWhere_of_execWhere [∀ s e, Decidable (C s e)] {es : List α}
    (h : execWhere step C s es = some t) : RunWhere step C s es t := by
  induction es generalizing s with
  | nil =>
      obtain rfl : s = t := Option.some.inj h
      exact RunWhere.nil
  | cons e es ih =>
      by_cases hC : C s e
      · rw [execWhere, if_pos hC, Option.bind_eq_some_iff] at h
        obtain ⟨s', hs, hrest⟩ := h
        exact (RunWhere.single hC hs).append (ih hrest)
      · rw [execWhere, if_neg hC] at h
        exact absurd h (by simp)

/-- The run an execution that succeeds has found. -/
theorem runWhere_get [∀ s e, Decidable (C s e)] {es : List α}
    (h : (execWhere step C s es).isSome) :
    RunWhere step C s es ((execWhere step C s es).get h) :=
  runWhere_of_execWhere (Option.some_get h).symm

/-! ### Components kept in a list -/

section Components

variable {l : List α} {i j : ℕ} {a b : α}

/-- An entry of an updated list is the new one, at its place, or an old one. -/
theorem getElem?_set_cases (h : (l.set i a)[j]? = some b) :
    (j = i ∧ b = a) ∨ (j ≠ i ∧ l[j]? = some b) := by
  by_cases hj : i = j
  · subst hj
    have hlt : i < l.length := by
      by_contra hge
      rw [List.getElem?_eq_none (by simpa using hge)] at h
      exact absurd h (by simp)
    rw [List.getElem?_set_self hlt] at h
    exact Or.inl ⟨rfl, (Option.some.inj h).symm⟩
  · rw [List.getElem?_set_ne hj] at h
    exact Or.inr ⟨fun heq => hj heq.symm, h⟩

/-- The entries of a list in which one has been set. -/
theorem getElem?_set_eq (h : l[i]? = some b) :
    (l.set i a)[j]? = if j = i then some a else l[j]? := by
  obtain ⟨hlt, -⟩ := List.getElem?_eq_some_iff.mp h
  rw [List.getElem?_set]
  by_cases hj : i = j
  · subst hj
    simp [hlt]
  · simp [hj, Ne.symm hj]

/-- An entry of an extended list is an old one or the new one, at the end. -/
theorem getElem?_concat_cases (h : (l ++ [a])[j]? = some b) :
    l[j]? = some b ∨ j = l.length ∧ b = a := by
  rcases Nat.lt_trichotomy j l.length with hlt | rfl | hgt
  · rw [List.getElem?_append_left hlt] at h
    exact Or.inl h
  · rw [List.getElem?_concat_length] at h
    exact Or.inr ⟨rfl, (Option.some.inj h).symm⟩
  · rw [List.getElem?_eq_none (by simp; omega)] at h
    exact absurd h (by simp)

/-- Setting an entry changes a count by the entry that goes and the one that comes. -/
theorem countP_set {p : α → Bool} (h : l[i]? = some a) :
    (l.set i b).countP p + (p a).toNat = l.countP p + (p b).toNat := by
  obtain ⟨hlt, rfl⟩ := List.getElem?_eq_some_iff.mp h
  have hle := List.boole_getElem_le_countP (p := p) hlt
  rw [List.countP_set hlt]
  cases hp : p l[i] with
  | false => cases p b <;> simp
  | true =>
      rw [hp, if_pos rfl] at hle
      cases p b <;> simp only [if_true, Bool.toNat_true, Bool.toNat_false, Bool.false_eq_true,
        if_false] <;> omega

end Components

end TransitionSystem
