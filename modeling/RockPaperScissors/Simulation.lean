import RockPaperScissors.TransitionSystem

/-!
# Simulations and Measures

Three rules about the runs of a partial step function, beside the invariant rules of
`TransitionSystem`: a relation to the states of a second system that every step keeps,
where the second system takes any number of steps for one of the first, relates the ends
of every run to the end of a run of the second system; a measure that every allowed
step lowers bounds the length of every run; and a measure that some allowed step lowers,
as long as it is not zero, is zero at the end of some run.

## Main results

* `RunWhere.simulates`: the runs of a system are runs of a more abstract one.
* `RunWhere.length_add_le`: a run is no longer than the measure at its start.
* `exists_run_of_measure`: a run leads to where the measure is zero.
-/

namespace TransitionSystem

variable {σ τ α β : Type*} {step : σ → α → Option σ} {C : σ → α → Prop} {s t : σ}

/-- **The simulation rule.** A relation that holds at the start, and that every allowed step
keeps for some steps of the second system, holds at the end of every run for some run of
the second system. It may read the events of both runs, and use that the state is reached by
those executed so far. -/
theorem RunWhere.simulates {astep : τ → β → Option τ} {R : List α → σ → List β → τ → Prop}
    {a : τ} (h₀ : R [] s [] a)
    (hstep : ∀ es t e t' bs b, RunWhere step C s es t → R es t bs b → C t e →
      step t e = some t' → ∃ bs' b', Run astep b bs' b' ∧ R (es ++ [e]) t' (bs ++ bs') b')
    {es : List α} (h : RunWhere step C s es t) :
    ∃ bs b, Run astep a bs b ∧ R es t bs b := by
  refine h.invariant_events (I := fun es t => ∃ bs b, Run astep a bs b ∧ R es t bs b)
    ⟨[], a, RunWhere.nil, h₀⟩ ?_
  rintro es t e t' hrun ⟨bs, b, hbs, hR⟩ hC hs
  obtain ⟨bs', b', hbs', hR'⟩ := hstep es t e t' bs b hrun hR hC hs
  exact ⟨bs ++ bs', b', hbs.append hbs', hR'⟩

/-- **The measure rule.** When every allowed step from a state with the invariant `I` lowers
the measure, a run takes no more steps than the measure allows. -/
theorem RunWhere.length_add_le {I : σ → Prop} {μ : σ → ℕ} (h₀ : I s)
    (hI : ∀ t e t', I t → C t e → step t e = some t' → I t')
    (hμ : ∀ t e t', I t → C t e → step t e = some t' → μ t' + 1 ≤ μ t) {es : List α}
    (h : RunWhere step C s es t) : μ t + es.length ≤ μ s := by
  induction h with
  | nil => exact Nat.le_refl _
  | snoc hrun hC hs ih =>
      have hlower := hμ _ _ _ (hrun.invariant h₀ hI) hC hs
      rw [List.length_append, List.length_singleton]
      omega

/-- **The progress rule.** When from every state with a measure that is not zero some allowed
step leads to one with a smaller measure, a run leads to one with the measure zero. A state
may have several measures: `I n t` says that `n` is one. -/
theorem exists_run_of_measure {I : ℕ → σ → Prop} {n : ℕ} (h₀ : I n s)
    (hstep : ∀ n t, I (n + 1) t →
      ∃ e t' m, C t e ∧ step t e = some t' ∧ m ≤ n ∧ I m t') :
    ∃ es t, RunWhere step C s es t ∧ I 0 t := by
  induction n using Nat.strongRecOn generalizing s with
  | _ n ih =>
      cases n with
      | zero => exact ⟨[], s, RunWhere.nil, h₀⟩
      | succ n =>
          obtain ⟨e, s', m, hC, hs, hle, hI⟩ := hstep n s h₀
          obtain ⟨es, t, hrun, ht⟩ := ih m (by omega) hI
          exact ⟨[e] ++ es, t, (RunWhere.single hC hs).append hrun, ht⟩

end TransitionSystem
