import Mathlib.Logic.Function.Basic
import RockPaperScissors.TransitionSystem

/-!
# A Match of One Round

What a game is for, without a store, clients or screens. Each player of a match picks one
move, the match is over when all have picked or when somebody abandons it, and the winner
of the picks may be named after the end. Every action is atomic, and no action takes back
another.

The rule of the match is `wins`: the players who win with the picks made so far. Nothing is
assumed of it here.

## Main results

* `sound_of_run`: nobody has picked before the start, and a named winner has won.
* `picks_of_ended`: a match that is over was picked in by all players or abandoned.
* `extends_of_run`: picks, the end and the winner stay.
-/

open TransitionSystem

/-- The phase of a match. -/
inductive Match.Phase
  | waiting
  | playing
  | ended
  deriving DecidableEq, Repr

/-- A match of players `ι` with moves `μ`. -/
structure Match (ι μ : Type*) where
  phase : Match.Phase
  picks : ι → Option μ
  winner : Option ι

namespace Match

/-- What can happen in a match. -/
inductive Action (ι μ : Type*)
  | start
  | pick (p : ι) (m : μ)
  /-- The match ends, since all players have picked. -/
  | finish
  /-- The match ends, whether or not they have. -/
  | abandon
  /-- The winner is named. -/
  | name (p : ι)

variable {ι μ : Type*} {wins : (ι → Option μ) → ι → Prop} {a a' a'' : Match ι μ}

/-- A match that has not started. -/
def new : Match ι μ where
  phase := .waiting
  picks := fun _ => none
  winner := none

/-- The action is allowed. -/
def Enabled (wins : (ι → Option μ) → ι → Prop) (a : Match ι μ) : Action ι μ → Prop
  | .start => a.phase = .waiting
  | .pick p _ => a.phase = .playing ∧ a.picks p = none
  | .finish => a.phase = .playing ∧ ∀ p, a.picks p ≠ none
  | .abandon => a.phase ≠ .ended
  | .name p => a.phase = .ended ∧ a.winner = none ∧ wins a.picks p

/-- The second match may have followed the first. -/
structure Extends (a a' : Match ι μ) : Prop where
  picks : ∀ p m, a.picks p = some m → a'.picks p = some m
  ended : a.phase = .ended → a'.phase = .ended ∧ a'.picks = a.picks
  winner : ∀ p, a.winner = some p → a'.winner = some p

/-- A match extends itself. -/
theorem Extends.refl (a : Match ι μ) : a.Extends a :=
  ⟨fun _ _ h => h, fun h => ⟨h, rfl⟩, fun _ h => h⟩

/-- What extends an extension extends the match. -/
theorem Extends.trans (h : a.Extends a') (h' : a'.Extends a'') : a.Extends a'' where
  picks := fun p m hp => h'.picks p m (h.picks p m hp)
  ended := by
    intro hended
    obtain ⟨hended', hpicks⟩ := h.ended hended
    obtain ⟨hended'', hpicks'⟩ := h'.ended hended'
    exact ⟨hended'', hpicks'.trans hpicks⟩
  winner := fun p hp => h'.winner p (h.winner p hp)

variable [DecidableEq ι] {b : Action ι μ} {bs : List (Action ι μ)}

/-- The match after an action. -/
def act (a : Match ι μ) : Action ι μ → Match ι μ
  | .start => { a with phase := .playing }
  | .pick p m => { a with picks := Function.update a.picks p (some m) }
  | .finish => { a with phase := .ended }
  | .abandon => { a with phase := .ended }
  | .name p => { a with winner := some p }

open Classical in
/-- The match after an action that is allowed. -/
noncomputable def step (wins : (ι → Option μ) → ι → Prop) (a : Match ι μ) (b : Action ι μ) :
    Option (Match ι μ) :=
  if a.Enabled wins b then some (a.act b) else none

/-- An enabled action is taken, and no other. -/
theorem step_eq_some_iff : a.step wins b = some a' ↔ a.Enabled wins b ∧ a.act b = a' := by
  simp [step]

/-- One allowed action is a run. -/
theorem run_act (h : a.Enabled wins b) : Run (step wins) a [b] (a.act b) :=
  RunWhere.single trivial (step_eq_some_iff.mpr ⟨h, rfl⟩)

/-- The invariant: nobody has picked before the start, and a winner is named after the end
and has won. -/
structure Sound (wins : (ι → Option μ) → ι → Prop) (a : Match ι μ) : Prop where
  picks : a.phase = .waiting → ∀ p, a.picks p = none
  winner : ∀ p, a.winner = some p → a.phase = .ended ∧ wins a.picks p

/-- An enabled action keeps a match sound. -/
theorem Sound.act (hs : a.Sound wins) (h : a.Enabled wins b) : (a.act b).Sound wins := by
  cases b with
  | start =>
      refine ⟨fun hphase => absurd hphase (by simp [Match.act]), fun p hp => ?_⟩
      have hphase := (hs.winner p hp).1
      exact absurd (h.symm.trans hphase) (by simp)
  | pick q m =>
      refine ⟨fun hphase => absurd (h.1.symm.trans hphase) (by simp), fun p hp => ?_⟩
      have hphase := (hs.winner p hp).1
      exact absurd (h.1.symm.trans hphase) (by simp)
  | finish =>
      refine ⟨fun hphase => absurd hphase (by simp [Match.act]), fun p hp => ?_⟩
      exact ⟨rfl, (hs.winner p hp).2⟩
  | abandon =>
      refine ⟨fun hphase => absurd hphase (by simp [Match.act]), fun p hp => ?_⟩
      exact ⟨rfl, (hs.winner p hp).2⟩
  | name q =>
      refine ⟨hs.picks, fun p hp => ?_⟩
      obtain rfl := Option.some.inj hp
      exact ⟨h.1, h.2.2⟩

/-- **Every match that is played is sound.** -/
theorem sound_of_run (h : Run (step wins) new bs a) : a.Sound wins := by
  refine h.invariant (I := Sound wins) ⟨fun _ _ => rfl, by simp [new]⟩ ?_
  intro t b t' ht _ hstep
  obtain ⟨henabled, rfl⟩ := step_eq_some_iff.mp hstep
  exact ht.act henabled

/-- **A match that is over was picked in by all players, or abandoned.** -/
theorem picks_of_ended (h : Run (step wins) new bs a) (hended : a.phase = .ended) :
    (∀ p, a.picks p ≠ none) ∨ .abandon ∈ bs := by
  suffices hI : a.phase = .ended → (∀ p, a.picks p ≠ none) ∨ .abandon ∈ bs from hI hended
  refine h.invariant_events
    (I := fun bs a => a.phase = .ended → (∀ p, a.picks p ≠ none) ∨ .abandon ∈ bs)
    (by simp [new]) ?_
  intro bs t b t' _ ht _ hstep hended
  obtain ⟨henabled, rfl⟩ := step_eq_some_iff.mp hstep
  cases b with
  | start => exact absurd hended (by simp [act])
  | pick p m => exact absurd (henabled.1.symm.trans hended) (by simp)
  | finish => exact Or.inl henabled.2
  | abandon => exact Or.inr (by simp)
  | name p => exact (ht hended).imp_right (List.mem_append_left _)

/-- An enabled action only adds to a match. -/
theorem extends_act (h : a.Enabled wins b) : a.Extends (a.act b) := by
  cases b with
  | start => exact ⟨fun _ _ hp => hp, fun hended => absurd (h.symm.trans hended) (by simp),
      fun _ hp => hp⟩
  | pick p m =>
      refine ⟨fun q m' hq => ?_, fun hended => absurd (h.1.symm.trans hended) (by simp),
        fun _ hp => hp⟩
      have hne : q ≠ p := fun heq => absurd (h.2.symm.trans (heq ▸ hq)) (by simp)
      simpa [act, hne] using hq
  | finish | abandon => exact ⟨fun _ _ hp => hp, fun _ => ⟨rfl, rfl⟩, fun _ hp => hp⟩
  | name p =>
      exact ⟨fun _ _ hp => hp, fun hended => ⟨hended, rfl⟩,
        fun q hq => absurd (h.2.1.symm.trans hq) (by simp)⟩

/-- **What has happened in a match stays.** -/
theorem extends_of_run (h : Run (step wins) a bs a') : a.Extends a' := by
  refine h.monotone (I := fun _ => True) Extends.refl (fun _ _ _ => Extends.trans) trivial
    (fun _ _ _ _ _ _ => trivial) fun t b t' _ _ hstep => ?_
  obtain ⟨henabled, rfl⟩ := step_eq_some_iff.mp hstep
  exact extends_act henabled

end Match
