import RockPaperScissors.Results

/-!
# On the Way to the Results

`continueToResults` leaves a closure on the main queue, and the results screen is presented
when it fires, some seconds later, with the local copy of that moment. This module says
which inputs start such a closure and which present the results.

## Main results

* `leaving_of_takeClosure`, `leaving_receive`: the closures that do not present anything.
* `Presents.leaving`: what a client presents is the local copy of a screen on which such a
  closure waits.
-/

open TransitionSystem

namespace RockPaperScissors

namespace GameViewController

/-- A closure of `continueToResults` waits. -/
def leaving (vc : GameViewController) : Bool :=
  vc.delayed.any Delayed.presents

variable {vc vc' : GameViewController} {localUserId : String} {game : Game}
  {writes : List GameWrite}

/-- A screen leaves for the results when a closure that presents them joins. -/
theorem leaving_later (closure : Delayed) :
    (vc.later closure).leaving = (vc.leaving || closure.presents) := by
  simp [leaving, later]

/-- `continueToResults` leaves for the results. -/
@[simp] theorem leaving_continueToResults : vc.continueToResults.leaving = true := by
  simp [continueToResults, leaving_later, Delayed.presents]

/-- `animateFinalMoves` does not leave by itself. -/
@[simp] theorem leaving_animateFinalMoves (myHand : Bool) :
    (vc.animateFinalMoves myHand game).leaving = vc.leaving := by
  simp [animateFinalMoves, leaving_later, Delayed.presents]

/-- `setWinner` leaves for the results. -/
@[simp] theorem leaving_setWinner : (vc.setWinner game).leaving = vc.leaving := by
  simp [setWinner, leaving_later, Delayed.presents]

/-- A snapshot alone does not lead to the results. -/
@[simp] theorem leaving_receive : (vc.receive localUserId game).leaving = vc.leaving := by
  have hsame : leaving { vc with
      buttonsEnabled := game.state = .inprogress
      game := some game } = vc.leaving := rfl
  rw [receive]
  rcases animateMoves_cases { vc with
      buttonsEnabled := game.state = .inprogress
      game := some game } localUserId game with h | h <;> rw [h]
  · exact hsame
  · rw [leaving_later, hsame]
    simp [Delayed.presents]

end GameViewController

namespace Screen

variable {sc sc' : Screen} {localUserId : String} {i : Input} {writes : List GameWrite}
  {place : ℕ} {closure : Delayed}

/-- Firing a closure leads to no further results by itself. -/
theorem leaving_of_takeClosure (h : (sc.takeClosure place).leaving = true) :
    sc.controller.leaving = true := by
  obtain ⟨d, hd, hpresents⟩ := List.any_eq_true.mp h
  exact List.any_eq_true.mpr ⟨d, List.mem_of_mem_eraseIdx hd, hpresents⟩

end Screen

namespace Session

/-- Between two states the client of `p` presents the results screen with the game `r`. -/
def Presents (s s' : Session) (p : Player) (r : Option Game) : Prop :=
  ∃ (place : ℕ) (sc sc' : Screen), s.screens[place]? = some sc ∧
    s'.screens[place]? = some sc' ∧ sc.owner = p ∧
    sc'.controller.results = sc.controller.results ++ [r]

variable {P : Pairing} {s s' : Session} {e : Event} {p : Player} {r : Option Game}

/-- **What a client presents is a local copy** on its way to the results. -/
theorem Presents.leaving (hr : Presents s s' p r) (h : Step P s e s') :
    ∃ sc ∈ s.screens, sc.owner = p ∧ sc.controller.leaving = true ∧
      r = sc.controller.game := by
  obtain ⟨place, sc, sc', hsc, hsc', howner, hresults⟩ := hr
  have hgrown : sc'.controller.results ≠ sc.controller.results := by
    rw [hresults]
    simp
  rcases h.screens hsc' with ⟨sc₀, hsc₀, hturns⟩ | ⟨hnone, -⟩
  · obtain rfl := Option.some.inj (hsc₀.symm.trans hsc)
    cases hturns with
    | stays | receives _ => exact absurd rfl hgrown
    | handles hhandles =>
        rcases hhandles.results_eq with hsame | ⟨hnew, j, finished, -, hclosure⟩
        · exact absurd hsame hgrown
        · have hleaving : sc₀.controller.leaving = true :=
            List.any_eq_true.mpr ⟨_, List.mem_of_getElem? hclosure, rfl⟩
          have hr : r = sc₀.controller.game := by simpa using hresults.symm.trans hnew
          exact ⟨sc₀, List.mem_of_getElem? hsc, howner, hleaving, hr⟩
  · exact absurd (hnone.symm.trans hsc) (by simp)

/-- Firing such a closure presents the local copy. -/
theorem presents_of_fire {place i : ℕ} {finished : Bool} {sc : Screen} {d : Delayed}
    (hsc : s.screens[place]? = some sc) (hd : sc.controller.delayed[i]? = some d)
    (hpresents : d.presents = true) (h : s.step P (.input place (.fire i finished)) = some s') :
    Presents s s' sc.owner sc.controller.game := by
  cases d with
  | continueToResults =>
      have hhandle : sc.handle (P.userId sc.owner) (.fire i finished) =
          some ({ sc with
            controller := { sc.takeClosure i with
              results := sc.controller.results ++ [sc.controller.game] } }, []) := by
        simp [Screen.handle, hd, GameViewController.fire, Screen.takeClosure]
      simp only [step, hsc, Option.bind_some, hhandle, Option.map_some] at h
      obtain rfl := Option.some.inj h
      have hlt : place < s.screens.length := (List.getElem?_eq_some_iff.mp hsc).1
      exact ⟨place, sc, _, hsc, List.getElem?_set_self hlt, rfl, rfl⟩
  | animateMoves _ | animateFinalMoves _ _ | setWinner _ =>
      exact absurd hpresents (by simp [Delayed.presents])

end Session

end RockPaperScissors
