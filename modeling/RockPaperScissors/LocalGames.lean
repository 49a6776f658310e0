import RockPaperScissors.LobbySteps

/-!
# The Local Game of a Screen

`GameViewController.game` is optional, and `checkForWinner` and the closure of `setWinner`
unwrap it by force. The segue sets it before the screen is shown, and no later assignment
is of `nil`, so it is there whenever a snapshot arrives or a closure fires, in any order.

## Main results

* `Session.games_of_run`: every screen of a reachable session has a local game.
* `Lobby.unwrapsGame_of_run`: no input unwraps a missing one.
-/

open TransitionSystem

namespace RockPaperScissors

namespace GameViewController

variable {vc vc' : GameViewController} {localUserId : String} {game : Game}
  {writes : List GameWrite}

/-- With a local game `checkForWinner` unwraps no `nil`. -/
theorem checkForWinner_isSome (h : vc.game.isSome) (localUserId : String) (game : Game) :
    (vc.checkForWinner localUserId game).isSome := by
  rw [checkForWinner_eq]
  cases game.verdict localUserId with
  | waiting => rfl
  | lost => rfl
  | won => simpa [finishGame, animateFinalMoves, later] using h
  | drawn => simpa [finishGame] using h

/-- A snapshot is the local game by the time it is decided. -/
theorem updateGame_isSome (vc : GameViewController) (localUserId : String) (game : Game) :
    (vc.updateGame localUserId game).isSome := by
  rw [updateGame, Option.isSome_map]
  exact checkForWinner_isSome (by simp) localUserId game

/-- No closure fails on a screen that has a game. -/
theorem fire_isSome (h : vc.game.isSome) (localUserId : String) (finished : Bool)
    (closure : Delayed) : (vc.fire localUserId finished closure).isSome := by
  cases closure with
  | animateMoves game =>
      cases finished with
      | true => exact checkForWinner_isSome h localUserId game
      | false => rfl
  | animateFinalMoves myHand game =>
      cases finished with
      | true => cases myHand <;> simp [fire, h]
      | false => rfl
  | setWinner game => simpa [fire, declareWinner] using h
  | continueToResults => rfl

/-- `checkForWinner` keeps the screen's game. -/
theorem Checked.game_isSome (h : vc.Checked localUserId game vc' writes)
    (hgame : vc.game.isSome) : vc'.game.isSome := by
  cases h with
  | waiting _ => exact hgame
  | lost _ => exact hgame
  | won _ _ => rfl
  | drawn _ _ => rfl

/-- `updateGame` leaves the screen with a game. -/
theorem Updated.game_isSome (h : vc.Updated localUserId game vc' writes) :
    vc'.game.isSome := by
  have hreceived : (vc.receive localUserId game).game.isSome := by simp
  cases h with
  | plain hcheck _ => exact hcheck.game_isSome hreceived
  | walkover hcheck _ _ =>
      have hgame := hcheck.game_isSome hreceived
      simpa [GameViewController.walkover, continueToResults, later] using hgame

end GameViewController

namespace Screen

variable {sc sc' : Screen} {localUserId : String} {i : Input} {writes : List GameWrite}

/-- The input unwraps a missing `self.game`. -/
def unwrapsGame (sc : Screen) (localUserId : String) : Input → Bool
  | .deliver => sc.inbox.head?.any fun game =>
      (sc.controller.updateGame localUserId game).isNone
  | .fire place finished => sc.controller.delayed[place]?.any fun closure =>
      ((sc.takeClosure place).fire localUserId finished closure).isNone
  | .pick _ => false
  | .exit => false
  | .home => false

/-- On a screen that has a game, `self.game!` does not fail. -/
theorem unwrapsGame_eq_false (h : sc.controller.game.isSome) :
    sc.unwrapsGame localUserId i = false := by
  cases i with
  | deliver =>
      cases hinbox : sc.inbox with
      | nil => simp [unwrapsGame, hinbox]
      | cons game rest =>
          have hsome := sc.controller.updateGame_isSome localUserId game
          simpa [unwrapsGame, hinbox] using hsome
  | fire place finished =>
      cases hclosure : sc.controller.delayed[place]? with
      | none => simp [unwrapsGame, hclosure]
      | some closure =>
          have hsome := GameViewController.fire_isSome
            (show (sc.takeClosure place).game.isSome from h) localUserId finished closure
          simpa [unwrapsGame, hclosure] using hsome
  | pick _ | exit | home => rfl

/-- **An input leaves the local game there.** -/
theorem Handles.game_isSome (h : sc.Handles localUserId i sc' writes)
    (hgame : sc.controller.game.isSome) : sc'.controller.game.isSome := by
  cases h with
  | deliver _ hupdated => exact hupdated.game_isSome
  | animatedMoves _ hchecked => exact hchecked.game_isSome hgame
  | declaredWinner _ _ => rfl
  | interrupted _ | kicked _ | wasKicked _ _ | wasKickedAlone _ _ | continuedToResults _
  | pick _ _ _ _ | pickNothing _ | exit _ _ | exitNothing _ _ | home => exact hgame

end Screen

namespace Session

variable {P : Pairing} {s s' : Session} {e : Event}

/-- Every screen has a local game. -/
def HasGames (s : Session) : Prop :=
  ∀ sc ∈ s.screens, sc.controller.game.isSome

/-- No step takes the game of a screen away. -/
theorem HasGames.step (hs : s.HasGames) (h : Step P s e s') : s'.HasGames := by
  intro sc' hsc'
  obtain ⟨place, hplace⟩ := List.getElem?_of_mem hsc'
  rcases h.screens hplace with ⟨sc, hsc, hturns⟩ | ⟨-, p, game, -, rfl⟩
  · have hgame := hs sc (List.mem_of_getElem? hsc)
    cases hturns with
    | stays => exact hgame
    | receives _ => exact hgame
    | handles hhandles => exact hhandles.game_isSome hgame
  · rfl

/-- Every screen has a game, in every run. -/
theorem games_of_run {es : List Event} (h : Run (step P) (init P) es s) : s.HasGames :=
  h.invariant (by simp [HasGames, init]) fun _ _ _ hs _ hstep =>
    hs.step (step_of_step_eq hstep)

/-- The event unwraps a missing `self.game`. -/
def unwrapsGame (P : Pairing) (s : Session) : Event → Bool
  | .input place i => s.screens[place]?.any fun sc => sc.unwrapsGame (P.userId sc.owner) i
  | _ => false

/-- Where every screen has a game, no event unwraps a missing one. -/
theorem HasGames.unwrapsGame_eq_false (hs : s.HasGames) : s.unwrapsGame P e = false := by
  cases e with
  | input place i =>
      cases hsc : s.screens[place]? with
      | none => simp [unwrapsGame, hsc]
      | some sc =>
          simpa [unwrapsGame, hsc] using
            Screen.unwrapsGame_eq_false (hs sc (List.mem_of_getElem? hsc))
  | _ => rfl

end Session

namespace Lobby

/-- The event unwraps a missing `self.game`. -/
def unwrapsGame (s : Lobby) : LobbyEvent → Bool
  | .game place e => s.games[place]?.any fun g =>
      ¬ g.rejected ∧ g.session.unwrapsGame g.pairing e
  | _ => false

/-- **No event unwraps a missing local game.** -/
theorem unwrapsGame_of_run {s : Lobby} {es : List LobbyEvent} (h : Run Lobby.step init es s)
    (e : LobbyEvent) : s.unwrapsGame e = false := by
  cases e with
  | game place e =>
      cases hg : s.games[place]? with
      | none => simp [unwrapsGame, hg]
      | some g =>
          obtain ⟨es, hrun⟩ := session_of_run h g (List.mem_of_getElem? hg)
          have hgames := Session.games_of_run hrun
          simp [unwrapsGame, hg, hgames.unwrapsGame_eq_false]
  | _ => rfl

end Lobby

end RockPaperScissors
