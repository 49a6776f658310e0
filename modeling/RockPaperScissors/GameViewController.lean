import RockPaperScissors.GameStore

/-!
# The Game Screen

The functions of `GameViewController` on the state they read and change: the property
`game`, the enabled flag the four move buttons share, the delayed closures on the main
queue, and the results screens presented. A function returns the new state and the
writes it issues, in order; it returns `none` where the source unwraps a missing
`self.game`.

A `Delayed` closure keeps what the source captures: `animateMoves` and
`animateFinalMoves` end in animation completions, `setWinner` and `continueToResults`
wait on `asyncAfter`. Nothing orders them, so they fire in any order, and an animation
completes with `finished == false` when it is interrupted.

## Main results

* `Game.verdict`, `checkForWinner_eq`: the decision `checkForWinner` takes on the game it
  is given, and that it takes no other.
* `checked_of_checkForWinner`, `updated_of_updateGame`: what the two functions can do,
  one constructor for each way through them.
-/

namespace RockPaperScissors

/-- The closures `GameViewController` leaves on the main queue. -/
inductive Delayed
  /-- From `animateMoves`: `checkForWinner(game: game)` once the hands are back. -/
  | animateMoves (game : Game)
  /-- From `animateFinalMoves`: `setWinner(game: game)` when the local hand kicks,
  `continueToResults()` when the opponent's does. -/
  | animateFinalMoves (myHand : Bool) (game : Game)
  /-- From `setWinner`: declare the local user the winner. -/
  | setWinner (game : Game)
  /-- From `continueToResults`: present the results screen. -/
  | continueToResults

/-- The game a closure captured. -/
def Delayed.game? : Delayed → Option Game
  | animateMoves game => some game
  | animateFinalMoves _ game => some game
  | setWinner game => some game
  | continueToResults => none

/-- The state of a game screen that its inputs read and write. -/
structure GameViewController where
  game : Option Game
  /-- `isEnabled` of the four move buttons. -/
  buttonsEnabled : Bool
  /-- The closures waiting on the main queue. -/
  delayed : List Delayed
  /-- `ResultViewController.game` of the results screens that `present` has been called for.
  UIKit refuses the call while the Exit alert is up, and on a dismissed screen; it counts
  here all the same. -/
  results : List (Option Game)
  /-- The screen has been dismissed. -/
  dismissed : Bool

namespace GameViewController

/-- `viewDidLoad`, with the game the segue passed. -/
def viewDidLoad (game : Game) : GameViewController where
  game := some game
  buttonsEnabled := game.state = .inprogress
  delayed := []
  results := []
  dismissed := false

/-- Leave a closure on the main queue. -/
def later (vc : GameViewController) (closure : Delayed) : GameViewController :=
  { vc with delayed := vc.delayed ++ [closure] }

/-- Enable or disable the four buttons. -/
def shouldEnableButtons (vc : GameViewController) (enable : Bool) : GameViewController :=
  { vc with buttonsEnabled := enable }

/-- The results are presented later. -/
def continueToResults (vc : GameViewController) : GameViewController :=
  vc.later .continueToResults

/-- The winner is set later. -/
def setWinner (vc : GameViewController) (game : Game) : GameViewController :=
  vc.later (.setWinner game)

/-- The hand that wins kicks the other one, until the completion runs. -/
def animateFinalMoves (vc : GameViewController) (myHand : Bool) (game : Game) :
    GameViewController :=
  vc.later (.animateFinalMoves myHand game)

/-- A missing entry of `moves` is not `.idle`, so it passes the test. -/
def animateMoves (vc : GameViewController) (localUserId : String) (game : Game) :
    GameViewController :=
  match game.opponentUserId localUserId with
  | none => vc
  | some opponentUserId =>
      let myMove := game.moves localUserId
      let otherMove := game.moves opponentUserId
      if myMove ≠ some .idle ∧ otherMove ≠ some .idle then vc.later (.animateMoves game)
      else vc

/-- The last branch of `checkForWinner`: finish the local game, write it, clear its
winner and continue to the results. -/
def finishGame (vc : GameViewController) : Option (GameViewController × List GameWrite) :=
  vc.game.map fun game =>
    let finished := { game with state := GameState.finished }
    (continueToResults { vc with game := some { finished with winner := none } },
      [.decided finished])

/-- `checkForWinner(game:)`. The test `mMove > oMove` has no `else`, so a won game also
runs the last branch. -/
def checkForWinner (vc : GameViewController) (localUserId : String) (game : Game) :
    Option (GameViewController × List GameWrite) :=
  match game.opponentUserId localUserId with
  | none => some (vc, [])
  | some opponentUserId =>
      let myMove := game.moves localUserId
      let otherMove := game.moves opponentUserId
      if myMove = some .idle ∧ otherMove = some .idle then some (vc, [])
      else if myMove = some .idle then some (vc, [])
      else if otherMove = some .idle then some (vc, [])
      else
        match myMove, otherMove with
        | some mMove, some oMove =>
            let vc := if mMove > oMove then vc.animateFinalMoves true game else vc
            if mMove < oMove then some (vc.animateFinalMoves false game, [])
            else vc.finishGame
        | _, _ => some (vc, [])

/-- The walkover branch of `updateGame`: the local user is the winner of a game that is
finished without one. -/
def walkover (vc : GameViewController) (localUserId : String) (updatedGame : Game) :
    GameViewController :=
  continueToResults
    { vc with game := vc.game.map fun game =>
        { game with winner := updatedGame.player localUserId } }

/-- `updateGame(updatedGame:)`, the completion of the game state listener. -/
def updateGame (vc : GameViewController) (localUserId : String) (updatedGame : Game) :
    Option (GameViewController × List GameWrite) :=
  let vc := vc.shouldEnableButtons (updatedGame.state = .inprogress)
  let vc := { vc with game := some updatedGame }
  let vc := vc.animateMoves localUserId updatedGame
  (vc.checkForWinner localUserId updatedGame).map fun (vc, writes) =>
    if updatedGame.state = .finished ∧ (vc.game.bind Game.winner).isNone then
      (vc.walkover localUserId updatedGame, writes)
    else (vc, writes)

/-- The closure of `setWinner`. -/
def declareWinner (vc : GameViewController) (localUserId : String) (captured : Game) :
    Option (GameViewController × List GameWrite) :=
  vc.game.map fun game =>
    let decided :=
      { game with winner := captured.player localUserId, state := GameState.finished }
    (continueToResults { vc with game := some decided }, [.decided decided])

/-- A closure fires; `finished` is what its animation completed with. -/
def fire (vc : GameViewController) (localUserId : String) (finished : Bool) :
    Delayed → Option (GameViewController × List GameWrite)
  | .animateMoves game =>
      if finished then vc.checkForWinner localUserId game else some (vc, [])
  | .animateFinalMoves myHand game =>
      if finished then
        if myHand then some (vc.setWinner game, [])
        else if vc.game.isSome then some (vc.continueToResults, [])
        else some (vc, [])
      else some (vc, [])
  | .setWinner game => vc.declareWinner localUserId game
  | .continueToResults => some ({ vc with results := vc.results ++ [vc.game] }, [])

/-- `pickedMove(_:)`. The property `game` keeps the old move. -/
def pickedMove (vc : GameViewController) (localUserId : String) (move : Moves) :
    GameViewController × List GameWrite :=
  match vc.game with
  | none => (vc, [])
  | some game =>
      (vc.shouldEnableButtons false, [.picked (game.setMove localUserId move)])

/-- The Exit action of `showAlertForExit`. -/
def exit (vc : GameViewController) : GameViewController × List GameWrite :=
  ({ vc with dismissed := true },
    match vc.game with
    | none => []
    | some _ => [.status .finished])

/-- `onHome` of the results screen dismisses the game screen under it. -/
def onHome (vc : GameViewController) : GameViewController :=
  { vc with dismissed := true }

end GameViewController

/-! ### The decision -/

/-- What `checkForWinner` finds out about a game. -/
inductive Verdict
  /-- No opponent, or somebody has not picked. -/
  | waiting
  | won
  | lost
  | drawn
  deriving DecidableEq, Repr

/-- The verdict on two entries of `moves`. -/
def Verdict.ofMoves : Option Moves → Option Moves → Verdict
  | some m, some o =>
      if m = .idle ∨ o = .idle then waiting
      else if m < o then lost
      else if o < m then won
      else drawn
  | _, _ => waiting

/-- The verdict on a game, for the local user. -/
def Game.verdict (game : Game) (localUserId : String) : Verdict :=
  match game.opponentUserId localUserId with
  | none => .waiting
  | some opponentUserId =>
      Verdict.ofMoves (game.moves localUserId) (game.moves opponentUserId)

/-- Two moves that have been picked are decided by their order. -/
theorem Verdict.ofMoves_some {m o : Moves} (hm : m ≠ .idle) (ho : o ≠ .idle) :
    Verdict.ofMoves (some m) (some o) =
      if m < o then .lost else if o < m then .won else .drawn := by
  simp [Verdict.ofMoves, hm, ho]

/-- A verdict other than `waiting` compares two moves that are not idle. -/
theorem Verdict.ofMoves_cases {a b : Option Moves} (h : ofMoves a b ≠ .waiting) :
    ∃ m o, a = some m ∧ b = some o ∧ m ≠ .idle ∧ o ≠ .idle ∧
      ((ofMoves a b = .won ∧ o < m) ∨ (ofMoves a b = .lost ∧ m < o) ∨
        (ofMoves a b = .drawn ∧ m = o)) := by
  cases a with
  | none => exact absurd rfl h
  | some m =>
      cases b with
      | none => exact absurd rfl h
      | some o =>
          have hidle : m ≠ .idle ∧ o ≠ .idle := by
            refine not_or.mp fun hidle => h ?_
            simp [ofMoves, hidle]
          refine ⟨m, o, rfl, rfl, hidle.1, hidle.2, ?_⟩
          rw [ofMoves_some hidle.1 hidle.2]
          rcases Moves.lt_trichotomy hidle.1 hidle.2 with hlt | rfl | hgt
          · exact Or.inr (Or.inl ⟨if_pos hlt, hlt⟩)
          · rw [if_neg (Moves.lt_irrefl m), if_neg (Moves.lt_irrefl m)]
            exact Or.inr (Or.inr ⟨rfl, rfl⟩)
          · rw [if_neg (Moves.lt_asymm hgt), if_pos hgt]
            exact Or.inl ⟨rfl, hgt⟩

/-- On a copy the verdict compares the two players' entries. -/
theorem Pairing.Copy.verdict {P : Pairing} {g : Game} (h : P.Copy g) (p : Player) :
    g.verdict (P.userId p) =
      Verdict.ofMoves (g.moves (P.userId p)) (g.moves (P.userId p.other)) := by
  rw [Game.verdict, h.opponentUserId]

namespace GameViewController

variable {vc vc' : GameViewController} {localUserId : String} {game : Game}
  {writes : List GameWrite}

/-- The screen after `finishGame` on the local copy `copy`. -/
def finishedOn (vc : GameViewController) (copy : Game) : GameViewController :=
  continueToResults
    { vc with game := some { copy with state := .finished, winner := none } }

/-- **What `checkForWinner` does**, by the verdict on the game it is given. Its writes
and edits go to the local copy, which need not be that game. -/
inductive Checked (vc : GameViewController) (localUserId : String) (game : Game) :
    GameViewController → List GameWrite → Prop
  | waiting : game.verdict localUserId = .waiting → Checked vc localUserId game vc []
  | lost : game.verdict localUserId = .lost →
      Checked vc localUserId game (vc.animateFinalMoves false game) []
  | won {copy : Game} : game.verdict localUserId = .won → vc.game = some copy →
      Checked vc localUserId game ((vc.animateFinalMoves true game).finishedOn copy)
        [.decided { copy with state := .finished }]
  | drawn {copy : Game} : game.verdict localUserId = .drawn → vc.game = some copy →
      Checked vc localUserId game (vc.finishedOn copy)
        [.decided { copy with state := .finished }]

/-- `finishGame` writes its copy with the state `finished`. -/
theorem finishGame_eq_some (h : vc.finishGame = some (vc', writes)) :
    ∃ copy, vc.game = some copy ∧ vc' = vc.finishedOn copy ∧
      writes = [.decided { copy with state := .finished }] := by
  obtain ⟨copy, hcopy, heq⟩ := Option.map_eq_some_iff.mp h
  obtain ⟨rfl, rfl⟩ := Prod.mk.inj heq
  exact ⟨copy, hcopy, rfl, rfl⟩

/-- `checkForWinner` decides by the verdict on the game it is given. -/
theorem checkForWinner_eq (vc : GameViewController) (localUserId : String) (game : Game) :
    vc.checkForWinner localUserId game =
      match game.verdict localUserId with
      | .waiting => some (vc, [])
      | .lost => some (vc.animateFinalMoves false game, [])
      | .won => (vc.animateFinalMoves true game).finishGame
      | .drawn => vc.finishGame := by
  cases hopp : game.opponentUserId localUserId with
  | none => simp [checkForWinner, Game.verdict, hopp]
  | some opponentUserId =>
      simp only [checkForWinner, Game.verdict, hopp]
      cases game.moves localUserId with
      | none => simp [Verdict.ofMoves]
      | some m =>
          cases game.moves opponentUserId with
          | none => simp [Verdict.ofMoves]
          | some o =>
              by_cases hm : m = .idle
              · simp [Verdict.ofMoves, hm]
              by_cases ho : o = .idle
              · simp [Verdict.ofMoves, ho]
              rw [Verdict.ofMoves_some hm ho]
              rcases Moves.lt_trichotomy hm ho with hlt | rfl | hgt
              · simp [hm, ho, hlt, Moves.lt_asymm hlt]
              · simp [hm, Moves.lt_irrefl]
              · simp [hm, ho, hgt, Moves.lt_asymm hgt]

/-- `checkForWinner` waits, goes on to the end, or finishes the copy, by the verdict. -/
theorem checked_of_checkForWinner
    (h : vc.checkForWinner localUserId game = some (vc', writes)) :
    Checked vc localUserId game vc' writes := by
  rw [checkForWinner_eq] at h
  cases hverdict : game.verdict localUserId with
  | waiting =>
      rw [hverdict] at h
      obtain ⟨rfl, rfl⟩ := Prod.mk.inj (Option.some.inj h)
      exact Checked.waiting hverdict
  | lost =>
      rw [hverdict] at h
      obtain ⟨rfl, rfl⟩ := Prod.mk.inj (Option.some.inj h)
      exact Checked.lost hverdict
  | won =>
      rw [hverdict] at h
      obtain ⟨copy, hcopy, rfl, rfl⟩ := finishGame_eq_some h
      exact Checked.won hverdict hcopy
  | drawn =>
      rw [hverdict] at h
      obtain ⟨copy, hcopy, rfl, rfl⟩ := finishGame_eq_some h
      exact Checked.drawn hverdict hcopy

/-- `checkForWinner` leaves the buttons as they are. -/
theorem Checked.buttonsEnabled (h : vc.Checked localUserId game vc' writes) :
    vc'.buttonsEnabled = vc.buttonsEnabled := by
  cases h <;> rfl

/-- `checkForWinner` does not leave the screen. -/
theorem Checked.dismissed (h : vc.Checked localUserId game vc' writes) :
    vc'.dismissed = vc.dismissed := by
  cases h <;> rfl

/-- `checkForWinner` presents nothing by itself. -/
theorem Checked.results (h : vc.Checked localUserId game vc' writes) :
    vc'.results = vc.results := by
  cases h <;> rfl

/-- A closure that waits after one has joined. -/
theorem mem_later {d closure : Delayed} (h : d ∈ (vc.later closure).delayed) :
    d ∈ vc.delayed ∨ d = closure :=
  (List.mem_append.mp h).imp_right List.mem_singleton.mp

/-- What holds of the waiting closures and of the one that joins them holds of all. -/
theorem forall_mem_later {Q : Delayed → Prop} (closure : Delayed)
    (h : ∀ d ∈ vc.delayed, Q d) (hclosure : Q closure) :
    ∀ d ∈ (vc.later closure).delayed, Q d :=
  List.forall_mem_append.mpr ⟨h, List.forall_mem_singleton.mpr hclosure⟩

/-- The screen after a snapshot has been shown and its moves animated, which is where
`updateGame` calls `checkForWinner`. -/
def receive (vc : GameViewController) (localUserId : String) (game : Game) :
    GameViewController :=
  animateMoves { vc with
    buttonsEnabled := game.state = .inprogress
    game := some game } localUserId game

/-- `animateMoves` leaves one closure behind, or returns at one of its guards. -/
theorem animateMoves_cases (vc : GameViewController) (localUserId : String)
    (game : Game) : vc.animateMoves localUserId game = vc ∨
      vc.animateMoves localUserId game = vc.later (.animateMoves game) := by
  unfold animateMoves
  cases game.opponentUserId localUserId with
  | none => exact Or.inl rfl
  | some opponentUserId =>
      simp only
      split
      · exact Or.inr rfl
      · exact Or.inl rfl

/-- `animateMoves` does not write the copy. -/
@[simp] theorem animateMoves_game : (vc.animateMoves localUserId game).game = vc.game := by
  rcases vc.animateMoves_cases localUserId game with h | h <;> simp [h, later]

/-- `animateMoves` leaves the buttons as they are. -/
@[simp] theorem animateMoves_buttonsEnabled :
    (vc.animateMoves localUserId game).buttonsEnabled = vc.buttonsEnabled := by
  rcases vc.animateMoves_cases localUserId game with h | h <;> simp [h, later]

/-- `animateMoves` presents nothing by itself. -/
@[simp] theorem animateMoves_results :
    (vc.animateMoves localUserId game).results = vc.results := by
  rcases vc.animateMoves_cases localUserId game with h | h <;> simp [h, later]

/-- `animateMoves` does not leave the screen. -/
@[simp] theorem animateMoves_dismissed :
    (vc.animateMoves localUserId game).dismissed = vc.dismissed := by
  rcases vc.animateMoves_cases localUserId game with h | h <;> simp [h, later]

/-- The only closure `animateMoves` adds is its own, of the game it was given. -/
theorem mem_animateMoves_delayed {d : Delayed}
    (h : d ∈ (vc.animateMoves localUserId game).delayed) :
    d ∈ vc.delayed ∨ d = .animateMoves game := by
  rcases vc.animateMoves_cases localUserId game with heq | heq <;> rw [heq] at h
  · exact Or.inl h
  · exact mem_later h

/-- A snapshot becomes the copy. -/
@[simp] theorem receive_game : (vc.receive localUserId game).game = some game := by
  simp [receive]

/-- The buttons are enabled by the state of the snapshot alone. -/
@[simp] theorem receive_buttonsEnabled :
    (vc.receive localUserId game).buttonsEnabled = decide (game.state = .inprogress) := by
  simp [receive]

/-- A snapshot presents nothing by itself. -/
@[simp] theorem receive_results : (vc.receive localUserId game).results = vc.results := by
  simp [receive]

/-- A snapshot does not leave the screen. -/
@[simp] theorem receive_dismissed :
    (vc.receive localUserId game).dismissed = vc.dismissed := by
  simp [receive]

/-- The only closure a snapshot adds is a kick of that snapshot. -/
theorem mem_receive_delayed {d : Delayed} (h : d ∈ (vc.receive localUserId game).delayed) :
    d ∈ vc.delayed ∨ d = .animateMoves game := by
  have hcases := mem_animateMoves_delayed h
  exact hcases

/-- What holds of the waiting closures and of an animation holds of all after a snapshot. -/
theorem forall_mem_receive {Q : Delayed → Prop} (h : ∀ d ∈ vc.delayed, Q d)
    (hanimate : Q (.animateMoves game)) :
    ∀ d ∈ (vc.receive localUserId game).delayed, Q d := by
  intro d hd
  rcases mem_receive_delayed hd with hold | rfl
  · exact h d hold
  · exact hanimate

/-- **What `updateGame` does**: `checkForWinner` on the snapshot, which is the local copy
by then, and the walkover branch when the snapshot is finished and no winner is left. -/
inductive Updated (vc : GameViewController) (localUserId : String) (game : Game) :
    GameViewController → List GameWrite → Prop
  | plain {vc' : GameViewController} {writes : List GameWrite} :
      Checked (vc.receive localUserId game) localUserId game vc' writes →
      (game.state = .finished → (vc'.game.bind Game.winner).isSome) →
      Updated vc localUserId game vc' writes
  | walkover {vc' : GameViewController} {writes : List GameWrite} :
      Checked (vc.receive localUserId game) localUserId game vc' writes →
      game.state = .finished → vc'.game.bind Game.winner = none →
      Updated vc localUserId game (vc'.walkover localUserId game) writes

/-- A snapshot sets the buttons by its state alone. -/
theorem Updated.buttonsEnabled (h : vc.Updated localUserId game vc' writes) :
    vc'.buttonsEnabled = decide (game.state = .inprogress) := by
  cases h with
  | plain hcheck _ => rw [hcheck.buttonsEnabled, receive_buttonsEnabled]
  | walkover hcheck _ _ =>
      exact hcheck.buttonsEnabled.trans receive_buttonsEnabled

/-- `updateGame` does not leave the screen. -/
theorem Updated.dismissed (h : vc.Updated localUserId game vc' writes) :
    vc'.dismissed = vc.dismissed := by
  cases h with
  | plain hcheck _ => rw [hcheck.dismissed, receive_dismissed]
  | walkover hcheck _ _ => exact hcheck.dismissed.trans receive_dismissed

/-- `updateGame` presents nothing by itself, a walkover included. -/
theorem Updated.results (h : vc.Updated localUserId game vc' writes) :
    vc'.results = vc.results := by
  cases h with
  | plain hcheck _ => rw [hcheck.results, receive_results]
  | walkover hcheck _ _ => exact hcheck.results.trans receive_results

/-- `updateGame` does one of two things, by the state and the winner of the snapshot. -/
theorem updated_of_updateGame (h : vc.updateGame localUserId game = some (vc', writes)) :
    Updated vc localUserId game vc' writes := by
  obtain ⟨⟨vc₁, writes₁⟩, hcheck, heq⟩ := Option.map_eq_some_iff.mp h
  have hchecked := checked_of_checkForWinner hcheck
  by_cases hwalk : game.state = .finished ∧ (vc₁.game.bind Game.winner).isNone
  · simp only [if_pos hwalk] at heq
    obtain ⟨rfl, rfl⟩ := Prod.mk.inj heq
    exact Updated.walkover hchecked hwalk.1 (Option.isNone_iff_eq_none.mp hwalk.2)
  · simp only [if_neg hwalk] at heq
    obtain ⟨rfl, rfl⟩ := Prod.mk.inj heq
    refine Updated.plain hchecked fun hfin => ?_
    by_contra hnone
    exact hwalk ⟨hfin, by simpa using hnone⟩

end GameViewController

end RockPaperScissors
