import RockPaperScissors.GameViewController
import RockPaperScissors.TransitionSystem

/-!
# Sessions: Two Clients in One Game

The state machine of one game document and the two clients that play it. A session
starts when `createGame` has issued the document; from then on its events are the
commits of pending writes, the snapshots the clients' listeners compute and deliver, the
ways into the game screen, and what a user or the main queue does on a screen.

Firestore is assumed to commit writes one at a time, those of a client in issue order,
and to give each listener successive versions of the document with the client's own
pending writes laid over them (`WriteLog.view`); `seen` is the version a listener has
received last. Snapshots wait in a queue until the main thread takes them, so taps and
closures can run between the computation of a snapshot and its delivery. Any number of
snapshots may be computed of one version, and versions may be skipped. Firestore computes
none of a document that has not changed for the client; allowing them here only adds runs,
so nothing that says what can still happen may use them.

Each client may open several screens for the game, one after the other: the segue
presents nothing while the client's last screen is still up. A dismissed screen keeps
receiving snapshots and firing closures, which hold it strongly.

## Main results

* `Screen.handles_of_handle`: `Screen.Handles` lists what an input can do on a screen.
* `Session.step_of_step_eq`: `Session.Step` lists what an event can do in a session.
-/

open TransitionSystem

namespace RockPaperScissors

/-- A game screen of a client and its listener. -/
structure Screen where
  owner : Player
  controller : GameViewController
  /-- The version of the document the listener has received. -/
  seen : ℕ
  /-- The snapshots the listener has not delivered. -/
  inbox : List Game

/-- The document of a game, and the two clients that play it. -/
structure Session where
  /-- The writes of the game document. -/
  store : WriteLog Player GameWrite
  /-- The version of the document a client's query listener has received. -/
  seen : Player → ℕ
  /-- The completion of `createGame` has run. -/
  completed : Bool
  /-- Undelivered snapshots of a client's `setGameListener` query that have the game. -/
  found : Player → List Game
  screens : List Screen

/-- What can happen on a screen. -/
inductive Input
  /-- The listener delivers the oldest snapshot. -/
  | deliver
  /-- The closure at a place of the main queue fires. -/
  | fire (place : ℕ) (finished : Bool)
  /-- The user taps a move button (`onRandom` draws the move). -/
  | pick (move : Moves)
  /-- The user confirms Exit. -/
  | exit
  /-- The user leaves a results screen. -/
  | home

/-- What can happen in a session. -/
inductive Event
  /-- The backend commits the client's oldest write. -/
  | commit (p : Player)
  /-- The completion of `createGame` runs, after its write was committed. -/
  | completeCreate
  /-- The query listener of the client computes a snapshot with the game at a version. -/
  | find (p : Player) (version : ℕ)
  /-- The query listener delivers: `gameAccepted` is invoked. -/
  | gameAccepted (p : Player)
  /-- The listener of a screen computes a snapshot at a version. -/
  | snapshot (place : ℕ) (version : ℕ)
  /-- Something happens on a screen. -/
  | input (place : ℕ) (i : Input)

namespace Screen

/-- What an input does on a screen, with the writes it issues; `none` when it cannot
happen: nothing to deliver, no such closure, buttons disabled, screen dismissed, or a
missing `self.game` unwrapped. -/
def handle (sc : Screen) (localUserId : String) : Input → Option (Screen × List GameWrite)
  | .deliver =>
      match sc.inbox with
      | [] => none
      | game :: rest =>
          (sc.controller.updateGame localUserId game).map fun (vc, writes) =>
            ({ sc with controller := vc, inbox := rest }, writes)
  | .fire place finished =>
      sc.controller.delayed[place]?.bind fun closure =>
        let vc := { sc.controller with delayed := sc.controller.delayed.eraseIdx place }
        (vc.fire localUserId finished closure).map fun (vc, writes) =>
          ({ sc with controller := vc }, writes)
  | .pick move =>
      if move ≠ .idle ∧ sc.controller.buttonsEnabled ∧ ¬ sc.controller.dismissed then
        let (vc, writes) := sc.controller.pickedMove localUserId move
        some ({ sc with controller := vc }, writes)
      else none
  | .exit =>
      if sc.controller.dismissed then none
      else
        let (vc, writes) := sc.controller.exit
        some ({ sc with controller := vc }, writes)
  | .home =>
      if sc.controller.results = [] then none
      else some ({ sc with controller := sc.controller.onHome }, [])

/-- The screen without the closure at a place of its queue. -/
def takeClosure (sc : Screen) (place : ℕ) : GameViewController :=
  { sc.controller with delayed := sc.controller.delayed.eraseIdx place }

/-- What an input can do on a screen. -/
inductive Handles (sc : Screen) (localUserId : String) :
    Input → Screen → List GameWrite → Prop
  | deliver {game : Game} {rest : List Game} {vc : GameViewController}
      {writes : List GameWrite} : sc.inbox = game :: rest →
      sc.controller.Updated localUserId game vc writes →
      Handles sc localUserId .deliver { sc with controller := vc, inbox := rest } writes
  | interrupted {place : ℕ} {closure : Delayed} :
      sc.controller.delayed[place]? = some closure →
      Handles sc localUserId (.fire place false)
        { sc with controller := sc.takeClosure place } []
  | animatedMoves {place : ℕ} {game : Game} {vc : GameViewController}
      {writes : List GameWrite} :
      sc.controller.delayed[place]? = some (.animateMoves game) →
      (sc.takeClosure place).Checked localUserId game vc writes →
      Handles sc localUserId (.fire place true) { sc with controller := vc } writes
  | kicked {place : ℕ} {game : Game} :
      sc.controller.delayed[place]? = some (.animateFinalMoves true game) →
      Handles sc localUserId (.fire place true)
        { sc with controller := (sc.takeClosure place).setWinner game } []
  | wasKicked {place : ℕ} {game : Game} :
      sc.controller.delayed[place]? = some (.animateFinalMoves false game) →
      sc.controller.game.isSome →
      Handles sc localUserId (.fire place true)
        { sc with controller := (sc.takeClosure place).continueToResults } []
  | wasKickedAlone {place : ℕ} {game : Game} :
      sc.controller.delayed[place]? = some (.animateFinalMoves false game) →
      sc.controller.game = none →
      Handles sc localUserId (.fire place true)
        { sc with controller := sc.takeClosure place } []
  | declaredWinner {place : ℕ} {finished : Bool} {game copy : Game} :
      sc.controller.delayed[place]? = some (.setWinner game) →
      sc.controller.game = some copy →
      Handles sc localUserId (.fire place finished)
        { sc with
          controller := GameViewController.continueToResults
            { sc.takeClosure place with
              game := some { copy with
                winner := game.player localUserId
                state := .finished } } }
        [.decided { copy with winner := game.player localUserId, state := .finished }]
  | continuedToResults {place : ℕ} {finished : Bool} :
      sc.controller.delayed[place]? = some .continueToResults →
      Handles sc localUserId (.fire place finished)
        { sc with
          controller := { sc.takeClosure place with
            results := sc.controller.results ++ [sc.controller.game] } } []
  | pick {move : Moves} {game : Game} : move ≠ .idle →
      sc.controller.buttonsEnabled = true → sc.controller.dismissed = false →
      sc.controller.game = some game →
      Handles sc localUserId (.pick move)
        { sc with controller := sc.controller.shouldEnableButtons false }
        [.picked (game.setMove localUserId move)]
  | pickNothing {move : Moves} : sc.controller.game = none →
      Handles sc localUserId (.pick move) sc []
  | exit {game : Game} : sc.controller.dismissed = false →
      sc.controller.game = some game →
      Handles sc localUserId .exit
        { sc with controller := { sc.controller with dismissed := true } }
        [.status .finished]
  | exitNothing : sc.controller.dismissed = false → sc.controller.game = none →
      Handles sc localUserId .exit
        { sc with controller := { sc.controller with dismissed := true } } []
  | home : Handles sc localUserId .home { sc with controller := sc.controller.onHome } []

variable {sc sc' : Screen} {localUserId : String} {i : Input} {writes : List GameWrite}

/-- A snapshot that is delivered updates the game of its screen. -/
theorem handles_of_deliver (h : sc.handle localUserId .deliver = some (sc', writes)) :
    sc.Handles localUserId .deliver sc' writes := by
  simp only [handle] at h
  cases hinbox : sc.inbox with
  | nil => simp [hinbox] at h
  | cons game rest =>
      rw [hinbox] at h
      obtain ⟨⟨vc, ws⟩, hupdate, heq⟩ := Option.map_eq_some_iff.mp h
      obtain ⟨rfl, rfl⟩ := Prod.mk.inj heq
      exact Handles.deliver hinbox (GameViewController.updated_of_updateGame hupdate)

/-- The completion of `animateFinalMoves` that was not interrupted. -/
theorem handles_of_finalMoves {place : ℕ} {myHand : Bool} {game : Game}
    {vc : GameViewController}
    (hclosure : sc.controller.delayed[place]? = some (.animateFinalMoves myHand game))
    (h : (sc.takeClosure place).fire localUserId true (.animateFinalMoves myHand game) =
      some (vc, writes)) :
    sc.Handles localUserId (.fire place true) { sc with controller := vc } writes := by
  cases myHand with
  | true =>
      obtain ⟨rfl, rfl⟩ := Prod.mk.inj (Option.some.inj h)
      exact Handles.kicked hclosure
  | false =>
      cases hgame : sc.controller.game with
      | none =>
          have heq : some (sc.takeClosure place, []) = some (vc, writes) := by
            simpa [GameViewController.fire, takeClosure, hgame] using h
          obtain ⟨rfl, rfl⟩ := Prod.mk.inj (Option.some.inj heq)
          exact Handles.wasKickedAlone hclosure hgame
      | some copy =>
          have heq : some ((sc.takeClosure place).continueToResults, []) =
              some (vc, writes) := by
            simpa [GameViewController.fire, takeClosure, hgame] using h
          obtain ⟨rfl, rfl⟩ := Prod.mk.inj (Option.some.inj heq)
          exact Handles.wasKicked hclosure (by simp [hgame])

/-- A closure that fires does one of these, also where its animation was interrupted. -/
theorem handles_of_fire {place : ℕ} {finished : Bool}
    (h : sc.handle localUserId (.fire place finished) = some (sc', writes)) :
    sc.Handles localUserId (.fire place finished) sc' writes := by
  obtain ⟨closure, hclosure, h⟩ := Option.bind_eq_some_iff.mp h
  obtain ⟨⟨vc, ws⟩, hfire, heq⟩ := Option.map_eq_some_iff.mp h
  obtain ⟨rfl, rfl⟩ := Prod.mk.inj heq
  cases closure with
  | animateMoves game =>
      cases finished with
      | true =>
          exact Handles.animatedMoves hclosure
            (GameViewController.checked_of_checkForWinner hfire)
      | false =>
          obtain ⟨rfl, rfl⟩ := Prod.mk.inj (Option.some.inj hfire)
          exact Handles.interrupted hclosure
  | animateFinalMoves myHand game =>
      cases finished with
      | true => exact handles_of_finalMoves hclosure hfire
      | false =>
          obtain ⟨rfl, rfl⟩ := Prod.mk.inj (Option.some.inj hfire)
          exact Handles.interrupted hclosure
  | setWinner game =>
      obtain ⟨copy, hcopy, heq⟩ := Option.map_eq_some_iff.mp hfire
      obtain ⟨rfl, rfl⟩ := Prod.mk.inj heq
      exact Handles.declaredWinner hclosure hcopy
  | continueToResults =>
      obtain ⟨rfl, rfl⟩ := Prod.mk.inj (Option.some.inj hfire)
      exact Handles.continuedToResults hclosure

/-- A pick is made on an enabled button of a screen that is up. -/
theorem handles_of_pick {move : Moves}
    (h : sc.handle localUserId (.pick move) = some (sc', writes)) :
    sc.Handles localUserId (.pick move) sc' writes := by
  simp only [handle] at h
  split at h
  · next hcond =>
      obtain ⟨hmove, henabled, hdismissed⟩ := hcond
      have hdismissed' : sc.controller.dismissed = false := by simpa using hdismissed
      cases hgame : sc.controller.game with
      | none =>
          have heq : some (sc, []) = some (sc', writes) := by
            simpa [GameViewController.pickedMove, hgame] using h
          obtain ⟨rfl, rfl⟩ := Prod.mk.inj (Option.some.inj heq)
          exact Handles.pickNothing hgame
      | some game =>
          have heq : some ({ sc with
              controller := sc.controller.shouldEnableButtons false },
              [GameWrite.picked (game.setMove localUserId move)]) =
                some (sc', writes) := by
            simpa [GameViewController.pickedMove, hgame] using h
          obtain ⟨rfl, rfl⟩ := Prod.mk.inj (Option.some.inj heq)
          exact Handles.pick hmove henabled hdismissed' hgame
  · exact absurd h (by simp)

/-- An Exit is made on a screen that is up, and ends its game. -/
theorem handles_of_exit (h : sc.handle localUserId .exit = some (sc', writes)) :
    sc.Handles localUserId .exit sc' writes := by
  simp only [handle] at h
  split at h
  · exact absurd h (by simp)
  · next hdismissed =>
      have hdismissed' : sc.controller.dismissed = false := by simpa using hdismissed
      obtain ⟨rfl, hwrites⟩ := Prod.mk.inj (Option.some.inj h)
      cases hgame : sc.controller.game with
      | none =>
          have heq : writes = [] := by
            simpa [GameViewController.exit, hgame] using hwrites.symm
          rw [heq]
          exact Handles.exitNothing hdismissed' hgame
      | some game =>
          have heq : writes = [.status .finished] := by
            simpa [GameViewController.exit, hgame] using hwrites.symm
          rw [heq]
          exact Handles.exit hdismissed' hgame

/-- **Inputs do nothing else.** -/
theorem handles_of_handle (h : sc.handle localUserId i = some (sc', writes)) :
    sc.Handles localUserId i sc' writes := by
  cases i with
  | deliver => exact handles_of_deliver h
  | fire place finished => exact handles_of_fire h
  | pick move => exact handles_of_pick h
  | exit => exact handles_of_exit h
  | home =>
      simp only [handle] at h
      split at h
      · exact absurd h (by simp)
      · obtain ⟨rfl, rfl⟩ := Prod.mk.inj (Option.some.inj h)
        exact Handles.home

/-- A screen stays its client's. -/
theorem Handles.owner (h : sc.Handles localUserId i sc' writes) :
    sc'.owner = sc.owner := by
  cases h <;> rfl

/-- A dismissed screen stays dismissed. -/
theorem Handles.dismissed (h : sc.Handles localUserId i sc' writes)
    (hsc : sc.controller.dismissed = true) : sc'.controller.dismissed = true := by
  cases h with
  | deliver _ hupdate => exact hupdate.dismissed.trans hsc
  | animatedMoves _ hcheck => exact hcheck.dismissed.trans hsc
  | exit _ _ | exitNothing _ _ | home => rfl
  | interrupted _ | kicked _ | wasKicked _ _ | wasKickedAlone _ _ | declaredWinner _ _
  | continuedToResults _ | pick _ _ _ _ | pickNothing _ => exact hsc

/-- A screen that is up after an input was up before it. -/
theorem Handles.up (h : sc.Handles localUserId i sc' writes)
    (hup : sc'.controller.dismissed = false) : sc.controller.dismissed = false := by
  by_contra hdismissed
  have hsame := h.dismissed (by simpa using hdismissed)
  exact absurd (hsame.symm.trans hup) (by simp)

/-- **Only a snapshot of a game in progress enables the buttons.** -/
theorem Handles.buttonsEnabled (h : sc.Handles localUserId i sc' writes)
    (hsc' : sc'.controller.buttonsEnabled = true) :
    sc.controller.buttonsEnabled = true ∨
      i = .deliver ∧ ∃ game rest, sc.inbox = game :: rest ∧ game.state = .inprogress := by
  cases h with
  | deliver hinbox hupdate =>
      rw [hupdate.buttonsEnabled] at hsc'
      exact Or.inr ⟨rfl, _, _, hinbox, of_decide_eq_true hsc'⟩
  | animatedMoves _ hcheck => exact Or.inl (hcheck.buttonsEnabled.symm.trans hsc')
  | pick _ _ _ _ => exact absurd hsc' (by simp [GameViewController.shouldEnableButtons])
  | interrupted _ | kicked _ | wasKicked _ _ | wasKickedAlone _ _ | declaredWinner _ _
  | continuedToResults _ | pickNothing _ | exit _ _ | exitNothing _ _ | home =>
      exact Or.inl hsc'

end Screen

namespace Session

variable (P : Pairing)

/-- `createGame` has issued the document on the acceptor's client. -/
def init : Session where
  store := WriteLog.empty.issue .acceptor [.create P.createdGame]
  seen := fun _ => 0
  completed := false
  found := fun _ => []
  screens := []

/-- The stored document. -/
def stored (s : Session) : Option Game :=
  s.store.current GameWrite.apply none

/-- The document as the client sees it when it has received a version. -/
def view (s : Session) (p : Player) (version : ℕ) : Option Game :=
  s.store.view GameWrite.apply none p version

/-- A version a listener may receive after the version `seen`. It may be the same one again,
since the client's own writes change what it sees of it. -/
def canSee (s : Session) (seen version : ℕ) : Prop :=
  seen ≤ version ∧ version ≤ s.store.log.length

instance (s : Session) (seen version : ℕ) : Decidable (s.canSee seen version) :=
  inferInstanceAs (Decidable (_ ∧ _))

/-- The client shows a game screen, over which the segue presents nothing. -/
def presenting (s : Session) (p : Player) : Bool :=
  s.screens.any fun sc => sc.owner = p ∧ ¬ sc.controller.dismissed

/-- `performSegue(withIdentifier: "gameSeque", sender: game)`. -/
def performSegue (s : Session) (p : Player) (game : Game) : Session :=
  if s.presenting p then s
  else { s with screens := s.screens ++ [⟨p, .viewDidLoad game, 0, []⟩] }

/-- `enterGame(_:_:)`. -/
def enterGame (s : Session) (p : Player) (game : Game) (shouldUpdateGame : Bool) :
    Session :=
  if shouldUpdateGame then
    { s with store := s.store.issue p [.status .inprogress] }.performSegue p
      { game with state := .inprogress }
  else s.performSegue p game

/-- The session after an event; `none` when the event cannot happen. -/
def step (s : Session) : Event → Option Session
  | .commit p => (s.store.commit p).map fun store => { s with store }
  | .completeCreate =>
      if s.completed ∨ s.stored.isNone then none
      else some ({ s with completed := true }.enterGame .acceptor P.createdGame false)
  | .find p version =>
      if s.canSee (s.seen p) version then
        (s.view p version).bind fun game =>
          if isStartingGameOf (P.userId p) game then
            some { s with
              seen := Function.update s.seen p version
              found := Function.update s.found p (s.found p ++ [game]) }
          else none
      else none
  | .gameAccepted p =>
      match s.found p with
      | [] => none
      | game :: rest =>
          some ({ s with found := Function.update s.found p rest }.enterGame p game true)
  | .snapshot place version =>
      s.screens[place]?.bind fun sc =>
        if s.canSee sc.seen version then
          (s.view sc.owner version).map fun game =>
            { s with
              screens := s.screens.set place
                { sc with seen := version, inbox := sc.inbox ++ [game] } }
        else none
  | .input place i =>
      s.screens[place]?.bind fun sc =>
        (sc.handle (P.userId sc.owner) i).map fun (sc', writes) =>
          { s with
            store := s.store.issue sc.owner writes
            screens := s.screens.set place sc' }

/-! ### What an event can do -/

variable {P} {s s' : Session} {e : Event}

/-- The steps of a session, one constructor an event. -/
inductive Step (P : Pairing) (s : Session) : Event → Session → Prop
  | commit {p : Player} {store : WriteLog Player GameWrite} :
      s.store.commit p = some store → Step P s (.commit p) { s with store }
  | completeCreate : s.completed = false → s.stored.isSome →
      Step P s .completeCreate
        ({ s with completed := true }.performSegue .acceptor P.createdGame)
  | find {p : Player} {version : ℕ} {game : Game} :
      s.canSee (s.seen p) version → s.view p version = some game →
      isStartingGameOf (P.userId p) game →
      Step P s (.find p version) { s with
        seen := Function.update s.seen p version
        found := Function.update s.found p (s.found p ++ [game]) }
  | gameAccepted {p : Player} {game : Game} {rest : List Game} :
      s.found p = game :: rest →
      Step P s (.gameAccepted p) ({ s with
        found := Function.update s.found p rest
        store := s.store.issue p [.status .inprogress] }.performSegue p
          { game with state := .inprogress })
  | snapshot {place version : ℕ} {sc : Screen} {game : Game} :
      s.screens[place]? = some sc → s.canSee sc.seen version →
      s.view sc.owner version = some game →
      Step P s (.snapshot place version) { s with
        screens := s.screens.set place
          { sc with seen := version, inbox := sc.inbox ++ [game] } }
  | input {place : ℕ} {i : Input} {sc sc' : Screen} {writes : List GameWrite} :
      s.screens[place]? = some sc →
      sc.handle (P.userId sc.owner) i = some (sc', writes) →
      Step P s (.input place i) { s with
        store := s.store.issue sc.owner writes
        screens := s.screens.set place sc' }

/-- **The step function takes only these steps.** -/
theorem step_of_step_eq (h : s.step P e = some s') : Step P s e s' := by
  cases e with
  | commit p =>
      obtain ⟨store, hstore, rfl⟩ := Option.map_eq_some_iff.mp h
      exact Step.commit hstore
  | completeCreate =>
      simp only [step, enterGame] at h
      split at h
      · exact absurd h (by simp)
      · next hcond =>
          obtain rfl := Option.some.inj h
          obtain ⟨hcompleted, hstored⟩ := not_or.mp hcond
          refine Step.completeCreate (by simpa using hcompleted) ?_
          rw [Option.isSome_iff_ne_none]
          intro hnone
          exact hstored (by simp [hnone])
  | find p version =>
      simp only [step] at h
      split at h
      · next hsee =>
          obtain ⟨game, hview, hgame⟩ := Option.bind_eq_some_iff.mp h
          split at hgame
          · next hstarting =>
              obtain rfl := Option.some.inj hgame
              exact Step.find hsee hview hstarting
          · exact absurd hgame (by simp)
      · exact absurd h (by simp)
  | gameAccepted p =>
      simp only [step, enterGame] at h
      cases hfound : s.found p with
      | nil => simp [hfound] at h
      | cons game rest =>
          simp only [hfound] at h
          obtain rfl := Option.some.inj h
          exact Step.gameAccepted hfound
  | snapshot place version =>
      obtain ⟨sc, hsc, h⟩ := Option.bind_eq_some_iff.mp h
      split at h
      · next hsee =>
          obtain ⟨game, hview, rfl⟩ := Option.map_eq_some_iff.mp h
          exact Step.snapshot hsc hsee hview
      · exact absurd h (by simp)
  | input place i =>
      obtain ⟨sc, hsc, h⟩ := Option.bind_eq_some_iff.mp h
      obtain ⟨⟨sc', writes⟩, hhandle, rfl⟩ := Option.map_eq_some_iff.mp h
      exact Step.input hsc hhandle

/-- A screen after `performSegue` is an old one or the new one. -/
theorem mem_performSegue {p : Player} {game : Game} {sc : Screen}
    (h : sc ∈ (s.performSegue p game).screens) :
    sc ∈ s.screens ∨ (s.presenting p = false ∧ sc = ⟨p, .viewDidLoad game, 0, []⟩) := by
  unfold performSegue at h
  split at h
  · exact Or.inl h
  · next hpres =>
      rcases List.mem_append.mp h with hold | hnew
      · exact Or.inl hold
      · exact Or.inr ⟨by simpa using hpres, List.mem_singleton.mp hnew⟩

/-- A place of the screens after `performSegue` has its old screen or the new one. -/
theorem getElem?_performSegue {p : Player} {game : Game} {place : ℕ} {sc : Screen}
    (h : (s.performSegue p game).screens[place]? = some sc) :
    s.screens[place]? = some sc ∨ sc = ⟨p, .viewDidLoad game, 0, []⟩ := by
  unfold performSegue at h
  split at h
  · exact Or.inl h
  · exact (getElem?_concat_cases h).imp_right And.right

/-- `performSegue` writes nothing. -/
@[simp] theorem performSegue_store {p : Player} {game : Game} :
    (s.performSegue p game).store = s.store := by
  unfold performSegue
  split <;> rfl

/-- A new screen leaves what the requester's listener found. -/
@[simp] theorem performSegue_found {p : Player} {game : Game} :
    (s.performSegue p game).found = s.found := by
  unfold performSegue
  split <;> rfl

/-- A new screen leaves what the clients have been told. -/
@[simp] theorem performSegue_seen {p : Player} {game : Game} :
    (s.performSegue p game).seen = s.seen := by
  unfold performSegue
  split <;> rfl

/-- What a step may make of a screen: it stays, its listener computes a snapshot, or it
handles an input. -/
inductive Turns (P : Pairing) (s : Session) (place : ℕ) (sc : Screen) : Event → Screen → Prop
  | stays {e : Event} : Turns P s place sc e sc
  | receives {version : ℕ} {game : Game} : s.view sc.owner version = some game →
      Turns P s place sc (.snapshot place version)
        { sc with seen := version, inbox := sc.inbox ++ [game] }
  | handles {i : Input} {sc' : Screen} {writes : List GameWrite} :
      sc.Handles (P.userId sc.owner) i sc' writes → Turns P s place sc (.input place i) sc'

/-- A screen that turns into another stays its client's. -/
theorem Turns.owner {place : ℕ} {sc sc' : Screen} (h : Turns P s place sc e sc') :
    sc'.owner = sc.owner := by
  cases h with
  | stays | receives _ => rfl
  | handles hhandles => exact hhandles.owner

/-- A place of the screens after an update of another or the same place. -/
theorem Turns.of_set {place place' : ℕ} {sc sc' new : Screen}
    (hsc : s.screens[place]? = some sc) (h : Turns P s place sc e new)
    (hsc' : (s.screens.set place new)[place']? = some sc') :
    ∃ old, s.screens[place']? = some old ∧ Turns P s place' old e sc' := by
  rcases getElem?_set_cases hsc' with ⟨rfl, rfl⟩ | ⟨-, hold⟩
  · exact ⟨sc, hsc, h⟩
  · exact ⟨sc', hold, Turns.stays⟩

/-- **A screen was there before a step or is a new one.** -/
theorem Step.screens (h : Step P s e s') {place : ℕ} {sc' : Screen}
    (hsc' : s'.screens[place]? = some sc') :
    (∃ sc, s.screens[place]? = some sc ∧ Turns P s place sc e sc') ∨
      s.screens[place]? = none ∧ ∃ p game, s.presenting p = false ∧
        sc' = ⟨p, .viewDidLoad game, 0, []⟩ := by
  have hsegue : ∀ {t : Session} {p : Player} {game : Game}, t.screens = s.screens →
      (t.performSegue p game).screens[place]? = some sc' →
      s.screens[place]? = some sc' ∨
        s.screens[place]? = none ∧ s.presenting p = false ∧
          sc' = ⟨p, .viewDidLoad game, 0, []⟩ := by
    intro t p game ht h
    have hpres : t.presenting p = s.presenting p := by rw [presenting, ht, presenting]
    unfold performSegue at h
    rw [hpres] at h
    split at h
    · exact Or.inl (ht ▸ h)
    · next hfree =>
        rw [ht] at h
        rcases getElem?_concat_cases h with hold | ⟨rfl, rfl⟩
        · exact Or.inl hold
        · exact Or.inr ⟨List.getElem?_eq_none (le_refl _), by simpa using hfree, rfl⟩
  cases h with
  | commit _ | find _ _ _ => exact Or.inl ⟨sc', hsc', Turns.stays⟩
  | completeCreate _ _ | gameAccepted _ =>
      rcases hsegue (by rfl) hsc' with hold | ⟨hnone, hfree, hnew⟩
      · exact Or.inl ⟨sc', hold, Turns.stays⟩
      · exact Or.inr ⟨hnone, _, _, hfree, hnew⟩
  | snapshot hsc _ hgame =>
      exact Or.inl (Turns.of_set hsc (Turns.receives hgame) hsc')
  | input hsc hhandle =>
      exact Or.inl (Turns.of_set hsc (Turns.handles (Screen.handles_of_handle hhandle)) hsc')

/-! ### A sample game -/

/-- Two users, for concrete runs. -/
def sample : Pairing where
  gameId := "game"
  createdAt := 0
  user := fun
    | .acceptor => ⟨some "uid1", some "playerOne", some "avatarOne", none⟩
    | .requester => ⟨some "uid2", some "playerTwo", some "avatarTwo", none⟩
  userId := fun
    | .acceptor => "uid1"
    | .requester => "uid2"
  user_id := by
    intro p
    cases p <;> rfl
  userId_ne := by decide

/-- The way into the game: the acceptor's client waits on screen `0`, the requester's
client finds the game, starts it and is on screen `1`, and the acceptor's screen
receives the started game. -/
def opening : List Event :=
  [.commit .acceptor, .completeCreate, .find .requester 1, .gameAccepted .requester,
    .commit .requester, .snapshot 0 2, .input 0 .deliver]

/-- Both clients can move after the opening. -/
example : (exec (step sample) (init sample) opening).map
    (fun s => s.screens.map fun sc => sc.controller.buttonsEnabled) =
      some [true, true] := by
  decide

end Session

end RockPaperScissors
