import RockPaperScissors.Session

/-!
# The Writes of a Session

Every event of a session either commits the oldest write of a client or issues at most
one write. `Session.Issues` lists the writes an event can issue, one constructor for
each place of the source that writes the game document after its creation, and
`Session.Step.store` says that the store changes in no other way. Whole-game writes are
taken from the local copy of a screen; `copyWritten` and `stateWritten` read off the
state before an event which copy and which state it is going to write.

## Main results

* `Session.Step.store`: what a step does to the store.
* `Session.Issues.copyWritten`, `Session.Issues.stateWritten`: the writes an event issues
  are the ones the two functions announce.
-/

open TransitionSystem

namespace RockPaperScissors

/-- The verdicts that reach the last branch of `checkForWinner`. -/
def Verdict.finishes : Verdict → Bool
  | won => true
  | drawn => true
  | waiting => false
  | lost => false

namespace GameWrite

/-- The move of a pick of `p`. -/
def pick? (P : Pairing) (p : Player) : GameWrite → Option Moves
  | picked game => game.moves (P.userId p)
  | _ => none

/-- The picks among writes of `p`. -/
def picks (P : Pairing) (p : Player) (ws : List GameWrite) : List Moves :=
  ws.filterMap (pick? P p)

/-- The picks of more writes. -/
theorem picks_append (P : Pairing) (p : Player) (ws ws' : List GameWrite) :
    picks P p (ws ++ ws') = picks P p ws ++ picks P p ws' :=
  List.filterMap_append

/-- Only whole-game writes are picks. -/
theorem picks_singleton_of_game?_eq_none {P : Pairing} {p : Player}
    {w : GameWrite} (h : w.game? = none) : picks P p [w] = [] := by
  cases w with
  | status _ => rfl
  | create _ | picked _ | decided _ => exact absurd h (by simp [game?])

end GameWrite

namespace GameViewController

variable {vc vc' : GameViewController} {localUserId : String} {game : Game}
  {writes : List GameWrite}

/-- `checkForWinner` writes the local copy, on a verdict of its last branch. -/
theorem Checked.writes_cases (h : vc.Checked localUserId game vc' writes) :
    writes = [] ∨ (game.verdict localUserId).finishes = true ∧
      ∃ copy, vc.game = some copy ∧ writes = [.decided { copy with state := .finished }] := by
  cases h with
  | waiting _ | lost _ => exact Or.inl rfl
  | won hverdict hcopy | drawn hverdict hcopy =>
      exact Or.inr ⟨by rw [hverdict]; rfl, _, hcopy, rfl⟩

/-- `updateGame` writes the snapshot, on a verdict of the last branch. -/
theorem Updated.writes_cases (h : vc.Updated localUserId game vc' writes) :
    writes = [] ∨ (game.verdict localUserId).finishes = true ∧
      writes = [.decided { game with state := .finished }] := by
  have hcheck : ∃ vc'', (vc.receive localUserId game).Checked localUserId game vc'' writes := by
    cases h with
    | plain hcheck _ => exact ⟨_, hcheck⟩
    | walkover hcheck _ _ => exact ⟨_, hcheck⟩
  obtain ⟨vc'', hcheck⟩ := hcheck
  rcases hcheck.writes_cases with hnil | ⟨hverdict, copy, hcopy, hwrites⟩
  · exact Or.inl hnil
  · rw [receive_game] at hcopy
    obtain rfl : game = copy := Option.some.inj hcopy
    exact Or.inr ⟨hverdict, hwrites⟩

end GameViewController

namespace Screen

/-- The local copy an input writes as a whole game. -/
def copyWritten (sc : Screen) (localUserId : String) : Input → Option Game
  | .deliver => sc.inbox.head?.filter fun game => (game.verdict localUserId).finishes
  | .fire place finished =>
      match sc.controller.delayed[place]? with
      | some (.animateMoves game) =>
          if finished ∧ (game.verdict localUserId).finishes then sc.controller.game else none
      | some (.setWinner _) => sc.controller.game
      | _ => none
  | .pick _ => sc.controller.game
  | .exit => none
  | .home => none

/-- The state an input writes, as part of a whole game or alone. -/
def stateWritten (sc : Screen) (localUserId : String) : Input → Option GameState
  | .pick _ => sc.controller.game.map Game.state
  | .exit => some .finished
  | i => (sc.copyWritten localUserId i).map fun _ => .finished

end Screen

/-- The event is an Exit. -/
def Event.exits : Event → Bool
  | .input _ .exit => true
  | _ => false

/-- The move an event picks. -/
def Event.move? : Event → Option Moves
  | .input _ (.pick move) => some move
  | _ => none

namespace Session

/-- The client of an event and the local copy it writes as a whole game. -/
def copyWritten (P : Pairing) (s : Session) : Event → Option (Player × Game)
  | .input place i =>
      s.screens[place]?.bind fun sc =>
        (sc.copyWritten (P.userId sc.owner) i).map fun copy => (sc.owner, copy)
  | _ => none

/-- The client of an event and the state it writes. -/
def stateWritten (P : Pairing) (s : Session) : Event → Option (Player × GameState)
  | .gameAccepted p => some (p, .inprogress)
  | .input place i =>
      s.screens[place]?.bind fun sc =>
        (sc.stateWritten (P.userId sc.owner) i).map fun st => (sc.owner, st)
  | _ => none

/-- **What an event issues**, after the creation of the game. -/
inductive Issues (P : Pairing) (s : Session) : Event → Player → List GameWrite → Prop
  /-- Most events write nothing. -/
  | nothing {e : Event} {p : Player} : Issues P s e p []
  /-- `enterGame` starts the game. -/
  | entered {p : Player} : Issues P s (.gameAccepted p) p [.status .inprogress]
  /-- `pickedMove`. -/
  | picked {place : ℕ} {move : Moves} {sc : Screen} {copy : Game} :
      s.screens[place]? = some sc → move ≠ .idle → sc.controller.buttonsEnabled = true →
      sc.controller.dismissed = false → sc.controller.game = some copy →
      Issues P s (.input place (.pick move)) sc.owner
        [.picked (copy.setMove (P.userId sc.owner) move)]
  /-- `showAlertForExit`. -/
  | exited {place : ℕ} {sc : Screen} : s.screens[place]? = some sc →
      Issues P s (.input place .exit) sc.owner [.status .finished]
  /-- `checkForWinner` on a snapshot. -/
  | delivered {place : ℕ} {sc : Screen} {game : Game} {rest : List Game} :
      s.screens[place]? = some sc → sc.inbox = game :: rest →
      (game.verdict (P.userId sc.owner)).finishes = true →
      Issues P s (.input place .deliver) sc.owner [.decided { game with state := .finished }]
  /-- `checkForWinner` from the completion of `animateMoves`. -/
  | animated {place i : ℕ} {sc : Screen} {game copy : Game} :
      s.screens[place]? = some sc →
      sc.controller.delayed[i]? = some (.animateMoves game) →
      (game.verdict (P.userId sc.owner)).finishes = true → sc.controller.game = some copy →
      Issues P s (.input place (.fire i true)) sc.owner
        [.decided { copy with state := .finished }]
  /-- The closure of `setWinner`. -/
  | declared {place i : ℕ} {finished : Bool} {sc : Screen} {game copy : Game} :
      s.screens[place]? = some sc → sc.controller.delayed[i]? = some (.setWinner game) →
      sc.controller.game = some copy →
      Issues P s (.input place (.fire i finished)) sc.owner
        [.decided { copy with
          winner := game.player (P.userId sc.owner)
          state := .finished }]

variable {P : Pairing} {s s' : Session} {e : Event} {p : Player} {w : GameWrite}
  {ws : List GameWrite}

/-- A commit applies the oldest waiting write of a client to the stored document. -/
theorem stored_commit (h : s.store.commit p = some s'.store) : ∃ w ws,
    s.store.outbox p = w :: ws ∧
    s'.store = ⟨s.store.log ++ [(p, w)], Function.update s.store.outbox p ws⟩ ∧
    s'.stored = GameWrite.apply s.stored w :=
  WriteLog.current_commit GameWrite.apply none h

/-- An issue leaves the stored document. -/
theorem stored_issue (h : s'.store = s.store.issue p ws) : s'.stored = s.stored := by
  simp [stored, h]

/-- The picks the client of `p` has issued, in order. -/
def issuedPicks (P : Pairing) (s : Session) (p : Player) : List Moves :=
  GameWrite.picks P p (s.store.issuedBy p)

/-- What an input on a screen issues. -/
theorem issues_of_handles {place : ℕ} {i : Input} {sc sc' : Screen}
    (hsc : s.screens[place]? = some sc)
    (h : sc.Handles (P.userId sc.owner) i sc' ws) :
    Issues P s (.input place i) sc.owner ws := by
  cases h with
  | deliver hinbox hupdate =>
      rcases hupdate.writes_cases with rfl | ⟨hverdict, rfl⟩
      · exact Issues.nothing
      · exact Issues.delivered hsc hinbox hverdict
  | animatedMoves hclosure hcheck =>
      rcases hcheck.writes_cases with rfl | ⟨hverdict, copy, hcopy, rfl⟩
      · exact Issues.nothing
      · exact Issues.animated hsc hclosure hverdict hcopy
  | declaredWinner hclosure hcopy => exact Issues.declared hsc hclosure hcopy
  | pick hmove henabled hdismissed hgame =>
      exact Issues.picked hsc hmove henabled hdismissed hgame
  | exit _ _ => exact Issues.exited hsc
  | interrupted _ | kicked _ | wasKicked _ _ | wasKickedAlone _ _ | continuedToResults _
  | pickNothing _ | exitNothing _ _ | home => exact Issues.nothing

/-- **The store changes by commits and by the issues of `Issues`.** -/
theorem Step.store (h : Step P s e s') :
    (∃ p, e = .commit p ∧ s.store.commit p = some s'.store) ∨
      ∃ p ws, Issues P s e p ws ∧ s'.store = s.store.issue p ws := by
  cases h with
  | commit hstore => exact Or.inl ⟨_, rfl, hstore⟩
  | completeCreate _ _ =>
      refine Or.inr ⟨.acceptor, [], Issues.nothing, ?_⟩
      rw [performSegue_store, WriteLog.issue_nil]
  | find _ _ _ | snapshot _ _ _ =>
      exact Or.inr ⟨.acceptor, [], Issues.nothing, WriteLog.issue_nil.symm⟩
  | gameAccepted _ =>
      refine Or.inr ⟨_, _, Issues.entered, ?_⟩
      rw [performSegue_store]
  | input hsc hhandle =>
      have hissues := issues_of_handles hsc (Screen.handles_of_handle hhandle)
      exact Or.inr ⟨_, _, hissues, rfl⟩

/-- A stored game stays stored. -/
theorem Step.isSome_stored (h : Step P s e s') (hs : s.stored.isSome) :
    s'.stored.isSome := by
  rcases h.store with ⟨p, -, hcommit⟩ | ⟨p, ws, -, hstore⟩
  · obtain ⟨w, ws, -, -, hstored⟩ := stored_commit hcommit
    rw [hstored]
    exact GameWrite.isSome_apply hs w
  · rwa [stored_issue hstore]

/-- An event issues at most one write. -/
theorem Issues.eq_nil_or_singleton (h : Issues P s e p ws) : ws = [] ∨ ∃ w, ws = [w] := by
  cases h with
  | nothing => exact Or.inl rfl
  | entered => exact Or.inr ⟨_, rfl⟩
  | picked _ _ _ _ _ => exact Or.inr ⟨_, rfl⟩
  | exited _ => exact Or.inr ⟨_, rfl⟩
  | delivered _ _ _ => exact Or.inr ⟨_, rfl⟩
  | animated _ _ _ _ => exact Or.inr ⟨_, rfl⟩
  | declared _ _ _ => exact Or.inr ⟨_, rfl⟩

/-- The writes of an event have the announced state. -/
theorem Issues.stateWritten (h : Issues P s e p ws) (hw : w ∈ ws) :
    s.stateWritten P e = some (p, w.state) := by
  cases h with
  | nothing => exact absurd hw (by simp)
  | entered =>
      obtain rfl := List.mem_singleton.mp hw
      rfl
  | picked hsc _ _ _ hcopy =>
      obtain rfl := List.mem_singleton.mp hw
      simp [Session.stateWritten, hsc, Screen.stateWritten, hcopy, GameWrite.state]
  | exited hsc =>
      obtain rfl := List.mem_singleton.mp hw
      simp [Session.stateWritten, hsc, Screen.stateWritten, GameWrite.state]
  | delivered hsc hinbox hverdict =>
      obtain rfl := List.mem_singleton.mp hw
      simp [Session.stateWritten, hsc, Screen.stateWritten, Screen.copyWritten, hinbox,
        hverdict, GameWrite.state]
  | animated hsc hclosure hverdict hcopy =>
      obtain rfl := List.mem_singleton.mp hw
      simp [Session.stateWritten, hsc, Screen.stateWritten, Screen.copyWritten, hclosure,
        hverdict, hcopy, GameWrite.state]
  | declared hsc hclosure hcopy =>
      obtain rfl := List.mem_singleton.mp hw
      simp [Session.stateWritten, hsc, Screen.stateWritten, Screen.copyWritten, hclosure,
        hcopy, GameWrite.state]

/-- A whole-game write has the entries of the announced copy, except that a pick has the
new move. -/
theorem Issues.copyWritten {g : Game} (h : Issues P s e p ws) (hw : w ∈ ws)
    (hg : w.game? = some g) : ∃ copy, s.copyWritten P e = some (p, copy) ∧
      ((∃ m, e.move? = some m ∧ w = .picked g ∧ g = copy.setMove (P.userId p) m) ∨
        (e.move? = none ∧ w = .decided g ∧ g.moves = copy.moves)) := by
  cases h with
  | nothing => exact absurd hw (by simp)
  | entered | exited _ =>
      obtain rfl := List.mem_singleton.mp hw
      exact absurd hg (by simp [GameWrite.game?])
  | @picked _ _ _ copy hsc _ _ _ hcopy =>
      obtain rfl := List.mem_singleton.mp hw
      obtain rfl := Option.some.inj hg
      exact ⟨copy, by simp [Session.copyWritten, hsc, Screen.copyWritten, hcopy],
        Or.inl ⟨_, rfl, rfl, rfl⟩⟩
  | @delivered _ _ copy _ hsc hinbox hverdict =>
      obtain rfl := List.mem_singleton.mp hw
      obtain rfl := Option.some.inj hg
      exact ⟨copy, by simp [Session.copyWritten, hsc, Screen.copyWritten, hinbox, hverdict],
        Or.inr ⟨rfl, rfl, rfl⟩⟩
  | @animated _ _ _ _ copy hsc hclosure hverdict hcopy =>
      obtain rfl := List.mem_singleton.mp hw
      obtain rfl := Option.some.inj hg
      exact ⟨copy, by simp [Session.copyWritten, hsc, Screen.copyWritten, hclosure, hverdict,
        hcopy], Or.inr ⟨rfl, rfl, rfl⟩⟩
  | @declared _ _ _ _ _ copy hsc hclosure hcopy =>
      obtain rfl := List.mem_singleton.mp hw
      obtain rfl := Option.some.inj hg
      exact ⟨copy, by simp [Session.copyWritten, hsc, Screen.copyWritten, hclosure, hcopy],
        Or.inr ⟨rfl, rfl, rfl⟩⟩

/-- An event issues a pick when a move button is tapped. -/
theorem Issues.picks_cases (h : Issues P s e p ws) :
    GameWrite.picks P p ws = [] ∨ ∃ (place : ℕ) (move : Moves) (sc : Screen) (copy : Game),
      e = .input place (.pick move) ∧ s.screens[place]? = some sc ∧ sc.owner = p ∧
      move ≠ .idle ∧ sc.controller.buttonsEnabled = true ∧
      sc.controller.dismissed = false ∧ sc.controller.game = some copy ∧
      ws = [.picked (copy.setMove (P.userId p) move)] := by
  cases h with
  | nothing | entered | exited _ | delivered _ _ _ | animated _ _ _ _ | declared _ _ _ =>
      exact Or.inl rfl
  | picked hsc hmove henabled hdismissed hcopy =>
      exact Or.inr ⟨_, _, _, _, rfl, hsc, rfl, hmove, henabled, hdismissed, hcopy, rfl⟩

/-- **How the issued picks grow**: by taps on the enabled buttons of a screen that has not
been dismissed. -/
theorem Step.issuedPicks (h : Step P s e s') :
    (∀ q, s'.issuedPicks P q = s.issuedPicks P q) ∨
      ∃ (place : ℕ) (move : Moves) (sc : Screen), e = .input place (.pick move) ∧
        s.screens[place]? = some sc ∧ move ≠ .idle ∧
        sc.controller.buttonsEnabled = true ∧ sc.controller.dismissed = false ∧
        s'.issuedPicks P sc.owner = s.issuedPicks P sc.owner ++ [move] ∧
        ∀ q, q ≠ sc.owner → s'.issuedPicks P q = s.issuedPicks P q := by
  rcases h.store with ⟨p, -, hcommit⟩ | ⟨p, ws, hissues, hstore⟩
  · left
    intro q
    rw [Session.issuedPicks, WriteLog.issuedBy_commit hcommit, Session.issuedPicks]
  · have hgrow : ∀ q, s'.issuedPicks P q =
        s.issuedPicks P q ++ if q = p then GameWrite.picks P p ws else [] := by
      intro q
      rw [Session.issuedPicks, hstore, WriteLog.issuedBy_issue, GameWrite.picks_append,
        ← Session.issuedPicks]
      by_cases hq : q = p
      · rw [if_pos hq, if_pos hq, hq]
      · rw [if_neg hq, if_neg hq]
        rfl
    rcases hissues.picks_cases with hnone |
      ⟨place, move, sc, copy, rfl, hsc, rfl, hmove, henabled, hdismissed, -, rfl⟩
    · left
      intro q
      rw [hgrow q, hnone, ite_self, List.append_nil]
    · refine Or.inr ⟨place, move, sc, rfl, hsc, hmove, henabled, hdismissed, ?_, ?_⟩
      · rw [hgrow sc.owner, if_pos rfl]
        simp [GameWrite.picks, GameWrite.pick?]
      · intro q hq
        rw [hgrow q, if_neg hq, List.append_nil]

end Session

end RockPaperScissors
