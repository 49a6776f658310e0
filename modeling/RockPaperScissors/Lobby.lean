import RockPaperScissors.GameRequests
import RockPaperScissors.Writes

/-!
# The Lobby: Requests, Loading Views and Games

The state machine of the collections `gameRequests` and `games` and of any number of
clients, one for each user id. Its events are the steps of inviting a user
(`requestGameWith`), those of accepting a request (`showInAppNotification`,
`acceptRequest`), what happens on the loading views, and the events of the games, each of
which is a session.

Invitations and accepts are sequences of asynchronous calls; a record of each is kept
with the place it has reached, and the steps of all of them interleave freely. A read is
answered by what is stored at that moment with the client's own waiting writes laid over
it, and its completion runs when it is answered. Any number of accepts of one request can
be under way, since the notification stays on the screen after a tap. Push notifications
come from outside of the program; one of a request reaches the invited user.

Each client has its `DataStore` and one home screen, with its table and its `loadingView`. A
client that has registered twice has pushed two home screens, and both observe
`AcceptGameRequestNotification`: a tap on Accept then runs `acceptRequest` once in each. Every
such run is an accept of its own here, so `tapAccept` happens once for a tap and a home screen
that observes it.

`createGame`'s write may be rejected by the backend. A rejected game is left as it was,
and nothing happens in it again. Writes of requests are not rejected.

The documents of the query in `setGameListener` come in the order of their ids, which the
backend draws; here any game that matches may come first.

## Main results

* `Lobby.step_of_step_eq`: `Lobby.Step` lists what an event does to the requests, the
  accepts, the games and the loading views.
-/

namespace RockPaperScissors

/-! ### Loading views -/

/-- `WaitingGameSeconds`. -/
def waitingGameSeconds : ℕ := 20

/-- A loading view, with its timers and its listener. -/
structure LoadingView where
  gameRequest : GameRequest
  elapsedSeconds : ℕ
  /-- `closeTimer` has not fired and has not been invalidated. -/
  closeTimer : Bool
  /-- `cancelGameTimer` has not been invalidated. -/
  cancelGameTimer : Bool
  btnCloseHidden : Bool
  /-- The view is in its superview. -/
  shown : Bool
  /-- The listener of `setGameListener` has not been removed. -/
  listening : Bool
  /-- The places of the games in its listener's undelivered snapshots. -/
  found : List ℕ

namespace LoadingView

/-- The view after `init` and `willMove(toSuperview:)`. -/
def new (request : GameRequest) : LoadingView where
  gameRequest := request
  elapsedSeconds := 0
  closeTimer := true
  cancelGameTimer := true
  btnCloseHidden := true
  shown := true
  listening := true
  found := []

/-- The user whose client shows the view: `me`, who sent the request. -/
def me (view : LoadingView) : String := view.gameRequest.fromId

/-- Both timers are invalidated. -/
def removeTimers (view : LoadingView) : LoadingView :=
  { view with closeTimer := false, cancelGameTimer := false }

/-- The view is not shown any more. Its timers and its listener go on. -/
def removeFromSuperview (view : LoadingView) : LoadingView :=
  { view with shown := false }

/-- `closeTimer` has fired: the close button comes up. -/
def enableCancelGame (view : LoadingView) : LoadingView :=
  { view with btnCloseHidden := false, closeTimer := false }

/-- The end of the view's listener, whose undelivered snapshots are dropped. -/
def removeListener (view : LoadingView) : LoadingView :=
  { view with listening := false, found := [] }

/-- What `onClose` does to the view; it also deletes the request. -/
def onClose (view : LoadingView) : LoadingView :=
  { view with cancelGameTimer := false }.removeFromSuperview

/-- The view has become `view'`, which is not shown again, heard again or told of another
game. -/
structure Keeps (view view' : LoadingView) : Prop where
  gameRequest : view'.gameRequest = view.gameRequest
  shown : view'.shown = true → view.shown = true
  listening : view'.listening = true → view.listening = true
  found : ∀ place ∈ view'.found, place ∈ view.found

/-- A view keeps itself. -/
theorem Keeps.refl (view : LoadingView) : view.Keeps view :=
  ⟨rfl, id, id, fun _ h => h⟩

/-- What is kept in two steps has been kept. -/
theorem Keeps.trans {view view' view'' : LoadingView} (h : view.Keeps view')
    (h' : view'.Keeps view'') : view.Keeps view'' where
  gameRequest := h'.gameRequest.trans h.gameRequest
  shown := h.shown ∘ h'.shown
  listening := h.listening ∘ h'.listening
  found := fun place hplace => h.found place (h'.found place hplace)

/-- Without its listener a view is told of no game. -/
theorem keeps_removeListener (view : LoadingView) : view.Keeps view.removeListener :=
  ⟨rfl, id, fun h => absurd h Bool.false_ne_true, fun _ h => absurd h List.not_mem_nil⟩

/-- Out of its superview a view is not shown. -/
theorem keeps_removeFromSuperview (view : LoadingView) :
    view.Keeps view.removeFromSuperview :=
  ⟨rfl, fun h => absurd h Bool.false_ne_true, id, fun _ h => h⟩

/-- `onClose` keeps the view; its listener goes on. -/
theorem keeps_onClose (view : LoadingView) : view.Keeps view.onClose :=
  ⟨rfl, fun h => absurd h Bool.false_ne_true, id, fun _ h => h⟩

/-- A tick changes the time of a view only. -/
theorem keeps_tick {view : LoadingView} {elapsedSeconds : ℕ} :
    view.Keeps { view with elapsedSeconds } :=
  ⟨rfl, id, id, fun _ h => h⟩

end LoadingView

/-! ### Invitations and accepts -/

/-- The users of `requestGameWith`, with the ids its guard binds. The table does not show
the local user. -/
structure Invitation where
  localUser : User
  opponent : User
  localUserId : String
  userId : String
  localUser_id : localUser.id = some localUserId
  opponent_id : opponent.id = some userId
  userId_ne : localUserId ≠ userId

/-- How far `requestGameWith` has got. -/
inductive InviteStage
  /-- `checkForExtistingGameRequest` is not answered. -/
  | checkingRequest
  /-- `checkForOngoingGameWith` is not answered. -/
  | checkingGame
  /-- The write of `startGameRequest` is not acknowledged. -/
  | starting (request : GameRequest)
  | ended
  deriving DecidableEq

/-- The request an invitation has started. -/
def InviteStage.starting? : InviteStage → Option GameRequest
  | checkingRequest => none
  | checkingGame => none
  | starting request => some request
  | ended => none

/-- A run of `requestGameWith`. -/
structure Invite extends Invitation where
  stage : InviteStage

/-- How far `acceptRequest` has got. -/
inductive AcceptStage
  /-- `getGameRequestWith` is not answered. -/
  | lookingUp
  /-- `getUserWith` is not answered. -/
  | fetchingUser (request : GameRequest)
  /-- The write of `createGame`, of the game at the place, is not acknowledged. -/
  | creating (request : GameRequest) (place : ℕ)
  /-- The completion of `createGame` has run. -/
  | completed (request : GameRequest) (place : ℕ)
  | stopped
  deriving DecidableEq

namespace AcceptStage

/-- The request an accept has found. -/
def request? : AcceptStage → Option GameRequest
  | lookingUp => none
  | fetchingUser request => some request
  | creating request _ => some request
  | completed request _ => some request
  | stopped => none

/-- The request of an accept that waits for the user. -/
def fetching? : AcceptStage → Option GameRequest
  | lookingUp => none
  | fetchingUser request => some request
  | creating _ _ => none
  | completed _ _ => none
  | stopped => none

/-- The place of the game an accept has created. -/
def place? : AcceptStage → Option ℕ
  | lookingUp => none
  | fetchingUser _ => none
  | creating _ place => some place
  | completed _ place => some place
  | stopped => none

end AcceptStage

/-- A run of `acceptRequest`, begun by a tap on the Accept button of a notification. -/
structure Accept where
  requestId : String
  /-- The user whose client shows the notification. -/
  localUserId : String
  stage : AcceptStage

/-! ### Games -/

/-- The ids of the two users. -/
def Pairing.userIds (P : Pairing) : List String :=
  [P.userId .acceptor, P.userId .requester]

/-- A game created by an accept. -/
structure LobbyGame where
  pairing : Pairing
  session : Session
  /-- The request of the accept. -/
  gameRequest : GameRequest
  /-- The request was stored when `createGame` issued the game. -/
  requestStored : Bool
  /-- The backend has rejected the write of `createGame`. -/
  rejected : Bool

namespace LobbyGame

/-- The player a user is in the game. -/
def playerOf (g : LobbyGame) (userId : String) : Option Player :=
  if userId = g.pairing.userId .acceptor then some .acceptor
  else if userId = g.pairing.userId .requester then some .requester
  else none

/-- The player found for a user has the user's id. -/
theorem userId_of_playerOf {g : LobbyGame} {userId : String} {p : Player}
    (h : g.playerOf userId = some p) : g.pairing.userId p = userId := by
  unfold playerOf at h
  split at h
  · next heq =>
      obtain rfl := Option.some.inj h
      exact heq.symm
  · split at h
    · next heq =>
        obtain rfl := Option.some.inj h
        exact heq.symm
    · exact absurd h (by simp)

/-- The document as a query of the user reads it. -/
def seenBy (g : LobbyGame) (userId : String) : Option Game :=
  if g.rejected then none
  else
    match g.playerOf userId with
    | none => g.session.stored
    | some p => g.session.view p g.session.store.log.length

end LobbyGame

/-- The input calls `removeGameListener`: in the last branch of `checkForWinner`, in the
walkover branch of `updateGame` and in the closure of `setWinner`. -/
def Screen.removesGameListener (sc : Screen) (localUserId : String) : Input → Bool
  | .deliver => sc.inbox.head?.any fun game =>
      (game.verdict localUserId).finishes ∨ game.state = .finished ∧ game.winner.isNone
  | .fire place finished =>
      match sc.controller.delayed[place]? with
      | some (.animateMoves game) => finished ∧ (game.verdict localUserId).finishes
      | some (.setWinner _) => true
      | _ => false
  | .pick _ => false
  | .exit => false
  | .home => false

/-- The player whose client calls `removeGameListener` at the event. -/
def Session.removesGameListener (P : Pairing) (s : Session) : Event → Option Player
  | .input place i =>
      (s.screens[place]?.filter fun sc =>
        sc.removesGameListener (P.userId sc.owner) i).map Screen.owner
  | _ => none

/-- The events that happen in a game and not in the lobby. -/
def Event.inGame : Event → Bool
  | .commit _ => true
  | .snapshot _ _ => true
  | .input _ _ => true
  | .completeCreate => false
  | .find _ _ => false
  | .gameAccepted _ => false

/-! ### The lobby -/

/-- The requests, the games, and what is under way on the clients. -/
structure Lobby where
  /-- The writes of the collection `gameRequests`. -/
  requests : WriteLog String RequestWrite
  /-- The requests `startGameRequest` has issued. -/
  started : List GameRequest
  invites : List Invite
  accepts : List Accept
  views : List LoadingView
  games : List LobbyGame
  /-- `HomeViewController.loadingView` of each client: the place of the view. -/
  loadingView : String → Option ℕ
  /-- `DataStore.gameListener` of each client: the place of the view it belongs to. -/
  gameListener : String → Option ℕ

/-- What can happen in the lobby. -/
inductive LobbyEvent
  /-- A tap on a user of the table: `requestGameWith`. -/
  | invite (invitation : Invitation)
  /-- `checkForExtistingGameRequest` is answered, possibly with an error. -/
  | requestChecked (i : ℕ) (error : Bool)
  /-- `checkForOngoingGameWith` is answered; the request gets the id at the time. -/
  | gameChecked (i : ℕ) (error : Bool) (documentID : String) (now : TimeInterval)
  /-- The completion of `startGameRequest` runs, after its write was committed. -/
  | requestStarted (i : ℕ)
  /-- The backend commits the oldest write of the client to `gameRequests`. -/
  | commitRequest (userId : String)
  /-- A tap on the notification of a started request, which reaches a home screen of the
  client: `acceptRequest`. -/
  | tapAccept (k : ℕ)
  /-- `getGameRequestWith` is answered, possibly with an error. -/
  | lookedUp (j : ℕ) (error : Bool)
  /-- `getUserWith` is answered with an error, or with the user that makes the pairing
  with the local user; the game gets the pairing's id. -/
  | userFetched (j : ℕ) (answer : Option Pairing)
  /-- The backend rejects the write of `createGame`. -/
  | rejectGame (place : ℕ)
  /-- The completion of `createGame` runs. -/
  | gameCreated (j : ℕ)
  /-- `closeTimer` fires. -/
  | enableCancelGame (v : ℕ)
  | timerTick (v : ℕ)
  /-- A tap on the close button. -/
  | close (v : ℕ)
  /-- The listener of a loading view computes a snapshot in which the game at the place
  comes first, at a version of it. -/
  | find (v : ℕ) (place : ℕ) (version : ℕ)
  /-- The listener of a loading view delivers: `gameAccepted` is invoked. -/
  | gameAccepted (v : ℕ)
  /-- Something happens in a game. -/
  | game (place : ℕ) (e : Event)

namespace Lobby

/-- There are no requests and no games. -/
def init : Lobby where
  requests := WriteLog.empty
  started := []
  invites := []
  accepts := []
  views := []
  games := []
  loadingView := fun _ => none
  gameListener := fun _ => none

variable (s : Lobby)

/-- The stored requests. -/
def storedRequests : List GameRequest :=
  s.requests.current RequestWrite.apply []

/-- The requests as a query of the user reads them. -/
def requestsSeenBy (userId : String) : List GameRequest :=
  s.requests.view RequestWrite.apply [] userId s.requests.log.length

/-- The games as a query of the user reads them. -/
def gamesSeenBy (userId : String) : List Game :=
  s.games.filterMap fun g => g.seenBy userId

/-- `removeGameListener` on the client of the user. -/
def removeGameListener (userId : String) : Lobby :=
  { s with
    views :=
      match s.gameListener userId with
      | none => s.views
      | some v => s.views.modify v LoadingView.removeListener
    gameListener := Function.update s.gameListener userId none }

/-- `setupLoadingView`. The slot of the game listener is overwritten. -/
def setupLoadingView (request : GameRequest) : Lobby :=
  { s with
    views :=
      (match s.loadingView request.fromId with
      | none => s.views
      | some v => s.views.modify v LoadingView.removeFromSuperview) ++
        [LoadingView.new request]
    loadingView := Function.update s.loadingView request.fromId (some s.views.length)
    gameListener := Function.update s.gameListener request.fromId (some s.views.length) }

/-- `deleteGameRequest` on the client of the user. -/
def deleteGameRequest (userId : String) (request : GameRequest) : Lobby :=
  { s with requests := s.requests.issue userId [.delete request.id] }

/-- `onClose` of the view at the place. -/
def onClose (v : ℕ) (view : LoadingView) : Lobby :=
  { s with views := s.views.set v view.onClose }.deleteGameRequest view.me view.gameRequest

/-- An event of the session of a game. -/
def drive (place : ℕ) (e : Event) : Option Lobby :=
  s.games[place]?.bind fun g =>
    if g.rejected then none
    else (g.session.step g.pairing e).map fun session =>
      { s with games := s.games.set place { g with session } }

/-- The lobby after an event; `none` when the event cannot happen. -/
def step (s : Lobby) : LobbyEvent → Option Lobby
  | .invite invitation =>
      some { s with invites := s.invites ++ [⟨invitation, .checkingRequest⟩] }
  | .requestChecked i error =>
      s.invites[i]?.bind fun invite =>
        if invite.stage = .checkingRequest then
          let stage :=
            if error ∨ checkForExtistingGameRequest (s.requestsSeenBy invite.localUserId)
              invite.userId invite.localUserId ∨ invite.opponent.username.isNone then .ended
            else .checkingGame
          some { s with invites := s.invites.set i { invite with stage } }
        else none
  | .gameChecked i error documentID now =>
      s.invites[i]?.bind fun invite =>
        if invite.stage = .checkingGame then
          if error ∨ checkForOngoingGameWith (s.gamesSeenBy invite.localUserId)
            invite.userId then
            some { s with invites := s.invites.set i { invite with stage := .ended } }
          else if ∃ r ∈ s.started, r.id = documentID then none
          else
            (createGameRequest invite.localUser invite.userId documentID now).map
              fun request =>
                { s with
                  requests := s.requests.issue invite.localUserId [.start request]
                  started := s.started ++ [request]
                  invites := s.invites.set i { invite with stage := .starting request } }
        else none
  | .requestStarted i =>
      s.invites[i]?.bind fun invite =>
        match invite.stage with
        | .starting request =>
            if (invite.localUserId, .start request) ∈ s.requests.log then
              some ({ s with
                invites := s.invites.set i { invite with stage := .ended }
                }.setupLoadingView request)
            else none
        | _ => none
  | .commitRequest userId =>
      (s.requests.commit userId).map fun requests => { s with requests }
  | .tapAccept k =>
      s.started[k]?.map fun request =>
        { s with accepts := s.accepts ++ [⟨request.id, request.toId, .lookingUp⟩] }
  | .lookedUp j error =>
      s.accepts[j]?.bind fun accept =>
        if accept.stage = .lookingUp then
          let stage :=
            if error then .stopped
            else
              match getGameRequestWith (s.requestsSeenBy accept.localUserId)
                accept.requestId with
              | none => .stopped
              | some request => .fetchingUser request
          some { s with accepts := s.accepts.set j { accept with stage } }
        else none
  | .userFetched j answer =>
      s.accepts[j]?.bind fun accept =>
        match accept.stage, answer with
        | .fetchingUser _, none =>
            some { s with accepts := s.accepts.set j { accept with stage := .stopped } }
        | .fetchingUser request, some pairing =>
            if pairing.userId .acceptor = accept.localUserId ∧
              pairing.userId .requester = request.fromId ∧
              ∀ g ∈ s.games, g.pairing.gameId ≠ pairing.gameId then
              let stored := (getGameRequestWith s.storedRequests request.id).isSome
              some { s with
                accepts := s.accepts.set j
                  { accept with stage := .creating request s.games.length }
                games := s.games ++
                  [⟨pairing, Session.init pairing, request, stored, false⟩] }
            else none
        | _, _ => none
  | .rejectGame place =>
      s.games[place]?.bind fun g =>
        if g.session.store.log = [] ∧ ¬ g.rejected then
          some { s with games := s.games.set place { g with rejected := true } }
        else none
  | .gameCreated j =>
      s.accepts[j]?.bind fun accept =>
        match accept.stage with
        | .creating request place =>
            s.games[place]?.bind fun g =>
              let s := { s with
                accepts := s.accepts.set j
                  { accept with stage := .completed request place }
                }.deleteGameRequest accept.localUserId request
              if g.rejected then some s
              else (s.removeGameListener accept.localUserId).drive place .completeCreate
        | _ => none
  | .enableCancelGame v =>
      s.views[v]?.bind fun view =>
        if view.closeTimer then
          some { s with views := s.views.set v view.enableCancelGame }
        else none
  | .timerTick v =>
      s.views[v]?.bind fun view =>
        if view.cancelGameTimer then
          let view := { view with elapsedSeconds := view.elapsedSeconds + 1 }
          if view.elapsedSeconds = waitingGameSeconds then some (s.onClose v view)
          else some { s with views := s.views.set v view }
        else none
  | .close v =>
      s.views[v]?.bind fun view =>
        if view.shown ∧ ¬ view.btnCloseHidden then some (s.onClose v view) else none
  | .find v place version =>
      s.views[v]?.bind fun view =>
        s.games[place]?.bind fun g =>
          (g.playerOf view.me).bind fun p =>
            if view.listening then
              { s with
                views := s.views.set v { view with found := view.found ++ [place] }
                }.drive place (.find p version)
            else none
  | .gameAccepted v =>
      s.views[v]?.bind fun view =>
        match view.found with
        | [] => none
        | place :: rest =>
            s.games[place]?.bind fun g =>
              (g.playerOf view.me).bind fun p =>
                let view := { view with found := rest }.removeTimers.removeFromSuperview
                ({ s with views := s.views.set v view }.removeGameListener view.me).drive
                  place (.gameAccepted p)
  | .game place e =>
      if e.inGame then
        s.games[place]?.bind fun g =>
          match g.session.removesGameListener g.pairing e with
          | none => s.drive place e
          | some p => (s.removeGameListener (g.pairing.userId p)).drive place e
      else none

/-- The event of a session an event of the lobby is, with the place of the game. -/
def driven (s : Lobby) : LobbyEvent → Option (ℕ × Event)
  | .gameCreated j =>
      s.accepts[j]?.bind fun accept =>
        match accept.stage with
        | .creating _ place => some (place, .completeCreate)
        | _ => none
  | .find v place version =>
      s.views[v]?.bind fun view =>
        s.games[place]?.bind fun g =>
          (g.playerOf view.me).map fun p => (place, .find p version)
  | .gameAccepted v =>
      s.views[v]?.bind fun view =>
        view.found.head?.bind fun place =>
          s.games[place]?.bind fun g =>
            (g.playerOf view.me).map fun p => (place, .gameAccepted p)
  | .game place e => some (place, e)
  | _ => none

/-! ### What an event can do -/

/-- Every view was there, and has been kept. -/
def Kept (views views' : List LoadingView) : Prop :=
  ∀ view' ∈ views', ∃ view ∈ views, view.Keeps view'

/-- The game at a place takes a step. -/
def Drives (games : List LobbyGame) (place : ℕ) (e : Event) (games' : List LobbyGame) :
    Prop :=
  ∃ g session, games[place]? = some g ∧ g.rejected = false ∧
    g.session.step g.pairing e = some session ∧
    games' = games.set place { g with session }

/-- What an event can do to the requests, the accepts, the games and the views. -/
inductive Step (s : Lobby) : LobbyEvent → Lobby → Prop
  /-- Invitations and timers go on, and calls to do nothing. -/
  | quiet {e : LobbyEvent} {invites : List Invite} {views : List LoadingView} :
      Kept s.views views → Step s e { s with invites, views }
  /-- `startGameRequest`. -/
  | started {e : LobbyEvent} {request : GameRequest} {invites : List Invite} :
      (∀ r ∈ s.started, r.id ≠ request.id) →
      request.fromId ≠ request.toId →
      Step s e { s with
        requests := s.requests.issue request.fromId [.start request]
        started := s.started ++ [request]
        invites }
  /-- `setupLoadingView`. -/
  | shown {i : ℕ} {request : GameRequest} {invites : List Invite}
      {views : List LoadingView} {loadingView gameListener : String → Option ℕ} :
      (s.invites[i]?.bind fun invite => invite.stage.starting?) = some request →
      (∀ view' ∈ views, (∃ view ∈ s.views, view.Keeps view') ∨ view' = .new request) →
      Step s (.requestStarted i) { s with invites, views, loadingView, gameListener }
  | committed {userId : String} {requests : WriteLog String RequestWrite} :
      s.requests.commit userId = some requests →
      Step s (.commitRequest userId) { s with requests }
  | tapped {k : ℕ} {request : GameRequest} : request ∈ s.started →
      Step s (.tapAccept k)
        { s with accepts := s.accepts ++ [⟨request.id, request.toId, .lookingUp⟩] }
  /-- An accept stops: an error, or no request. -/
  | stopped {e : LobbyEvent} {j : ℕ} {accept : Accept} :
      s.accepts[j]? = some accept → accept.stage.place? = none →
      Step s e { s with accepts := s.accepts.set j { accept with stage := .stopped } }
  | lookedUp {j : ℕ} {accept : Accept} {request : GameRequest} :
      s.accepts[j]? = some accept → accept.stage = .lookingUp →
      getGameRequestWith (s.requestsSeenBy accept.localUserId) accept.requestId =
        some request →
      Step s (.lookedUp j false) { s with
        accepts := s.accepts.set j { accept with stage := .fetchingUser request } }
  /-- `createGame`. -/
  | created {j : ℕ} {accept : Accept} {request : GameRequest} {pairing : Pairing} :
      s.accepts[j]? = some accept → accept.stage = .fetchingUser request →
      pairing.userId .acceptor = accept.localUserId →
      pairing.userId .requester = request.fromId →
      Step s (.userFetched j (some pairing)) { s with
        accepts := s.accepts.set j
          { accept with stage := .creating request s.games.length }
        games := s.games ++ [⟨pairing, Session.init pairing, request,
          (getGameRequestWith s.storedRequests request.id).isSome, false⟩] }
  | rejected {place : ℕ} {g : LobbyGame} : s.games[place]? = some g →
      g.session.store.log = [] →
      Step s (.rejectGame place)
        { s with games := s.games.set place { g with rejected := true } }
  /-- The completion of `createGame` with an error. -/
  | failed {j place : ℕ} {accept : Accept} {request : GameRequest} {g : LobbyGame} :
      s.accepts[j]? = some accept → accept.stage = .creating request place →
      s.games[place]? = some g → g.rejected = true →
      Step s (.gameCreated j) { s with
        requests := s.requests.issue accept.localUserId [.delete request.id]
        accepts := s.accepts.set j { accept with stage := .completed request place } }
  /-- The completion of `createGame` with the game. -/
  | completed {j place : ℕ} {accept : Accept} {request : GameRequest}
      {games : List LobbyGame} {views : List LoadingView}
      {gameListener : String → Option ℕ} :
      s.accepts[j]? = some accept → accept.stage = .creating request place →
      Drives s.games place .completeCreate games → Kept s.views views →
      Step s (.gameCreated j) { s with
        requests := s.requests.issue accept.localUserId [.delete request.id]
        accepts := s.accepts.set j { accept with stage := .completed request place }
        games, views, gameListener }
  /-- `onClose`. -/
  | closed {e : LobbyEvent} {view : LoadingView} {views : List LoadingView} :
      view ∈ s.views → Kept s.views views →
      Step s e { s with
        requests := s.requests.issue view.me [.delete view.gameRequest.id]
        views }
  | found {v place version : ℕ} {view : LoadingView} {g : LobbyGame} {p : Player}
      {games : List LobbyGame} :
      s.views[v]? = some view → view.listening = true → s.games[place]? = some g →
      g.playerOf view.me = some p → Drives s.games place (.find p version) games →
      Step s (.find v place version) { s with
        views := s.views.set v { view with found := view.found ++ [place] }
        games }
  /-- `enterGame` from a loading view. -/
  | entered {v place : ℕ} {view : LoadingView} {g : LobbyGame} {p : Player}
      {games : List LobbyGame} {views : List LoadingView}
      {gameListener : String → Option ℕ} :
      s.views[v]? = some view → view.found.head? = some place →
      s.games[place]? = some g → g.playerOf view.me = some p →
      Drives s.games place (.gameAccepted p) games → Kept s.views views →
      Step s (.gameAccepted v) { s with games, views, gameListener }
  | played {place : ℕ} {e : Event} {games : List LobbyGame} {views : List LoadingView}
      {gameListener : String → Option ℕ} :
      e.inGame = true → Drives s.games place e games → Kept s.views views →
      Step s (.game place e) { s with games, views, gameListener }

variable {s} {s' : Lobby}

/-- Views are kept where nothing happens to them. -/
theorem Kept.refl (views : List LoadingView) : Kept views views :=
  fun view hview => ⟨view, hview, LoadingView.Keeps.refl view⟩

/-- Views that are kept twice have been kept. -/
theorem Kept.trans {views views' views'' : List LoadingView} (h : Kept views views')
    (h' : Kept views' views'') : Kept views views'' := by
  intro view'' hview''
  obtain ⟨view', hview', hkeeps'⟩ := h' view'' hview''
  obtain ⟨view, hview, hkeeps⟩ := h view' hview'
  exact ⟨view, hview, hkeeps.trans hkeeps'⟩

/-- One view changes, and is kept. -/
theorem Kept.set {views : List LoadingView} {v : ℕ} {view view' : LoadingView}
    (hview : views[v]? = some view) (hkeeps : view.Keeps view') :
    Kept views (views.set v view') := by
  intro b hb
  rcases List.mem_or_eq_of_mem_set hb with hold | rfl
  · exact Kept.refl views b hold
  · exact ⟨view, List.mem_of_getElem? hview, hkeeps⟩

/-- One view is kept, at whatever place it is. -/
theorem Kept.modify {views : List LoadingView} {f : LoadingView → LoadingView} (v : ℕ)
    (hf : ∀ view : LoadingView, view.Keeps (f view)) : Kept views (views.modify v f) := by
  intro view' hview'
  obtain ⟨w, hw⟩ := List.mem_iff_getElem?.mp hview'
  rw [List.getElem?_modify] at hw
  obtain ⟨view, hview, rfl⟩ := Option.map_eq_some_iff.mp hw
  refine ⟨view, List.mem_of_getElem? hview, ?_⟩
  split
  · exact hf view
  · exact LoadingView.Keeps.refl view

/-- `removeGameListener` takes the listener of one view at most. -/
theorem kept_removeGameListener (s : Lobby) (userId : String) :
    Kept s.views (s.removeGameListener userId).views := by
  unfold removeGameListener
  split
  · exact Kept.refl s.views
  · exact Kept.modify _ LoadingView.keeps_removeListener

/-- An event of a session happens in a game that the backend has not rejected. -/
theorem drive_eq_some {place : ℕ} {e : Event} (h : s.drive place e = some s') :
    ∃ games, Drives s.games place e games ∧ s' = { s with games } := by
  obtain ⟨g, hg, h⟩ := Option.bind_eq_some_iff.mp h
  split at h
  · exact absurd h (by simp)
  · next hrejected =>
      obtain ⟨session, hsession, rfl⟩ := Option.map_eq_some_iff.mp h
      exact ⟨_, ⟨g, session, hg, by simpa using hrejected, hsession, rfl⟩, rfl⟩

/-- `requestGameWith` goes on to `checkForOngoingGame`, or ends. -/
theorem step_of_requestChecked {i : ℕ} {error : Bool}
    (h : s.step (.requestChecked i error) = some s') :
    Step s (.requestChecked i error) s' := by
  obtain ⟨invite, -, h⟩ := Option.bind_eq_some_iff.mp h
  split at h
  · obtain rfl := Option.some.inj h
    exact Step.quiet (Kept.refl s.views)
  · exact absurd h (by simp)

/-- `setGameRequestTo` starts a request with a new id, from one user to another. -/
theorem step_of_gameChecked {i : ℕ} {error : Bool} {documentID : String}
    {now : TimeInterval} (h : s.step (.gameChecked i error documentID now) = some s') :
    Step s (.gameChecked i error documentID now) s' := by
  obtain ⟨invite, -, h⟩ := Option.bind_eq_some_iff.mp h
  split at h
  · split at h
    · obtain rfl := Option.some.inj h
      exact Step.quiet (Kept.refl s.views)
    · split at h
      · exact absurd h (by simp)
      · next hfresh =>
          obtain ⟨request, hrequest, rfl⟩ := Option.map_eq_some_iff.mp h
          obtain ⟨hfrom, hto, hid⟩ := createGameRequest_eq_some hrequest
          have hclient : invite.localUserId = request.fromId :=
            Option.some.inj (invite.localUser_id.symm.trans hfrom)
          rw [hclient]
          refine Step.started (fun r hr heq => hfresh ⟨r, hr, heq.trans hid⟩) ?_
          rw [← hclient, hto]
          exact invite.userId_ne
  · exact absurd h (by simp)

/-- The completion of `startGameRequest` shows a view of the request it wrote. -/
theorem step_of_requestStarted {i : ℕ} (h : s.step (.requestStarted i) = some s') :
    Step s (.requestStarted i) s' := by
  obtain ⟨invite, hinvite, h⟩ := Option.bind_eq_some_iff.mp h
  split at h
  · next request hstage =>
      split at h
      · obtain rfl := Option.some.inj h
        refine Step.shown (by rw [hinvite, Option.bind_some, hstage, InviteStage.starting?]) ?_
        intro view' hview'
        rcases List.mem_append.mp hview' with hold | hnew
        · left
          split at hold
          · exact Kept.refl s.views view' hold
          · exact Kept.modify _ LoadingView.keeps_removeFromSuperview view' hold
        · exact Or.inr (List.mem_singleton.mp hnew)
      · exact absurd h (by simp)
  · exact absurd h (by simp)

/-- `acceptRequest` stops, or has found a request of its id. -/
theorem step_of_lookedUp {j : ℕ} {error : Bool} (h : s.step (.lookedUp j error) = some s') :
    Step s (.lookedUp j error) s' := by
  obtain ⟨accept, haccept, h⟩ := Option.bind_eq_some_iff.mp h
  split at h
  · next hstage =>
      obtain rfl := Option.some.inj h
      have hplace : accept.stage.place? = none := by rw [hstage, AcceptStage.place?]
      cases error with
      | true => exact Step.stopped haccept hplace
      | false =>
          cases hfound : getGameRequestWith (s.requestsSeenBy accept.localUserId)
            accept.requestId with
          | none => exact Step.stopped haccept hplace
          | some request => exact Step.lookedUp haccept hstage hfound
  · exact absurd h (by simp)

/-- `acceptRequest` stops, or creates a game of the two users of its request. -/
theorem step_of_userFetched {j : ℕ} {answer : Option Pairing}
    (h : s.step (.userFetched j answer) = some s') : Step s (.userFetched j answer) s' := by
  obtain ⟨accept, haccept, h⟩ := Option.bind_eq_some_iff.mp h
  split at h
  · next hstage _ =>
      obtain rfl := Option.some.inj h
      exact Step.stopped haccept (by rw [hstage, AcceptStage.place?])
  · next request pairing hstage _ =>
      split at h
      · next hpairing =>
          obtain rfl := Option.some.inj h
          exact Step.created haccept hstage hpairing.1 hpairing.2.1
      · exact absurd h (by simp)
  · exact absurd h (by simp)

/-- The completion of `createGame` deletes the request, whether or not there is a game. -/
theorem step_of_gameCreated {j : ℕ} (h : s.step (.gameCreated j) = some s') :
    Step s (.gameCreated j) s' := by
  obtain ⟨accept, haccept, h⟩ := Option.bind_eq_some_iff.mp h
  split at h
  · next request place hstage =>
      obtain ⟨g, hg, h⟩ := Option.bind_eq_some_iff.mp h
      split at h
      · next hrejected =>
          obtain rfl := Option.some.inj h
          exact Step.failed haccept hstage hg hrejected
      · obtain ⟨games, hdrives, rfl⟩ := drive_eq_some h
        exact Step.completed haccept hstage hdrives (kept_removeGameListener _ _)
  · exact absurd h (by simp)

/-- What happens on a loading view that is not told of a game. -/
theorem step_of_timers {v : ℕ} {e : LobbyEvent}
    (he : e = .enableCancelGame v ∨ e = .timerTick v ∨ e = .close v)
    (h : s.step e = some s') : Step s e s' := by
  rcases he with rfl | rfl | rfl <;>
    obtain ⟨view, hview, h⟩ := Option.bind_eq_some_iff.mp h <;> split at h
  · obtain rfl := Option.some.inj h
    exact Step.quiet (Kept.set hview ⟨rfl, id, id, fun _ h => h⟩)
  · exact absurd h (by simp)
  · simp only at h
    split at h
    · obtain rfl := Option.some.inj h
      exact @Step.closed s _ view _ (List.mem_of_getElem? hview)
        (Kept.set hview (LoadingView.keeps_tick.trans (LoadingView.keeps_onClose _)))
    · obtain rfl := Option.some.inj h
      exact Step.quiet (Kept.set hview LoadingView.keeps_tick)
  · exact absurd h (by simp)
  · obtain rfl := Option.some.inj h
    exact Step.closed (List.mem_of_getElem? hview)
      (Kept.set hview (LoadingView.keeps_onClose view))
  · exact absurd h (by simp)

/-- A listener that goes on finds a game of its own user. -/
theorem step_of_find {v place version : ℕ} (h : s.step (.find v place version) = some s') :
    Step s (.find v place version) s' := by
  obtain ⟨view, hview, h⟩ := Option.bind_eq_some_iff.mp h
  obtain ⟨g, hg, h⟩ := Option.bind_eq_some_iff.mp h
  obtain ⟨p, hp, h⟩ := Option.bind_eq_some_iff.mp h
  split at h
  · next hlistening =>
      obtain ⟨games, hdrives, rfl⟩ := drive_eq_some h
      exact Step.found hview hlistening hg hp hdrives
  · exact absurd h (by simp)

/-- `gameAccepted` enters the first game that the view was told of. -/
theorem step_of_gameAccepted {v : ℕ} (h : s.step (.gameAccepted v) = some s') :
    Step s (.gameAccepted v) s' := by
  obtain ⟨view, hview, h⟩ := Option.bind_eq_some_iff.mp h
  split at h
  · exact absurd h (by simp)
  · next place rest hfound =>
      obtain ⟨g, hg, h⟩ := Option.bind_eq_some_iff.mp h
      obtain ⟨p, hp, h⟩ := Option.bind_eq_some_iff.mp h
      obtain ⟨games, hdrives, rfl⟩ := drive_eq_some h
      refine Step.entered hview (by rw [hfound, List.head?_cons]) hg hp hdrives ?_
      refine Kept.trans (Kept.set hview ?_) (kept_removeGameListener _ _)
      refine ⟨rfl, fun h => absurd h Bool.false_ne_true, id, fun q hq => ?_⟩
      rw [hfound]
      exact List.mem_cons_of_mem _ hq

/-- What happens in a game is a step of its session, and may remove a listener. -/
theorem step_of_game {place : ℕ} {e : Event} (h : s.step (.game place e) = some s') :
    Step s (.game place e) s' := by
  simp only [step] at h
  split at h
  · next hin =>
      obtain ⟨g, -, h⟩ := Option.bind_eq_some_iff.mp h
      split at h
      · obtain ⟨games, hdrives, rfl⟩ := drive_eq_some h
        exact Step.played hin hdrives (Kept.refl s.views)
      · obtain ⟨games, hdrives, rfl⟩ := drive_eq_some h
        exact Step.played hin hdrives (kept_removeGameListener _ _)
  · exact absurd h (by simp)

/-- **The step function takes only these steps.** -/
theorem step_of_step_eq {e : LobbyEvent} (h : s.step e = some s') : Step s e s' := by
  cases e with
  | invite invitation =>
      obtain rfl := Option.some.inj h
      exact Step.quiet (Kept.refl s.views)
  | requestChecked i error => exact step_of_requestChecked h
  | gameChecked i error documentID now => exact step_of_gameChecked h
  | requestStarted i => exact step_of_requestStarted h
  | commitRequest userId =>
      obtain ⟨requests, hrequests, rfl⟩ := Option.map_eq_some_iff.mp h
      exact Step.committed hrequests
  | tapAccept k =>
      obtain ⟨request, hrequest, rfl⟩ := Option.map_eq_some_iff.mp h
      exact Step.tapped (List.mem_of_getElem? hrequest)
  | lookedUp j error => exact step_of_lookedUp h
  | userFetched j answer => exact step_of_userFetched h
  | rejectGame place =>
      obtain ⟨g, hg, h⟩ := Option.bind_eq_some_iff.mp h
      split at h
      · next hlog =>
          obtain rfl := Option.some.inj h
          exact Step.rejected hg hlog.1
      · exact absurd h (by simp)
  | gameCreated j => exact step_of_gameCreated h
  | enableCancelGame v => exact step_of_timers (Or.inl rfl) h
  | timerTick v => exact step_of_timers (Or.inr (Or.inl rfl)) h
  | close v => exact step_of_timers (Or.inr (Or.inr rfl)) h
  | find v place version => exact step_of_find h
  | gameAccepted v => exact step_of_gameAccepted h
  | game place e => exact step_of_game h

/-! ### A sample lobby -/

/-- The user with the id, for concrete runs. -/
def sampleUser (userId : String) : User :=
  ⟨some userId, some "player", some "avatarOne", none⟩

/-- One user taps another, for concrete runs. -/
def sampleInvitation (localUserId userId : String) (h : localUserId ≠ userId) :
    Invitation where
  localUser := sampleUser localUserId
  opponent := sampleUser userId
  localUserId := localUserId
  userId := userId
  localUser_id := rfl
  opponent_id := rfl
  userId_ne := h

/-- Two users of a game, for concrete runs. -/
def samplePairing (gameId acceptorId requesterId : String) (h : acceptorId ≠ requesterId) :
    Pairing where
  gameId := gameId
  createdAt := 0
  user := fun
    | .acceptor => sampleUser acceptorId
    | .requester => sampleUser requesterId
  userId := fun
    | .acceptor => acceptorId
    | .requester => requesterId
  user_id := by
    intro p
    cases p <;> rfl
  userId_ne := h

/-- The users of the sample runs are distinct. -/
theorem uid2_ne_uid1 : "uid2" ≠ "uid1" := by decide

/-- The third user of the sample runs is not the first. -/
theorem uid3_ne_uid1 : "uid3" ≠ "uid1" := by decide

/-- The `i`-th invitation of a run, with the id its request gets. -/
def inviting (i : ℕ) (requestId : String) (invitation : Invitation) : List LobbyEvent :=
  [.invite invitation, .requestChecked i false, .gameChecked i false requestId 0,
    .commitRequest invitation.localUserId, .requestStarted i]

/-- The `j`-th accept of a run, of the `k`-th started request, whose game comes to the
place. -/
def accepting (j k place : ℕ) (pairing : Pairing) : List LobbyEvent :=
  [.tapAccept k, .lookedUp j false, .userFetched j (some pairing),
    .game place (.commit .acceptor), .gameCreated j]

end Lobby

end RockPaperScissors
