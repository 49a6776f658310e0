import RockPaperScissors.Listeners

/-!
# The Screens of a Device

The screens a device goes through, and what they make of the listeners of `DataStore`: the
start screens lead to the home screen, which presents alerts and a game screen; a game screen
presents the question whether to exit, and the results screen. A screen that is presented
over another one is refused while that one presents something else already.

`viewWillAppear` of the home screen checks whether push notifications are enabled and sets the
listener of game requests when they are not. The check completes at any time, also when a
game screen has covered the home screen meanwhile. Loading views are set up by completions of
writes, which also come at any time.

The home screen is entered once in a run. A second one, which a second registration that was
under way on the device pushes over the first, is left out: what is said here of any run is
said of the devices that enter their home screen once.

## Main results

* `ScreenFlow.live_listeners`: which of the users, the deletions of requests and the statuses of
  games are listened to after any run.
* `ScreenFlow.home_is_silent`: what is listened to while the home screen is covered.
-/

open TransitionSystem

namespace RockPaperScissors

/-- What is presented over the home screen. -/
inductive Presented
  | nothing
  /-- The alert that an opponent is in a game already. -/
  | alert
  | game
  /-- The question of `showAlertForExit`, over the game screen. -/
  | exitAlert
  /-- The results screen, over the game screen. -/
  | results
  deriving DecidableEq, Repr

/-- The screens of a device, and what it listens to. -/
structure ScreenFlow where
  listeners : Listeners
  /-- The home screen has been entered. -/
  home : Bool
  presented : Presented
  /-- The completions of `checkForEnableedPushNotifications` that have not run. -/
  checks : ℕ
  /-- The games of the game screens that have been loaded, the latest last. -/
  games : List Game

/-- What can happen on the screens of a device. -/
inductive FlowEvent
  /-- `SplashViewController` or `WelcomeViewController` has the user. -/
  | enterHome (user : User)
  /-- A picture or a token is assigned to the local user. -/
  | localUser (user : User)
  | notificationsChecked (enabled : Bool)
  | setupLoadingView
  | enterGame (game : Game) (shouldUpdateGame : Bool)
  | showAlert
  | dismissAlert
  /-- A game screen has decided that its game is over. -/
  | decide
  /-- The Close button of the game screen. -/
  | onClose
  | cancel
  | exit
  /-- The closure of `continueToResults` of a game screen. -/
  | continueToResults (place : ℕ)
  | onHome

namespace ScreenFlow

/-- The program is at one of its start screens. -/
def init : ScreenFlow where
  listeners := .init
  home := false
  presented := .nothing
  checks := 0
  games := []

variable (s : ScreenFlow)

/-- The home screen has appeared and has not disappeared. -/
def visible : Bool :=
  s.home && (s.presented = .nothing || s.presented = .alert)

/-- An operation on a listener. -/
def call (e : ListenerCall) : ScreenFlow :=
  { s with listeners := s.listeners.call e }

/-- `present(_:)` on a screen that presents nothing else. -/
def present (below above : Presented) : ScreenFlow :=
  if s.presented = below then { s with presented := above } else s

/-- `viewDidLoad` of the home screen. -/
def viewDidLoad (simulator : Bool) : ScreenFlow :=
  if simulator then s.call .setGameRequestListener else s

/-- `viewWillAppear` of the home screen. -/
def viewWillAppear : ScreenFlow :=
  { s.call .setUsersListener with checks := s.checks + 1 }

/-- `viewWillDisappear` of the home screen. -/
def viewWillDisappear : ScreenFlow :=
  (s.call .removeUsersListener).call .removeGameRequestListener

/-- The local user is assigned, and the home screen is shown. -/
def enterHome (simulator : Bool) (user : User) : ScreenFlow :=
  (({ s with home := true }.call (.localUser (some user))).viewDidLoad simulator).viewWillAppear

/-- The completion of `checkForEnableedPushNotifications`. -/
def notificationsChecked (enabled : Bool) : ScreenFlow :=
  let s := { s with checks := s.checks - 1 }
  if enabled then s else s.call .setGameRequestListener

/-- The segue to a game screen, whose `viewDidLoad` sets the listener of the game. -/
def performSegue (game : Game) : ScreenFlow :=
  if s.presented = .nothing then
    ({ s with
      presented := .game
      games := s.games ++ [game] }.call (.setGameStateListener game)).viewWillDisappear
  else s

/-- `enterGame` of the home screen: the game screen is presented with the game. -/
def enterGame (game : Game) (shouldUpdateGame : Bool) : ScreenFlow :=
  let s := s.call .removeGameListener
  if shouldUpdateGame then s.performSegue { game with state := .inprogress }
  else s.performSegue game

/-- The game screen is dismissed, with what it presents. -/
def dismiss : ScreenFlow :=
  { s with presented := .nothing }.viewWillAppear

/-- What an event does; `none` when it cannot happen. -/
def step (simulator : Bool) (s : ScreenFlow) : FlowEvent → Option ScreenFlow
  | .enterHome user => if s.home then none else some (s.enterHome simulator user)
  | .localUser user =>
      if s.home ∧ user.id = s.listeners.localUserId then some (s.call (.localUser (some user)))
      else none
  | .notificationsChecked enabled =>
      if 0 < s.checks then some (s.notificationsChecked enabled) else none
  | .setupLoadingView => if s.home then some (s.call .setGameListener) else none
  | .enterGame game shouldUpdateGame =>
      if s.home then some (s.enterGame game shouldUpdateGame) else none
  | .showAlert => if s.home then some (s.present .nothing .alert) else none
  | .dismissAlert =>
      if s.presented = .alert then some { s with presented := .nothing } else none
  | .decide => if s.games = [] then none else some (s.call .removeGameListener)
  | .onClose => if s.presented = .game then some { s with presented := .exitAlert } else none
  | .cancel => if s.presented = .exitAlert then some { s with presented := .game } else none
  | .exit => if s.presented = .exitAlert then some s.dismiss else none
  | .continueToResults place =>
      if place + 1 = s.games.length then some (s.present .game .results)
      else if place < s.games.length then some s else none
  | .onHome => if s.presented = .results then some s.dismiss else none

/-- **The steps**: what the events do to the listeners and to what is presented. -/
inductive Step (simulator : Bool) (s : ScreenFlow) : FlowEvent → ScreenFlow → Prop
  | enterHome {user : User} : s.home = false →
      Step simulator s (.enterHome user) (s.enterHome simulator user)
  | localUser {user : User} : s.home = true → user.id = s.listeners.localUserId →
      Step simulator s (.localUser user) (s.call (.localUser (some user)))
  | notificationsChecked {enabled : Bool} :
      Step simulator s (.notificationsChecked enabled) (s.notificationsChecked enabled)
  | setupLoadingView : s.home = true →
      Step simulator s .setupLoadingView (s.call .setGameListener)
  | enterGame {game : Game} {shouldUpdateGame : Bool} : s.home = true →
      Step simulator s (.enterGame game shouldUpdateGame) (s.enterGame game shouldUpdateGame)
  | decide : Step simulator s .decide (s.call .removeGameListener)
  | presents {e : FlowEvent} {above : Presented} : s.presented ≠ .nothing ∨ s.home = true →
      { s with presented := above }.visible = s.visible →
      Step simulator s e { s with presented := above }
  | stays {e : FlowEvent} : Step simulator s e s
  | dismiss {e : FlowEvent} : s.presented ≠ .nothing → Step simulator s e s.dismiss

variable {s} {s' : ScreenFlow} {simulator : Bool} {e : FlowEvent}

/-- A screen that is presented over a screen that covers the home screen, or an alert. -/
theorem step_of_present {below above : Presented}
    (hhome : below ≠ .nothing ∨ s.home = true)
    (hvisible : s.presented = below → { s with presented := above }.visible = s.visible) :
    Step simulator s e (s.present below above) := by
  unfold present
  split
  · next hbelow => exact Step.presents (hbelow ▸ hhome) (hvisible hbelow)
  · exact Step.stays

/-- The step function takes only these steps. -/
theorem step_of_step_eq (h : step simulator s e = some s') : Step simulator s e s' := by
  cases e with
  | enterHome user =>
      obtain ⟨hhome, h⟩ := Option.ite_none_left_eq_some.mp h
      exact Option.some.inj h ▸ Step.enterHome (Bool.not_eq_true _ ▸ hhome)
  | localUser user =>
      obtain ⟨⟨hhome, hid⟩, h⟩ := Option.ite_none_right_eq_some.mp h
      exact Option.some.inj h ▸ Step.localUser hhome hid
  | notificationsChecked enabled =>
      obtain ⟨-, h⟩ := Option.ite_none_right_eq_some.mp h
      exact Option.some.inj h ▸ Step.notificationsChecked
  | setupLoadingView =>
      obtain ⟨hhome, h⟩ := Option.ite_none_right_eq_some.mp h
      exact Option.some.inj h ▸ Step.setupLoadingView hhome
  | enterGame game shouldUpdateGame =>
      obtain ⟨hhome, h⟩ := Option.ite_none_right_eq_some.mp h
      exact Option.some.inj h ▸ Step.enterGame hhome
  | showAlert =>
      obtain ⟨hhome, h⟩ := Option.ite_none_right_eq_some.mp h
      exact Option.some.inj h ▸ step_of_present (Or.inr hhome) fun hnothing => by
        simp [visible, hnothing]
  | decide =>
      obtain ⟨-, h⟩ := Option.ite_none_left_eq_some.mp h
      exact Option.some.inj h ▸ Step.decide
  | dismissAlert | onClose | cancel =>
      obtain ⟨hpresented, h⟩ := Option.ite_none_right_eq_some.mp h
      exact Option.some.inj h ▸ Step.presents (Or.inl (by simp [hpresented]))
        (by simp [visible, hpresented])
  | continueToResults place =>
      simp only [step] at h
      split at h
      · exact Option.some.inj h ▸ step_of_present (Or.inl (by simp)) fun hgame => by
          simp [visible, hgame]
      · obtain ⟨-, h⟩ := Option.ite_none_right_eq_some.mp h
        exact Option.some.inj h ▸ Step.stays
  | exit | onHome =>
      obtain ⟨hpresented, h⟩ := Option.ite_none_right_eq_some.mp h
      exact Option.some.inj h ▸ Step.dismiss (by simp [hpresented])

end ScreenFlow

/-! ### What is listened to -/

namespace Listeners

/-- **What is live** when the home screen is visible or not, and the game screens have been
loaded for the games. -/
structure Listening (visible : Bool) (games : List Game) (l : Listeners) : Prop where
  wellFormed : l.registrations.WellFormed
  holdsUsers : l.registrations.Holds .usersListener
  users : (l.registrations.liveFor .usersListener).map Registration.target =
    if visible then [.users] else []
  holdsRequests : l.registrations.Holds .gameRequestListener
  requests : ∀ r ∈ l.registrations.liveFor .gameRequestListener,
    l.localUserId.map .requestsTo = some r.target
  deletions : l.registrations.liveFor .gameRequestDeletionListener = []
  statuses : (l.registrations.liveFor .gameStatusListener).map Registration.target =
    games.map fun game => .game game.id

variable {l : Listeners} {visible : Bool} {games : List Game} {e : ListenerCall}

/-- Nothing is listened to before the home screen. -/
theorem listening_init : Listening false [] Listeners.init where
  wellFormed := Registrations.wellFormed_empty
  holdsUsers := Registrations.holds_empty
  users := rfl
  holdsRequests := Registrations.holds_empty
  requests := by simp [Listeners.init, Registrations.liveFor, Registrations.empty]
  deletions := rfl
  statuses := rfl

/-- A call that assigns no local user and concerns no deletions. -/
theorem Listening.call {visible' : Bool} {games' : List Game} (h : Listening visible games l)
    (hlistener : e.listener ≠ none)
    (hdeletions : e.listener ≠ some .gameRequestDeletionListener)
    (husers : ((l.call e).registrations.liveFor .usersListener).map Registration.target =
      if visible' then [.users] else [])
    (hrequests : ∀ r ∈ (l.call e).registrations.liveFor .gameRequestListener,
      l.localUserId.map .requestsTo = some r.target)
    (hstatuses : ((l.call e).registrations.liveFor .gameStatusListener).map Registration.target =
      games'.map fun game => .game game.id) : Listening visible' games' (l.call e) where
  wellFormed := wellFormed_call h.wellFormed e
  holdsUsers := by
    refine holds_call h.wellFormed h.holdsUsers fun husers => ?_
    cases e with
    | setUsersListener | removeUsersListener => exact trivial
    | _ => exact absurd husers (by simp [ListenerCall.listener])
  users := husers
  holdsRequests := by
    refine holds_call h.wellFormed h.holdsRequests fun hrequests => ?_
    cases e with
    | setGameRequestListener | removeGameRequestListener => exact trivial
    | _ => exact absurd hrequests (by simp [ListenerCall.listener])
  requests := by
    rw [localUserId_call hlistener]
    exact hrequests
  deletions := by rw [(sameAt_call h.wellFormed hdeletions).liveFor, h.deletions]
  statuses := hstatuses

/-- A call for another listener leaves the one of the users. -/
theorem Listening.users_call (h : Listening visible games l)
    (he : e.listener ≠ some .usersListener) :
    ((l.call e).registrations.liveFor .usersListener).map Registration.target =
      if visible then [.users] else [] := by
  rw [(sameAt_call h.wellFormed he).liveFor, h.users]

/-- A call for another listener leaves those of the game requests. -/
theorem Listening.requests_call (h : Listening visible games l)
    (he : e.listener ≠ some .gameRequestListener) :
    ∀ r ∈ (l.call e).registrations.liveFor .gameRequestListener,
      l.localUserId.map .requestsTo = some r.target := by
  rw [(sameAt_call h.wellFormed he).liveFor]
  exact h.requests

/-- A call for another listener leaves those of the game statuses. -/
theorem Listening.statuses_call (h : Listening visible games l)
    (he : e.listener ≠ some .gameStatusListener) :
    ((l.call e).registrations.liveFor .gameStatusListener).map Registration.target =
      games.map fun game => .game game.id := by
  rw [(sameAt_call h.wellFormed he).liveFor, h.statuses]

/-- `setUsersListener` replaces the listener of the users, if there is one. -/
theorem Listening.setUsersListener (h : Listening visible games l) :
    Listening true games (l.call .setUsersListener) := by
  refine h.call (by simp [ListenerCall.listener]) (by simp [ListenerCall.listener]) ?_
    (h.requests_call (by simp [ListenerCall.listener]))
    (h.statuses_call (by simp [ListenerCall.listener]))
  have hnone : (l.removeReplaced .usersListener).registrations.liveFor .usersListener = [] := by
    rw [holds_removeReplaced h.holdsUsers, slot_removeReplaced]
    rfl
  rw [Listeners.call, Listeners.setUsersListener, addSnapshotListener,
    Registrations.liveFor_register_self, hnone]
  rfl

/-- `removeUsersListener` leaves no listener of the users. -/
theorem Listening.removeUsersListener (h : Listening visible games l) :
    Listening false games (l.call .removeUsersListener) := by
  refine h.call (by simp [ListenerCall.listener]) (by simp [ListenerCall.listener]) ?_
    (h.requests_call (by simp [ListenerCall.listener]))
    (h.statuses_call (by simp [ListenerCall.listener]))
  rw [Listeners.call, Listeners.removeUsersListener, removeListener,
    h.holdsUsers.liveFor_remove]
  rfl

/-- `setGameRequestListener` replaces its listener, and listens to the local user's requests. -/
theorem Listening.setGameRequestListener (h : Listening visible games l) :
    Listening visible games (l.call .setGameRequestListener) := by
  refine h.call (by simp [ListenerCall.listener]) (by simp [ListenerCall.listener])
    (h.users_call (by simp [ListenerCall.listener])) ?_
    (h.statuses_call (by simp [ListenerCall.listener]))
  have hnone : (l.removeReplaced .gameRequestListener).registrations.liveFor
      .gameRequestListener = [] := by
    rw [holds_removeReplaced h.holdsRequests, slot_removeReplaced]
    rfl
  rw [Listeners.call, Listeners.setGameRequestListener, listenAs, localUserId_removeReplaced]
  cases hid : l.localUserId with
  | none => simp [hnone]
  | some localUserId =>
      simp [addSnapshotListener, Registrations.liveFor_register_self, hnone]

/-- `removeGameRequestListener` leaves no listener of the game requests. -/
theorem Listening.removeGameRequestListener (h : Listening visible games l) :
    Listening visible games (l.call .removeGameRequestListener) := by
  refine h.call (by simp [ListenerCall.listener]) (by simp [ListenerCall.listener])
    (h.users_call (by simp [ListenerCall.listener])) ?_
    (h.statuses_call (by simp [ListenerCall.listener]))
  rw [Listeners.call, Listeners.removeGameRequestListener, removeListener,
    h.holdsRequests.liveFor_remove]
  simp

/-- Loading views and game screens do not change what is listened to here. -/
theorem Listening.gameListener (h : Listening visible games l)
    (he : e.listener = some .gameListener) : Listening visible games (l.call e) :=
  h.call (by simp [he]) (by simp [he]) (h.users_call (by simp [he]))
    (h.requests_call (by simp [he])) (h.statuses_call (by simp [he]))

/-- `setGameStateListener` adds a listener, and removes none. -/
theorem Listening.setGameStateListener (h : Listening visible games l) (game : Game) :
    Listening visible (games ++ [game]) (l.call (.setGameStateListener game)) := by
  refine h.call (by simp [ListenerCall.listener]) (by simp [ListenerCall.listener])
    (h.users_call (by simp [ListenerCall.listener]))
    (h.requests_call (by simp [ListenerCall.listener])) ?_
  rw [Listeners.call, Listeners.setGameStateListener, addSnapshotListener,
    Registrations.liveFor_register_self, List.map_append, h.statuses, List.map_append]
  rfl

/-- A user is assigned for the first time, or with the id of the local user. -/
theorem Listening.localUser {user : User} (h : Listening visible games l)
    (hid : l.localUserId = none ∨ user.id = l.localUserId) :
    Listening visible games (l.call (.localUser (some user))) := by
  refine { h with requests := fun r hr => ?_ }
  have hrequest := h.requests r hr
  rcases hid with hnone | hsame
  · exact absurd hrequest (by simp [hnone])
  · rw [← hrequest, ← hsame]
    rfl

end Listeners

namespace ScreenFlow

/-- **The invariant**. -/
structure Sound (s : ScreenFlow) : Prop where
  listening : s.listeners.Listening s.visible s.games
  signedOut : s.home = false → s.listeners.localUserId = none
  covered : s.presented ≠ .nothing → s.home = true

variable {s s' : ScreenFlow} {simulator : Bool} {e : FlowEvent} {es : List FlowEvent}
  {visible : Bool} {games : List Game}

/-- The invariant holds before the home screen. -/
theorem sound_init : init.Sound where
  listening := Listeners.listening_init
  signedOut := fun _ => rfl
  covered := fun h => absurd rfl h

/-- The home screen that appears listens to the users. -/
theorem listening_viewWillAppear (h : s.listeners.Listening visible games) :
    s.viewWillAppear.listeners.Listening true games :=
  h.setUsersListener

/-- `viewDidLoad` of the home screen listens to the requests, if at all. -/
theorem listening_viewDidLoad (h : s.listeners.Listening visible games) :
    (s.viewDidLoad simulator).listeners.Listening visible games := by
  unfold viewDidLoad
  split
  · exact h.setGameRequestListener
  · exact h

/-- The home screen that disappears stops listening to the users. -/
theorem listening_viewWillDisappear (h : s.listeners.Listening visible games) :
    s.viewWillDisappear.listeners.Listening false games :=
  h.removeUsersListener.removeGameRequestListener

/-- The home screen is visible when it has been entered. -/
theorem Sound.visible_enterHome (hs : s.Sound) (hhome : s.home = false) (user : User) :
    (s.enterHome simulator user).visible = true := by
  have hnothing : s.presented = .nothing := by
    by_contra hcovered
    exact absurd (hs.covered hcovered) (by simp [hhome])
  cases simulator <;>
    simp [ScreenFlow.visible, enterHome, viewWillAppear, viewDidLoad, call, hnothing]

/-- The home screen is entered from a start screen. -/
theorem Sound.enterHome (hs : s.Sound) (hhome : s.home = false) (user : User) :
    (s.enterHome simulator user).Sound where
  listening := by
    have hassigned : (s.listeners.call (.localUser (some user))).Listening s.visible s.games :=
      hs.listening.localUser (Or.inl (hs.signedOut hhome))
    have hgames : (s.enterHome simulator user).games = s.games := by
      cases simulator <;> rfl
    rw [hs.visible_enterHome hhome, hgames]
    exact listening_viewWillAppear (listening_viewDidLoad hassigned)
  signedOut := by cases simulator <;> simp [enterHome, viewWillAppear, viewDidLoad, call]
  covered := by cases simulator <;> simp [enterHome, viewWillAppear, viewDidLoad, call]

/-- A call that keeps what is listened to. -/
theorem Sound.call {c : ListenerCall} (hs : s.Sound)
    (h : (s.listeners.call c).Listening s.visible s.games)
    (hid : s.home = true ∨ (s.listeners.call c).localUserId = s.listeners.localUserId) :
    (s.call c).Sound where
  listening := h
  signedOut := fun hhome => by
    rcases hid with hentered | hsame
    · exact absurd hhome (by simp [ScreenFlow.call, hentered])
    · exact hsame.trans (hs.signedOut hhome)
  covered := hs.covered

/-- What is presented changes where the home screen stays visible, or stays covered. -/
theorem Sound.presents {above : Presented} (hs : s.Sound) (hhome : s.home = true)
    (hvisible : { s with presented := above }.visible = s.visible) :
    Sound { s with presented := above } where
  listening := hvisible ▸ hs.listening
  signedOut := hs.signedOut
  covered := fun _ => hhome

/-- A game screen is loaded over the home screen, or refused. -/
theorem Sound.performSegue (hs : s.Sound) (hhome : s.home = true) (game : Game) :
    (s.performSegue game).Sound := by
  unfold ScreenFlow.performSegue
  split
  · refine ⟨?_, fun hout => absurd (hhome.symm.trans hout) (by simp), fun _ => hhome⟩
    have hgame : (s.call (.setGameStateListener game)).listeners.Listening s.visible
        (s.games ++ [game]) := hs.listening.setGameStateListener game
    have hvisible : { s with
        presented := .game
        games := s.games ++ [game] }.visible = false := by
      simp [visible]
    exact hvisible ▸ listening_viewWillDisappear hgame
  · exact hs

/-- A game is entered from the home screen. -/
theorem Sound.enterGame (hs : s.Sound) (hhome : s.home = true) (game : Game)
    (shouldUpdateGame : Bool) : (s.enterGame game shouldUpdateGame).Sound := by
  have hremoved : (s.call .removeGameListener).Sound :=
    hs.call (hs.listening.gameListener rfl) (Or.inl hhome)
  unfold ScreenFlow.enterGame
  split
  · exact hremoved.performSegue hhome _
  · exact hremoved.performSegue hhome _

/-- The home screen is visible when what covered it has been dismissed. -/
theorem Sound.visible_dismiss (hs : s.Sound) (hcovered : s.presented ≠ .nothing) :
    s.dismiss.visible = true := by
  simp [ScreenFlow.visible, ScreenFlow.dismiss, viewWillAppear, ScreenFlow.call,
    hs.covered hcovered]

/-- The home screen appears again. -/
theorem Sound.dismiss (hs : s.Sound) (hcovered : s.presented ≠ .nothing) : s.dismiss.Sound := by
  have hhome := hs.covered hcovered
  refine ⟨?_, fun hout => absurd (hhome.symm.trans hout) (by simp), fun _ => hhome⟩
  rw [hs.visible_dismiss hcovered]
  exact listening_viewWillAppear (s := { s with presented := .nothing }) hs.listening

/-- A check that has completed. -/
theorem Sound.checked (hs : s.Sound) : Sound { s with checks := s.checks - 1 } :=
  ⟨hs.listening, hs.signedOut, hs.covered⟩

/-- **A step keeps the invariant.** -/
theorem Sound.step (hs : s.Sound) (h : Step simulator s e s') : s'.Sound := by
  cases h with
  | enterHome hhome => exact hs.enterHome hhome _
  | localUser hhome hid => exact hs.call (hs.listening.localUser (Or.inr hid)) (Or.inl hhome)
  | notificationsChecked =>
      unfold ScreenFlow.notificationsChecked
      split
      · exact hs.checked
      · exact hs.checked.call hs.listening.setGameRequestListener
          (Or.inr (Listeners.localUserId_call (by simp [ListenerCall.listener])))
  | setupLoadingView hhome => exact hs.call (hs.listening.gameListener rfl) (Or.inl hhome)
  | enterGame hhome => exact hs.enterGame hhome _ _
  | decide =>
      exact hs.call (hs.listening.gameListener rfl)
        (Or.inr (Listeners.localUserId_call (by simp [ListenerCall.listener])))
  | presents hhome hvisible => exact hs.presents (hhome.elim hs.covered id) hvisible
  | stays => exact hs
  | dismiss hcovered => exact hs.dismiss hcovered

/-- The invariant holds after any run. -/
theorem sound_of_run (h : Run (step simulator) init es s) : s.Sound :=
  h.invariant sound_init fun _ _ _ hs _ hstep => hs.step (step_of_step_eq hstep)

/-- **What a device listens to** that enters its home screen once. After any run exactly one
registration for the users is live while the home screen is visible, and none while it is not;
at most one for the game requests, and to the local user; none for their deletion; and one for
every game of which a screen has ever been loaded, whatever has become of the screen. -/
theorem live_listeners (h : Run (step simulator) init es s) :
    ((s.listeners.registrations.liveFor .usersListener).map Registration.target =
      if s.visible then [.users] else []) ∧
    (s.listeners.registrations.liveFor .gameRequestListener).length ≤ 1 ∧
    (∀ r ∈ s.listeners.registrations.liveFor .gameRequestListener,
      s.listeners.localUserId.map .requestsTo = some r.target) ∧
    s.listeners.registrations.liveFor .gameRequestDeletionListener = [] ∧
    (s.listeners.registrations.liveFor .gameStatusListener).map Registration.target =
      s.games.map fun game => .game game.id := by
  have hlistening := (sound_of_run h).listening
  refine ⟨hlistening.users, ?_, hlistening.requests, hlistening.deletions, hlistening.statuses⟩
  rw [hlistening.holdsRequests]
  exact Option.length_toList_le

/-- A user waits for a game, enters it, sees its result and goes home; then another is entered
from an accepted request. -/
def playing : List FlowEvent :=
  [.enterHome ⟨some "uid1", some "player", none, none⟩, .notificationsChecked false,
    .setupLoadingView, .enterGame (.new "game1" [] (fun _ => none) 0) true, .decide,
    .continueToResults 0, .onHome, .notificationsChecked false,
    .enterGame (.new "game2" [] (fun _ => none) 0) false]

/-- Both games are listened to on the screen of the second. -/
theorem live_listeners_playing : ∃ s, Run (step false) init playing s ∧
    (s.listeners.registrations.liveFor .gameStatusListener).map Registration.target =
      [.game "game1", .game "game2"] := by
  have hrun : Run (step false) init playing
      ((exec (step false) init playing).get (by decide)) := runWhere_get _
  exact ⟨_, hrun, (live_listeners hrun).2.2.2.2⟩

/-! ### A covered home screen -/

/-- **The event comes in time**: the check completes, and a loading view is set up, while the
home screen is visible, and the view does not replace the listener of another. -/
def InTime (s : ScreenFlow) : FlowEvent → Prop
  | .notificationsChecked _ => s.visible = true
  | .setupLoadingView =>
      s.visible = true ∧ s.listeners.registrations.slot .gameListener = none
  | _ => True

instance (s : ScreenFlow) (e : FlowEvent) : Decidable (s.InTime e) :=
  match e with
  | .notificationsChecked _ => inferInstanceAs (Decidable (_ = _))
  | .setupLoadingView => inferInstanceAs (Decidable (_ ∧ _))
  | .enterHome _ | .localUser _ | .enterGame _ _ | .showAlert | .dismissAlert | .decide
  | .onClose | .cancel | .exit | .continueToResults _ | .onHome =>
      inferInstanceAs (Decidable True)

/-- Neither game requests nor starting games are listened to. -/
def Deaf (l : Listeners) : Prop :=
  l.registrations.liveFor .gameRequestListener = [] ∧ l.registrations.liveFor .gameListener = []

/-- **The invariant** of events in time. -/
structure Silent (s : ScreenFlow) : Prop where
  sound : s.Sound
  holdsGames : s.listeners.registrations.Holds .gameListener
  deaf : s.visible = false → Deaf s.listeners

variable {l : Listeners} {c : ListenerCall}

/-- A call for another property leaves a device deaf. -/
theorem Deaf.call (h : Deaf l) (hwf : l.registrations.WellFormed)
    (hrequests : c.listener ≠ some .gameRequestListener)
    (hgames : c.listener ≠ some .gameListener) : Deaf (l.call c) :=
  ⟨(Listeners.sameAt_call hwf hrequests).liveFor.trans h.1,
    (Listeners.sameAt_call hwf hgames).liveFor.trans h.2⟩

/-- A device is silent before the home screen. -/
theorem silent_init : init.Silent where
  sound := sound_init
  holdsGames := Registrations.holds_empty
  deaf := fun _ => ⟨rfl, rfl⟩

/-- What is presented over the home screen, or taken away, without covering it. -/
theorem Silent.presents {above : Presented} (hs : s.Silent)
    (hs' : Sound { s with presented := above })
    (hvisible : { s with presented := above }.visible = s.visible) :
    Silent { s with presented := above } where
  sound := hs'
  holdsGames := hs.holdsGames
  deaf := fun hcovered => hs.deaf (hvisible ▸ hcovered)

/-- The removal of the listener of games. -/
theorem Silent.removeGameListener (hs : s.Silent) (hs' : (s.call .removeGameListener).Sound) :
    (s.call .removeGameListener).Silent where
  sound := hs'
  holdsGames := hs.holdsGames.remove
  deaf := fun hcovered => by
    have hsame := Listeners.sameAt_call (e := .removeGameListener) (j := .gameRequestListener)
      hs.sound.listening.wellFormed (by simp [ListenerCall.listener])
    exact ⟨hsame.liveFor.trans (hs.deaf hcovered).1, hs.holdsGames.liveFor_remove⟩

/-- The home screen is visible, and a call leaks from no property for games. -/
theorem Silent.call (hs : s.Silent) (hs' : (s.call c).Sound) (hvisible : s.visible = true)
    (hreleases : c.listener = some .gameListener → s.listeners.Releases c) :
    (s.call c).Silent where
  sound := hs'
  holdsGames := Listeners.holds_call hs.sound.listening.wellFormed hs.holdsGames hreleases
  deaf := fun hcovered => absurd (hvisible.symm.trans hcovered) (by simp)

/-- The home screen that disappears stops listening to game requests. -/
theorem liveFor_viewWillDisappear (h : s.listeners.Listening visible games) :
    s.viewWillDisappear.listeners.registrations.liveFor .gameRequestListener = [] :=
  h.removeUsersListener.holdsRequests.liveFor_remove

/-- The home screen that appears does nothing to the listener of starting games. -/
theorem sameAt_viewWillAppear (h : s.listeners.registrations.WellFormed) :
    Registrations.SameAt .gameListener s.listeners.registrations
      s.viewWillAppear.listeners.registrations :=
  Listeners.sameAt_call h (e := .setUsersListener) (by simp [ListenerCall.listener])

/-- `viewDidLoad` of the home screen does nothing to the listener of starting games. -/
theorem sameAt_viewDidLoad (h : s.listeners.registrations.WellFormed) :
    Registrations.SameAt .gameListener s.listeners.registrations
      (s.viewDidLoad simulator).listeners.registrations := by
  unfold viewDidLoad
  split
  · exact Listeners.sameAt_call h (e := .setGameRequestListener) (by simp [ListenerCall.listener])
  · exact Registrations.sameAt_refl

/-- What happens to the listener of games when the home screen is covered. -/
theorem sameAt_covered (h : s.listeners.registrations.WellFormed) (game : Game) :
    Registrations.SameAt .gameListener s.listeners.registrations
      (s.call (.setGameStateListener game)).viewWillDisappear.listeners.registrations := by
  have hset := Listeners.wellFormed_call h (.setGameStateListener game)
  have hremoved := Listeners.wellFormed_call hset .removeUsersListener
  exact ((Listeners.sameAt_call h (by simp [ListenerCall.listener])).trans
    (Listeners.sameAt_call hset (by simp [ListenerCall.listener]))).trans
      (Listeners.sameAt_call hremoved (by simp [ListenerCall.listener]))

/-- A device is still silent under a new game screen. -/
theorem Silent.performSegue (hs : s.Silent) (hhome : s.home = true)
    (hnone : s.listeners.registrations.liveFor .gameListener = []) (game : Game) :
    (s.performSegue game).Silent := by
  have hsound := hs.sound.performSegue hhome game
  unfold ScreenFlow.performSegue at hsound ⊢
  split at hsound
  · next hnothing =>
      rw [if_pos hnothing]
      have hwf := hs.sound.listening.wellFormed
      have hset : (s.call (.setGameStateListener game)).listeners.Listening s.visible
          (s.games ++ [game]) := hs.sound.listening.setGameStateListener game
      exact ⟨hsound, (sameAt_covered hwf game).holds hs.holdsGames, fun _ =>
        ⟨liveFor_viewWillDisappear hset, (sameAt_covered hwf game).liveFor.trans hnone⟩⟩
  · next hsomething =>
      rw [if_neg hsomething]
      exact hs

/-- A device is silent after a game has been entered, which removes the listener of starting
games. -/
theorem Silent.enterGame (hs : s.Silent) (hhome : s.home = true) (game : Game)
    (shouldUpdateGame : Bool) : (s.enterGame game shouldUpdateGame).Silent := by
  have hremoved : (s.call .removeGameListener).Silent := hs.removeGameListener
    (hs.sound.call (hs.sound.listening.gameListener rfl) (Or.inl hhome))
  have hnone : (s.call .removeGameListener).listeners.registrations.liveFor .gameListener = [] :=
    hs.holdsGames.liveFor_remove
  unfold ScreenFlow.enterGame
  split
  · exact hremoved.performSegue hhome hnone _
  · exact hremoved.performSegue hhome hnone _

/-- The home screen appears, which changes nothing for games. -/
theorem Silent.appears (hs : s.Silent) (hs' : s'.Sound) (hvisible : s'.visible = true)
    (h : Registrations.SameAt .gameListener s.listeners.registrations
      s'.listeners.registrations) : s'.Silent where
  sound := hs'
  holdsGames := h.holds hs.holdsGames
  deaf := fun hcovered => absurd (hvisible.symm.trans hcovered) (by simp)

/-- **A step in time keeps the invariant.** -/
theorem Silent.step (hs : s.Silent) (hC : s.InTime e) (h : Step simulator s e s') :
    s'.Silent := by
  have hsound := hs.sound.step h
  cases h with
  | @enterHome user hhome =>
      refine hs.appears hsound (hs.sound.visible_enterHome hhome user) ?_
      have hassigned : ({ s with home := true }.call (.localUser (some user))).listeners.Listening
          s.visible s.games :=
        hs.sound.listening.localUser (Or.inl (hs.sound.signedOut hhome))
      exact (sameAt_viewDidLoad hassigned.wellFormed).trans
        (sameAt_viewWillAppear (listening_viewDidLoad hassigned).wellFormed)
  | localUser hhome hid => exact ⟨hsound, hs.holdsGames, hs.deaf⟩
  | notificationsChecked =>
      have hs' : Silent { s with checks := s.checks - 1 } :=
        ⟨hs.sound.checked, hs.holdsGames, hs.deaf⟩
      unfold ScreenFlow.notificationsChecked at hsound ⊢
      split at hsound
      · next henabled =>
          rw [if_pos henabled]
          exact hs'
      · next hdisabled =>
          rw [if_neg hdisabled]
          exact hs'.call hsound hC (by simp [ListenerCall.listener])
  | setupLoadingView hhome => exact hs.call hsound hC.1 fun _ _ => hC.2
  | enterGame hhome => exact hs.enterGame hhome _ _
  | decide => exact hs.removeGameListener hsound
  | presents hhome hvisible => exact hs.presents hsound hvisible
  | stays => exact hs
  | dismiss hcovered =>
      exact hs.appears hsound (hs.sound.visible_dismiss hcovered)
        (sameAt_viewWillAppear hs.sound.listening.wellFormed)

/-- **A covered home screen is silent**, on a device that enters it once. In every run whose
events come in time, nothing is listened to while the home screen is not visible but the games
of which a screen has been loaded. -/
theorem home_is_silent (h : RunWhere (step simulator) InTime init es s)
    (hcovered : s.visible = false) :
    ∀ entry ∈ s.listeners.registrations.live, entry.1 = .gameStatusListener := by
  have hsilent : s.Silent := h.invariant silent_init fun _ _ _ hs hC hstep =>
    hs.step hC (step_of_step_eq hstep)
  have hlistening := hsilent.sound.listening
  obtain ⟨hrequests, hgames⟩ := hsilent.deaf hcovered
  have husers : s.listeners.registrations.liveFor .usersListener = [] := by
    simpa [hcovered] using hlistening.users
  rintro ⟨k, r⟩ hmem
  have hr := Registrations.mem_liveFor_iff.mpr hmem
  cases k with
  | usersListener => exact absurd hr (by simp [husers])
  | gameRequestListener => exact absurd hr (by simp [hrequests])
  | gameRequestDeletionListener => exact absurd hr (by simp [hlistening.deletions])
  | gameListener => exact absurd hr (by simp [hgames])
  | gameStatusListener => rfl

/-- The events of `playing` come in time, and two registrations are left. -/
theorem home_is_silent_playing : ∃ s, Run (step false) init playing s ∧
    s.listeners.registrations.live.length = 2 ∧
      ∀ entry ∈ s.listeners.registrations.live, entry.1 = .gameStatusListener := by
  have hrun : RunWhere (step false) InTime init playing
      ((execWhere (step false) InTime init playing).get (by decide)) := runWhere_get _
  exact ⟨_, hrun.toRun, by decide, home_is_silent hrun (by decide)⟩

/-- A check that completes late sets the listener of game requests under a game screen. -/
example : (exec (step false) init [.enterHome ⟨some "uid1", some "player", none, none⟩,
    .enterGame (.new "game" [] (fun _ => none) 0) false, .notificationsChecked false]).map
      (fun s => (s.visible, s.listeners.registrations.live.map Prod.fst)) =
        some (false, [.gameStatusListener, .gameRequestListener]) := by
  decide

end ScreenFlow

end RockPaperScissors
