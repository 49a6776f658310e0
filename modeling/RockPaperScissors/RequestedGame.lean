import RockPaperScissors.RequestTrace
import RockPaperScissors.Starting

/-!
# The Requester Enters the Game It Asked For

The listener of a loading view takes the first starting game of the local user, whatever
request it comes from. While the view of one request is up the user can accept another
one, and the view takes the game that this makes (`another_game`); it also takes a game
that an earlier request has left behind.

The view takes the game of its request in the runs in which it is alone: when it is set
up its user has no other game its client may still find, and no game is created for its
user from another request while it is shown and listens.

## Main results

* `Asked.step`: the invariant, a client has seen every other game of a shown view's user
  started.
* `enters_asked`: in every run under the condition the game a shown view enters is the one
  created by accepting its request, between the two users of the request.
* `another_game`: without the condition it enters another game.
-/

open TransitionSystem

namespace RockPaperScissors

namespace Lobby

variable (s : Lobby)

/-- The user's client has seen every game of another request started. -/
def OthersStarted (userId : String) (request : GameRequest) : Prop :=
  ∀ g ∈ s.games, g.rejected = false → g.gameRequest ≠ request → ∀ p ∈ g.playerOf userId,
    (g.session.view p (g.session.seen p)).any (fun d => d.state ≠ .starting) = true

instance (userId : String) (request : GameRequest) :
    Decidable (s.OthersStarted userId request) :=
  inferInstanceAs (Decidable (∀ g ∈ s.games, _))

/-- The views that are shown to the users and listen are those of the request. -/
def OnlyAsk (userIds : List String) (request : GameRequest) : Prop :=
  ∀ view ∈ s.views, view.shown = true → view.listening = true → view.me ∈ userIds →
    view.gameRequest = request

instance (userIds : List String) (request : GameRequest) :
    Decidable (s.OnlyAsk userIds request) :=
  inferInstanceAs (Decidable (∀ view ∈ s.views, _))

/-- **Loading views are alone with their requests**, when one is set up and when a game is
created. -/
def AsksAlone : LobbyEvent → Prop
  | .requestStarted i => ∀ r ∈ s.invites[i]?.bind fun invite => invite.stage.starting?,
      s.OthersStarted r.fromId r
  | .userFetched j (some pairing) => ∀ a ∈ s.accepts[j]?, ∀ r ∈ a.stage.fetching?,
      s.OnlyAsk pairing.userIds r
  | _ => True

instance (e : LobbyEvent) : Decidable (s.AsksAlone e) :=
  match e with
  | .requestStarted _ => inferInstanceAs (Decidable (∀ r ∈ _, _))
  | .userFetched _ (some _) => inferInstanceAs (Decidable (∀ a ∈ _, _))
  | .userFetched _ none | .invite _ | .requestChecked _ _ | .gameChecked _ _ _ _
  | .commitRequest _ | .tapAccept _ | .lookedUp _ _ | .rejectGame _ | .gameCreated _
  | .enableCancelGame _ | .timerTick _ | .close _ | .find _ _ _ | .gameAccepted _
  | .game _ _ => inferInstanceAs (Decidable True)

/-- The game a loading view enters when it is told of it: the game and what the view's
listener has read of it. -/
def entered (v : ℕ) : Option (LobbyGame × Game) :=
  s.views[v]?.bind fun view =>
    view.found.head?.bind fun place =>
      s.games[place]?.bind fun g =>
        (g.playerOf view.me).bind fun p =>
          (g.session.found p).head?.map fun game => (g, game)

/-- When `gameAccepted` is invoked by a view that shows a request, the client enters the
game created by accepting it, whose players are the two users of the request. -/
def EntersAsked : Prop :=
  ∀ (v : ℕ) (view : LoadingView) (t : Lobby), s.views[v]? = some view →
    view.shown = true → s.step (.gameAccepted v) = some t →
    ∃ g game, s.entered v = some (g, game) ∧ g.gameRequest = view.gameRequest ∧
      game.playerIds = [view.gameRequest.toId, view.gameRequest.fromId]

/-- What a shown view has found is the game of its request, and while it listens its
client has seen every other game of its user started. -/
structure Asked : Prop where
  found : ∀ view ∈ s.views, view.shown = true → ∀ place ∈ view.found,
    ∃ g, s.games[place]? = some g ∧ g.gameRequest = view.gameRequest
  others : ∀ view ∈ s.views, view.shown = true → view.listening = true →
    ∀ g ∈ s.games, g.rejected = false → g.gameRequest ≠ view.gameRequest →
    ∀ p, g.playerOf view.me = some p → g.session.Past p

variable {s} {s' : Lobby} {e : LobbyEvent} {place : ℕ} {g g' : LobbyGame} {p : Player}

/-- Nothing has been found at first. -/
theorem asked_init : init.Asked :=
  ⟨by simp [init], by simp [init]⟩

/-- What a client has seen of a game it has seen of the game as it goes on. -/
theorem Advances.past (h : s.Advances e place g g') (hs : g.session.Past p) :
    g'.session.Past p := by
  cases h with
  | stays | rejected _ _ => exact hs
  | steps _ _ hsession => exact hs.step (Session.step_of_step_eq hsession)

/-- A user stays the player it is in a game. -/
theorem Advances.playerOf (h : s.Advances e place g g') (userId : String) :
    g'.playerOf userId = g.playerOf userId := by
  rw [LobbyGame.playerOf, LobbyGame.playerOf, h.pairing]

/-- A game that a client finds is one it has not seen started. -/
theorem not_past_of_find {es : List Event} {version : ℕ} {session : Session}
    (hrun : Run (Session.step g.pairing) (Session.init g.pairing) es g.session)
    (h : g.session.step g.pairing (.find p version) = some session) :
    ¬ g.session.Past p := by
  intro hpast
  cases Session.step_of_step_eq h with
  | find hsee hview hstarting =>
      exact hpast.view (Session.created_of_run hrun) (Session.started_of_run hrun) hsee.1
        hview hstarting.2

/-- A new view's client has seen the other games of its user started. -/
theorem others_of_asksAlone {es : List LobbyEvent} (hrun : Run Lobby.step init es s)
    {i : ℕ} {r : GameRequest} (hC : s.AsksAlone (.requestStarted i))
    (hr : (s.invites[i]?.bind fun invite => invite.stage.starting?) = some r)
    (hg : g ∈ s.games) (hrejected : g.rejected = false) (hne : g.gameRequest ≠ r)
    (hp : g.playerOf r.fromId = some p) : g.session.Past p := by
  obtain ⟨es', hsession⟩ := session_of_run hrun g hg
  have hany := hC r hr g hg hrejected hne p hp
  obtain ⟨d, hd, hstate⟩ := (Option.any_eq_true _ _).mp hany
  exact Session.past_of_view (Session.seen_le_of_run hsession p) hd (by simpa using hstate)

/-- What a shown view has found stays the game of its request. -/
theorem Asked.found_step {es : List LobbyEvent} (hs : s.Asked)
    (hrun : Run Lobby.step init es s) (h : Step s e s') {view' : LoadingView}
    (hview' : view' ∈ s'.views) (hshown : view'.shown = true) (hplace : place ∈ view'.found) :
    ∃ g, s'.games[place]? = some g ∧ g.gameRequest = view'.gameRequest := by
  have hold : ∀ view ∈ s.views, view.shown = true → place ∈ view.found →
      ∃ g, s'.games[place]? = some g ∧ g.gameRequest = view.gameRequest := by
    intro view hview hshown hplace
    obtain ⟨g, hg, hrequest⟩ := hs.found view hview hshown place hplace
    obtain ⟨g', hg', hadv⟩ := h.getElem?_games hg
    exact ⟨g', hg', hadv.gameRequest.trans hrequest⟩
  rcases h.views hview' with ⟨view, hview, hkeeps⟩ |
    ⟨v, place', version, view, g, p, session, -, hview, hlistening, hg, hp, hrejected,
      hsession, rfl⟩ | ⟨i, r, -, -, rfl⟩
  · rw [hkeeps.gameRequest]
    exact hold view hview (hkeeps.shown hshown) (hkeeps.found place hplace)
  · rcases List.mem_append.mp hplace with hfound | hnew
    · exact hold view hview hshown hfound
    · obtain rfl := List.mem_singleton.mp hnew
      obtain ⟨g', hg', hadv⟩ := h.getElem?_games hg
      refine ⟨g', hg', hadv.gameRequest.trans ?_⟩
      -- A game of another request would have been seen started.
      by_contra hne
      have hmem := List.mem_of_getElem? hg
      obtain ⟨es', hrun'⟩ := session_of_run hrun g hmem
      exact not_past_of_find hrun' hsession
        (hs.others view hview hshown hlistening g hmem hrejected hne p hp)
  · exact absurd hplace (by simp [LoadingView.new])

/-- A shown view's client still has seen the other games of its user started. -/
theorem Asked.others_step {es : List LobbyEvent} (hs : s.Asked)
    (hrun : Run Lobby.step init es s) (hC : s.AsksAlone e) (h : Step s e s')
    {view' : LoadingView} (hview' : view' ∈ s'.views) (hshown : view'.shown = true)
    (hlistening : view'.listening = true) (hg : g ∈ s.games) (hrejected : g.rejected = false)
    (hne : g.gameRequest ≠ view'.gameRequest) (hp : g.playerOf view'.me = some p) :
    g.session.Past p := by
  rcases h.views hview' with ⟨view, hview, hkeeps⟩ |
    ⟨v, place', version, view, -, -, -, -, hview, -, -, -, -, -, rfl⟩ | ⟨i, r, rfl, hr, rfl⟩
  · rw [hkeeps.gameRequest] at hne
    rw [LoadingView.me, hkeeps.gameRequest] at hp
    exact hs.others view hview (hkeeps.shown hshown) (hkeeps.listening hlistening) g hg
      hrejected hne p hp
  · exact hs.others view hview hshown hlistening g hg hrejected hne p hp
  · exact others_of_asksAlone hrun hC hr hg hrejected hne hp

/-- A new game is of the request of every shown view of its users. -/
theorem request_of_asksAlone {j : ℕ} {pairing : Pairing} {a : Accept} {r : GameRequest}
    (hC : s.AsksAlone (.userFetched j (some pairing)))
    (h : Step s (.userFetched j (some pairing)) s') (ha : s.accepts[j]? = some a)
    (hstage : a.stage = .fetchingUser r) {view' : LoadingView} (hview' : view' ∈ s'.views)
    (hshown : view'.shown = true) (hlistening : view'.listening = true)
    (hme : view'.me = pairing.userId p) : view'.gameRequest = r := by
  rcases h.views hview' with ⟨view, hview, hkeeps⟩ | ⟨v, place', version, view, -, -, -, he, -⟩ |
    ⟨i, r', he, -, -⟩
  · have huser : view.me ∈ pairing.userIds := by
      rw [LoadingView.me, hkeeps.gameRequest, ← LoadingView.me] at hme
      rw [hme]
      cases p <;> simp [Pairing.userIds]
    exact hkeeps.gameRequest.trans <|
      hC a (by simp [ha]) r (by simp [hstage, AcceptStage.fetching?]) view hview
        (hkeeps.shown hshown) (hkeeps.listening hlistening) huser
  · exact absurd he (by simp)
  · exact absurd he (by simp)

/-- **Shown views stay alone with their requests.** -/
theorem Asked.step {es : List LobbyEvent} (hs : s.Asked) (hrun : Run Lobby.step init es s)
    (hC : s.AsksAlone e) (h : Step s e s') : s'.Asked where
  found := fun _ hview hshown _ hplace => hs.found_step hrun h hview hshown hplace
  others := by
    intro view hview hshown hlistening g' hg' hrejected hne p hp
    obtain ⟨place, hplace⟩ := List.mem_iff_getElem?.mp hg'
    rcases h.games hplace with ⟨g, hg, hadv⟩ |
      ⟨j, a, r, pairing, rfl, ha, hstage, -, -, -, -, rfl⟩
    · rw [hadv.gameRequest] at hne
      rw [hadv.playerOf] at hp
      exact hadv.past (hs.others_step hrun hC h hview hshown hlistening
        (List.mem_of_getElem? hg) (hadv.not_rejected hrejected) hne hp)
    · exact absurd (request_of_asksAlone hC h ha hstage hview hshown hlistening
        (LobbyGame.userId_of_playerOf hp).symm).symm hne

/-- What a view enters when it fires. -/
theorem entered_of_step {v : ℕ} {view : LoadingView} {t : Lobby}
    (hview : s.views[v]? = some view) (h : s.step (.gameAccepted v) = some t) :
    ∃ place g p game, place ∈ view.found ∧ s.games[place]? = some g ∧
      game ∈ g.session.found p ∧ s.entered v = some (g, game) := by
  obtain ⟨view', hview', h⟩ := Option.bind_eq_some_iff.mp h
  obtain rfl := Option.some.inj (hview.symm.trans hview')
  split at h
  · exact absurd h (by simp)
  · next place rest hfound =>
      obtain ⟨g, hg, h⟩ := Option.bind_eq_some_iff.mp h
      obtain ⟨p, hp, h⟩ := Option.bind_eq_some_iff.mp h
      obtain ⟨games, ⟨g', session, hg', -, hsession, -⟩, -⟩ := drive_eq_some h
      obtain rfl := Option.some.inj (hg.symm.trans hg')
      cases Session.step_of_step_eq hsession with
      | @gameAccepted _ game rest' hgame =>
          refine ⟨place, g, p, game, by simp [hfound], hg, by simp [hgame], ?_⟩
          simp [entered, hview, hfound, hg, hp, hgame]

/-- **The requester enters the game it asked for**, in every run in which loading views
are alone with their requests. -/
theorem enters_asked {es : List LobbyEvent}
    (h : RunWhere Lobby.step AsksAlone init es s) : s.EntersAsked := by
  have hs : s.Asked := by
    refine h.invariant_events (I := fun _ s => s.Asked) asked_init ?_
    exact fun es t e t' hrun ht hC hstep => ht.step hrun.toRun hC (step_of_step_eq hstep)
  intro v view t hview hshown hstep
  obtain ⟨place, g, p, game, hplace, hg, hgame, hentered⟩ := entered_of_step hview hstep
  obtain ⟨g', hg', hrequest⟩ := hs.found view (List.mem_of_getElem? hview) hshown place hplace
  obtain rfl := Option.some.inj (hg.symm.trans hg')
  have hmem := List.mem_of_getElem? hg
  obtain ⟨es', hrun⟩ := session_of_run h.toRun g hmem
  have hcopy := Session.copy_of_run hrun game (.found hgame)
  obtain ⟨hacceptor, hrequester⟩ := users_of_run h.toRun g hmem
  refine ⟨g, game, hentered, hrequest, ?_⟩
  rw [hcopy.playerIds_eq, hacceptor, hrequester, hrequest]

/-- The second user invites the first, who accepts, and the loading view finds the game. -/
def asking : List LobbyEvent :=
  inviting 0 "request" (sampleInvitation "uid2" "uid1" uid2_ne_uid1) ++
    accepting 0 0 0 (samplePairing "game" "uid1" "uid2" uid2_ne_uid1.symm) ++ [.find 0 0 1]

/-- The loading view of `asking` enters the game of its request. -/
theorem enters_asked_asking : ∃ s, Run Lobby.step init asking s ∧
    (s.step (.gameAccepted 0)).isSome ∧ s.EntersAsked := by
  have hrun : RunWhere Lobby.step AsksAlone init asking
      ((execWhere Lobby.step AsksAlone init asking).get (by decide)) := runWhere_get _
  exact ⟨_, hrun.toRun, by decide, enters_asked hrun⟩

/-- The first user waits for the second and accepts a request of the third. -/
def acceptingMeanwhile : List LobbyEvent :=
  inviting 0 "request" (sampleInvitation "uid1" "uid2" uid2_ne_uid1.symm) ++
    inviting 1 "request2" (sampleInvitation "uid3" "uid1" uid3_ne_uid1) ++
    [.tapAccept 1, .lookedUp 0 false,
      .userFetched 0 (some (samplePairing "game" "uid1" "uid3" uid3_ne_uid1.symm)), .find 0 0 0]

/-- **The first user enters the game with the third from the view that waits for the
second.** -/
theorem another_game :
    ¬ ∀ (es : List LobbyEvent) (s : Lobby), Run Lobby.step init es s → s.EntersAsked := by
  intro h
  have hrun : Run Lobby.step init acceptingMeanwhile
      ((exec Lobby.step init acceptingMeanwhile).get (by decide)) := runWhere_get _
  have hfires : ((((exec Lobby.step init acceptingMeanwhile).get (by decide)).step
      (.gameAccepted 0)).isSome) := by decide
  obtain ⟨t, ht⟩ := Option.isSome_iff_exists.mp hfires
  obtain ⟨g, game, hentered, hrequest, -⟩ := h _ _ hrun 0 _ t rfl (by decide) ht
  have hid : (((exec Lobby.step init acceptingMeanwhile).get (by decide)).entered 0).map
      (fun found => found.1.gameRequest.id) = some "request2" := by decide
  rw [hentered, Option.map_some, hrequest] at hid
  exact absurd hid (by decide)

end Lobby

end RockPaperScissors
