import RockPaperScissors.LobbySteps

/-!
# What Happens on a Loading View

`Lobby.Step` keeps of the loading views what the requests and the games depend on. The
statements here say in full what an event does to them, to `HomeViewController.loadingView`
and to `DataStore.gameListener`: a view waits, is closed, or invokes `gameAccepted`; a new
one is set up; or a listener is removed.

## Main results

* `Lobby.shows_of_step`: `Lobby.Shows` lists what an event does to the loading views.
* `Lobby.Shows.length_le`: views stay at their places.
-/

namespace RockPaperScissors

/-- The view waits: `enableCancelGame`, a tick, or a snapshot for its listener. -/
structure LoadingView.Waits (view view' : LoadingView) : Prop where
  gameRequest : view'.gameRequest = view.gameRequest
  shown : view'.shown = view.shown
  cancelGameTimer : view'.cancelGameTimer = view.cancelGameTimer
  closeTimer : view'.closeTimer = true → view.closeTimer = true
  listening : view'.listening = view.listening
  found : view.listening = false → view'.found = view.found

/-- A view that is ticked waits as before. -/
theorem LoadingView.waits_tick (view : LoadingView) (elapsedSeconds : ℕ) :
    view.Waits { view with elapsedSeconds } :=
  ⟨rfl, rfl, rfl, id, rfl, fun _ => rfl⟩

/-- The view that has invoked `gameAccepted`, with the snapshots that are left. -/
def LoadingView.resolved (view : LoadingView) (found : List ℕ) : LoadingView :=
  { view with found }.removeTimers.removeFromSuperview

/-- The view on which the event invokes `gameAccepted`. -/
def LobbyEvent.accepts : LobbyEvent → Option ℕ
  | .gameAccepted v => some v
  | _ => none

namespace Lobby

variable (s : Lobby)

/-- The view on which the event calls `onClose`. -/
def closes : LobbyEvent → Option ℕ
  | .close v => some v
  | .timerTick v => s.views[v]?.bind fun view =>
      if view.elapsedSeconds + 1 = waitingGameSeconds then some v else none
  | _ => none

/-- What an event does to the loading views, to `loadingView` and to `gameListener`. -/
inductive Shows : LobbyEvent → Lobby → Prop
  | stay {e : LobbyEvent} {s' : Lobby} : s'.views = s.views → s'.loadingView = s.loadingView →
      s'.gameListener = s.gameListener → s.closes e = none → e.accepts = none → Shows e s'
  | setup {i : ℕ} {request : GameRequest} {s' : Lobby} :
      s'.views = (s.setupLoadingView request).views →
      s'.loadingView = (s.setupLoadingView request).loadingView →
      s'.gameListener = (s.setupLoadingView request).gameListener →
      Shows (.requestStarted i) s'
  | unheard {e : LobbyEvent} {userId : String} {s' : Lobby} :
      s'.views = (s.removeGameListener userId).views → s'.loadingView = s.loadingView →
      s'.gameListener = (s.removeGameListener userId).gameListener → s.closes e = none →
      e.accepts = none → Shows e s'
  | waits {e : LobbyEvent} {v : ℕ} {view view' : LoadingView} {s' : Lobby} :
      s.views[v]? = some view → view.Waits view' → s'.views = s.views.set v view' →
      s'.loadingView = s.loadingView → s'.gameListener = s.gameListener →
      s.closes e = none → e.accepts = none → Shows e s'
  | closes {e : LobbyEvent} {v : ℕ} {view view' : LoadingView} {s' : Lobby} :
      s.views[v]? = some view → view.shown = true ∨ view.cancelGameTimer = true →
      view.Waits view' → s'.views = s.views.set v view'.onClose →
      s'.loadingView = s.loadingView → s'.gameListener = s.gameListener →
      s.closes e = some v → e.accepts = none → Shows e s'
  | accepts {v place : ℕ} {rest : List ℕ} {view : LoadingView} {s' : Lobby} :
      s.views[v]? = some view → view.found = place :: rest →
      s'.views = ({ s with
        views := s.views.set v (view.resolved rest) }.removeGameListener view.me).views →
      s'.loadingView = s.loadingView →
      s'.gameListener = (s.removeGameListener view.me).gameListener →
      Shows (.gameAccepted v) s'

variable {s} {s' : Lobby} {e : LobbyEvent}

/-- An event of a game leaves the views. -/
theorem views_drive {place : ℕ} {e : Event} (h : s.drive place e = some s') :
    s'.views = s.views ∧ s'.loadingView = s.loadingView ∧ s'.gameListener = s.gameListener := by
  obtain ⟨games, -, rfl⟩ := drive_eq_some h
  exact ⟨rfl, rfl, rfl⟩

/-- A tick counts, or is the last one and closes the view. -/
theorem shows_of_timerTick {v : ℕ} (h : s.step (.timerTick v) = some s') :
    s.Shows (.timerTick v) s' := by
  obtain ⟨view, hview, h⟩ := Option.bind_eq_some_iff.mp h
  split at h
  · next htimer =>
      simp only at h
      split at h
      · next hlast =>
          obtain rfl := Option.some.inj h
          refine Shows.closes hview (Or.inr htimer) (view.waits_tick _) rfl rfl rfl ?_ rfl
          simp [closes, hview, hlast]
      · next hlast =>
          obtain rfl := Option.some.inj h
          refine Shows.waits hview (view.waits_tick _) rfl rfl rfl ?_ rfl
          simp [closes, hview, hlast]
  · exact absurd h (by simp)

/-- A snapshot is told to one view, which listens. -/
theorem shows_of_find {v place version : ℕ} (h : s.step (.find v place version) = some s') :
    s.Shows (.find v place version) s' := by
  obtain ⟨view, hview, h⟩ := Option.bind_eq_some_iff.mp h
  obtain ⟨g, -, h⟩ := Option.bind_eq_some_iff.mp h
  obtain ⟨p, -, h⟩ := Option.bind_eq_some_iff.mp h
  split at h
  · next hlistening =>
      obtain ⟨hviews, hloading, hlistener⟩ := views_drive h
      have hwaits : view.Waits { view with found := view.found ++ [place] } :=
        ⟨rfl, rfl, rfl, id, rfl, fun hnot => absurd (hnot.symm.trans hlistening) (by simp)⟩
      exact Shows.waits hview hwaits hviews hloading hlistener rfl rfl
  · exact absurd h (by simp)

/-- A view that accepts loses its timers, its superview and its listener. -/
theorem shows_of_gameAccepted {v : ℕ} (h : s.step (.gameAccepted v) = some s') :
    s.Shows (.gameAccepted v) s' := by
  obtain ⟨view, hview, h⟩ := Option.bind_eq_some_iff.mp h
  split at h
  · exact absurd h (by simp)
  · next place rest hfound =>
      obtain ⟨g, -, h⟩ := Option.bind_eq_some_iff.mp h
      obtain ⟨p, -, h⟩ := Option.bind_eq_some_iff.mp h
      obtain ⟨hviews, hloading, hlistener⟩ := views_drive h
      exact Shows.accepts hview hfound hviews hloading hlistener

/-- What happens in a game does nothing to the views but to remove a listener. -/
theorem shows_of_game {place : ℕ} {e : Event} (h : s.step (.game place e) = some s') :
    s.Shows (.game place e) s' := by
  simp only [step] at h
  split at h
  · obtain ⟨g, -, h⟩ := Option.bind_eq_some_iff.mp h
    split at h
    · obtain ⟨hviews, hloading, hlistener⟩ := views_drive h
      exact Shows.stay hviews hloading hlistener rfl rfl
    · obtain ⟨hviews, hloading, hlistener⟩ := views_drive h
      exact Shows.unheard hviews hloading hlistener rfl rfl
  · exact absurd h (by simp)

/-- The completion of `createGame` removes a listener at most. -/
theorem shows_of_gameCreated {j : ℕ} (h : s.step (.gameCreated j) = some s') :
    s.Shows (.gameCreated j) s' := by
  obtain ⟨accept, -, h⟩ := Option.bind_eq_some_iff.mp h
  split at h
  · obtain ⟨g, -, h⟩ := Option.bind_eq_some_iff.mp h
    split at h
    · obtain rfl := Option.some.inj h
      exact Shows.stay rfl rfl rfl rfl rfl
    · obtain ⟨hviews, hloading, hlistener⟩ := views_drive h
      exact Shows.unheard hviews hloading hlistener rfl rfl
  · exact absurd h (by simp)

/-- **The loading views change only so.** -/
theorem shows_of_step (h : s.step e = some s') : s.Shows e s' := by
  cases e with
  | invite invitation =>
      obtain rfl := Option.some.inj h
      exact Shows.stay rfl rfl rfl rfl rfl
  | requestChecked i error =>
      obtain ⟨invite, -, h⟩ := Option.bind_eq_some_iff.mp h
      split at h
      · obtain rfl := Option.some.inj h
        exact Shows.stay rfl rfl rfl rfl rfl
      · exact absurd h (by simp)
  | gameChecked i error documentID now =>
      obtain ⟨invite, -, h⟩ := Option.bind_eq_some_iff.mp h
      split at h
      · split at h
        · obtain rfl := Option.some.inj h
          exact Shows.stay rfl rfl rfl rfl rfl
        · split at h
          · exact absurd h (by simp)
          · obtain ⟨request, -, rfl⟩ := Option.map_eq_some_iff.mp h
            exact Shows.stay rfl rfl rfl rfl rfl
      · exact absurd h (by simp)
  | requestStarted i =>
      obtain ⟨invite, -, h⟩ := Option.bind_eq_some_iff.mp h
      split at h
      · split at h
        · obtain rfl := Option.some.inj h
          exact Shows.setup rfl rfl rfl
        · exact absurd h (by simp)
      · exact absurd h (by simp)
  | commitRequest userId =>
      obtain ⟨requests, -, rfl⟩ := Option.map_eq_some_iff.mp h
      exact Shows.stay rfl rfl rfl rfl rfl
  | tapAccept k =>
      obtain ⟨request, -, rfl⟩ := Option.map_eq_some_iff.mp h
      exact Shows.stay rfl rfl rfl rfl rfl
  | lookedUp j error =>
      obtain ⟨accept, -, h⟩ := Option.bind_eq_some_iff.mp h
      split at h
      · obtain rfl := Option.some.inj h
        exact Shows.stay rfl rfl rfl rfl rfl
      · exact absurd h (by simp)
  | userFetched j answer =>
      obtain ⟨accept, -, h⟩ := Option.bind_eq_some_iff.mp h
      split at h
      · obtain rfl := Option.some.inj h
        exact Shows.stay rfl rfl rfl rfl rfl
      · split at h
        · obtain rfl := Option.some.inj h
          exact Shows.stay rfl rfl rfl rfl rfl
        · exact absurd h (by simp)
      · exact absurd h (by simp)
  | rejectGame place =>
      obtain ⟨g, -, h⟩ := Option.bind_eq_some_iff.mp h
      split at h
      · obtain rfl := Option.some.inj h
        exact Shows.stay rfl rfl rfl rfl rfl
      · exact absurd h (by simp)
  | gameCreated j => exact shows_of_gameCreated h
  | enableCancelGame v =>
      obtain ⟨view, hview, h⟩ := Option.bind_eq_some_iff.mp h
      split at h
      · obtain rfl := Option.some.inj h
        have hwaits : view.Waits view.enableCancelGame :=
          ⟨rfl, rfl, rfl, fun hfalse => absurd hfalse Bool.false_ne_true, rfl, fun _ => rfl⟩
        exact Shows.waits hview hwaits rfl rfl rfl rfl rfl
      · exact absurd h (by simp)
  | timerTick v => exact shows_of_timerTick h
  | close v =>
      obtain ⟨view, hview, h⟩ := Option.bind_eq_some_iff.mp h
      split at h
      · next hshown =>
          obtain rfl := Option.some.inj h
          exact Shows.closes hview (Or.inl hshown.1) (view.waits_tick _) rfl rfl rfl rfl rfl
      · exact absurd h (by simp)
  | find v place version => exact shows_of_find h
  | gameAccepted v => exact shows_of_gameAccepted h
  | game place e => exact shows_of_game h

/-- `removeGameListener` adds no view and takes none away. -/
theorem length_removeGameListener (s : Lobby) (userId : String) :
    (s.removeGameListener userId).views.length = s.views.length := by
  unfold removeGameListener
  dsimp only
  split
  · rfl
  · exact List.length_modify ..

/-- `setupLoadingView` adds one view. -/
theorem length_setupLoadingView (s : Lobby) (request : GameRequest) :
    (s.setupLoadingView request).views.length = s.views.length + 1 := by
  unfold setupLoadingView
  dsimp only
  split <;> simp

/-- Views stay at their places. -/
theorem Shows.length_le (h : s.Shows e s') : s.views.length ≤ s'.views.length := by
  cases h with
  | stay hviews _ _ _ _ => exact hviews ▸ Nat.le_refl _
  | setup hviews _ _ =>
      rw [hviews, length_setupLoadingView]
      exact Nat.le_succ _
  | unheard hviews _ _ _ _ =>
      rw [hviews, length_removeGameListener]
  | waits _ _ hviews _ _ _ _ =>
      rw [hviews, List.length_set]
  | closes _ _ _ hviews _ _ _ _ =>
      rw [hviews, List.length_set]
  | accepts _ _ hviews _ _ =>
      rw [hviews, length_removeGameListener, List.length_set]

end Lobby

end RockPaperScissors
