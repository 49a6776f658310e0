import RockPaperScissors.ViewSteps

/-!
# Loading Views

A loading view waits for the game of its request. It ends in one of two ways: its listener
finds a game and the view invokes `gameAccepted`, or `onClose` deletes the request, after a
tap on the close button or at the twentieth tick.

`LoadingViews` is the lobby with a count of both for every view. The closure of
`setGameListener` holds its view weakly, so a snapshot is of no effect once nothing retains
the view: a view is retained by its superview, by its timers, which are scheduled with it as
the target, and by `HomeViewController.loadingView` until a newer view takes its place.

`gameAccepted` removes the listener and the timers. `onClose` stops the timer only: the
listener goes on, and the view that is closed is still `HomeViewController.loadingView`, so
a game that comes later is entered through it (`resolved_twice`).

## Main results

* `LoadingViews.sound_of_run`: in every run each of the two happens at most once for a view.
* `LoadingViews.resolved_once`: at most one of them does in exactly the runs in which no
  snapshot that has a game is delivered to a view after its `onClose`.
-/

open TransitionSystem

namespace RockPaperScissors

/-! ### A view and its counts -/

namespace LoadingView

/-- What holds of a view that has invoked `gameAccepted` and called `onClose` so often, is
`HomeViewController.loadingView` or not, and has its listener in `DataStore.gameListener` or
not. -/
structure Fits (view : LoadingView) (accepted closed : ℕ) (current held : Prop) : Prop where
  waiting : view.cancelGameTimer = true → accepted + closed = 0
  resolved : view.cancelGameTimer = false → 1 ≤ accepted + closed
  shown : view.shown = true → view.cancelGameTimer = true
  accepted_le : accepted ≤ 1
  closed_le : closed ≤ 1
  /-- An accepted view is retained by `HomeViewController` only, and hears nothing then. -/
  accepted : accepted ≠ 0 → view.closeTimer = false ∧
    (current → view.listening = false ∧ view.found = [])
  heard : current → view.listening = true ∨ view.found ≠ [] → held

variable {view view' : LoadingView} {accepted closed : ℕ} {current current' held held' : Prop}

/-- A new view has neither accepted nor closed. -/
theorem fits_new (request : GameRequest) : (new request).Fits 0 0 current True where
  waiting := fun _ => rfl
  resolved := fun h => absurd h (by simp [new])
  shown := fun _ => rfl
  accepted_le := Nat.zero_le 1
  closed_le := Nat.zero_le 1
  accepted := fun h => absurd rfl h
  heard := fun _ _ => trivial

/-- A view fits on as long as it is held while it is current. -/
theorem Fits.mono (h : view.Fits accepted closed current held)
    (hcurrent : current' → current ∧ (held → held')) :
    view.Fits accepted closed current' held' :=
  { h with
    accepted := fun hne => ⟨(h.accepted hne).1, fun hc => (h.accepted hne).2 (hcurrent hc).1⟩
    heard := fun hc hheard => (hcurrent hc).2 (h.heard (hcurrent hc).1 hheard) }

/-- What fits a view fits it as long as it waits. -/
theorem Fits.waits (h : view.Fits accepted closed current held) (hwaits : view.Waits view') :
    view'.Fits accepted closed current held where
  waiting := fun ht => h.waiting (hwaits.cancelGameTimer ▸ ht)
  resolved := fun ht => h.resolved (hwaits.cancelGameTimer ▸ ht)
  shown := by
    rw [hwaits.shown, hwaits.cancelGameTimer]
    exact h.shown
  accepted_le := h.accepted_le
  closed_le := h.closed_le
  accepted := by
    intro hne
    obtain ⟨htimer, hquiet⟩ := h.accepted hne
    refine ⟨?_, fun hc => ?_⟩
    · rw [← Bool.not_eq_true] at htimer ⊢
      exact fun ht => htimer (hwaits.closeTimer ht)
    · obtain ⟨hlistening, hfound⟩ := hquiet hc
      exact ⟨hwaits.listening.trans hlistening, (hwaits.found hlistening).trans hfound⟩
  heard := by
    intro hc hheard
    refine h.heard hc ?_
    cases hlistening : view.listening with
    | true => exact Or.inl rfl
    | false =>
        rw [hwaits.listening, hwaits.found hlistening, hlistening] at hheard
        exact hheard

/-- Out of its superview a view fits its counts. -/
theorem Fits.removeFromSuperview (h : view.Fits accepted closed current held) :
    view.removeFromSuperview.Fits accepted closed current held :=
  { h with shown := fun hfalse => absurd hfalse Bool.false_ne_true }

/-- Without its listener a view hears nothing, whoever holds it. -/
theorem Fits.removeListener (h : view.Fits accepted closed current held) :
    view.removeListener.Fits accepted closed current' held' :=
  { h with
    accepted := fun hne => ⟨(h.accepted hne).1, fun _ => ⟨rfl, rfl⟩⟩
    heard := fun _ hheard => by simp [LoadingView.removeListener] at hheard }

/-- `onClose` of a view that waits. -/
theorem Fits.onClose (h : view.Fits accepted closed current held)
    (htimer : view.cancelGameTimer = true) :
    view.onClose.Fits accepted (closed + 1) current held := by
  have hzero := h.waiting htimer
  exact
    { waiting := fun hfalse => absurd hfalse Bool.false_ne_true
      resolved := fun _ => by omega
      shown := fun hfalse => absurd hfalse Bool.false_ne_true
      accepted_le := h.accepted_le
      closed_le := by omega
      accepted := fun hne => by omega
      heard := h.heard }

/-- `gameAccepted` of a view that has not been accepted. -/
theorem Fits.accept (h : view.Fits 0 closed current held) (found : List ℕ) :
    (view.resolved found).Fits 1 closed False held where
  waiting := fun hfalse => absurd hfalse Bool.false_ne_true
  resolved := fun _ => by omega
  shown := fun hfalse => absurd hfalse Bool.false_ne_true
  accepted_le := Nat.le_refl 1
  closed_le := h.closed_le
  accepted := fun _ => ⟨rfl, False.elim⟩
  heard := False.elim

end LoadingView

/-! ### The lobby with its counts -/

/-- The lobby, with a count of what each loading view has done. -/
structure LoadingViews where
  lobby : Lobby
  /-- How often `gameAccepted` of the view at a place has been invoked. -/
  accepted : ℕ → ℕ
  /-- How often `onClose` of the view at a place has deleted the request. -/
  closed : ℕ → ℕ

/-- One more at a place, if there is one. -/
def countAt (count : ℕ → ℕ) : Option ℕ → ℕ → ℕ
  | none => count
  | some v => Function.update count v (count v + 1)

namespace LoadingViews

/-- There is no loading view. -/
def init : LoadingViews where
  lobby := Lobby.init
  accepted := fun _ => 0
  closed := fun _ => 0

variable (s : LoadingViews)

/-- The view at the place is retained by its superview, a timer or the controller. -/
def Retained (v : ℕ) (view : LoadingView) : Prop :=
  view.shown = true ∨ view.closeTimer = true ∨ view.cancelGameTimer = true ∨
    s.lobby.loadingView view.me = some v

instance (v : ℕ) (view : LoadingView) : Decidable (s.Retained v view) :=
  inferInstanceAs (Decidable (_ ∨ _))

/-- A snapshot is delivered to a view that is retained. -/
def Reaches (e : LobbyEvent) : Prop :=
  ∀ v ∈ e.accepts, ∀ view ∈ s.lobby.views[v]?, s.Retained v view

instance (e : LobbyEvent) : Decidable (s.Reaches e) :=
  inferInstanceAs (Decidable (∀ v ∈ e.accepts, ∀ view ∈ _, _))

/-- The views after an event; `none` when the event cannot happen. -/
def step (s : LoadingViews) (e : LobbyEvent) : Option LoadingViews :=
  if s.Reaches e then
    (s.lobby.step e).map fun lobby =>
      { lobby
        accepted := countAt s.accepted e.accepts
        closed := countAt s.closed (s.lobby.closes e) }
  else none

/-- **A snapshot comes in time**: `onClose` of its view has not stopped `cancelGameTimer`. -/
def InTime (e : LobbyEvent) : Prop :=
  ∀ v ∈ e.accepts, ∀ view ∈ s.lobby.views[v]?, view.cancelGameTimer = true

instance (e : LobbyEvent) : Decidable (s.InTime e) :=
  inferInstanceAs (Decidable (∀ v ∈ e.accepts, ∀ view ∈ _, _))

/-- What holds of all views and their counts. -/
structure Sound : Prop where
  fits : ∀ (v : ℕ) (view : LoadingView), s.lobby.views[v]? = some view →
    view.Fits (s.accepted v) (s.closed v) (s.lobby.loadingView view.me = some v)
      (s.lobby.gameListener view.me = some v)
  fresh : ∀ v, s.lobby.views.length ≤ v → s.accepted v + s.closed v = 0

variable {s} {s' : LoadingViews} {e : LobbyEvent} {es : List LobbyEvent}

/-- There are no views at first. -/
theorem sound_init : init.Sound where
  fits := fun v view h => by simp [init, Lobby.init] at h
  fresh := fun v _ => rfl

/-- The views after `removeGameListener`, where the one in the slot need not be quiet
before. -/
theorem fits_removeGameListener {l : Lobby} {accepted closed v : ℕ} {userId : String}
    {view' : LoadingView}
    (h : ∀ view : LoadingView, l.views[v]? = some view → view.Fits accepted closed
      (l.loadingView view.me = some v ∧ l.gameListener userId ≠ some v)
      (l.gameListener view.me = some v))
    (hview' : (l.removeGameListener userId).views[v]? = some view') :
    view'.Fits accepted closed (l.loadingView view'.me = some v)
      ((l.removeGameListener userId).gameListener view'.me = some v) := by
  have hkeep : ∀ view : LoadingView, l.gameListener userId ≠ some v →
      l.gameListener view.me = some v →
      (l.removeGameListener userId).gameListener view.me = some v := by
    intro view hne hheld
    have hme : view.me ≠ userId := fun heq => hne (heq ▸ hheld)
    simpa [Lobby.removeGameListener, Function.update_of_ne hme] using hheld
  unfold Lobby.removeGameListener at hview'
  cases hslot : l.gameListener userId with
  | none =>
      rw [hslot] at hview'
      have hne : l.gameListener userId ≠ some v := by simp [hslot]
      exact (h view' hview').mono fun hc => ⟨⟨hc, hne⟩, hkeep view' hne⟩
  | some w =>
      rw [hslot] at hview'
      dsimp only at hview'
      rw [List.getElem?_modify] at hview'
      obtain ⟨view, hview, rfl⟩ := Option.map_eq_some_iff.mp hview'
      split
      · exact (h view hview).removeListener
      · next hother =>
          have hne : l.gameListener userId ≠ some v := by
            rw [hslot]
            exact fun heq => hother (Option.some.inj heq)
          exact (h view hview).mono fun hc => ⟨⟨hc, hne⟩, hkeep view hne⟩

/-- The old views after `setupLoadingView`, one of which is replaced. -/
theorem getElem?_setupLoadingView {l : Lobby} {request : GameRequest} {v : ℕ}
    {view' : LoadingView} (h : (l.setupLoadingView request).views[v]? = some view') :
    (∃ view, l.views[v]? = some view ∧ (view' = view ∨ view' = view.removeFromSuperview)) ∨
      v = l.views.length ∧ view' = .new request := by
  unfold Lobby.setupLoadingView at h
  dsimp only at h
  cases hslot : l.loadingView request.fromId with
  | none =>
      rw [hslot] at h
      rcases getElem?_concat_cases h with hview | hnew
      · exact Or.inl ⟨view', hview, Or.inl rfl⟩
      · exact Or.inr hnew
  | some w =>
      rw [hslot] at h
      rcases getElem?_concat_cases h with hview | ⟨hv, hnew⟩
      · rw [List.getElem?_modify] at hview
        obtain ⟨view, hold, rfl⟩ := Option.map_eq_some_iff.mp hview
        refine Or.inl ⟨view, hold, ?_⟩
        split
        · exact Or.inr rfl
        · exact Or.inl rfl
      · exact Or.inr ⟨by rwa [List.length_modify] at hv, hnew⟩

/-- The views after `setupLoadingView`. -/
theorem fits_setupLoadingView {l : Lobby} {accepted closed : ℕ → ℕ} {request : GameRequest}
    {v : ℕ} {view' : LoadingView}
    (h : ∀ view : LoadingView, l.views[v]? = some view →
      view.Fits (accepted v) (closed v) (l.loadingView view.me = some v)
        (l.gameListener view.me = some v))
    (hfresh : l.views.length ≤ v → accepted v + closed v = 0)
    (hview' : (l.setupLoadingView request).views[v]? = some view') :
    view'.Fits (accepted v) (closed v)
      ((l.setupLoadingView request).loadingView view'.me = some v)
      ((l.setupLoadingView request).gameListener view'.me = some v) := by
  rcases getElem?_setupLoadingView hview' with ⟨view, hview, hreplaced⟩ | ⟨rfl, rfl⟩
  · have hlt := (List.getElem?_eq_some_iff.mp hview).1
    have hold : view.Fits (accepted v) (closed v)
        ((l.setupLoadingView request).loadingView view.me = some v)
        ((l.setupLoadingView request).gameListener view.me = some v) := by
      refine (h view hview).mono fun hc => ?_
      by_cases hme : view.me = request.fromId
      · have heq : l.views.length = v := by simpa [Lobby.setupLoadingView, hme] using hc
        omega
      · simpa [Lobby.setupLoadingView, Function.update_of_ne hme] using hc
    rcases hreplaced with rfl | rfl
    · exact hold
    · exact hold.removeFromSuperview
  · have hzero := hfresh (Nat.le_refl _)
    obtain ⟨haccepted, hclosed⟩ := Nat.add_eq_zero_iff.mp hzero
    rw [haccepted, hclosed]
    refine (LoadingView.fits_new request).mono fun hc => ⟨hc, fun _ => ?_⟩
    simp [Lobby.setupLoadingView, LoadingView.me, LoadingView.new]

/-- What a step does to the lobby and to the counts. -/
theorem step_eq_some (h : s.step e = some s') :
    s.Reaches e ∧ s.lobby.step e = some s'.lobby ∧
      s'.accepted = countAt s.accepted e.accepts ∧
      s'.closed = countAt s.closed (s.lobby.closes e) := by
  unfold step at h
  split at h
  · next hreaches =>
      obtain ⟨lobby, hlobby, rfl⟩ := Option.map_eq_some_iff.mp h
      exact ⟨hreaches, hlobby, rfl, rfl⟩
  · exact absurd h (by simp)

/-- Nothing is counted where there is no view. -/
theorem Sound.fresh_step (hs : s.Sound) (h : s.step e = some s') (v : ℕ)
    (hv : s'.lobby.views.length ≤ v) : s'.accepted v + s'.closed v = 0 := by
  obtain ⟨-, hlobby, haccepted, hclosed⟩ := step_eq_some h
  have hshows := Lobby.shows_of_step hlobby
  have hlength := Nat.le_trans hshows.length_le hv
  have hzero := hs.fresh v hlength
  rw [haccepted, hclosed]
  cases hshows with
  | stay _ _ _ hcloses haccepts | unheard _ _ _ hcloses haccepts
  | waits _ _ _ _ _ hcloses haccepts =>
      rw [hcloses, haccepts]
      exact hzero
  | setup _ _ _ => exact hzero
  | closes hview _ _ _ _ _ hcloses haccepts =>
      rw [hcloses, haccepts]
      have hlt := (List.getElem?_eq_some_iff.mp hview).1
      rw [countAt, countAt, Function.update_of_ne (by omega)]
      exact hzero
  | accepts hview _ _ _ _ =>
      have hlt := (List.getElem?_eq_some_iff.mp hview).1
      rw [LobbyEvent.accepts, countAt, Function.update_of_ne (by omega)]
      exact hzero

/-- A retained view with a game to be told of has not been accepted. -/
theorem Sound.not_accepted (hs : s.Sound) {v place : ℕ} {rest : List ℕ} {view : LoadingView}
    (hview : s.lobby.views[v]? = some view) (hfound : view.found = place :: rest)
    (hretained : s.Retained v view) : s.accepted v = 0 := by
  have hfits := hs.fits v view hview
  by_contra hne
  obtain ⟨hclose, hquiet⟩ := hfits.accepted hne
  have hcancel : view.cancelGameTimer ≠ true := fun ht => by
    have hzero := hfits.waiting ht
    omega
  rcases hretained with hshown | htimer | hcancel' | hcurrent
  · exact hcancel (hfits.shown hshown)
  · exact absurd (hclose.symm.trans htimer) Bool.false_ne_true
  · exact hcancel hcancel'
  · exact absurd (hfound.symm.trans (hquiet hcurrent).2) (by simp)

/-- **A step keeps what holds of the views and their counts.** -/
theorem Sound.fits_step (hs : s.Sound) (h : s.step e = some s') (v : ℕ) (view : LoadingView)
    (hv : s'.lobby.views[v]? = some view) :
    view.Fits (s'.accepted v) (s'.closed v) (s'.lobby.loadingView view.me = some v)
      (s'.lobby.gameListener view.me = some v) := by
  obtain ⟨hreaches, hlobby, haccepted, hclosed⟩ := step_eq_some h
  cases Lobby.shows_of_step hlobby with
  | stay hviews hloading hlistener hcloses haccepts =>
      rw [hviews] at hv
      rw [hloading, hlistener, haccepted, hclosed, hcloses, haccepts]
      exact hs.fits v view hv
  | setup hviews hloading hlistener =>
      rw [hviews] at hv
      rw [hloading, hlistener, haccepted, hclosed]
      exact fits_setupLoadingView (hs.fits v) (hs.fresh v) hv
  | unheard hviews hloading hlistener hcloses haccepts =>
      rw [hviews] at hv
      rw [hloading, hlistener, haccepted, hclosed, hcloses, haccepts]
      exact fits_removeGameListener
        (fun view hview => (hs.fits v view hview).mono fun hc => ⟨hc.1, id⟩) hv
  | @waits _ w old new _ hold hwaits hviews hloading hlistener hcloses haccepts =>
      rw [hviews] at hv
      rw [hloading, hlistener, haccepted, hclosed, hcloses, haccepts]
      rcases getElem?_set_cases hv with ⟨rfl, rfl⟩ | ⟨-, hother⟩
      · rw [LoadingView.me, hwaits.gameRequest]
        exact (hs.fits v old hold).waits hwaits
      · exact hs.fits v view hother
  | @closes _ w old new _ hold hup hwaits hviews hloading hlistener hcloses haccepts =>
      rw [hviews] at hv
      rw [hloading, hlistener, haccepted, hclosed, hcloses, haccepts, countAt]
      rcases getElem?_set_cases hv with ⟨rfl, rfl⟩ | ⟨hne, hother⟩
      · have hfits := hs.fits v old hold
        have htimer : new.cancelGameTimer = true := by
          rw [hwaits.cancelGameTimer]
          exact hup.elim hfits.shown id
        have hme : new.onClose.me = old.me := congrArg GameRequest.fromId hwaits.gameRequest
        rw [countAt, Function.update_self, hme]
        exact (hfits.waits hwaits).onClose htimer
      · rw [countAt, Function.update_of_ne hne]
        exact hs.fits v view hother
  | @accepts w place rest old _ hold hfound hviews hloading hlistener =>
      rw [hviews] at hv
      rw [hloading, hlistener, haccepted, hclosed, LobbyEvent.accepts, countAt]
      refine fits_removeGameListener (l := { s.lobby with
        views := s.lobby.views.set w (old.resolved rest) }) (fun view hview => ?_) hv
      rcases getElem?_set_cases hview with ⟨rfl, rfl⟩ | ⟨hne, hother⟩
      · have hfits := hs.fits v old hold
        rw [hs.not_accepted hold hfound (hreaches v rfl old hold)] at hfits ⊢
        rw [Function.update_self]
        refine (hfits.accept rest).mono fun hc => ?_
        have hheld := hfits.heard hc.1 (Or.inr (by simp [hfound]))
        exact absurd hheld hc.2
      · rw [Function.update_of_ne hne]
        exact (hs.fits v view hother).mono fun hc => ⟨hc.1, id⟩

/-- The invariant is kept by every event. -/
theorem Sound.step (hs : s.Sound) (h : s.step e = some s') : s'.Sound :=
  ⟨hs.fits_step h, hs.fresh_step h⟩

/-- The invariant holds in every run. -/
theorem sound_of_run (h : Run step init es s) : s.Sound :=
  h.invariant sound_init fun _ _ _ hs _ hstep => hs.step hstep

/-- **Each happens at most once** for a view, in every run. -/
theorem once_of_run (h : Run step init es s) (v : ℕ) : s.accepted v ≤ 1 ∧ s.closed v ≤ 1 := by
  have hs := sound_of_run h
  by_cases hlt : v < s.lobby.views.length
  · have hfits := hs.fits v _ (List.getElem?_eq_getElem hlt)
    exact ⟨hfits.accepted_le, hfits.closed_le⟩
  · have hzero := hs.fresh v (Nat.le_of_not_lt hlt)
    omega

/-- The lobby of a run is reached by the same events. -/
theorem lobby_of_run (h : Run step init es s) : Run Lobby.step Lobby.init es s.lobby := by
  refine h.invariant_events (I := fun es s => Run Lobby.step Lobby.init es s.lobby) RunWhere.nil ?_
  intro es s e s' _ hrun _ hstep
  obtain ⟨-, hlobby, -⟩ := step_eq_some hstep
  exact hrun.snoc trivial hlobby

/-- **Every view is resolved one way only**, and once. -/
def Resolved (s : LoadingViews) : Prop :=
  ∀ v, s.accepted v + s.closed v ≤ 1

/-- A count does not go down. -/
theorem le_countAt (count : ℕ → ℕ) (place : Option ℕ) (v : ℕ) :
    count v ≤ countAt count place v := by
  cases place with
  | none => exact Nat.le_refl _
  | some w =>
      by_cases hv : v = w
      · subst hv
        simp [countAt]
      · simp [countAt, hv]

/-- The counts never fall. -/
theorem Resolved.of_step (hs' : s'.Resolved) (h : s.step e = some s') : s.Resolved := by
  obtain ⟨-, -, haccepted, hclosed⟩ := step_eq_some h
  intro v
  have hle := hs' v
  rw [haccepted, hclosed] at hle
  have h₁ := le_countAt s.accepted e.accepts v
  have h₂ := le_countAt s.closed (s.lobby.closes e) v
  omega

/-- A count that was 0 at a place is 1 after an event there. -/
theorem resolved_countAt {count other : ℕ → ℕ} {v : ℕ} (hle : ∀ w, count w + other w ≤ 1)
    (hzero : count v + other v = 0) (w : ℕ) : countAt count (some v) w + other w ≤ 1 := by
  by_cases hw : w = v
  · subst hw
    simp only [countAt, Function.update_self]
    omega
  · simpa [countAt, hw] using hle w

/-- **A snapshot comes in time exactly when it keeps every view resolved one way only.** -/
theorem Sound.inTime_iff (hs : s.Sound) (hle : s.Resolved) (h : s.step e = some s') :
    s.InTime e ↔ s'.Resolved := by
  obtain ⟨-, hlobby, haccepted, hclosed⟩ := step_eq_some h
  rw [Resolved, haccepted, hclosed]
  cases Lobby.shows_of_step hlobby with
  | stay _ _ _ hcloses haccepts | unheard _ _ _ hcloses haccepts
  | waits _ _ _ _ _ hcloses haccepts =>
      rw [hcloses, haccepts, InTime, haccepts]
      exact iff_of_true (by simp) hle
  | setup _ _ _ => exact iff_of_true (by simp [InTime, LobbyEvent.accepts]) hle
  | @closes _ v view _ _ hview hup _ _ _ _ hcloses haccepts =>
      rw [hcloses, haccepts, InTime, haccepts]
      refine iff_of_true (by simp) fun w => ?_
      have hfits := hs.fits v view hview
      have hzero := hfits.waiting (hup.elim hfits.shown id)
      rw [Nat.add_comm] at hzero ⊢
      exact resolved_countAt (fun w => by simpa [Nat.add_comm] using hle w) hzero w
  | @accepts v _ _ view _ hview _ _ _ _ =>
      have hfits := hs.fits v view hview
      have hiff : s.InTime (.gameAccepted v) ↔ view.cancelGameTimer = true := by
        simp [InTime, LobbyEvent.accepts, hview]
      rw [hiff]
      constructor
      · intro htimer w
        exact resolved_countAt hle (hfits.waiting htimer) w
      · intro hcount
        by_contra hnot
        have hone := hfits.resolved (by simpa using hnot)
        have htwo := hcount v
        have hself : countAt s.accepted (LobbyEvent.gameAccepted v).accepts v =
            s.accepted v + 1 := by simp [LobbyEvent.accepts, countAt]
        have hsame := le_countAt s.closed (s.lobby.closes (.gameAccepted v)) v
        omega

/-- **A loading view is resolved one way only** in exactly the runs in which every snapshot
comes in time. -/
theorem resolved_once (h : Run step init es s) :
    (∀ v, s.accepted v + s.closed v ≤ 1) ↔ RunWhere step InTime init es s := by
  constructor
  · refine h.invariant_events (I := fun es s => s.Resolved → RunWhere step InTime init es s)
      (fun _ => RunWhere.nil) ?_
    intro es s e s' hrun ih _ hstep hs'
    have hle := hs'.of_step hstep
    exact (ih hle).snoc (((sound_of_run hrun).inTime_iff hle hstep).mpr hs') hstep
  · intro hwhere
    have hboth : s.Sound ∧ s.Resolved := by
      refine hwhere.invariant (I := fun s => s.Sound ∧ s.Resolved)
        ⟨sound_init, fun v => Nat.zero_le 1⟩ ?_
      rintro s e s' ⟨hs, hle⟩ hC hstep
      exact ⟨hs.step hstep, (hs.inTime_iff hle hstep).mp hC⟩
    exact hboth.2

/-! ### A game after the close button -/

/-- The first user has invited the second, whose accept looks the request up; then the
close button of the loading view appears. -/
def waiting : List LobbyEvent :=
  Lobby.inviting 0 "request" (Lobby.sampleInvitation "uid1" "uid2" (by decide)) ++
    [.tapAccept 0, .lookedUp 0 false, .enableCancelGame 0]

/-- The game of the accept is created and found. -/
def creating : List LobbyEvent :=
  [.userFetched 0 (some (Lobby.samplePairing "game" "uid2" "uid1" (by decide))),
    .game 0 (.commit .acceptor), .find 0 0 1, .gameAccepted 0]

/-- Without the tap the view is resolved by the game. -/
theorem resolved_once_accepting : ∃ s, Run step init (waiting ++ creating) s ∧
    s.accepted 0 = 1 ∧ ∀ v, s.accepted v + s.closed v ≤ 1 := by
  have hrun : RunWhere step InTime init (waiting ++ creating)
      ((execWhere step InTime init (waiting ++ creating)).get (by decide)) := runWhere_get _
  exact ⟨_, hrun.toRun, by decide, (resolved_once hrun.toRun).mpr hrun⟩

/-- **A game is entered through a view that has been closed.** -/
theorem resolved_twice : ¬ ∀ (es : List LobbyEvent) (s : LoadingViews), Run step init es s →
    ∀ v, s.accepted v + s.closed v ≤ 1 := by
  intro h
  have hrun : Run step init (waiting ++ .close 0 :: creating)
      ((exec step init (waiting ++ .close 0 :: creating)).get (by decide)) := runWhere_get _
  exact absurd (h _ _ hrun 0) (by decide)

end LoadingViews

end RockPaperScissors
