import RockPaperScissors.LoadingViews
import RockPaperScissors.PendingRequests

/-!
# No Request Is Forgotten

A request that is not accepted disappears because its sender's loading view counts to
`waitingGameSeconds` and deletes it then. Nothing else does that, so a request must not be
without a running timer: `requestGameWith` writes the request, and the view is set up only
when the write is acknowledged.

Until a client has issued the deletion of a request, its invitation waits for the
acknowledgement, or a loading view shows the request with its timer running, or that view
has been told of a game. The timer counts its ticks and no others, and at the twentieth the
deletion is issued.

All this is said of clients that go on running, whose writes of requests the backend accepts.
A rejected write has a completion too, which shows no view; and a client that is launched
again has no timers, while the request it has written stays.

## Main results

* `Lobby.sames_of_step`, `Lobby.ticked_of_step`: only ticks change the time of a view.
* `Lobby.invited_of_step`: an invitation waits for its acknowledgement until the view is
  set up.
* `LoadingViews.request_watched`: the invariant, over all runs.
-/

open TransitionSystem

namespace RockPaperScissors

/-- The event is a tick of the view at the place. -/
def LobbyEvent.ticks (v : ℕ) : LobbyEvent → Bool
  | .timerTick w => w = v
  | _ => false

namespace Lobby

/-- Every view is at its place, with its request and its time. -/
def Sames (views views' : List LoadingView) : Prop :=
  ∀ (v : ℕ) (view : LoadingView), views[v]? = some view → ∃ view' : LoadingView,
    views'[v]? = some view' ∧ view'.gameRequest = view.gameRequest ∧
      view'.elapsedSeconds = view.elapsedSeconds

variable {s s' : Lobby} {e : LobbyEvent} {views views' views'' : List LoadingView} {v : ℕ}
  {view view' : LoadingView} {r : GameRequest}

/-- Views are at their places where nothing happens to them. -/
theorem Sames.refl (views : List LoadingView) : Sames views views :=
  fun _ view hview => ⟨view, hview, rfl, rfl⟩

/-- Views that stay at their places twice have stayed there. -/
theorem Sames.trans (h : Sames views views') (h' : Sames views' views'') :
    Sames views views'' := by
  intro v view hview
  obtain ⟨view', hview', hrequest, htime⟩ := h v view hview
  obtain ⟨view'', hview'', hrequest', htime'⟩ := h' v view' hview'
  exact ⟨view'', hview'', hrequest'.trans hrequest, htime'.trans htime⟩

/-- One view changes, but neither its request nor its time. -/
theorem Sames.set (hview : views[v]? = some view)
    (hrequest : view'.gameRequest = view.gameRequest)
    (htime : view'.elapsedSeconds = view.elapsedSeconds) : Sames views (views.set v view') := by
  intro w old hold
  rw [getElem?_set_eq hview]
  split
  · next hw =>
      subst hw
      obtain rfl := Option.some.inj (hview.symm.trans hold)
      exact ⟨view', rfl, hrequest, htime⟩
  · exact ⟨old, hold, rfl, rfl⟩

/-- One view changes so, at whatever place it is. -/
theorem Sames.modify {f : LoadingView → LoadingView} (v : ℕ)
    (hrequest : ∀ view, (f view).gameRequest = view.gameRequest)
    (htime : ∀ view, (f view).elapsedSeconds = view.elapsedSeconds) :
    Sames views (views.modify v f) := by
  intro w old hold
  rw [List.getElem?_modify, hold]
  refine ⟨_, rfl, ?_⟩
  split
  · exact ⟨hrequest old, htime old⟩
  · exact ⟨rfl, rfl⟩

/-- `removeGameListener` leaves requests and times. -/
theorem sames_removeGameListener (s : Lobby) (userId : String) :
    Sames s.views (s.removeGameListener userId).views := by
  unfold removeGameListener
  dsimp only
  split
  · exact Sames.refl s.views
  · exact Sames.modify _ (fun _ => rfl) fun _ => rfl

/-- `setupLoadingView` leaves requests and times of the views there were. -/
theorem sames_setupLoadingView (s : Lobby) (request : GameRequest) :
    Sames s.views (s.setupLoadingView request).views := by
  have hconcat : ∀ {views : List LoadingView} {new : LoadingView},
      Sames views (views ++ [new]) := fun {views new} v view hview =>
    ⟨view, by rw [List.getElem?_append_left (List.getElem?_eq_some_iff.mp hview).1, hview],
      rfl, rfl⟩
  unfold setupLoadingView
  dsimp only
  split
  · exact hconcat
  · next w _ =>
      have hmodify : Sames s.views (s.views.modify w LoadingView.removeFromSuperview) :=
        Sames.modify w (fun _ => rfl) fun _ => rfl
      exact hmodify.trans hconcat

/-- **Only a tick changes the time of a view.** -/
theorem sames_of_step (he : ∀ v, e ≠ .timerTick v) (h : s.step e = some s') :
    Sames s.views s'.views := by
  cases e with
  | timerTick v => exact absurd rfl (he v)
  | enableCancelGame v =>
      obtain ⟨view, hview, h⟩ := Option.bind_eq_some_iff.mp h
      split at h
      · obtain rfl := Option.some.inj h
        exact Sames.set hview rfl rfl
      · exact absurd h (by simp)
  | close v =>
      obtain ⟨view, hview, h⟩ := Option.bind_eq_some_iff.mp h
      split at h
      · obtain rfl := Option.some.inj h
        exact Sames.set hview rfl rfl
      · exact absurd h (by simp)
  | find v place version =>
      obtain ⟨view, hview, h⟩ := Option.bind_eq_some_iff.mp h
      obtain ⟨g, -, h⟩ := Option.bind_eq_some_iff.mp h
      obtain ⟨p, -, h⟩ := Option.bind_eq_some_iff.mp h
      split at h
      · rw [(views_drive h).1]
        exact Sames.set hview rfl rfl
      · exact absurd h (by simp)
  | gameAccepted v =>
      obtain ⟨view, hview, h⟩ := Option.bind_eq_some_iff.mp h
      split at h
      · exact absurd h (by simp)
      · next place rest hfound =>
          obtain ⟨g, -, h⟩ := Option.bind_eq_some_iff.mp h
          obtain ⟨p, -, h⟩ := Option.bind_eq_some_iff.mp h
          have hset : Sames s.views (s.views.set v (view.resolved rest)) := Sames.set hview rfl rfl
          have hremoved := sames_removeGameListener
            { s with views := s.views.set v (view.resolved rest) } view.me
          rw [(views_drive h).1]
          exact hset.trans hremoved
  | gameChecked i error documentID now =>
      obtain ⟨invite, -, h⟩ := Option.bind_eq_some_iff.mp h
      split at h
      · split at h
        · obtain rfl := Option.some.inj h
          exact Sames.refl s.views
        · split at h
          · exact absurd h (by simp)
          · obtain ⟨request, -, rfl⟩ := Option.map_eq_some_iff.mp h
            exact Sames.refl s.views
      · exact absurd h (by simp)
  | requestStarted i =>
      obtain ⟨invite, -, h⟩ := Option.bind_eq_some_iff.mp h
      split at h
      · split at h
        · obtain rfl := Option.some.inj h
          exact sames_setupLoadingView _ _
        · exact absurd h (by simp)
      · exact absurd h (by simp)
  | gameCreated j =>
      obtain ⟨accept, -, h⟩ := Option.bind_eq_some_iff.mp h
      split at h
      · obtain ⟨g, -, h⟩ := Option.bind_eq_some_iff.mp h
        split at h
        · obtain rfl := Option.some.inj h
          exact Sames.refl s.views
        · rw [(views_drive h).1]
          exact sames_removeGameListener _ _
      · exact absurd h (by simp)
  | game place e =>
      simp only [step] at h
      split at h
      · obtain ⟨g, -, h⟩ := Option.bind_eq_some_iff.mp h
        split at h
        · exact (views_drive h).1 ▸ Sames.refl s.views
        · rw [(views_drive h).1]
          exact sames_removeGameListener _ _
      · exact absurd h (by simp)
  | _ =>
      simp only [step, Option.bind_eq_some_iff, Option.map_eq_some_iff] at h
      have hviews : s'.views = s.views := by grind
      exact hviews ▸ Sames.refl s.views

/-- **A tick is one second of its view**, and everything else none. -/
theorem ticked_of_step (h : s.step e = some s') (hview : s.views[v]? = some view) :
    ∃ view' : LoadingView, s'.views[v]? = some view' ∧ view'.gameRequest = view.gameRequest ∧
      view'.elapsedSeconds = view.elapsedSeconds + (e.ticks v).toNat := by
  by_cases he : ∃ w, e = .timerTick w
  · obtain ⟨w, rfl⟩ := he
    obtain ⟨old, hold, h⟩ := Option.bind_eq_some_iff.mp h
    have hset : ∀ new : LoadingView, new.gameRequest = old.gameRequest →
        new.elapsedSeconds = old.elapsedSeconds + 1 → s'.views = s.views.set w new →
        ∃ view' : LoadingView, s'.views[v]? = some view' ∧
          view'.gameRequest = view.gameRequest ∧ view'.elapsedSeconds =
            view.elapsedSeconds + ((LobbyEvent.timerTick w).ticks v).toNat := by
      intro new hrequest htime hviews
      rw [hviews, getElem?_set_eq hold]
      by_cases hv : v = w
      · subst hv
        obtain rfl := Option.some.inj (hold.symm.trans hview)
        exact ⟨new, if_pos rfl, hrequest, by simpa [LobbyEvent.ticks] using htime⟩
      · exact ⟨view, by rw [if_neg hv, hview], rfl, by simp [LobbyEvent.ticks, Ne.symm hv]⟩
    split at h
    · simp only at h
      split at h <;> obtain rfl := Option.some.inj h
      · exact hset (LoadingView.onClose { old with
          elapsedSeconds := old.elapsedSeconds + 1 }) rfl rfl rfl
      · exact hset { old with elapsedSeconds := old.elapsedSeconds + 1 } rfl rfl rfl
    · exact absurd h (by simp)
  · have hne : ∀ w, e ≠ .timerTick w := fun w heq => he ⟨w, heq⟩
    obtain ⟨view', hview', hrequest, htime⟩ := sames_of_step hne h v view hview
    have hnot : e.ticks v = false := by
      cases e with
      | timerTick w => exact absurd rfl (hne w)
      | _ => rfl
    exact ⟨view', hview', hrequest, by rw [htime, hnot]; rfl⟩

/-! ### Invitations -/

/-- An invitation has issued the request, and waits for the acknowledgement. -/
def Invited (s : Lobby) (r : GameRequest) : Prop :=
  ∃ invite ∈ s.invites, invite.stage = .starting r

/-- A loading view shows the request. -/
def Viewed (s : Lobby) (r : GameRequest) : Prop :=
  ∃ (v : ℕ) (view : LoadingView), s.views[v]? = some view ∧ view.gameRequest = r

/-- An invitation that goes on elsewhere, or leaves another stage, waits as before. -/
theorem Invited.set {i : ℕ} {invite new : Invite} (hinvite : s.invites[i]? = some invite)
    (hstage : invite.stage ≠ .starting r) (hs : s.Invited r) :
    ∃ invite' ∈ s.invites.set i new, invite'.stage = .starting r := by
  obtain ⟨old, hold, hstarting⟩ := hs
  obtain ⟨j, hj⟩ := List.getElem?_of_mem hold
  have hne : j ≠ i := by
    rintro rfl
    obtain rfl := Option.some.inj (hinvite.symm.trans hj)
    exact hstage hstarting
  refine ⟨old, List.mem_of_getElem? (i := j) ?_, hstarting⟩
  rw [getElem?_set_eq hinvite, if_neg hne, hj]

/-- **An invitation waits for its acknowledgement until the view is set up.** -/
theorem invited_of_step (h : s.step e = some s') (hr : s.Invited r) :
    s'.Invited r ∨ s'.Viewed r := by
  have hasks {invite : Invite} (hasking : invite.stage.asking = true) :
      invite.stage ≠ .starting r := fun heq => by simp [heq, InviteStage.asking] at hasking
  cases inviteStep_of_step h with
  | made hinvites _ =>
      obtain ⟨invite, hmem, hstage⟩ := hr
      exact Or.inl ⟨invite, hinvites ▸ List.mem_append_left _ hmem, hstage⟩
  | goesOn _ hinvite hasking hinvites _ | starts _ hinvite hasking _ _ hinvites _ =>
      rw [Invited, hinvites]
      exact Or.inl (hr.set hinvite (hasks hasking))
  | @shows _ _ _ _ request _ hinvite hstage hinvites _ hview =>
      by_cases hrequest : request = r
      · subst hrequest
        obtain ⟨v, hv⟩ := List.getElem?_of_mem hview
        exact Or.inr ⟨v, _, hv, rfl⟩
      · rw [Invited, hinvites]
        exact Or.inl (hr.set hinvite (by simpa [hstage] using hrequest))
  | stays _ hinvites _ =>
      rw [Invited, hinvites]
      exact Or.inl hr

/-- **A request that is started belongs to an invitation.** -/
theorem invited_of_starting (h : s.step e = some s') (hr : s.starting e = some r) :
    s'.Invited r := by
  cases e with
  | gameChecked i error documentID now =>
      obtain ⟨invite, hinvite, h⟩ := Option.bind_eq_some_iff.mp h
      obtain ⟨hlt, -⟩ := List.getElem?_eq_some_iff.mp hinvite
      split at h
      · next hstage =>
          simp only [starting, hinvite, Option.bind_some, hstage, if_true] at hr
          split at hr
          · exact absurd hr (by simp)
          · next hfree =>
              rw [if_neg hfree] at h
              split at h
              · exact absurd h (by simp)
              · obtain ⟨request, hrequest, rfl⟩ := Option.map_eq_some_iff.mp h
                obtain rfl := Option.some.inj (hrequest.symm.trans hr)
                exact ⟨_, List.mem_set hlt _, rfl⟩
      · exact absurd h (by simp)
  | _ => exact absurd hr (by simp [starting])

/-! ### Timers -/

/-- Some client has issued the deletion of the request. -/
def Deleted (s : Lobby) (r : GameRequest) : Prop :=
  ∃ userId, .delete r.id ∈ s.requests.issuedBy userId

/-- A deletion that has been issued stays issued. -/
theorem Deleted.step (hs : s.Deleted r) (h : s.step e = some s') : s'.Deleted r := by
  obtain ⟨u, hu⟩ := hs
  refine ⟨u, ?_⟩
  rcases requests_of_step h with ⟨hsame, -⟩ | ⟨w, hcommit, -⟩ | ⟨r', -, -, hissue⟩ |
    ⟨w, id, hissue, -⟩
  · rwa [hsame]
  · rwa [WriteLog.issuedBy_commit hcommit]
  · rw [hissue, WriteLog.issuedBy_issue]
    exact List.mem_append_left _ hu
  · rw [hissue, WriteLog.issuedBy_issue]
    exact List.mem_append_left _ hu

/-- `onClose` issues the deletion of the view's request. -/
theorem deleted_of_closes (h : s.step e = some s') (hcloses : s.closes e = some v)
    (hview : s.views[v]? = some view) : s'.Deleted view.gameRequest := by
  have hissued : ∀ (t : Lobby) (u : String), (t.deleteGameRequest u view.gameRequest).Deleted
      view.gameRequest := fun t u => ⟨u, by
    rw [deleteGameRequest, WriteLog.issuedBy_issue, if_pos rfl]
    exact List.mem_append_right _ (List.mem_singleton.mpr rfl)⟩
  cases e with
  | close w =>
      obtain rfl := Option.some.inj hcloses
      obtain ⟨old, hold, h⟩ := Option.bind_eq_some_iff.mp h
      obtain rfl := Option.some.inj (hold.symm.trans hview)
      split at h
      · obtain rfl := Option.some.inj h
        exact hissued _ _
      · exact absurd h (by simp)
  | timerTick w =>
      obtain ⟨old, hold, h⟩ := Option.bind_eq_some_iff.mp h
      obtain ⟨old', hold', hends⟩ := Option.bind_eq_some_iff.mp hcloses
      obtain rfl := Option.some.inj (hold.symm.trans hold')
      obtain ⟨hlast, hw⟩ := Option.ite_none_right_eq_some.mp hends
      obtain rfl := Option.some.inj hw
      obtain rfl := Option.some.inj (hold.symm.trans hview)
      split at h
      · simp only [if_pos hlast] at h
        obtain rfl := Option.some.inj h
        exact hissued _ _
      · exact absurd h (by simp)
  | _ => exact absurd hcloses (by simp [closes])

/-- A view ticks while its timer runs. -/
theorem timer_of_timerTick (h : s.step (.timerTick v) = some s')
    (hview : s.views[v]? = some view) : view.cancelGameTimer = true := by
  obtain ⟨old, hold, h⟩ := Option.bind_eq_some_iff.mp h
  obtain rfl := Option.some.inj (hold.symm.trans hview)
  split at h
  · assumption
  · exact absurd h (by simp)

/-- `removeGameListener` leaves the timers. -/
theorem timer_removeGameListener {userId : String}
    (h : (s.removeGameListener userId).views[v]? = some view') :
    ∃ view, s.views[v]? = some view ∧ view'.cancelGameTimer = view.cancelGameTimer := by
  unfold removeGameListener at h
  dsimp only at h
  split at h
  · exact ⟨view', h, rfl⟩
  · rw [List.getElem?_modify] at h
    obtain ⟨view, hview, rfl⟩ := Option.map_eq_some_iff.mp h
    refine ⟨view, hview, ?_⟩
    split <;> rfl

/-- **What stops the timer of a view**: `onClose` and `gameAccepted`. -/
theorem Shows.timer (h : s.Shows e s') (hview : s.views[v]? = some view)
    (hview' : s'.views[v]? = some view') :
    view'.cancelGameTimer = view.cancelGameTimer ∧ s.closes e ≠ some v ∨
      view'.cancelGameTimer = false ∧ (s.closes e = some v ∨ e.accepts = some v) := by
  cases h with
  | stay hviews _ _ hcloses _ =>
      rw [hviews] at hview'
      obtain rfl := Option.some.inj (hview.symm.trans hview')
      exact Or.inl ⟨rfl, by simp [hcloses]⟩
  | setup hviews _ _ =>
      rw [hviews] at hview'
      rcases LoadingViews.getElem?_setupLoadingView hview' with ⟨old, hold, hsame⟩ | ⟨hv, -⟩
      · obtain rfl := Option.some.inj (hview.symm.trans hold)
        refine Or.inl ⟨?_, by simp [Lobby.closes]⟩
        rcases hsame with rfl | rfl <;> rfl
      · have hlt := (List.getElem?_eq_some_iff.mp hview).1
        omega
  | unheard hviews _ _ hcloses _ =>
      rw [hviews] at hview'
      obtain ⟨old, hold, hsame⟩ := timer_removeGameListener hview'
      obtain rfl := Option.some.inj (hview.symm.trans hold)
      exact Or.inl ⟨hsame, by simp [hcloses]⟩
  | waits hold hwaits hviews _ _ hcloses _ =>
      rw [hviews] at hview'
      refine Or.inl ⟨?_, by simp [hcloses]⟩
      rcases getElem?_set_cases hview' with ⟨rfl, rfl⟩ | ⟨-, hother⟩
      · obtain rfl := Option.some.inj (hview.symm.trans hold)
        exact hwaits.cancelGameTimer
      · obtain rfl := Option.some.inj (hview.symm.trans hother)
        rfl
  | closes hold _ _ hviews _ _ hcloses _ =>
      rw [hviews] at hview'
      rcases getElem?_set_cases hview' with ⟨rfl, rfl⟩ | ⟨hne, hother⟩
      · exact Or.inr ⟨rfl, Or.inl hcloses⟩
      · obtain rfl := Option.some.inj (hview.symm.trans hother)
        exact Or.inl ⟨rfl, fun heq => hne (Option.some.inj (heq.symm.trans hcloses))⟩
  | accepts hold _ hviews _ _ =>
      rw [hviews] at hview'
      obtain ⟨old, hset, hsame⟩ := timer_removeGameListener hview'
      rcases getElem?_set_cases hset with ⟨rfl, rfl⟩ | ⟨-, hother⟩
      · exact Or.inr ⟨hsame, Or.inr rfl⟩
      · obtain rfl := Option.some.inj (hview.symm.trans hother)
        exact Or.inl ⟨hsame, by simp [Lobby.closes]⟩

/-- A view that was not there is a new one. -/
theorem Shows.new_view (h : s.Shows e s') (hnone : s.views[v]? = none)
    (hview' : s'.views[v]? = some view') : ∃ request, view' = .new request := by
  have hge := List.getElem?_eq_none_iff.mp hnone
  have hlt := (List.getElem?_eq_some_iff.mp hview').1
  cases h with
  | stay hviews _ _ _ _ =>
      rw [hviews] at hlt
      omega
  | setup hviews _ _ =>
      rw [hviews] at hview'
      rcases LoadingViews.getElem?_setupLoadingView hview' with ⟨old, hold, -⟩ | ⟨-, hnew⟩
      · exact absurd (hnone.symm.trans hold) (by simp)
      · exact ⟨_, hnew⟩
  | unheard hviews _ _ _ _ =>
      rw [hviews, length_removeGameListener] at hlt
      omega
  | waits _ _ hviews _ _ _ _ =>
      rw [hviews, List.length_set] at hlt
      omega
  | closes _ _ _ hviews _ _ _ _ =>
      rw [hviews, List.length_set] at hlt
      omega
  | accepts _ _ hviews _ _ =>
      rw [hviews, length_removeGameListener, List.length_set] at hlt
      omega

end Lobby

namespace LoadingViews

/-- The timer of a view runs until it has counted to `waitingGameSeconds`, unless the view has
been told of a game or the deletion of its request has been issued. -/
structure Timed (s : LoadingViews) (v : ℕ) (view : LoadingView) : Prop where
  running : view.cancelGameTimer = true → view.elapsedSeconds < waitingGameSeconds
  stopped : view.cancelGameTimer = false →
    s.accepted v ≠ 0 ∨ s.lobby.Deleted view.gameRequest
  elapsed : view.elapsedSeconds ≤ waitingGameSeconds
  last : view.elapsedSeconds = waitingGameSeconds → s.lobby.Deleted view.gameRequest

/-- **The request is watched**: its invitation waits for the acknowledgement, a loading view
with a running timer shows it or has been told of a game, or its deletion has been issued. -/
def Watched (s : LoadingViews) (r : GameRequest) : Prop :=
  s.lobby.Invited r ∨ s.lobby.Deleted r ∨
    ∃ (v : ℕ) (view : LoadingView), s.lobby.views[v]? = some view ∧ view.gameRequest = r ∧
      (view.cancelGameTimer = true ∨ s.accepted v ≠ 0)

/-- The invariant. -/
structure Watches (es : List LobbyEvent) (s : LoadingViews) : Prop where
  started : ∀ r ∈ s.lobby.started, s.lobby.Invited r ∨ s.lobby.Viewed r
  timed : ∀ (v : ℕ) (view : LoadingView), s.lobby.views[v]? = some view → s.Timed v view
  ticks : ∀ (v : ℕ) (view : LoadingView), s.lobby.views[v]? = some view →
    es.countP (LobbyEvent.ticks v) = view.elapsedSeconds
  fresh : ∀ v, s.lobby.views[v]? = none → es.countP (LobbyEvent.ticks v) = 0

variable {s s' : LoadingViews} {e : LobbyEvent} {es : List LobbyEvent} {v : ℕ}
  {view view' : LoadingView} {r : GameRequest}

/-- A new view has counted no tick. -/
theorem timed_new (s : LoadingViews) (v : ℕ) (request : GameRequest) :
    s.Timed v (.new request) where
  running := fun _ => by simp [LoadingView.new, waitingGameSeconds]
  stopped := fun h => absurd h (by simp [LoadingView.new])
  elapsed := Nat.zero_le _
  last := fun h => absurd h (by simp [LoadingView.new, waitingGameSeconds])

/-- **A step keeps the timer of a view.** -/
theorem Timed.step (hs : s.Timed v view) (h : s.step e = some s')
    (hview : s.lobby.views[v]? = some view) (hview' : s'.lobby.views[v]? = some view') :
    s'.Timed v view' := by
  obtain ⟨-, hlobby, haccepted, -⟩ := step_eq_some h
  obtain ⟨new, hnew, hrequest, helapsed⟩ := Lobby.ticked_of_step hlobby hview
  obtain rfl := Option.some.inj (hview'.symm.trans hnew)
  have hkeep : s.lobby.Deleted view.gameRequest → s'.lobby.Deleted view'.gameRequest :=
    fun hdeleted => hrequest ▸ hdeleted.step hlobby
  have hdeletes : s.lobby.closes e = some v → s'.lobby.Deleted view'.gameRequest :=
    fun hcloses => hrequest ▸ Lobby.deleted_of_closes hlobby hcloses hview
  have htick : e.ticks v = true →
      view.cancelGameTimer = true ∧ (view'.elapsedSeconds = waitingGameSeconds →
        s.lobby.closes e = some v) := by
    intro ht
    cases e with
    | timerTick w =>
        obtain rfl : w = v := of_decide_eq_true ht
        refine ⟨Lobby.timer_of_timerTick hlobby hview, fun hlast => ?_⟩
        rw [helapsed, ht] at hlast
        simpa [Lobby.closes, hview] using hlast
    | _ => exact absurd ht (by simp [LobbyEvent.ticks])
  refine ⟨fun htimer => ?_, fun hstopped => ?_, ?_, fun hlast => ?_⟩
  · rcases (Lobby.shows_of_step hlobby).timer hview hview' with ⟨hsame, hnot⟩ | ⟨hoff, -⟩
    · have hlt := hs.running (hsame ▸ htimer)
      cases ht : e.ticks v with
      | false => simpa [helapsed, ht] using hlt
      | true =>
          have hne : view'.elapsedSeconds ≠ waitingGameSeconds :=
            fun hlast => hnot ((htick ht).2 hlast)
          rw [helapsed, ht] at hne ⊢
          simp only [Bool.toNat_true] at hne ⊢
          omega
    · exact absurd (hoff.symm.trans htimer) (by simp)
  · rcases (Lobby.shows_of_step hlobby).timer hview hview' with ⟨hsame, -⟩ | ⟨-, hends⟩
    · refine (hs.stopped (hsame ▸ hstopped)).imp (fun hne => ?_) hkeep
      have hle := le_countAt s.accepted e.accepts v
      rw [haccepted]
      omega
    · rcases hends with hcloses | haccepts
      · exact Or.inr (hdeletes hcloses)
      · left
        rw [haccepted, haccepts]
        simp [countAt]
  · cases ht : e.ticks v with
    | false => simpa [helapsed, ht] using hs.elapsed
    | true =>
        have hlt := hs.running (htick ht).1
        rw [helapsed, ht]
        exact hlt
  · cases ht : e.ticks v with
    | false => exact hkeep (hs.last (by simpa [helapsed, ht] using hlast))
    | true => exact hdeletes ((htick ht).2 hlast)

/-- **A step keeps the invariant.** -/
theorem Watches.step (hs : Watches es s) (h : s.step e = some s') : Watches (es ++ [e]) s' := by
  obtain ⟨-, hlobby, -, -⟩ := step_eq_some h
  have hshows := Lobby.shows_of_step hlobby
  have hviewed : ∀ r, s.lobby.Viewed r → s'.lobby.Viewed r := by
    rintro r ⟨v, view, hview, rfl⟩
    obtain ⟨view', hview', hrequest, -⟩ := Lobby.ticked_of_step hlobby hview
    exact ⟨v, view', hview', hrequest⟩
  have hcount : ∀ v, (es ++ [e]).countP (LobbyEvent.ticks v) =
      es.countP (LobbyEvent.ticks v) + (e.ticks v).toNat := by
    intro v
    rw [List.countP_append, List.countP_singleton]
    cases e.ticks v <;> rfl
  have hidle : ∀ v, s.lobby.views[v]? = none → e.ticks v = false := by
    intro v hnone
    cases e with
    | timerTick w =>
        obtain ⟨old, hold, -⟩ := Option.bind_eq_some_iff.mp hlobby
        refine decide_eq_false fun heq => ?_
        rw [← heq, hold] at hnone
        exact absurd hnone (by simp)
    | _ => rfl
  refine ⟨fun r hr => ?_, fun v view' hview' => ?_, fun v view' hview' => ?_, fun v hnone => ?_⟩
  · rw [Lobby.started_of_step hlobby] at hr
    rcases List.mem_append.mp hr with hold | hnew
    · rcases hs.started r hold with hinvited | hview
      · exact Lobby.invited_of_step hlobby hinvited
      · exact Or.inr (hviewed r hview)
    · exact Or.inl (Lobby.invited_of_starting hlobby (Option.mem_toList.mp hnew))
  · cases hview : s.lobby.views[v]? with
    | some view => exact (hs.timed v view hview).step h hview hview'
    | none =>
        obtain ⟨request, rfl⟩ := hshows.new_view hview hview'
        exact timed_new s' v request
  · rw [hcount]
    cases hview : s.lobby.views[v]? with
    | some view =>
        obtain ⟨new, hnew, -, helapsed⟩ := Lobby.ticked_of_step hlobby hview
        obtain rfl := Option.some.inj (hview'.symm.trans hnew)
        rw [hs.ticks v view hview, helapsed]
    | none =>
        obtain ⟨request, rfl⟩ := hshows.new_view hview hview'
        rw [hs.fresh v hview, hidle v hview]
        rfl
  · have hlength := hshows.length_le
    have hge := List.getElem?_eq_none_iff.mp hnone
    have hold : s.lobby.views[v]? = none := List.getElem?_eq_none_iff.mpr (by omega)
    rw [hcount, hs.fresh v hold, hidle v hold]
    rfl

/-- There is nothing to watch at first. -/
theorem watches_init : Watches [] init :=
  ⟨by simp [init, Lobby.init], by simp [init, Lobby.init], by simp [init, Lobby.init],
    fun _ _ => rfl⟩

/-- **No request is forgotten**, as long as no write of a request is rejected and no client is
launched again. In every run every request that has been started is watched; a view has
counted the ticks of its timer, at most `waitingGameSeconds` of them, and has issued the
deletion of its request with the last one. -/
theorem request_watched (h : Run step init es s) :
    (∀ r ∈ s.lobby.started, s.Watched r) ∧
      ∀ (v : ℕ) (view : LoadingView), s.lobby.views[v]? = some view →
        es.countP (LobbyEvent.ticks v) = view.elapsedSeconds ∧
        view.elapsedSeconds ≤ waitingGameSeconds ∧
        (view.elapsedSeconds = waitingGameSeconds → s.lobby.Deleted view.gameRequest) := by
  have hs : Watches es s := h.invariant_events (I := Watches) watches_init
    fun _ _ _ _ _ ht _ hstep => ht.step hstep
  refine ⟨fun r hr => ?_, fun v view hview => ?_⟩
  · rcases hs.started r hr with hinvited | ⟨v, view, hview, rfl⟩
    · exact Or.inl hinvited
    · cases htimer : view.cancelGameTimer with
      | true => exact Or.inr (Or.inr ⟨v, view, hview, rfl, Or.inl htimer⟩)
      | false =>
          rcases (hs.timed v view hview).stopped htimer with haccepted | hdeleted
          · exact Or.inr (Or.inr ⟨v, view, hview, rfl, Or.inr haccepted⟩)
          · exact Or.inr (Or.inl hdeleted)
  · have htimed := hs.timed v view hview
    exact ⟨hs.ticks v view hview, htimed.elapsed, htimed.last⟩

/-- The first user invites the second, who does not answer. -/
def unanswered : List LobbyEvent :=
  Lobby.inviting 0 "request" (Lobby.sampleInvitation "uid1" "uid2" Lobby.uid2_ne_uid1.symm) ++
    List.replicate 20 (.timerTick 0)

/-- The request of `unanswered` is watched, and its deletion has been issued. -/
theorem request_watched_unanswered : ∃ s r, Run step init unanswered s ∧ s.lobby.started = [r] ∧
    s.Watched r ∧ s.lobby.Deleted r := by
  have hrun : Run step init unanswered ((exec step init unanswered).get (by decide)) :=
    runWhere_get _
  obtain ⟨hwatched, hviews⟩ := request_watched hrun
  exact ⟨_, _, hrun, rfl, hwatched _ List.mem_cons_self,
    (hviews 0 _ rfl).2.2 (by decide)⟩

end LoadingViews

end RockPaperScissors
