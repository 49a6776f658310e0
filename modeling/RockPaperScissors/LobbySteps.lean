import RockPaperScissors.Lobby

/-!
# What Happens to One Request, One Accept, One Game, One View

`Lobby.Step` lists what an event does to the whole lobby. The statements here are about
one part of it at a time, which is what the invariants are about: the writes of requests,
one invitation (`InviteStep`), one accept (`Next`), one game (`Advances`) and one loading view.

## Main results

* `Step.requests`, `inviteStep_of_step`, `Step.accepts`, `Step.games`, `Step.views`: how each
  part can change.
* `Step.getElem?_games`: a game stays at its place.
* `session_of_run`: every game of a reachable lobby is a reachable session, so what has been
  proved of sessions holds of it.
-/

open TransitionSystem

namespace RockPaperScissors

/-- The invitation waits for an answer, and may start a request. -/
def InviteStage.asking : InviteStage → Bool
  | checkingRequest => true
  | checkingGame => true
  | starting _ => false
  | ended => false

namespace Lobby

variable {s s' : Lobby} {e : LobbyEvent}

/-! ### Requests -/

/-- The requests change by commits, starts and deletes. -/
theorem Step.requests (h : Step s e s') :
    (s'.requests = s.requests ∧ s'.started = s.started) ∨
      (∃ u, e = .commitRequest u ∧ s.requests.commit u = some s'.requests ∧
        s'.started = s.started) ∨
      (∃ r : GameRequest, (∀ r' ∈ s.started, r'.id ≠ r.id) ∧ r.fromId ≠ r.toId ∧
        s'.requests = s.requests.issue r.fromId [.start r] ∧
        s'.started = s.started ++ [r]) ∨
      ∃ u id, s'.requests = s.requests.issue u [.delete id] ∧ s'.started = s.started := by
  cases h with
  | quiet _ | shown _ _ | tapped _ | stopped _ _ | lookedUp _ _ _ | created _ _ _ _
  | rejected _ _ | found _ _ _ _ _ | entered _ _ _ _ _ _ | played _ _ _ =>
      exact Or.inl ⟨rfl, rfl⟩
  | committed hcommit => exact Or.inr (Or.inl ⟨_, rfl, hcommit, rfl⟩)
  | started hfresh hne => exact Or.inr (Or.inr (Or.inl ⟨_, hfresh, hne, rfl, rfl⟩))
  | failed _ _ _ _ | completed _ _ _ _ | closed _ _ =>
      exact Or.inr (Or.inr (Or.inr ⟨_, _, rfl, rfl⟩))

/-- Started requests stay started. -/
theorem Step.subset_started (h : Step s e s') : s.started ⊆ s'.started := by
  rcases h.requests with ⟨-, heq⟩ | ⟨-, -, -, heq⟩ | ⟨r, -, -, -, heq⟩ | ⟨-, -, -, heq⟩
  · rw [heq]
    exact fun _ hr => hr
  · rw [heq]
    exact fun _ hr => hr
  · rw [heq]
    exact List.subset_append_left _ _
  · rw [heq]
    exact fun _ hr => hr

/-! ### Invitations -/

/-- **What an event does to the invitations**: one is made, goes on, starts a request or shows
its loading view, or nothing. -/
inductive InviteStep (s : Lobby) : LobbyEvent → Lobby → Prop
  | made {invitation : Invitation} {s' : Lobby} :
      s'.invites = s.invites ++ [⟨invitation, .checkingRequest⟩] → s'.started = s.started →
      InviteStep s (.invite invitation) s'
  | goesOn {e : LobbyEvent} {s' : Lobby} {i : ℕ} {invite : Invite} {stage : InviteStage} :
      (∀ invitation, e ≠ .invite invitation) → s.invites[i]? = some invite →
      invite.stage.asking = true →
      s'.invites = s.invites.set i { invite with stage } → s'.started = s.started →
      InviteStep s e s'
  | starts {e : LobbyEvent} {s' : Lobby} {i : ℕ} {invite : Invite} {request : GameRequest} :
      (∀ invitation, e ≠ .invite invitation) → s.invites[i]? = some invite →
      invite.stage.asking = true → request.fromId = invite.localUserId →
      request.toId = invite.userId →
      s'.invites = s.invites.set i { invite with stage := .starting request } →
      s'.started = s.started ++ [request] → InviteStep s e s'
  | shows {e : LobbyEvent} {s' : Lobby} {i : ℕ} {invite : Invite} {request : GameRequest} :
      (∀ invitation, e ≠ .invite invitation) → s.invites[i]? = some invite →
      invite.stage = .starting request →
      s'.invites = s.invites.set i { invite with stage := .ended } → s'.started = s.started →
      .new request ∈ s'.views → InviteStep s e s'
  | stays {e : LobbyEvent} {s' : Lobby} : (∀ invitation, e ≠ .invite invitation) →
      s'.invites = s.invites → s'.started = s.started → InviteStep s e s'

/-- The step function does to the invitations only what is listed. -/
theorem inviteStep_of_step (h : s.step e = some s') : InviteStep s e s' := by
  cases e with
  | invite invitation =>
      obtain rfl := Option.some.inj h
      exact InviteStep.made rfl rfl
  | requestChecked i error =>
      obtain ⟨invite, hinvite, h⟩ := Option.bind_eq_some_iff.mp h
      split at h
      · next hstage =>
          obtain rfl := Option.some.inj h
          exact InviteStep.goesOn (by simp) hinvite (by rw [hstage, InviteStage.asking]) rfl rfl
      · exact absurd h (by simp)
  | gameChecked i error documentID now =>
      obtain ⟨invite, hinvite, h⟩ := Option.bind_eq_some_iff.mp h
      split at h
      · next hstage =>
          have hasking : invite.stage.asking = true := by rw [hstage, InviteStage.asking]
          split at h
          · obtain rfl := Option.some.inj h
            exact InviteStep.goesOn (by simp) hinvite hasking rfl rfl
          · split at h
            · exact absurd h (by simp)
            · obtain ⟨request, hrequest, rfl⟩ := Option.map_eq_some_iff.mp h
              obtain ⟨hfrom, hto, -⟩ := createGameRequest_eq_some hrequest
              exact InviteStep.starts (by simp) hinvite hasking
                (Option.some.inj (invite.localUser_id.symm.trans hfrom)).symm hto rfl rfl
      · exact absurd h (by simp)
  | requestStarted i =>
      obtain ⟨invite, hinvite, h⟩ := Option.bind_eq_some_iff.mp h
      split at h
      · next request hstage =>
          split at h
          · obtain rfl := Option.some.inj h
            exact InviteStep.shows (by simp) hinvite hstage rfl rfl
              (List.mem_append_right _ (List.mem_singleton.mpr rfl))
          · exact absurd h (by simp)
      · exact absurd h (by simp)
  | find v place version =>
      obtain ⟨view, -, h⟩ := Option.bind_eq_some_iff.mp h
      obtain ⟨g, -, h⟩ := Option.bind_eq_some_iff.mp h
      obtain ⟨p, -, h⟩ := Option.bind_eq_some_iff.mp h
      split at h
      · obtain ⟨games, -, rfl⟩ := drive_eq_some h
        exact InviteStep.stays (by simp) rfl rfl
      · exact absurd h (by simp)
  | gameAccepted v =>
      obtain ⟨view, -, h⟩ := Option.bind_eq_some_iff.mp h
      split at h
      · exact absurd h (by simp)
      · obtain ⟨g, -, h⟩ := Option.bind_eq_some_iff.mp h
        obtain ⟨p, -, h⟩ := Option.bind_eq_some_iff.mp h
        obtain ⟨games, -, rfl⟩ := drive_eq_some h
        exact InviteStep.stays (by simp) rfl rfl
  | _ =>
      have hsame : s'.invites = s.invites ∧ s'.started = s.started := by
        simp only [step, Option.bind_eq_some_iff, Option.map_eq_some_iff] at h
        grind [drive_eq_some, removeGameListener, deleteGameRequest, onClose]
      exact InviteStep.stays (by simp) hsame.1 hsame.2

/-! ### Accepts -/

/-- The next stage of the accept at a place. -/
inductive Next (s : Lobby) (a : Accept) (j : ℕ) : LobbyEvent → Lobby → AcceptStage → Prop
  | stops {e : LobbyEvent} {s' : Lobby} : a.stage.place? = none → Next s a j e s' .stopped
  | finds {s' : Lobby} {r : GameRequest} : a.stage = .lookingUp →
      getGameRequestWith (s.requestsSeenBy a.localUserId) a.requestId = some r →
      Next s a j (.lookedUp j false) s' (.fetchingUser r)
  | creates {s' : Lobby} {r : GameRequest} {pairing : Pairing} :
      a.stage = .fetchingUser r →
      s'.games = s.games ++ [⟨pairing, Session.init pairing, r,
        (getGameRequestWith s.storedRequests r.id).isSome, false⟩] →
      Next s a j (.userFetched j (some pairing)) s' (.creating r s.games.length)
  | completes {s' : Lobby} {r : GameRequest} {place : ℕ} :
      a.stage = .creating r place → .delete r.id ∈ s'.requests.outbox a.localUserId →
      (∀ g, s.games[place]? = some g → g.rejected = false → g.session.stored.isSome) →
      Next s a j (.gameCreated j) s' (.completed r place)

/-- The accepts change by taps and by the next stage of one of them. -/
theorem Step.accepts (h : Step s e s') :
    s'.accepts = s.accepts ∨
      (∃ r ∈ s.started, s'.accepts = s.accepts ++ [⟨r.id, r.toId, .lookingUp⟩]) ∨
      ∃ (j : ℕ) (a : Accept) (stage : AcceptStage), s.accepts[j]? = some a ∧
        s'.accepts = s.accepts.set j { a with stage } ∧ s.Next a j e s' stage := by
  cases h with
  | quiet _ | started _ _ | shown _ _ | committed _ | rejected _ _ | closed _ _
  | found _ _ _ _ _ | entered _ _ _ _ _ _ | played _ _ _ => exact Or.inl rfl
  | tapped hrequest => exact Or.inr (Or.inl ⟨_, hrequest, rfl⟩)
  | stopped haccept hplace =>
      exact Or.inr (Or.inr ⟨_, _, _, haccept, rfl, Next.stops hplace⟩)
  | lookedUp haccept hstage hfound =>
      exact Or.inr (Or.inr ⟨_, _, _, haccept, rfl, Next.finds hstage hfound⟩)
  | created haccept hstage _ _ =>
      exact Or.inr (Or.inr ⟨_, _, _, haccept, rfl, Next.creates hstage rfl⟩)
  | failed haccept hstage hg hrejected =>
      refine Or.inr (Or.inr ⟨_, _, _, haccept, rfl, Next.completes hstage (by simp) ?_⟩)
      intro g hg' hnot
      obtain rfl := Option.some.inj (hg.symm.trans hg')
      exact absurd (hrejected.symm.trans hnot) (by simp)
  | completed haccept hstage hdrives _ =>
      refine Or.inr (Or.inr ⟨_, _, _, haccept, rfl, Next.completes hstage (by simp) ?_⟩)
      intro g hg' _
      obtain ⟨g, session, hg, -, hsession, -⟩ := hdrives
      obtain rfl := Option.some.inj (hg.symm.trans hg')
      cases Session.step_of_step_eq hsession with
      | completeCreate _ hstored => exact hstored

/-- An accept was there, or was just tapped, or is in the next stage. -/
theorem Step.mem_accepts (h : Step s e s') {a' : Accept} (ha' : a' ∈ s'.accepts) :
    a' ∈ s.accepts ∨ a'.stage = .lookingUp ∨
      ∃ (j : ℕ) (a : Accept) (stage : AcceptStage), a ∈ s.accepts ∧
        a' = { a with stage } ∧ s.Next a j e s' stage := by
  rcases h.accepts with heq | ⟨r, -, heq⟩ | ⟨j, a, stage, ha, heq, hnext⟩ <;> rw [heq] at ha'
  · exact Or.inl ha'
  · rcases List.mem_append.mp ha' with hold | hnew
    · exact Or.inl hold
    · obtain rfl := List.mem_singleton.mp hnew
      exact Or.inr (Or.inl rfl)
  · rcases List.mem_or_eq_of_mem_set ha' with hold | rfl
    · exact Or.inl hold
    · exact Or.inr (Or.inr ⟨j, a, stage, List.mem_of_getElem? ha, rfl, hnext⟩)

/-- An accept that has a request had it before, or has just found it. -/
theorem Step.request? (h : Step s e s') {i : ℕ} {a' : Accept} {r : GameRequest}
    (hi : s'.accepts[i]? = some a') (hr : a'.stage.request? = some r) :
    (∃ a, s.accepts[i]? = some a ∧ a.stage.request? = some r) ∨
      ∃ a, e = .lookedUp i false ∧ s.accepts[i]? = some a ∧ a.stage = .lookingUp ∧
        getGameRequestWith (s.requestsSeenBy a.localUserId) a.requestId = some r := by
  rcases h.accepts with heq | ⟨r', -, heq⟩ | ⟨j, a, stage, ha, heq, hnext⟩ <;> rw [heq] at hi
  · exact Or.inl ⟨a', hi, hr⟩
  · rcases getElem?_concat_cases hi with hold | ⟨-, rfl⟩
    · exact Or.inl ⟨a', hold, hr⟩
    · exact absurd hr (by simp [AcceptStage.request?])
  · rcases getElem?_set_cases hi with ⟨rfl, rfl⟩ | ⟨-, hold⟩
    · cases hnext with
      | stops _ => exact absurd hr (by simp [AcceptStage.request?])
      | finds hstage hfound =>
          obtain rfl := Option.some.inj hr
          exact Or.inr ⟨a, rfl, ha, hstage, hfound⟩
      | creates hstage _ | completes hstage _ _ =>
          exact Or.inl ⟨a, ha, by rw [hstage]; exact hr⟩
    · exact Or.inl ⟨a', hold, hr⟩

/-- An accept that has created a game goes on with it. -/
theorem Step.exists_place? (h : Step s e s') {a : Accept} {r : GameRequest} {place : ℕ}
    (ha : a ∈ s.accepts) (hr : a.stage.request? = some r)
    (hplace : a.stage.place? = some place) :
    ∃ a' ∈ s'.accepts, a'.stage.request? = some r ∧ a'.stage.place? = some place := by
  rcases h.accepts with heq | ⟨r', -, heq⟩ | ⟨j, b, stage, hb, heq, hnext⟩ <;> rw [heq]
  · exact ⟨a, ha, hr, hplace⟩
  · exact ⟨a, List.mem_append_left _ ha, hr, hplace⟩
  · obtain ⟨i, hi⟩ := List.mem_iff_getElem?.mp ha
    by_cases hij : j = i
    · subst hij
      obtain rfl := Option.some.inj (hb.symm.trans hi)
      have hlt : j < s.accepts.length := (List.getElem?_eq_some_iff.mp hb).1
      refine ⟨{ b with stage }, List.mem_of_getElem? (List.getElem?_set_self hlt), ?_⟩
      cases hnext with
      | stops hnone => exact absurd (hplace.symm.trans hnone) (by simp)
      | finds hstage _ | creates hstage _ =>
          rw [hstage] at hplace
          exact absurd hplace (by simp [AcceptStage.place?])
      | completes hstage _ _ =>
          rw [hstage] at hr hplace
          exact ⟨hr, hplace⟩
    · refine ⟨a, List.mem_of_getElem? (i := i) ?_, hr, hplace⟩
      rw [List.getElem?_set_ne hij, hi]

/-! ### Games -/

/-- What an event makes of the game at a place. -/
inductive Advances (s : Lobby) (e : LobbyEvent) (place : ℕ) (g : LobbyGame) :
    LobbyGame → Prop
  | stays : Advances s e place g g
  | steps {e' : Event} {session : Session} : s.driven e = some (place, e') →
      g.rejected = false → g.session.step g.pairing e' = some session →
      Advances s e place g { g with session }
  | rejected : e = .rejectGame place → g.session.store.log = [] →
      Advances s e place g { g with rejected := true }

variable {place : ℕ} {g g' : LobbyGame}

/-- A game stays between its users. -/
@[simp] theorem Advances.pairing (h : s.Advances e place g g') : g'.pairing = g.pairing := by
  cases h <;> rfl

/-- A game stays the game of its request. -/
@[simp] theorem Advances.gameRequest (h : s.Advances e place g g') :
    g'.gameRequest = g.gameRequest := by
  cases h <;> rfl

/-- A game was created from a stored request or not, for good. -/
@[simp] theorem Advances.requestStored (h : s.Advances e place g g') :
    g'.requestStored = g.requestStored := by
  cases h <;> rfl

/-- A rejection is not taken back. -/
theorem Advances.not_rejected (h : s.Advances e place g g') (hg' : g'.rejected = false) :
    g.rejected = false := by
  cases h with
  | stays => exact hg'
  | steps _ hrejected _ => exact hrejected
  | rejected _ _ => exact absurd hg' (by simp)

/-- A stored game stays stored. -/
theorem Advances.isSome_stored (h : s.Advances e place g g')
    (hg : g.session.stored.isSome) : g'.session.stored.isSome := by
  cases h with
  | stays => exact hg
  | steps _ _ hsession => exact (Session.step_of_step_eq hsession).isSome_stored hg
  | rejected _ _ => exact hg

/-- The games that a step of one of them leaves. -/
theorem Drives.advances {e' : Event} {place' : ℕ} {games : List LobbyGame}
    (h : Drives s.games place e' games) (hdriven : s.driven e = some (place, e'))
    (hg' : games[place']? = some g') :
    ∃ g, s.games[place']? = some g ∧ s.Advances e place' g g' := by
  obtain ⟨g, session, hg, hrejected, hsession, rfl⟩ := h
  rcases getElem?_set_cases hg' with ⟨rfl, rfl⟩ | ⟨-, hold⟩
  · exact ⟨g, hg, Advances.steps hdriven hrejected hsession⟩
  · exact ⟨g', hold, Advances.stays⟩

/-- **A game was there and has advanced, or was just created.** -/
theorem Step.games (h : Step s e s') (hg' : s'.games[place]? = some g') :
    (∃ g, s.games[place]? = some g ∧ s.Advances e place g g') ∨
      ∃ (j : ℕ) (a : Accept) (r : GameRequest) (pairing : Pairing),
        e = .userFetched j (some pairing) ∧ s.accepts[j]? = some a ∧
        a.stage = .fetchingUser r ∧ pairing.userId .acceptor = a.localUserId ∧
        pairing.userId .requester = r.fromId ∧ place = s.games.length ∧
        s'.accepts = s.accepts.set j { a with stage := .creating r place } ∧
        g' = ⟨pairing, Session.init pairing, r,
          (getGameRequestWith s.storedRequests r.id).isSome, false⟩ := by
  cases h with
  | quiet _ | started _ _ | shown _ _ | committed _ | tapped _ | stopped _ _
  | lookedUp _ _ _ | failed _ _ _ _ | closed _ _ => exact Or.inl ⟨g', hg', Advances.stays⟩
  | created haccept hstage hacceptor hrequester =>
      rcases getElem?_concat_cases hg' with hold | ⟨rfl, rfl⟩
      · exact Or.inl ⟨g', hold, Advances.stays⟩
      · exact Or.inr ⟨_, _, _, _, rfl, haccept, hstage, hacceptor, hrequester, rfl, rfl,
          rfl⟩
  | rejected hg hlog =>
      left
      rcases getElem?_set_cases hg' with ⟨rfl, rfl⟩ | ⟨-, hold⟩
      · exact ⟨_, hg, Advances.rejected rfl hlog⟩
      · exact ⟨g', hold, Advances.stays⟩
  | completed haccept hstage hdrives _ =>
      refine Or.inl (hdrives.advances ?_ hg')
      simp [driven, haccept, hstage]
  | found hview _ hg hp hdrives =>
      refine Or.inl (hdrives.advances ?_ hg')
      simp [driven, hview, hg, hp]
  | entered hview hhead hg hp hdrives _ =>
      refine Or.inl (hdrives.advances ?_ hg')
      simp [driven, hview, hhead, hg, hp]
  | played _ hdrives _ => exact Or.inl (hdrives.advances rfl hg')

/-- **Games stay at their places.** -/
theorem Step.length_games (h : Step s e s') : s.games.length ≤ s'.games.length := by
  cases h with
  | quiet _ | started _ _ | shown _ _ | committed _ | tapped _ | stopped _ _
  | lookedUp _ _ _ | failed _ _ _ _ | closed _ _ => exact le_refl _
  | created _ _ _ _ => simp
  | rejected _ _ => simp
  | completed _ _ hdrives _ | found _ _ _ _ hdrives | entered _ _ _ _ hdrives _
  | played _ hdrives _ =>
      obtain ⟨g, session, -, -, -, rfl⟩ := hdrives
      simp

/-- Every game stays at its place. -/
theorem Step.getElem?_games (h : Step s e s') (hg : s.games[place]? = some g) :
    ∃ g', s'.games[place]? = some g' ∧ s.Advances e place g g' := by
  have hlt : place < s.games.length := (List.getElem?_eq_some_iff.mp hg).1
  have hlt' : place < s'.games.length := lt_of_lt_of_le hlt h.length_games
  have hg' : s'.games[place]? = some s'.games[place] := List.getElem?_eq_getElem hlt'
  rcases h.games hg' with ⟨g₀, hg₀, hadv⟩ | ⟨-, -, -, -, -, -, -, -, -, hplace, -, -⟩
  · obtain rfl := Option.some.inj (hg.symm.trans hg₀)
    exact ⟨_, hg', hadv⟩
  · omega

/-- **What the sessions of a lobby have in common.** A property of sessions that holds of
new ones and is kept by the event a session takes part in holds of every game. -/
theorem Step.sessions {φ : Pairing → Session → Prop} (h : Step s e s')
    (hs : ∀ g ∈ s.games, φ g.pairing g.session) (hinit : ∀ P, φ P (Session.init P))
    (hstep : ∀ (place : ℕ) (g : LobbyGame) (e' : Event) (session : Session),
      s.games[place]? = some g → s.driven e = some (place, e') → φ g.pairing g.session →
      g.session.step g.pairing e' = some session → φ g.pairing session) :
    ∀ g' ∈ s'.games, φ g'.pairing g'.session := by
  intro g' hg'
  obtain ⟨place, hplace⟩ := List.mem_iff_getElem?.mp hg'
  rcases h.games hplace with ⟨g, hg, hadv⟩ |
    ⟨j, a, r, pairing, -, -, -, -, -, -, -, rfl⟩
  · have hold := hs g (List.mem_of_getElem? hg)
    cases hadv with
    | stays | rejected _ _ => exact hold
    | steps hdriven _ hsession => exact hstep place g _ _ hg hdriven hold hsession
  · exact hinit pairing

/-- **Every game of a reachable lobby is a reachable session.** -/
theorem session_of_run {es : List LobbyEvent} (h : Run Lobby.step init es s) :
    ∀ g ∈ s.games, ∃ es, Run (Session.step g.pairing) (Session.init g.pairing) es
      g.session := by
  refine h.invariant (I := fun s => ∀ g ∈ s.games, ∃ es, Run (Session.step g.pairing)
    (Session.init g.pairing) es g.session) (by simp [init]) ?_
  intro t e t' ht _ hstep
  refine (step_of_step_eq hstep).sessions (φ := fun P s => ∃ es, Run (Session.step P)
    (Session.init P) es s) ht (fun P => ⟨[], RunWhere.nil⟩) ?_
  rintro place g e' session - - ⟨es, hrun⟩ hsession
  exact ⟨es ++ [e'], RunWhere.snoc hrun trivial hsession⟩

/-! ### Loading views -/

/-- **A view was there and has been kept, or has found a game, or is new.** -/
theorem Step.views (h : Step s e s') {view' : LoadingView} (hview' : view' ∈ s'.views) :
    (∃ view ∈ s.views, view.Keeps view') ∨
      (∃ (v place version : ℕ) (view : LoadingView) (g : LobbyGame) (p : Player)
        (session : Session), e = .find v place version ∧ view ∈ s.views ∧
        view.listening = true ∧ s.games[place]? = some g ∧
        g.playerOf view.me = some p ∧ g.rejected = false ∧
        g.session.step g.pairing (.find p version) = some session ∧
        view' = { view with found := view.found ++ [place] }) ∨
      ∃ (i : ℕ) (r : GameRequest), e = .requestStarted i ∧
        (s.invites[i]?.bind fun invite => invite.stage.starting?) = some r ∧
        view' = .new r := by
  cases h with
  | started _ _ | committed _ | tapped _ | stopped _ _ | lookedUp _ _ _ | created _ _ _ _
  | rejected _ _ | failed _ _ _ _ => exact Or.inl (Kept.refl _ view' hview')
  | quiet hkept | completed _ _ _ hkept | closed _ hkept | entered _ _ _ _ _ hkept
  | played _ _ hkept => exact Or.inl (hkept view' hview')
  | shown hstage hviews =>
      rcases hviews view' hview' with hkept | rfl
      · exact Or.inl hkept
      · exact Or.inr (Or.inr ⟨_, _, rfl, hstage, rfl⟩)
  | found hview hlistening hg hp hdrives =>
      rcases List.mem_or_eq_of_mem_set hview' with hold | rfl
      · exact Or.inl (Kept.refl _ view' hold)
      · obtain ⟨g, session, hg', hrejected, hsession, -⟩ := hdrives
        obtain rfl := Option.some.inj (hg.symm.trans hg')
        exact Or.inr (Or.inl ⟨_, _, _, _, _, _, _, rfl, List.mem_of_getElem? hview,
          hlistening, hg, hp, hrejected, hsession, rfl⟩)

end Lobby

end RockPaperScissors
