import RockPaperScissors.RequestTrace

/-!
# Nobody Plays Unasked

A game between two users takes a tap of each: one of them taps the other in the table, which
may start a request, and the other taps Accept on the notification of the request, which may
create a game. Here the taps of a run are counted against what has come of them, whatever is
answered in between, in whatever order and with whatever error.

A tap on Accept counts once for each home screen of the client that observes it, since each
of them runs `acceptRequest`; a client that has entered its home screen once has one.

Every invitation starts one request at most, and every accept creates one game at most. An
accept that has not created a game may still do so, or has stopped; an invitation that has
not started a request may still do so as long as it waits for an answer.

## Main results

* `Lobby.Balanced.step`: the balance of taps, requests and games, kept by every event.
* `Lobby.games_by_consent`: every game was asked for by one of its users and then accepted by
  the other, and there are no more games of a request than runs of `acceptRequest` that taps
  on its Accept have begun, and no more requests than taps in the table.
-/

open TransitionSystem

namespace RockPaperScissors

/-- A tap of the user on the opponent. -/
def LobbyEvent.asks (userId opponentId : String) : LobbyEvent → Bool
  | invite invitation => invitation.localUserId = userId ∧ invitation.userId = opponentId
  | _ => false

/-- A tap on the notification of the started request at the place begins `acceptRequest`. -/
def LobbyEvent.taps (k : ℕ) : LobbyEvent → Bool
  | tapAccept k' => k' = k
  | _ => false

namespace Lobby

/-- The requests the games come from. -/
def requested (s : Lobby) : List GameRequest :=
  s.games.map LobbyGame.gameRequest

/-- **What an event does to the accepts**: Accept is tapped, one of them goes on or creates a
game, or nothing. -/
inductive AcceptStep (s : Lobby) : LobbyEvent → Lobby → Prop
  | tapped {k : ℕ} {s' : Lobby} {request : GameRequest} : s.started[k]? = some request →
      s'.accepts = s.accepts ++ [⟨request.id, request.toId, .lookingUp⟩] →
      s'.requested = s.requested → AcceptStep s (.tapAccept k) s'
  | goesOn {e : LobbyEvent} {s' : Lobby} {j : ℕ} {accept : Accept} {stage : AcceptStage} :
      (∀ k, e ≠ .tapAccept k) → s.accepts[j]? = some accept →
      stage.place?.isNone = accept.stage.place?.isNone →
      s'.accepts = s.accepts.set j { accept with stage } → s'.requested = s.requested →
      AcceptStep s e s'
  | creates {e : LobbyEvent} {s' : Lobby} {j place : ℕ} {accept : Accept}
      {request : GameRequest} : (∀ k, e ≠ .tapAccept k) → s.accepts[j]? = some accept →
      accept.stage = .fetchingUser request →
      s'.accepts = s.accepts.set j { accept with stage := .creating request place } →
      s'.requested = s.requested ++ [request] → AcceptStep s e s'
  | stays {e : LobbyEvent} {s' : Lobby} : (∀ k, e ≠ .tapAccept k) →
      s'.accepts = s.accepts → s'.requested = s.requested → AcceptStep s e s'

variable {s s' : Lobby} {e : LobbyEvent} {r : GameRequest} {a : Accept} {g : LobbyGame}
  {es : List LobbyEvent}

/-- A game that is set at its place comes from the request it came from. -/
theorem map_gameRequest_set {games : List LobbyGame} {place : ℕ} {g' : LobbyGame}
    (hg : games[place]? = some g) (hg' : g'.gameRequest = g.gameRequest) :
    (games.set place g').map LobbyGame.gameRequest = games.map LobbyGame.gameRequest := by
  refine List.ext_getElem? fun i => ?_
  rw [List.getElem?_map, List.getElem?_map, getElem?_set_eq hg]
  split
  · next hi => rw [hi, hg, Option.map_some, Option.map_some, hg']
  · rfl

/-- An event of a session leaves the requests the games come from. -/
theorem Drives.map_gameRequest {games games' : List LobbyGame} {place : ℕ} {e : Event}
    (h : Drives games place e games') :
    games'.map LobbyGame.gameRequest = games.map LobbyGame.gameRequest := by
  obtain ⟨g, session, hg, -, -, rfl⟩ := h
  exact map_gameRequest_set hg rfl

/-- The step function does to the accepts only what is listed. -/
theorem acceptStep_of_step (h : s.step e = some s') : AcceptStep s e s' := by
  by_cases htap : ∃ k, e = .tapAccept k
  · obtain ⟨k, rfl⟩ := htap
    obtain ⟨request, hrequest, rfl⟩ := Option.map_eq_some_iff.mp h
    exact AcceptStep.tapped hrequest rfl rfl
  · have hne : ∀ k, e ≠ .tapAccept k := fun k heq => htap ⟨k, heq⟩
    cases step_of_step_eq h with
    | quiet _ | started _ _ | shown _ _ | committed _ | closed _ _ =>
        exact AcceptStep.stays hne rfl rfl
    | tapped _ => exact absurd rfl (hne _)
    | stopped haccept hplace =>
        exact AcceptStep.goesOn hne haccept (by rw [hplace, AcceptStage.place?]) rfl rfl
    | lookedUp haccept hstage _ =>
        exact AcceptStep.goesOn hne haccept (by simp [hstage, AcceptStage.place?]) rfl rfl
    | created haccept hstage _ _ =>
        exact AcceptStep.creates hne haccept hstage rfl (by simp [requested])
    | rejected hg _ => exact AcceptStep.stays hne rfl (map_gameRequest_set hg rfl)
    | failed haccept hstage _ _ =>
        exact AcceptStep.goesOn hne haccept (by simp [hstage, AcceptStage.place?]) rfl rfl
    | completed haccept hstage hdrives _ =>
        exact AcceptStep.goesOn hne haccept (by simp [hstage, AcceptStage.place?]) rfl
          hdrives.map_gameRequest
    | found _ _ _ _ hdrives | entered _ _ _ _ hdrives _ | played _ hdrives _ =>
        exact AcceptStep.stays hne rfl hdrives.map_gameRequest

/-! ### Where the games come from -/

/-- **Both users of the request have tapped**: the one it is from tapped the other in the
table, and later Accept was tapped on its notification. -/
def Consented (es : List LobbyEvent) (s : Lobby) (r : GameRequest) : Prop :=
  ∃ (before after : List LobbyEvent) (k : ℕ) (invitation : Invitation),
    es = before ++ .tapAccept k :: after ∧ s.started[k]? = some r ∧
      .invite invitation ∈ before ∧ invitation.localUserId = r.fromId ∧
        invitation.userId = r.toId

/-- The user the request is from has tapped the other. -/
def Solicited (es : List LobbyEvent) (r : GameRequest) : Prop :=
  ∃ invitation : Invitation, .invite invitation ∈ es ∧ invitation.localUserId = r.fromId ∧
    invitation.userId = r.toId

/-- The invariant. -/
structure Answered (es : List LobbyEvent) (s : Lobby) : Prop where
  invites : ∀ invite ∈ s.invites, .invite invite.toInvitation ∈ es
  started : ∀ r ∈ s.started, Solicited es r
  accepts : ∀ a ∈ s.accepts, ∃ r, r.id = a.requestId ∧ s.Consented es r
  games : ∀ r ∈ s.requested, s.Consented es r

/-- Requests are started one after the other. -/
theorem InviteStep.started_prefix (h : InviteStep s e s') : s.started <+: s'.started := by
  cases h with
  | made _ hstarted | goesOn _ _ _ _ hstarted | shows _ _ _ _ hstarted _
  | stays _ _ hstarted => exact ⟨[], by rw [hstarted, List.append_nil]⟩
  | starts _ _ _ _ _ _ hstarted => exact ⟨_, hstarted.symm⟩

/-- Consent is not taken back. -/
theorem Consented.snoc (h : s.Consented es r) (hstarted : s.started <+: s'.started) :
    s'.Consented (es ++ [e]) r := by
  obtain ⟨before, after, k, invitation, rfl, hk, hmem, hfrom, hto⟩ := h
  obtain ⟨rest, hrest⟩ := hstarted
  refine ⟨before, after ++ [e], k, invitation, by simp, ?_, hmem, hfrom, hto⟩
  have hlt := (List.getElem?_eq_some_iff.mp hk).1
  rw [← hrest, List.getElem?_append_left hlt, hk]

/-- What users have consented to has been started. -/
theorem Consented.mem_started (h : s.Consented es r) : r ∈ s.started := by
  obtain ⟨-, -, k, -, -, hk, -⟩ := h
  exact List.mem_of_getElem? hk

/-- A tap in the table is not taken back. -/
theorem Solicited.snoc (h : Solicited es r) : Solicited (es ++ [e]) r := by
  obtain ⟨invitation, hmem, husers⟩ := h
  exact ⟨invitation, List.mem_append_left _ hmem, husers⟩

/-- Invitations and requests have been asked for. -/
theorem Answered.invites_step (hs : s.Answered es) (h : InviteStep s e s') :
    (∀ invite ∈ s'.invites, .invite invite.toInvitation ∈ es ++ [e]) ∧
      ∀ r ∈ s'.started, Solicited (es ++ [e]) r := by
  have hold : ∀ invite ∈ s.invites, .invite invite.toInvitation ∈ es ++ [e] :=
    fun invite hmem => List.mem_append_left _ (hs.invites invite hmem)
  have hset {i : ℕ} {invite : Invite} {stage : InviteStage}
      (hinvite : s.invites[i]? = some invite) :
      ∀ invite' ∈ s.invites.set i { invite with stage },
        .invite invite'.toInvitation ∈ es ++ [e] := by
    intro invite' hmem
    rcases List.mem_or_eq_of_mem_set hmem with hmem | rfl
    · exact hold invite' hmem
    · exact hold invite (List.mem_of_getElem? hinvite)
  have hstays : ∀ r ∈ s.started, Solicited (es ++ [e]) r := fun r hr => (hs.started r hr).snoc
  cases h with
  | made hinvites hstarted =>
      rw [hinvites, hstarted]
      refine ⟨fun invite hmem => ?_, hstays⟩
      rcases List.mem_append.mp hmem with hmem | hnew
      · exact hold invite hmem
      · obtain rfl := List.mem_singleton.mp hnew
        simp
  | goesOn _ hinvite _ hinvites hstarted | shows _ hinvite _ hinvites hstarted _ =>
      rw [hinvites, hstarted]
      exact ⟨hset hinvite, hstays⟩
  | starts _ hinvite _ hfrom hto hinvites hstarted =>
      rw [hinvites, hstarted]
      refine ⟨hset hinvite, fun r hr => ?_⟩
      rcases List.mem_append.mp hr with hr | hnew
      · exact hstays r hr
      · obtain rfl := List.mem_singleton.mp hnew
        exact ⟨_, hold _ (List.mem_of_getElem? hinvite), hfrom.symm, hto.symm⟩
  | stays _ hinvites hstarted =>
      rw [hinvites, hstarted]
      exact ⟨hold, hstays⟩

/-- **Every event keeps the invariant.** -/
theorem Answered.step (hs : s.Answered es) (htraced : s.Traced) (h : s.step e = some s') :
    s'.Answered (es ++ [e]) := by
  have hinvite := inviteStep_of_step h
  have hprefix := hinvite.started_prefix
  obtain ⟨hinvites, hstarted⟩ := hs.invites_step hinvite
  have haccepts : ∀ a ∈ s.accepts, ∃ r, r.id = a.requestId ∧ s'.Consented (es ++ [e]) r := by
    intro a ha
    obtain ⟨r, hid, hr⟩ := hs.accepts a ha
    exact ⟨r, hid, hr.snoc hprefix⟩
  have hset {j : ℕ} {accept : Accept} {stage : AcceptStage}
      (haccept : s.accepts[j]? = some accept) : ∀ a ∈ s.accepts.set j { accept with stage },
        ∃ r, r.id = a.requestId ∧ s'.Consented (es ++ [e]) r := by
    intro a ha
    rcases List.mem_or_eq_of_mem_set ha with hold | rfl
    · exact haccepts a hold
    · exact haccepts accept (List.mem_of_getElem? haccept)
  have hgames : ∀ r ∈ s.requested, s'.Consented (es ++ [e]) r :=
    fun r hr => (hs.games r hr).snoc hprefix
  cases acceptStep_of_step h with
  | @tapped k _ request hrequest htapped hrequested =>
      refine ⟨hinvites, hstarted, fun a ha => ?_, fun r hr => hgames r (hrequested ▸ hr)⟩
      rw [htapped] at ha
      rcases List.mem_append.mp ha with hold | hnew
      · exact haccepts a hold
      · obtain rfl := List.mem_singleton.mp hnew
        obtain ⟨invitation, hmem, hfrom, hto⟩ :=
          hs.started request (List.mem_of_getElem? hrequest)
        have hlt := (List.getElem?_eq_some_iff.mp hrequest).1
        obtain ⟨rest, hrest⟩ := hprefix
        refine ⟨request, rfl, es, [], k, invitation, rfl, ?_, hmem, hfrom, hto⟩
        rw [← hrest, List.getElem?_append_left hlt, hrequest]
  | goesOn _ haccept _ hset' hrequested =>
      refine ⟨hinvites, hstarted, fun a ha => hset haccept a (hset' ▸ ha),
        fun r hr => hgames r (hrequested ▸ hr)⟩
  | @creates _ _ j place accept request _ haccept hstage hset' hrequested =>
      refine ⟨hinvites, hstarted, fun a ha => hset haccept a (hset' ▸ ha), fun r hr => ?_⟩
      rw [hrequested] at hr
      rcases List.mem_append.mp hr with hold | hnew
      · exact hgames r hold
      · obtain rfl := List.mem_singleton.mp hnew
        -- the request the accept has found is the one of its notification
        have hmem := List.mem_of_getElem? haccept
        obtain ⟨r₀, hr₀, hid₀, -, hfound⟩ := htraced.accepts accept hmem
        obtain ⟨r₁, hid₁, hr₁⟩ := hs.accepts accept hmem
        obtain rfl := hfound r (by rw [hstage, AcceptStage.request?])
        obtain rfl := htraced.eq_of_id_eq hr₁.mem_started hr₀ (hid₁.trans hid₀.symm)
        exact hr₁.snoc hprefix
  | stays _ haccepts' hrequested =>
      exact ⟨hinvites, hstarted, fun a ha => haccepts a (haccepts' ▸ ha),
        fun r hr => hgames r (hrequested ▸ hr)⟩

/-- In every run what has come of the taps was tapped for. -/
theorem answered_of_run (h : Run Lobby.step init es s) : s.Answered es := by
  refine h.invariant_events (I := fun es s => s.Answered es) ?_ ?_
  · exact ⟨by simp [init], by simp [init], by simp [init], by simp [init, requested]⟩
  · exact fun es t e t' hrun ht _ hstep => ht.step (traced_of_run hrun) hstep

/-! ### The balance -/

/-- The request is from the one user to the other. -/
def between (userId opponentId : String) (r : GameRequest) : Bool :=
  r.fromId = userId ∧ r.toId = opponentId

/-- The invitation of the one user to the other may start a request. -/
def mayStart (userId opponentId : String) (invite : Invite) : Bool :=
  invite.stage.asking ∧ invite.localUserId = userId ∧ invite.userId = opponentId

/-- The accept of the request has not created a game. -/
def mayCreate (r : GameRequest) (a : Accept) : Bool :=
  a.stage.place?.isNone ∧ a.requestId = r.id

/-- **The invariant**: the taps of a run, and what has come of them. -/
structure Balanced (es : List LobbyEvent) (s : Lobby) : Prop where
  asked : ∀ u v, s.started.countP (between u v) + s.invites.countP (mayStart u v) ≤
    es.countP (LobbyEvent.asks u v)
  tapped : ∀ (k : ℕ) (r : GameRequest), s.started[k]? = some r →
    s.requested.count r + s.accepts.countP (mayCreate r) = es.countP (LobbyEvent.taps k)
  untapped : ∀ k, s.started.length ≤ k → es.countP (LobbyEvent.taps k) = 0

/-- Only an invitation is a tap in the table. -/
theorem asks_eq_false (h : ∀ invitation, e ≠ .invite invitation) (u v : String) :
    e.asks u v = false := by
  cases e with
  | invite invitation => exact absurd rfl (h invitation)
  | _ => rfl

/-- Only a tap on a notification begins `acceptRequest`. -/
theorem taps_eq_false (h : ∀ k, e ≠ .tapAccept k) (k : ℕ) : e.taps k = false := by
  cases e with
  | tapAccept k => exact absurd rfl (h k)
  | _ => rfl

/-- **A tap in the table starts one request at most.** -/
theorem Balanced.asked_step (hs : s.Balanced es) (h : InviteStep s e s') (u v : String) :
    s'.started.countP (between u v) + s'.invites.countP (mayStart u v) ≤
      (es ++ [e]).countP (LobbyEvent.asks u v) := by
  have hasked := hs.asked u v
  rw [List.countP_append, List.countP_singleton]
  cases h with
  | @made invitation _ hinvites hstarted =>
      have hnew : mayStart u v ⟨invitation, .checkingRequest⟩ =
          (LobbyEvent.invite invitation).asks u v := by
        simp [mayStart, InviteStage.asking, LobbyEvent.asks]
      rw [hinvites, hstarted, List.countP_append, List.countP_singleton, hnew]
      omega
  | @goesOn _ _ i invite stage hother hinvite hasking hinvites hstarted =>
      have hcount := countP_set (b := { invite with stage }) (p := mayStart u v) hinvite
      have hle : (mayStart u v { invite with stage }).toNat ≤ (mayStart u v invite).toNat := by
        refine Bool.toNat_le_toNat fun hmay => ?_
        simp only [mayStart, decide_eq_true_eq] at hmay ⊢
        exact ⟨hasking, hmay.2⟩
      rw [hinvites, hstarted, asks_eq_false hother]
      omega
  | @starts _ _ i invite request hother hinvite hasking hfrom hto hinvites hstarted =>
      have hcount := countP_set (b := { invite with stage := .starting request })
        (p := mayStart u v) hinvite
      have hnew : between u v request = mayStart u v invite := by
        simp [between, mayStart, hasking, hfrom, hto]
      have hended : mayStart u v { invite with stage := .starting request } = false := by
        simp [mayStart, InviteStage.asking]
      rw [hended, Bool.toNat_false] at hcount
      rw [hinvites, hstarted, List.countP_append, List.countP_singleton, hnew,
        asks_eq_false hother]
      cases hmay : mayStart u v invite with
      | false => simp [hmay] at hcount ⊢; omega
      | true => simp [hmay] at hcount ⊢; omega
  | @shows _ _ i invite request hother hinvite hstage hinvites hstarted _ =>
      have hcount := countP_set (b := { invite with stage := .ended }) (p := mayStart u v) hinvite
      have hended : mayStart u v { invite with stage := .ended } = false := by
        simp [mayStart, InviteStage.asking]
      rw [hended, Bool.toNat_false] at hcount
      rw [hinvites, hstarted, asks_eq_false hother]
      omega
  | stays hother hinvites hstarted =>
      rw [hinvites, hstarted, asks_eq_false hother]
      omega

/-- Nothing has come of a request that is started by the event. -/
theorem Balanced.tapped_old (hs : s.Balanced es) (hanswered : s.Answered es)
    (htraced : s'.Traced) (h : InviteStep s e s') {k : ℕ} (hk : s'.started[k]? = some r) :
    s.requested.count r + s.accepts.countP (mayCreate r) = es.countP (LobbyEvent.taps k) := by
  by_cases hr : s.started[k]? = some r
  · exact hs.tapped k r hr
  · obtain ⟨rest, hrest⟩ := h.started_prefix
    have hle : s.started.length ≤ k := by
      by_contra hlt
      rw [← hrest, List.getElem?_append_left (by omega)] at hk
      exact hr hk
    have hnew : r ∉ s.started := by
      intro hmem
      obtain ⟨j, hj⟩ := List.getElem?_of_mem hmem
      have hjlt := (List.getElem?_eq_some_iff.mp hj).1
      have hj' : s'.started[j]? = some r := by
        rw [← hrest, List.getElem?_append_left hjlt, hj]
      have hnodup : s'.started.Nodup := List.Nodup.of_map _ htraced.ids
      have hklt := (List.getElem?_eq_some_iff.mp hk).1
      have heq := (List.getElem?_inj hklt hnodup).mp (hk.trans hj'.symm)
      omega
    have hcount : s.requested.count r = 0 :=
      List.count_eq_zero.mpr fun hmem => hnew (hanswered.games r hmem).mem_started
    have hnone : s.accepts.countP (mayCreate r) = 0 := by
      refine List.countP_eq_zero.mpr fun a ha hmay => ?_
      have hid : a.requestId = r.id := (of_decide_eq_true hmay).2
      obtain ⟨r₀, hid₀, hr₀⟩ := hanswered.accepts a ha
      have hmem : r₀ ∈ s'.started := hrest ▸ List.mem_append_left _ hr₀.mem_started
      obtain rfl := htraced.eq_of_id_eq hmem (List.mem_of_getElem? hk) (hid₀.trans hid)
      exact hnew hr₀.mem_started
    rw [hcount, hnone, hs.untapped k hle]

/-- **A tap on Accept creates one game at most**, from the request of the notification. -/
theorem Balanced.tapped_step (hs : s.Balanced es) (hanswered : s.Answered es)
    (htraced : s.Traced) (htraced' : s'.Traced) (hinvite : InviteStep s e s')
    (h : AcceptStep s e s') {k : ℕ} (hk : s'.started[k]? = some r) :
    s'.requested.count r + s'.accepts.countP (mayCreate r) =
      (es ++ [e]).countP (LobbyEvent.taps k) := by
  have hold := hs.tapped_old hanswered htraced' hinvite hk
  obtain ⟨rest, hrest⟩ := hinvite.started_prefix
  have hr := List.mem_of_getElem? hk
  rw [List.countP_append, List.countP_singleton]
  cases h with
  | @tapped k₀ _ request hrequest haccepts hrequested =>
      have hlt := (List.getElem?_eq_some_iff.mp hrequest).1
      have hrequest' : s'.started[k₀]? = some request := by
        rw [← hrest, List.getElem?_append_left hlt, hrequest]
      have hnew : mayCreate r ⟨request.id, request.toId, .lookingUp⟩ =
          (LobbyEvent.tapAccept k₀).taps k := by
        simp only [mayCreate, AcceptStage.place?, Option.isNone_none, true_and,
          LobbyEvent.taps, decide_eq_decide]
        constructor
        · intro hid
          obtain rfl := htraced'.eq_of_id_eq (List.mem_of_getElem? hrequest') hr hid
          have hnodup : s'.started.Nodup := List.Nodup.of_map _ htraced'.ids
          have hlt' := (List.getElem?_eq_some_iff.mp hrequest').1
          exact (List.getElem?_inj hlt' hnodup).mp (hrequest'.trans hk.symm)
        · rintro rfl
          rw [Option.some.inj (hrequest'.symm.trans hk)]
      rw [haccepts, hrequested, List.countP_append, List.countP_singleton, hnew]
      omega
  | @goesOn _ _ j accept stage hother haccept hstage haccepts hrequested =>
      have hcount := countP_set (b := { accept with stage }) (p := mayCreate r) haccept
      have hsame : mayCreate r { accept with stage } = mayCreate r accept := by
        simp [mayCreate, hstage]
      rw [hsame] at hcount
      rw [haccepts, hrequested, taps_eq_false hother, if_neg Bool.false_ne_true]
      omega
  | @creates _ _ j place accept request hother haccept hstage haccepts hrequested =>
      have hcount := countP_set (b := { accept with stage := .creating request place })
        (p := mayCreate r) haccept
      have hafter : mayCreate r { accept with stage := .creating request place } = false := by
        simp [mayCreate, AcceptStage.place?]
      have hbefore : (mayCreate r accept).toNat = if request == r then 1 else 0 := by
        obtain ⟨r₀, hr₀, hid₀, -, hfound⟩ := htraced.accepts accept (List.mem_of_getElem? haccept)
        obtain rfl := hfound request (by rw [hstage, AcceptStage.request?])
        have hmem : request ∈ s'.started := hrest ▸ List.mem_append_left _ hr₀
        have hiff : mayCreate r accept = (request == r) := by
          simp only [mayCreate, hstage, AcceptStage.place?, Option.isNone_none, true_and,
            beq_eq_decide, decide_eq_decide, ← hid₀]
          exact ⟨fun hid => htraced'.eq_of_id_eq hmem hr hid, fun heq => heq ▸ rfl⟩
        rw [hiff]
        cases request == r <;> rfl
      rw [hafter, Bool.toNat_false] at hcount
      rw [haccepts, hrequested, List.count_append, List.count_singleton, taps_eq_false hother,
        if_neg Bool.false_ne_true]
      omega
  | stays hother haccepts hrequested =>
      rw [haccepts, hrequested, taps_eq_false hother, if_neg Bool.false_ne_true]
      omega

/-- Accept is tapped on notifications of started requests only. -/
theorem Balanced.untapped_step (hs : s.Balanced es) (hinvite : InviteStep s e s')
    (h : AcceptStep s e s') {k : ℕ} (hk : s'.started.length ≤ k) :
    (es ++ [e]).countP (LobbyEvent.taps k) = 0 := by
  have hk' := le_trans hinvite.started_prefix.length_le hk
  have htaps : e.taps k = false := by
    cases h with
    | tapped hrequest _ _ =>
        have hlt := (List.getElem?_eq_some_iff.mp hrequest).1
        exact decide_eq_false (by omega)
    | goesOn hother _ _ _ _ | creates hother _ _ _ _ | stays hother _ _ =>
        exact taps_eq_false hother k
  simp [List.countP_append, hs.untapped k hk', htaps]

/-- **Every event keeps the balance.** -/
theorem Balanced.step (hs : s.Balanced es) (hanswered : s.Answered es) (htraced : s.Traced)
    (h : s.step e = some s') : s'.Balanced (es ++ [e]) where
  asked := hs.asked_step (inviteStep_of_step h)
  tapped := fun _ _ => hs.tapped_step hanswered htraced (htraced.step (step_of_step_eq h))
    (inviteStep_of_step h) (acceptStep_of_step h)
  untapped := fun _ => hs.untapped_step (inviteStep_of_step h) (acceptStep_of_step h)

/-- The balance holds in every run. -/
theorem balanced_of_run (h : Run Lobby.step init es s) : s.Balanced es := by
  refine h.invariant_events (I := fun es s => s.Balanced es) ?_ ?_
  · exact ⟨by simp [init], by simp [init], by simp⟩
  · exact fun es t e t' hrun ht _ hstep =>
      ht.step (answered_of_run hrun) (traced_of_run hrun) hstep

/-! ### Every run -/

/-- **Nobody plays unasked.** In every run, one of the two users of a game has tapped the
other in the table, and after that Accept was tapped on the notification of the request, which
is to the other; no request has more games than `acceptRequest` has been begun for it, once
for every tap on its Accept and home screen of the client; and nobody has sent more requests
to another than they have tapped them. -/
theorem games_by_consent (h : Run Lobby.step init es s) :
    (∀ g ∈ s.games, s.Consented es g.gameRequest ∧
      g.gameRequest.fromId = g.pairing.userId .requester ∧
        g.gameRequest.toId = g.pairing.userId .acceptor) ∧
    (∀ (k : ℕ) (r : GameRequest), s.started[k]? = some r →
      (s.games.countP fun g => g.gameRequest = r) ≤ es.countP (LobbyEvent.taps k)) ∧
    ∀ u v, s.started.countP (between u v) ≤ es.countP (LobbyEvent.asks u v) := by
  have hbalanced := balanced_of_run h
  refine ⟨fun g hg => ?_, fun k r hk => ?_, fun u v => ?_⟩
  · obtain ⟨hacceptor, hrequester⟩ := users_of_run h g hg
    exact ⟨(answered_of_run h).games _ (List.mem_map_of_mem hg), hrequester.symm,
      hacceptor.symm⟩
  · have htapped := hbalanced.tapped k r hk
    rw [requested, List.count, List.countP_map] at htapped
    have hsame : s.games.countP ((· == r) ∘ LobbyGame.gameRequest) =
        s.games.countP fun g => g.gameRequest = r := rfl
    omega
  · have hasked := hbalanced.asked u v
    omega

/-- One user taps another, who taps Accept twice and makes a game of it the second time. -/
def secondTap : List LobbyEvent :=
  inviting 0 "request" (sampleInvitation "uid2" "uid1" uid2_ne_uid1) ++
    [.tapAccept 0, .lookedUp 0 true] ++
    accepting 1 0 0 (samplePairing "game" "uid1" "uid2" uid2_ne_uid1.symm)

/-- There is one game after the two taps on Accept, which one home screen observes. -/
theorem games_by_consent_secondTap : ∃ s, Run Lobby.step init secondTap s ∧
    s.games.length = 1 ∧ secondTap.countP (LobbyEvent.taps 0) = 2 ∧
      ∀ g ∈ s.games, s.Consented secondTap g.gameRequest := by
  have hrun : Run Lobby.step init secondTap
      ((exec Lobby.step init secondTap).get (by decide)) := runWhere_get _
  exact ⟨_, hrun, by decide, by decide, fun g hg => ((games_by_consent hrun).1 g hg).1⟩

end Lobby

end RockPaperScissors
