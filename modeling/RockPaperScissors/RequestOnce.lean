import RockPaperScissors.RequestTrace

/-!
# A Request Is Consumed Once

Between the answer of `getGameRequestWith` and the delete in the completion of
`createGame` nothing marks a request as taken. The notification stays on the screen, so a
second tap finds the request again and creates a second game (`consumed_twice`), as does a
second home screen that observes the one tap; a delete by the requester, on a cancel or a
timeout, does not stop an accept that has found the request; and the completion deletes the
request also when the game was rejected.

Requests are consumed once in the runs in which none of the three happens: no lookup
answers with a request that another accept is taking, no delete is committed while an
accept waits for the user of the request, and no game is rejected.

## Main results

* `Withdrawn.step`, `Alone.step`, `Accounted.step`: the invariants over the accepts.
* `consumed_once`: in every run under the condition at most one game comes from a request,
  it is created while the request is stored, and only its accept deletes the request.
* `consumed_twice`: without the condition two games come from one.
-/

open TransitionSystem

namespace RockPaperScissors

namespace AcceptStage

/-- The accept has found the request and the completion of `createGame` has not run. -/
def underWay : AcceptStage → Bool
  | lookingUp => false
  | fetchingUser _ => true
  | creating _ _ => true
  | completed _ _ => false
  | stopped => false

end AcceptStage

namespace Lobby

variable (s : Lobby)

/-- **Nothing gets between an accept and its request.** Another accept is one of a second tap,
or the one that a second home screen of the client begins at the same tap. -/
def AcceptsAlone : LobbyEvent → Prop
  | .lookedUp j false => ∀ a ∈ s.accepts[j]?,
      (getGameRequestWith (s.requestsSeenBy a.localUserId) a.requestId).isSome →
      ∀ b ∈ s.accepts, b.requestId = a.requestId → b.stage.underWay = false
  | .commitRequest userId => ∀ w ∈ (s.requests.outbox userId).head?,
      ∀ b ∈ s.accepts, ∀ r ∈ b.stage.fetching?, w ≠ .delete r.id
  | .rejectGame _ => False
  | _ => True

instance (e : LobbyEvent) : Decidable (s.AcceptsAlone e) :=
  match e with
  | .lookedUp _ false => inferInstanceAs (Decidable (∀ a ∈ _, _))
  | .commitRequest _ => inferInstanceAs (Decidable (∀ w ∈ _, _))
  | .rejectGame _ => inferInstanceAs (Decidable False)
  | .lookedUp _ true | .invite _ | .requestChecked _ _ | .gameChecked _ _ _ _
  | .requestStarted _ | .tapAccept _ | .userFetched _ _ | .gameCreated _
  | .enableCancelGame _ | .timerTick _ | .close _ | .find _ _ _ | .gameAccepted _
  | .game _ _ => inferInstanceAs (Decidable True)

/-- Every request is consumed at most once. -/
structure ConsumedOnce : Prop where
  /-- At most one game is created from a request. -/
  oneGame : ∀ (i j : ℕ) (g g' : LobbyGame), s.games[i]? = some g →
    s.games[j]? = some g' → g.rejected = false → g'.rejected = false →
    g.gameRequest.id = g'.gameRequest.id → i = j
  /-- No game is created from a request that had been deleted from the store. -/
  stored : ∀ g ∈ s.games, g.rejected = false → g.requestStored = true
  /-- An accept deletes the request only when it has created a game. -/
  deletes : ∀ a ∈ s.accepts, ∀ r place, a.stage = .completed r place →
    ∃ g, s.games[place]? = some g ∧ g.gameRequest = r ∧ g.rejected = false ∧
      g.session.stored.isSome

/-- The user's client sees no request with the id, since it has deleted it. -/
def Gone (userId id : String) : Prop :=
  getGameRequestWith s.storedRequests id = none ∨
    .delete id ∈ s.requests.outbox userId

/-- What an accept has found is not started again, and what it has deleted is gone. -/
structure Withdrawn : Prop where
  settled : ∀ a ∈ s.accepts, ∀ r, a.stage.request? = some r → s.Settled r.id
  gone : ∀ a ∈ s.accepts, ∀ r place, a.stage = .completed r place →
    s.Gone a.localUserId r.id

/-- No two accepts have found the same request. -/
def Alone : Prop :=
  ∀ (i j : ℕ) (a b : Accept) (r r' : GameRequest), s.accepts[i]? = some a →
    s.accepts[j]? = some b → a.stage.request? = some r → b.stage.request? = some r' →
    r.id = r'.id → i = j

/-- Every game is the game of an accept, created from a stored request, and every
accept that has created a game has it. -/
structure Accounted : Prop where
  fetching : ∀ a ∈ s.accepts, ∀ r, a.stage = .fetchingUser r →
    (getGameRequestWith s.storedRequests r.id).isSome
  games : ∀ place g, s.games[place]? = some g → g.rejected = false ∧
    g.requestStored = true ∧ ∃ a ∈ s.accepts, a.stage.request? = some g.gameRequest ∧
      a.stage.place? = some place
  created : ∀ a ∈ s.accepts, ∀ r place, a.stage.request? = some r →
    a.stage.place? = some place → ∃ g, s.games[place]? = some g ∧ g.gameRequest = r
  completed : ∀ a ∈ s.accepts, ∀ r place, a.stage = .completed r place →
    ∀ g, s.games[place]? = some g → g.session.stored.isSome

variable {s} {s' : Lobby} {e : LobbyEvent} {r : GameRequest} {a : Accept}
  {userId id : String} {place : ℕ} {g' : LobbyGame}

/-! ### What is deleted is gone -/

/-- A commit applies the oldest waiting write of a user to the stored requests. -/
theorem storedRequests_commit (h : s.requests.commit userId = some s'.requests) :
    ∃ w ws, s.requests.outbox userId = w :: ws ∧
      s'.requests.outbox = Function.update s.requests.outbox userId ws ∧
      s'.storedRequests = RequestWrite.apply s.storedRequests w := by
  obtain ⟨w, ws, hout, hrequests, hstored⟩ :=
    WriteLog.current_commit RequestWrite.apply [] h
  exact ⟨w, ws, hout, by rw [hrequests], hstored⟩

/-- An issue leaves the stored requests. -/
theorem storedRequests_issue {ws : List RequestWrite}
    (h : s'.requests = s.requests.issue userId ws) :
    s'.storedRequests = s.storedRequests := by
  rw [storedRequests, h, WriteLog.current_issue, storedRequests]

/-- No event starts a started request. -/
theorem Settled.step (hs : s.Settled r.id) (hr : r ∈ s.started) (h : Step s e s') :
    s'.Settled r.id := by
  intro v w hw
  rcases h.requests with ⟨heq, -⟩ | ⟨u, -, hcommit, -⟩ | ⟨r', hfresh, -, heq, -⟩ |
    ⟨u, id', heq, -⟩
  · exact hs v w (by rwa [← heq])
  · exact hs v w (WriteLog.mem_outbox_commit hcommit hw)
  · rw [heq] at hw
    rcases WriteLog.mem_outbox_issue hw with hold | ⟨-, hnew⟩
    · exact hs v w hold
    · obtain rfl := List.mem_singleton.mp hnew
      simpa [RequestWrite.starts] using fun hid => hfresh r hr hid.symm
  · rw [heq] at hw
    rcases WriteLog.mem_outbox_issue hw with hold | ⟨-, hnew⟩
    · exact hs v w hold
    · obtain rfl := List.mem_singleton.mp hnew
      rfl

/-- What is gone and not started again stays gone. -/
theorem Gone.step (hs : s.Gone userId id) (hsettled : s.Settled id) (h : Step s e s') :
    s'.Gone userId id := by
  have hissue : ∀ {u ws}, s'.requests = s.requests.issue u ws → s'.Gone userId id := by
    intro u ws heq
    rcases hs with hnone | hdelete
    · exact Or.inl (by rw [storedRequests_issue heq]; exact hnone)
    · exact Or.inr (heq ▸ WriteLog.outbox_subset_issue hdelete)
  rcases h.requests with ⟨heq, -⟩ | ⟨u, -, hcommit, -⟩ | ⟨r', -, -, heq, -⟩ |
    ⟨u, id', heq, -⟩
  · exact @hissue userId [] (by rw [heq, WriteLog.issue_nil])
  · obtain ⟨w, ws, hout, houtbox, hstored⟩ := storedRequests_commit hcommit
    have hw : w.starts id = false := hsettled u w (hout ▸ List.mem_cons_self)
    rcases hs with hnone | hdelete
    · left
      rw [hstored, getGameRequestWith_apply hw, hnone, ite_self]
    · by_cases hu : userId = u
      · subst hu
        rw [hout] at hdelete
        rcases List.mem_cons.mp hdelete with heq | hrest
        · left
          rw [hstored, getGameRequestWith_apply hw, if_pos heq.symm]
        · right
          rw [houtbox, Function.update_self]
          exact hrest
      · right
        rw [houtbox, Function.update_of_ne hu]
        exact hdelete
  · exact hissue heq
  · exact hissue heq

/-- A request whose delete the user's client has issued is not found by it. -/
theorem Gone.not_found (hs : s.Gone a.localUserId a.requestId) (htraced : s.Traced)
    (ha : a ∈ s.accepts) :
    getGameRequestWith (s.requestsSeenBy a.localUserId) a.requestId = none := by
  rw [getGameRequestWith_requestsSeenBy (htraced.not_starts ha)]
  split
  · rfl
  · next hnot => exact hs.resolve_right hnot

/-- Requests that have been found or deleted stay so, at every event. -/
theorem Withdrawn.step (hs : s.Withdrawn) (htraced : s.Traced) (h : Step s e s') :
    s'.Withdrawn := by
  have hstarted : ∀ a ∈ s.accepts, ∀ r, a.stage.request? = some r → r ∈ s.started := by
    intro a ha r hr
    obtain ⟨r', hr', -, -, hstage⟩ := htraced.accepts a ha
    exact hstage r hr ▸ hr'
  have hsettled : ∀ a ∈ s.accepts, ∀ r, a.stage.request? = some r → s'.Settled r.id :=
    fun a ha r hr => (hs.settled a ha r hr).step (hstarted a ha r hr) h
  refine ⟨fun a' ha' r hr => ?_, fun a' ha' r place hstage' => ?_⟩
  · rcases h.mem_accepts ha' with hold | hlooking | ⟨j, a, stage, ha, rfl, hnext⟩
    · exact hsettled a' hold r hr
    · rw [hlooking] at hr
      exact absurd hr (by simp [AcceptStage.request?])
    · cases hnext with
      | stops _ => exact absurd hr (by simp [AcceptStage.request?])
      | finds _ hfound =>
          obtain rfl := Option.some.inj hr
          obtain ⟨-, hmem, -, -, hsettled', -⟩ := htraced.found ha hfound
          exact hsettled'.step hmem h
      | creates hstage _ | completes hstage _ _ =>
          exact hsettled a ha r (by rw [hstage]; exact hr)
  · rcases h.mem_accepts ha' with hold | hlooking | ⟨j, a, stage, ha, rfl, hnext⟩
    · refine (hs.gone a' hold r place hstage').step (hs.settled a' hold r ?_) h
      rw [hstage', AcceptStage.request?]
    · exact absurd (hlooking.symm.trans hstage') (by simp)
    · cases hnext with
      | completes _ hdelete _ =>
          obtain ⟨rfl, rfl⟩ := AcceptStage.completed.inj hstage'
          exact Or.inr hdelete
      | stops _ | finds _ _ | creates _ _ => exact absurd hstage' (by simp)

/-! ### One accept finds the request -/

/-- A lookup finds no request that another accept has found: that accept would be under
way, or its client would have deleted the request. -/
theorem not_found_again (hw : s.Withdrawn) (htraced : s.Traced) (hC : s.AcceptsAlone e)
    {i : ℕ} {b : Accept} {r r' : GameRequest} (he : e = .lookedUp i false)
    (ha : s.accepts[i]? = some a)
    (hfound : getGameRequestWith (s.requestsSeenBy a.localUserId) a.requestId = some r)
    (hb : b ∈ s.accepts) (hr' : b.stage.request? = some r') : r.id ≠ r'.id := by
  intro heq
  subst he
  have hmem := List.mem_of_getElem? ha
  obtain ⟨-, hr, hid, hto, -, -⟩ := htraced.found hmem hfound
  obtain ⟨r₀, hr₀, hid₀, hto₀, hstage⟩ := htraced.accepts b hb
  obtain rfl := hstage r' hr'
  obtain rfl := htraced.eq_of_id_eq hr hr₀ heq
  have hunder : b.stage.underWay = false :=
    hC a (by simp [ha]) (by simp [hfound]) b hb (hid₀.symm.trans hid)
  cases hb' : b.stage with
  | completed request place =>
      rw [hb'] at hr'
      obtain rfl := Option.some.inj hr'
      have hgone := hw.gone b hb request place hb'
      rw [← hto₀, hto, hid] at hgone
      rw [hgone.not_found htraced hmem] at hfound
      exact absurd hfound (by simp)
  | lookingUp | stopped => exact absurd hr' (by simp [hb', AcceptStage.request?])
  | fetchingUser request | creating request place =>
      exact absurd hunder (by simp [hb', AcceptStage.underWay])

/-- **Accepts stay alone with their requests.** -/
theorem Alone.step (hs : s.Alone) (hw : s.Withdrawn) (htraced : s.Traced)
    (hC : s.AcceptsAlone e) (h : Step s e s') : s'.Alone := by
  intro i j a' b' r r' ha' hb' hr hr' hid
  rcases h.request? ha' hr with ⟨a, ha, hra⟩ | ⟨a, he, ha, -, hfound⟩
  · rcases h.request? hb' hr' with ⟨b, hb, hrb⟩ | ⟨b, he, hb, -, hfound⟩
    · exact hs i j a b r r' ha hb hra hrb hid
    · have hne := not_found_again hw htraced hC he hb hfound (List.mem_of_getElem? ha) hra
      exact absurd hid.symm hne
  · rcases h.request? hb' hr' with ⟨b, hb, hrb⟩ | ⟨b, he', hb, -, -⟩
    · have hne := not_found_again hw htraced hC he ha hfound (List.mem_of_getElem? hb) hrb
      exact absurd hid hne
    · rw [he] at he'
      exact (LobbyEvent.lookedUp.inj he').1

/-! ### Games and accepts account for each other -/

/-- A request stays stored while an accept waits for its user. -/
theorem isSome_storedRequests_step (hC : s.AcceptsAlone e) (ha : a ∈ s.accepts)
    (hstage : a.stage = .fetchingUser r)
    (hs : (getGameRequestWith s.storedRequests r.id).isSome) (h : Step s e s') :
    (getGameRequestWith s'.storedRequests r.id).isSome := by
  rcases h.requests with ⟨heq, -⟩ | ⟨u, rfl, hcommit, -⟩ | ⟨r', -, -, heq, -⟩ |
    ⟨u, id', heq, -⟩
  · rwa [storedRequests, heq]
  · obtain ⟨w, ws, hout, -, hstored⟩ := storedRequests_commit hcommit
    rw [hstored]
    refine isSome_getGameRequestWith_apply hs ?_
    exact hC w (by simp [hout]) a ha r (by simp [hstage, AcceptStage.fetching?])
  · rwa [storedRequests_issue heq]
  · rwa [storedRequests_issue heq]

/-- A lookup finds a stored request, and leaves it stored. -/
theorem isSome_storedRequests_found {j : ℕ} (htraced : s.Traced) (ha : a ∈ s.accepts)
    (hfound : getGameRequestWith (s.requestsSeenBy a.localUserId) a.requestId = some r)
    (h : Step s (.lookedUp j false) s') :
    (getGameRequestWith s'.storedRequests r.id).isSome := by
  obtain ⟨hstored, -, hid, -, -, -⟩ := htraced.found ha hfound
  have hsame : s'.storedRequests = s.storedRequests := by
    rcases h.requests with ⟨heq, -⟩ | ⟨u, he, -, -⟩ | ⟨r', -, -, heq, -⟩ | ⟨u, id', heq, -⟩
    · rw [storedRequests, heq, storedRequests]
    · exact absurd he (by simp)
    · exact storedRequests_issue heq
    · exact storedRequests_issue heq
  rw [hsame, hid, hstored]
  rfl

/-- A request that an accept has found is still stored. -/
theorem Accounted.fetching_step (hs : s.Accounted) (htraced : s.Traced)
    (hC : s.AcceptsAlone e) (h : Step s e s') (ha : a ∈ s'.accepts)
    (hstage : a.stage = .fetchingUser r) :
    (getGameRequestWith s'.storedRequests r.id).isSome := by
  rcases h.mem_accepts ha with hold | hlooking | ⟨j, b, stage, hb, rfl, hnext⟩
  · exact isSome_storedRequests_step hC hold hstage (hs.fetching a hold r hstage) h
  · exact absurd (hlooking.symm.trans hstage) (by simp)
  · cases hnext with
    | finds _ hfound =>
        obtain rfl := AcceptStage.fetchingUser.inj hstage
        exact isSome_storedRequests_found htraced hb hfound h
    | stops _ | creates _ _ | completes _ _ _ => exact absurd hstage (by simp)

/-- A game has an accept, and was created while its request was stored. -/
theorem Accounted.games_step (hs : s.Accounted) (hC : s.AcceptsAlone e) (h : Step s e s')
    (hg' : s'.games[place]? = some g') :
    g'.rejected = false ∧ g'.requestStored = true ∧
      ∃ a ∈ s'.accepts, a.stage.request? = some g'.gameRequest ∧
        a.stage.place? = some place := by
  rcases h.games hg' with ⟨g, hg, hadv⟩ |
    ⟨j, a, r, pairing, -, ha, hstage, -, -, -, haccepts, rfl⟩
  · obtain ⟨hrejected, hstored, a, ha, hr, hplace⟩ := hs.games place g hg
    rw [hadv.gameRequest, hadv.requestStored]
    refine ⟨?_, hstored, h.exists_place? ha hr hplace⟩
    cases hadv with
    | stays | steps _ _ _ => exact hrejected
    | rejected he _ =>
        subst he
        exact hC.elim
  · have hmem := List.mem_of_getElem? ha
    refine ⟨rfl, hs.fetching a hmem r hstage, { a with stage := .creating r place }, ?_,
      rfl, rfl⟩
    rw [haccepts]
    exact List.mem_of_getElem? (List.getElem?_set_self (List.getElem?_eq_some_iff.mp ha).1)

/-- The game of an accept advances in its place. -/
theorem Accounted.advances (hs : s.Accounted) (h : Step s e s') (ha : a ∈ s.accepts)
    (hr : a.stage.request? = some r) (hplace : a.stage.place? = some place) :
    ∃ g g', s.games[place]? = some g ∧ s'.games[place]? = some g' ∧ g.gameRequest = r ∧
      s.Advances e place g g' := by
  obtain ⟨g, hg, hrequest⟩ := hs.created a ha r place hr hplace
  obtain ⟨g', hg', hadv⟩ := h.getElem?_games hg
  exact ⟨g, g', hg, hg', hrequest, hadv⟩

/-- An accept that has created a game has it. -/
theorem Accounted.created_step (hs : s.Accounted) (h : Step s e s') (ha : a ∈ s'.accepts)
    (hr : a.stage.request? = some r) (hplace : a.stage.place? = some place) :
    ∃ g, s'.games[place]? = some g ∧ g.gameRequest = r := by
  have hold : ∀ b ∈ s.accepts, b.stage.request? = some r → b.stage.place? = some place →
      ∃ g, s'.games[place]? = some g ∧ g.gameRequest = r := by
    intro b hb hr hplace
    obtain ⟨g, g', -, hg', hrequest, hadv⟩ := hs.advances h hb hr hplace
    exact ⟨g', hg', hadv.gameRequest.trans hrequest⟩
  rcases h.mem_accepts ha with hmem | hlooking | ⟨j, b, stage, hb, rfl, hnext⟩
  · exact hold a hmem hr hplace
  · rw [hlooking] at hr
    exact absurd hr (by simp [AcceptStage.request?])
  · cases hnext with
    | stops _ | finds _ _ => exact absurd hplace (by simp [AcceptStage.place?])
    | creates _ hgames =>
        obtain rfl := Option.some.inj hr
        obtain rfl := Option.some.inj hplace
        exact ⟨_, by rw [hgames, List.getElem?_concat_length], rfl⟩
    | completes hstage _ _ =>
        exact hold b hb (by rw [hstage]; exact hr) (by rw [hstage]; exact hplace)

/-- When the completion of `createGame` has run, the game is stored. -/
theorem Accounted.completed_step (hs : s.Accounted) (h : Step s e s') (ha : a ∈ s'.accepts)
    (hstage : a.stage = .completed r place) (hg' : s'.games[place]? = some g') :
    g'.session.stored.isSome := by
  have hadvances : ∀ b ∈ s.accepts, b.stage.request? = some r →
      b.stage.place? = some place →
      (∀ g, s.games[place]? = some g → g.session.stored.isSome) →
      g'.session.stored.isSome := by
    intro b hb hr hplace hstored
    obtain ⟨g, g₁, hg, hg₁, -, hadv⟩ := hs.advances h hb hr hplace
    obtain rfl := Option.some.inj (hg'.symm.trans hg₁)
    exact hadv.isSome_stored (hstored g hg)
  rcases h.mem_accepts ha with hmem | hlooking | ⟨j, b, stage, hb, rfl, hnext⟩
  · exact hadvances a hmem (by rw [hstage, AcceptStage.request?])
      (by rw [hstage, AcceptStage.place?]) (hs.completed a hmem r place hstage)
  · exact absurd (hlooking.symm.trans hstage) (by simp)
  · cases hnext with
    | completes hcreating _ hstored =>
        obtain ⟨rfl, rfl⟩ := AcceptStage.completed.inj hstage
        exact hadvances b hb (by rw [hcreating, AcceptStage.request?])
          (by rw [hcreating, AcceptStage.place?])
          (fun g hg => hstored g hg (hs.games _ g hg).1)
    | stops _ | finds _ _ | creates _ _ => exact absurd hstage (by simp)

/-- **Games and accepts stay accounted for.** -/
theorem Accounted.step (hs : s.Accounted) (htraced : s.Traced) (hC : s.AcceptsAlone e)
    (h : Step s e s') : s'.Accounted where
  fetching := fun _ ha _ hstage => hs.fetching_step htraced hC h ha hstage
  games := fun _ _ hg => hs.games_step hC h hg
  created := fun _ ha _ _ hr hplace => hs.created_step h ha hr hplace
  completed := fun _ ha _ _ hstage _ hg => hs.completed_step h ha hstage hg

/-! ### Runs -/

/-- Nothing has been found at first. -/
theorem withdrawn_init : init.Withdrawn :=
  ⟨by simp [init], by simp [init]⟩

/-- There is no accept at first. -/
theorem alone_init : init.Alone := by
  intro i j a b r r' ha
  exact absurd ha (by simp [init])

/-- There is no game at first. -/
theorem accounted_init : init.Accounted :=
  ⟨by simp [init], by simp [init], by simp [init], by simp [init]⟩

/-- Under the invariants every request is consumed at most once. -/
theorem Accounted.consumedOnce (hs : s.Accounted) (halone : s.Alone) : s.ConsumedOnce where
  oneGame := by
    intro i j g g' hg hg' _ _ hid
    obtain ⟨-, -, a, ha, hr, hplace⟩ := hs.games i g hg
    obtain ⟨-, -, b, hb, hr', hplace'⟩ := hs.games j g' hg'
    obtain ⟨k, hk⟩ := List.mem_iff_getElem?.mp ha
    obtain ⟨l, hl⟩ := List.mem_iff_getElem?.mp hb
    obtain rfl := halone k l a b _ _ hk hl hr hr' hid
    obtain rfl := Option.some.inj (hk.symm.trans hl)
    exact Option.some.inj (hplace.symm.trans hplace')
  stored := by
    intro g hg _
    obtain ⟨place, hplace⟩ := List.mem_iff_getElem?.mp hg
    exact (hs.games place g hplace).2.1
  deletes := by
    intro a ha r place hstage
    obtain ⟨g, hg, hrequest⟩ := hs.created a ha r place (by rw [hstage, AcceptStage.request?])
      (by rw [hstage, AcceptStage.place?])
    exact ⟨g, hg, hrequest, (hs.games place g hg).1, hs.completed a ha r place hstage g hg⟩

/-- **A request is consumed once**, in every run in which nothing gets between an accept
and its request. -/
theorem consumed_once {es : List LobbyEvent}
    (h : RunWhere Lobby.step AcceptsAlone init es s) : s.ConsumedOnce := by
  have hinv : s.Traced ∧ s.Withdrawn ∧ s.Alone ∧ s.Accounted := by
    refine h.invariant (I := fun s => s.Traced ∧ s.Withdrawn ∧ s.Alone ∧ s.Accounted)
      ⟨traced_init, withdrawn_init, alone_init, accounted_init⟩ ?_
    rintro t e t' ⟨htraced, hwithdrawn, halone, haccounted⟩ hC hstep
    have h := step_of_step_eq hstep
    exact ⟨htraced.step h, hwithdrawn.step htraced h, halone.step hwithdrawn htraced hC h,
      haccounted.step htraced hC h⟩
  exact hinv.2.2.2.consumedOnce hinv.2.2.1

/-- The second user invites the first, who accepts. -/
def oneAccept : List LobbyEvent :=
  inviting 0 "request" (sampleInvitation "uid2" "uid1" uid2_ne_uid1) ++
    accepting 0 0 0 (samplePairing "game" "uid1" "uid2" uid2_ne_uid1.symm) ++
    [.commitRequest "uid1"]

/-- The run `oneAccept` ends with one game, and the request is consumed. -/
theorem consumed_once_oneAccept : ∃ s, Run Lobby.step init oneAccept s ∧
    s.games.length = 1 ∧ s.storedRequests = [] ∧ s.ConsumedOnce := by
  have hrun : RunWhere Lobby.step AcceptsAlone init oneAccept
      ((execWhere Lobby.step AcceptsAlone init oneAccept).get (by decide)) := runWhere_get _
  exact ⟨_, hrun.toRun, by decide, by decide, consumed_once hrun⟩

/-- The user taps Accept twice. -/
def twoAccepts : List LobbyEvent :=
  inviting 0 "request" (sampleInvitation "uid2" "uid1" uid2_ne_uid1) ++
    [.tapAccept 0, .tapAccept 0, .lookedUp 0 false, .lookedUp 1 false,
      .userFetched 0 (some (samplePairing "game" "uid1" "uid2" uid2_ne_uid1.symm)),
      .userFetched 1 (some (samplePairing "game2" "uid1" "uid2" uid2_ne_uid1.symm)),
      .game 0 (.commit .acceptor), .game 1 (.commit .acceptor)]

/-- **Two games come from one request.** -/
theorem consumed_twice :
    ¬ ∀ (es : List LobbyEvent) (s : Lobby), Run Lobby.step init es s → s.ConsumedOnce := by
  intro h
  have hrun : Run Lobby.step init twoAccepts
      ((exec Lobby.step init twoAccepts).get (by decide)) := runWhere_get _
  have hone := (h _ _ hrun).oneGame 0 1 _ _ rfl rfl (by decide) (by decide) (by decide)
  exact absurd hone (by decide)

end Lobby

end RockPaperScissors
