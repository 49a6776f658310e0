import Mathlib.Data.List.Nodup
import RockPaperScissors.LobbySteps

/-!
# Where Requests Come From

Every request in the store, in what a client sees and in an accept was started once, by
the user it is from. From this follows what the answer of `getGameRequestWith` says: the
user who accepts is the one the request is to, who never started it, so the answer is the
stored request, and no write that would start it again is waiting anywhere.

## Main results

* `Traced.step`: the invariant, kept by every event.
* `Traced.found`: what an accept learns when it finds the request.
* `users_of_run`: a game is played by the two users of its request.
-/

open TransitionSystem

namespace RockPaperScissors

namespace Lobby

/-- Every request in the lobby was started, once, by the user it is from, and accepts are
made by the user it is to. -/
structure Traced (s : Lobby) : Prop where
  ids : (s.started.map GameRequest.id).Nodup
  users : ∀ r ∈ s.started, r.fromId ≠ r.toId
  issued : ∀ u r, .start r ∈ s.requests.issuedBy u → r ∈ s.started ∧ r.fromId = u
  once : ∀ u, (s.requests.issuedBy u).Pairwise fun w w' =>
    ∀ id, w.starts id = true → w'.starts id = false
  accepts : ∀ a ∈ s.accepts, ∃ r ∈ s.started, r.id = a.requestId ∧
    r.toId = a.localUserId ∧ ∀ r', a.stage.request? = some r' → r' = r

/-- No write that starts the request is waiting. -/
def Settled (s : Lobby) (id : String) : Prop :=
  ∀ u, ∀ w ∈ s.requests.outbox u, w.starts id = false

variable {s s' : Lobby} {e : LobbyEvent} {r r' : GameRequest} {a : Accept}

/-! ### Reading traced requests -/

/-- There are no requests to trace at first. -/
theorem traced_init : init.Traced where
  ids := List.nodup_nil
  users := by simp [init]
  issued := by simp [init]
  once := by simp [init]
  accepts := by simp [init]

/-- Started requests with the same id are one. -/
theorem Traced.eq_of_id_eq (hs : s.Traced) (hr : r ∈ s.started) (hr' : r' ∈ s.started)
    (h : r.id = r'.id) : r = r' :=
  List.inj_on_of_nodup_map hs.ids hr hr' h

/-- The stored requests come from committed starts. -/
theorem mem_log_of_mem_storedRequests (hr : r ∈ s.storedRequests) :
    ∃ u, (u, .start r) ∈ s.requests.log := by
  have hdocs : ∀ r ∈ s.storedRequests, .start r ∈ s.requests.log.map Prod.snd := by
    refine WriteLog.replay_invariant (I := fun docs : List GameRequest =>
      ∀ r ∈ docs, .start r ∈ s.requests.log.map Prod.snd) (d := []) (by simp) ?_
    intro w hw docs hdocs r hr
    rcases mem_apply hr with hold | rfl
    · exact hdocs r hold
    · exact hw
  obtain ⟨⟨u, w⟩, hmem, rfl⟩ := List.mem_map.mp (hdocs r hr)
  exact ⟨u, hmem⟩

/-- What a user sees of a request that no waiting write starts. -/
theorem getGameRequestWith_requestsSeenBy {u id : String}
    (h : ∀ w ∈ s.requests.outbox u, w.starts id = false) :
    getGameRequestWith (s.requestsSeenBy u) id =
      if .delete id ∈ s.requests.outbox u then none
      else getGameRequestWith s.storedRequests id := by
  rw [requestsSeenBy, WriteLog.view_length]
  exact getGameRequestWith_replay h

/-- **A committed start is the only one of its request.** -/
theorem Traced.settled (hs : s.Traced) {u : String} (h : (u, .start r) ∈ s.requests.log) :
    s.Settled r.id := by
  obtain ⟨hr, rfl⟩ := hs.issued u r (WriteLog.mem_issuedBy_of_mem_log h)
  intro v w hw
  cases w with
  | delete id => rfl
  | start r' =>
      obtain ⟨hr', rfl⟩ := hs.issued v r' (WriteLog.mem_issuedBy_of_mem_outbox hw)
      by_contra hstarts
      have hid : r'.id = r.id := by simpa [RequestWrite.starts] using hstarts
      obtain rfl := hs.eq_of_id_eq hr' hr hid
      have honce := (List.pairwise_append.mp (hs.once r'.fromId)).2.2 _
        (WriteLog.mem_committedBy_of_mem_log h) _ hw r'.id
      simp [RequestWrite.starts] at honce

/-- The client of an accept has not started the request. -/
theorem Traced.not_starts (hs : s.Traced) (ha : a ∈ s.accepts) :
    ∀ w ∈ s.requests.outbox a.localUserId, w.starts a.requestId = false := by
  obtain ⟨r, hr, hid, hto, -⟩ := hs.accepts a ha
  intro w hw
  cases w with
  | delete id => rfl
  | start r' =>
      obtain ⟨hr', hfrom⟩ := hs.issued _ r' (WriteLog.mem_issuedBy_of_mem_outbox hw)
      by_contra hstarts
      have hid' : r'.id = a.requestId := by simpa [RequestWrite.starts] using hstarts
      obtain rfl := hs.eq_of_id_eq hr' hr (hid'.trans hid.symm)
      exact hs.users r' hr' (hfrom.trans hto.symm)

/-- **What an accept learns when it finds the request**: it is the one of the
notification, it is stored, its start is not waiting, and the client has not deleted it. -/
theorem Traced.found (hs : s.Traced) (ha : a ∈ s.accepts)
    (h : getGameRequestWith (s.requestsSeenBy a.localUserId) a.requestId = some r) :
    getGameRequestWith s.storedRequests a.requestId = some r ∧ r ∈ s.started ∧
      r.id = a.requestId ∧ r.toId = a.localUserId ∧ s.Settled r.id ∧
      .delete r.id ∉ s.requests.outbox a.localUserId := by
  rw [getGameRequestWith_requestsSeenBy (hs.not_starts ha)] at h
  split at h
  · exact absurd h (by simp)
  · next hdelete =>
      obtain ⟨u, hlog⟩ := mem_log_of_mem_storedRequests (mem_of_getGameRequestWith h)
      have hid := id_of_getGameRequestWith h
      have hr := (hs.issued u r (WriteLog.mem_issuedBy_of_mem_log hlog)).1
      obtain ⟨r₀, hr₀, hid₀, hto, -⟩ := hs.accepts a ha
      obtain rfl := hs.eq_of_id_eq hr hr₀ (hid.trans hid₀.symm)
      exact ⟨h, hr, hid, hto, hs.settled hlog, by rwa [hid]⟩

/-! ### The step rule -/

/-- Events that start nothing keep the trace. -/
theorem Traced.keep {t : Lobby} (hs : s.Traced) (hissued : ∀ u, ∃ ws,
    t.requests.issuedBy u = s.requests.issuedBy u ++ ws ∧
      ∀ w ∈ ws, ∀ id, w.starts id = false) (hstarted : t.started = s.started)
    (haccepts : t.accepts = s.accepts) : t.Traced where
  ids := hstarted ▸ hs.ids
  users := hstarted ▸ hs.users
  issued := by
    intro u r hr
    obtain ⟨ws, heq, hws⟩ := hissued u
    rw [heq] at hr
    rw [hstarted]
    rcases List.mem_append.mp hr with hold | hnew
    · exact hs.issued u r hold
    · have hstarts := hws _ hnew r.id
      simp [RequestWrite.starts] at hstarts
  once := by
    intro u
    obtain ⟨ws, heq, hws⟩ := hissued u
    rw [heq, List.pairwise_append]
    refine ⟨hs.once u, ?_, fun w _ w' hw' id _ => hws w' hw' id⟩
    exact List.pairwise_of_forall_mem_list fun w _ w' hw' id _ => hws w' hw' id
  accepts := by
    rw [hstarted, haccepts]
    exact hs.accepts

/-- A start of a new request, by the user it is from. -/
theorem Traced.start {t : Lobby} (hs : s.Traced) (hfresh : ∀ r' ∈ s.started, r'.id ≠ r.id)
    (hne : r.fromId ≠ r.toId) (h : t.requests = s.requests.issue r.fromId [.start r])
    (hstarted : t.started = s.started ++ [r]) (haccepts : t.accepts = s.accepts) :
    t.Traced where
  ids := by
    rw [hstarted, List.map_append, List.nodup_append]
    refine ⟨hs.ids, List.nodup_singleton _, ?_⟩
    rintro id hid id' hid' rfl
    obtain ⟨r', hr', rfl⟩ := List.mem_map.mp hid
    exact hfresh r' hr' (List.mem_singleton.mp hid')
  users := by
    rw [hstarted]
    intro r' hr'
    rcases List.mem_append.mp hr' with hold | hnew
    · exact hs.users r' hold
    · obtain rfl := List.mem_singleton.mp hnew
      exact hne
  issued := by
    intro u r' hr'
    rw [h, WriteLog.issuedBy_issue] at hr'
    rw [hstarted]
    rcases List.mem_append.mp hr' with hold | hnew
    · obtain ⟨hmem, hfrom⟩ := hs.issued u r' hold
      exact ⟨List.mem_append_left _ hmem, hfrom⟩
    · split at hnew
      · next hu =>
          obtain rfl := RequestWrite.start.inj (List.mem_singleton.mp hnew)
          exact ⟨List.mem_append_right _ (List.mem_singleton.mpr rfl), hu.symm⟩
      · exact absurd hnew (by simp)
  once := by
    intro u
    rw [h, WriteLog.issuedBy_issue, List.pairwise_append]
    refine ⟨hs.once u, ?_, fun w hw w' hw' id hid => ?_⟩
    · split
      · exact List.pairwise_singleton _ _
      · exact List.Pairwise.nil
    · split at hw'
      · obtain rfl := List.mem_singleton.mp hw'
        cases w with
        | delete _ => exact absurd hid (by simp [RequestWrite.starts])
        | start r' =>
            have hr' := hfresh r' (hs.issued u r' hw).1
            have hid' : r'.id = id := by simpa [RequestWrite.starts] using hid
            simpa [RequestWrite.starts] using fun heq => hr' (hid'.trans heq.symm)
      · exact absurd hw' (by simp)
  accepts := by
    rw [hstarted, haccepts]
    intro a ha
    obtain ⟨r', hr', hid, hto, hstage⟩ := hs.accepts a ha
    exact ⟨r', List.mem_append_left _ hr', hid, hto, hstage⟩

/-- What an event does to the requests keeps the trace. -/
theorem Traced.step_requests (hs : s.Traced) (h : Step s e s') :
    Traced { s' with accepts := s.accepts } := by
  rcases h.requests with ⟨hrequests, hstarted⟩ | ⟨u, -, hcommit, hstarted⟩ |
    ⟨r, hfresh, hne, hissue, hstarted⟩ | ⟨u, id, hissue, hstarted⟩
  · refine hs.keep (fun u => ⟨[], ?_, by simp⟩) hstarted rfl
    simp [hrequests]
  · refine hs.keep (fun v => ⟨[], ?_, by simp⟩) hstarted rfl
    simp [WriteLog.issuedBy_commit hcommit]
  · exact hs.start hfresh hne hissue hstarted rfl
  · refine hs.keep (fun v => ⟨if v = u then [.delete id] else [], ?_, ?_⟩) hstarted rfl
    · simp [hissue, WriteLog.issuedBy_issue]
    · intro w hw id'
      split at hw
      · obtain rfl := List.mem_singleton.mp hw
        rfl
      · exact absurd hw (by simp)

/-- **Every event keeps the trace.** -/
theorem Traced.step (hs : s.Traced) (h : Step s e s') : s'.Traced := by
  obtain ⟨hids, husers, hissued, honce, haccepts⟩ := hs.step_requests h
  refine ⟨hids, husers, hissued, honce, fun a' ha' => ?_⟩
  rcases h.accepts with hsame | ⟨r, hr, htap⟩ | ⟨j, a, stage, ha, hset, hnext⟩
  · rw [hsame] at ha'
    exact haccepts a' ha'
  · rw [htap] at ha'
    rcases List.mem_append.mp ha' with hold | hnew
    · exact haccepts a' hold
    · obtain rfl := List.mem_singleton.mp hnew
      exact ⟨r, h.subset_started hr, rfl, rfl, by simp [AcceptStage.request?]⟩
  · rw [hset] at ha'
    rcases List.mem_or_eq_of_mem_set ha' with hold | rfl
    · exact haccepts a' hold
    · have hmem := List.mem_of_getElem? ha
      obtain ⟨r, hr, hid, hto, hstage⟩ := haccepts a hmem
      refine ⟨r, hr, hid, hto, fun r' hr' => ?_⟩
      cases hnext with
      | stops _ => exact absurd hr' (by simp [AcceptStage.request?])
      | finds _ hfound =>
          obtain ⟨-, hstarted, hid', -, -, -⟩ := hs.found hmem hfound
          obtain rfl := Option.some.inj hr'
          exact List.inj_on_of_nodup_map hids (h.subset_started hstarted) hr
            (hid'.trans hid.symm)
      | creates hold _ | completes hold _ _ =>
          exact hstage r' (by rw [hold]; exact hr')

/-- In every reachable lobby requests are traced. -/
theorem traced_of_run {es : List LobbyEvent} (h : Run Lobby.step init es s) : s.Traced :=
  h.invariant traced_init fun _ _ _ hs _ hstep => hs.step (step_of_step_eq hstep)

/-- **The two users of a game are the two users of its request.** -/
theorem users_of_run {es : List LobbyEvent} (h : Run Lobby.step init es s) :
    ∀ g ∈ s.games, g.pairing.userId .acceptor = g.gameRequest.toId ∧
      g.pairing.userId .requester = g.gameRequest.fromId := by
  refine h.invariant_events (I := fun _ s => ∀ g ∈ s.games,
    g.pairing.userId .acceptor = g.gameRequest.toId ∧
      g.pairing.userId .requester = g.gameRequest.fromId) (by simp [init]) ?_
  intro es t e t' hrun ht _ hstep g' hg'
  obtain ⟨place, hplace⟩ := List.mem_iff_getElem?.mp hg'
  rcases (step_of_step_eq hstep).games hplace with ⟨g, hg, hadv⟩ |
    ⟨j, a, r, pairing, -, ha, hstage, hacceptor, hrequester, -, -, rfl⟩
  · rw [hadv.pairing, hadv.gameRequest]
    exact ht g (List.mem_of_getElem? hg)
  · obtain ⟨r₀, -, -, hto, hr⟩ := (traced_of_run hrun).accepts a (List.mem_of_getElem? ha)
    obtain rfl := hr r (by rw [hstage, AcceptStage.request?])
    exact ⟨hacceptor.trans hto.symm, hrequester⟩

end Lobby

end RockPaperScissors
