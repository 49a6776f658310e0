import RockPaperScissors.RequestTrace

/-!
# The Pending Requests of a Pair

A request is written after two queries: that no request of the same two users exists, and
that the other user is in no game. The answer of the first may be stale when the request is
written: two invitations of one user can both be answered before either writes.

All requests of an ordered pair are written by the user they are from, whose client reads
its own waiting writes. So the client's outbox tells how many there can be: every prefix of
it is going to be committed in order, over what other clients have deleted meanwhile
(`Single`). A request keeps the invariant exactly when the existence check would still
answer no at the moment it is written (`StartsAlone`).

## Main results

* `pending_replay_sublist`: under the same writes, fewer requests of a pair stay fewer.
* `started_of_step`: `setGameRequestTo` is the only way to start a request.
* `Single.step_iff`: the invariant is kept by exactly the steps that start a request alone.
* `single_of_run`: it holds after every run of such steps.
-/

open TransitionSystem

namespace RockPaperScissors

/-- The requests of an ordered pair of users. -/
def pending (docs : List GameRequest) (fromId toId : String) : List GameRequest :=
  docs.filter fun r => r.fromId = fromId ∧ r.toId = toId

section Pending

variable {docs docs' : List GameRequest} {a b : String} {w : RequestWrite}
  {ws : List RequestWrite}

/-- The existence check finds the pending requests. -/
theorem checkForExtistingGameRequest_eq_false :
    checkForExtistingGameRequest docs b a = false ↔ pending docs a b = [] := by
  simp [checkForExtistingGameRequest, pending, List.filter_eq_nil_iff]

/-- The pending requests of a list are those of its parts. -/
theorem pending_append : pending (docs ++ docs') a b = pending docs a b ++ pending docs' a b :=
  List.filter_append ..

/-- To drop requests drops the pending ones among them. -/
theorem pending_filter (p : GameRequest → Bool) :
    pending (docs.filter p) a b = (pending docs a b).filter p :=
  List.filter_comm ..

/-- Under one write, fewer requests of a pair stay fewer. -/
theorem pending_apply_sublist (h : (pending docs a b).Sublist (pending docs' a b)) :
    (pending (RequestWrite.apply docs w) a b).Sublist
      (pending (RequestWrite.apply docs' w) a b) := by
  cases w with
  | start request =>
      simp only [RequestWrite.apply, pending_append, pending_filter]
      exact (h.filter _).append (List.Sublist.refl _)
  | delete id =>
      simp only [RequestWrite.apply, pending_filter]
      exact h.filter _

/-- **Under the same writes, fewer requests of a pair stay fewer.** -/
theorem pending_replay_sublist (h : (pending docs a b).Sublist (pending docs' a b)) :
    (pending (WriteLog.replay RequestWrite.apply docs ws) a b).Sublist
      (pending (WriteLog.replay RequestWrite.apply docs' ws) a b) := by
  induction ws generalizing docs docs' with
  | nil => exact h
  | cons w ws ih => exact ih (pending_apply_sublist h)

/-- A write that starts no request of the pair adds none. -/
theorem pending_apply_of_not_starts
    (h : ∀ r, w = .start r → ¬ (r.fromId = a ∧ r.toId = b)) :
    (pending (RequestWrite.apply docs w) a b).Sublist (pending docs a b) := by
  cases w with
  | start request =>
      have hnone : pending [request] a b = [] := by
        simpa [pending] using h request rfl
      simp only [RequestWrite.apply, pending_append, pending_filter, hnone, List.append_nil]
      exact List.filter_sublist
  | delete id =>
      simp only [RequestWrite.apply, pending_filter]
      exact List.filter_sublist

end Pending

namespace Lobby

/-! ### What starts a request -/

/-- The request `setGameRequestTo` writes in an event. -/
def starting (s : Lobby) : LobbyEvent → Option GameRequest
  | .gameChecked i error documentID now => s.invites[i]?.bind fun invite =>
      if invite.stage = .checkingGame then
        if error ∨ checkForOngoingGameWith (s.gamesSeenBy invite.localUserId)
          invite.userId then none
        else createGameRequest invite.localUser invite.userId documentID now
      else none
  | _ => none

/-- **A request is started alone**: when it is written, the existence check would still
answer no. -/
def StartsAlone (s : Lobby) (e : LobbyEvent) : Prop :=
  ∀ r ∈ s.starting e,
    checkForExtistingGameRequest (s.requestsSeenBy r.fromId) r.toId r.fromId = false

instance (s : Lobby) (e : LobbyEvent) : Decidable (s.StartsAlone e) :=
  inferInstanceAs (Decidable (∀ r ∈ s.starting e, _))

variable {s s' : Lobby} {e : LobbyEvent} {r : GameRequest} {a b : String}

/-- An event of a session starts no request. -/
theorem started_of_drive {place : ℕ} {e : Event} (h : s.drive place e = some s') :
    s'.started = s.started := by
  obtain ⟨games, -, rfl⟩ := drive_eq_some h
  rfl

/-- `removeGameListener` starts no request. -/
theorem started_removeGameListener {u : String} :
    (s.removeGameListener u).started = s.started := rfl

/-- `deleteGameRequest` starts no request. -/
theorem started_deleteGameRequest {u : String} : (s.deleteGameRequest u r).started = s.started :=
  rfl

/-- `onClose` starts no request. -/
theorem started_onClose {v : ℕ} {view : LoadingView} : (s.onClose v view).started = s.started :=
  rfl

/-- `setupLoadingView` starts no request. -/
theorem started_setupLoadingView : (s.setupLoadingView r).started = s.started := rfl

/-- The other events start no request. -/
theorem started_of_quiet (he : ∀ i error documentID now, e ≠ .gameChecked i error documentID now)
    (h : s.step e = some s') : s'.started = s.started := by
  cases e with
  | gameChecked i error documentID now => exact absurd rfl (he i error documentID now)
  | find v place version =>
      obtain ⟨view, -, h⟩ := Option.bind_eq_some_iff.mp h
      obtain ⟨g, -, h⟩ := Option.bind_eq_some_iff.mp h
      obtain ⟨p, -, h⟩ := Option.bind_eq_some_iff.mp h
      split at h
      · have hsame := started_of_drive h
        exact hsame
      · exact absurd h (by simp)
  | gameAccepted v =>
      obtain ⟨view, -, h⟩ := Option.bind_eq_some_iff.mp h
      split at h
      · exact absurd h (by simp)
      · obtain ⟨g, -, h⟩ := Option.bind_eq_some_iff.mp h
        obtain ⟨p, -, h⟩ := Option.bind_eq_some_iff.mp h
        exact (started_of_drive h).trans started_removeGameListener
  | _ =>
      simp only [step, Option.bind_eq_some_iff, Option.map_eq_some_iff] at h
      grind [started_of_drive, started_removeGameListener, started_deleteGameRequest,
        started_onClose, started_setupLoadingView]

/-- **Only `setGameRequestTo` starts a request.** -/
theorem started_of_step (h : s.step e = some s') :
    s'.started = s.started ++ (s.starting e).toList := by
  by_cases he : ∃ i error documentID now, e = .gameChecked i error documentID now
  · obtain ⟨i, error, documentID, now, rfl⟩ := he
    obtain ⟨invite, hinvite, h⟩ := Option.bind_eq_some_iff.mp h
    split at h
    · next hstage =>
        simp only [starting, hinvite, Option.bind_some, hstage, if_true]
        split at h
        · next hongoing =>
            obtain rfl := Option.some.inj h
            rw [if_pos hongoing]
            simp
        · next hfree =>
            rw [if_neg hfree]
            split at h
            · exact absurd h (by simp)
            · obtain ⟨request, hrequest, rfl⟩ := Option.map_eq_some_iff.mp h
              rw [hrequest, Option.toList_some]
    · exact absurd h (by simp)
  · have hquiet : ∀ i error documentID now, e ≠ .gameChecked i error documentID now :=
      fun i error documentID now heq => he ⟨i, error, documentID, now, heq⟩
    have hnone : s.starting e = none := by
      unfold starting
      split
      · exact absurd rfl (hquiet _ _ _ _)
      · rfl
    rw [started_of_quiet hquiet h, hnone]
    simp

/-- How the requests change, with the request that is started. -/
theorem requests_of_step (h : s.step e = some s') :
    (s'.requests = s.requests ∧ s.starting e = none) ∨
      (∃ u, s.requests.commit u = some s'.requests ∧ s.starting e = none) ∨
      (∃ r, s.starting e = some r ∧ (∀ r' ∈ s.started, r'.id ≠ r.id) ∧
        s'.requests = s.requests.issue r.fromId [.start r]) ∨
      ∃ u id, s'.requests = s.requests.issue u [.delete id] ∧ s.starting e = none := by
  have hstarted := started_of_step h
  have hnone (heq : s'.started = s.started) : s.starting e = none := by
    rw [hstarted] at heq
    simpa using heq
  rcases (step_of_step_eq h).requests with ⟨hsame, heq⟩ | ⟨u, -, hcommit, heq⟩ |
    ⟨r, hfresh, -, hissue, hgrown⟩ | ⟨u, id, hissue, heq⟩
  · exact Or.inl ⟨hsame, hnone heq⟩
  · exact Or.inr (Or.inl ⟨u, hcommit, hnone heq⟩)
  · have hr : (s.starting e).toList = [r] :=
      List.append_cancel_left (hstarted.symm.trans hgrown)
    refine Or.inr (Or.inr (Or.inl ⟨r, ?_, hfresh, hissue⟩))
    cases hstarting : s.starting e with
    | none => exact absurd hr (by simp [hstarting])
    | some r' =>
        rw [hstarting] at hr
        rw [List.singleton_inj.mp hr]
  · exact Or.inr (Or.inr (Or.inr ⟨u, id, hissue, hnone heq⟩))

/-! ### The invariant -/

/-- **The invariant**: whatever prefix of its outbox a client has committed next, at most
one of its requests to any user is stored. -/
def Single (s : Lobby) : Prop :=
  ∀ a b, ∀ ws, ws <+: s.requests.outbox a →
    (pending (WriteLog.replay RequestWrite.apply s.storedRequests ws) a b).length ≤ 1

/-- There are no requests at first. -/
theorem single_init : init.Single := by
  intro a b ws hws
  obtain rfl := List.prefix_nil.mp hws
  exact Nat.zero_le 1

/-- At most one request of a pair is stored. -/
theorem Single.stored (hs : s.Single) (a b : String) :
    (pending s.storedRequests a b).length ≤ 1 :=
  hs a b [] (List.nil_prefix)

/-- A commit keeps the invariant: the client's own outbox is one write shorter, and other
clients start none of its requests. -/
theorem Single.commit (hs : s.Single) (htraced : s.Traced) {u : String}
    (h : s.requests.commit u = some s'.requests) : s'.Single := by
  obtain ⟨w, rest, hout, hlog, hstored⟩ :=
    WriteLog.current_commit RequestWrite.apply ([] : List GameRequest) h
  intro a b ws hws
  by_cases ha : a = u
  · subst ha
    have hprefix : w :: ws <+: s.requests.outbox a := by
      rw [hlog] at hws
      rw [hout]
      exact (List.prefix_cons_inj w).mpr (by simpa using hws)
    have hcount := hs a b _ hprefix
    rw [storedRequests, hstored]
    exact hcount
  · have hprefix : ws <+: s.requests.outbox a := by
      rw [hlog] at hws
      simpa [ha] using hws
    refine le_trans (List.Sublist.length_le ?_) (hs a b ws hprefix)
    rw [storedRequests, hstored]
    refine pending_replay_sublist (pending_apply_of_not_starts fun r hr => ?_)
    rintro ⟨hfrom, -⟩
    have hissued : .start r ∈ s.requests.issuedBy u :=
      WriteLog.mem_issuedBy_of_mem_outbox (by rw [hout, hr]; exact List.mem_cons_self)
    exact ha (hfrom.symm.trans (htraced.issued u r hissued).2)

/-- What an issued write must satisfy to keep the invariant. -/
theorem Single.issue_iff (hs : s.Single) {u : String} {w : RequestWrite}
    (h : s'.requests = s.requests.issue u [w]) :
    s'.Single ↔ ∀ b, (pending (RequestWrite.apply (s.requestsSeenBy u) w) u b).length ≤ 1 := by
  have hstored : s'.storedRequests = s.storedRequests := by
    rw [storedRequests, h, storedRequests, WriteLog.current_issue]
  have hall : WriteLog.replay RequestWrite.apply s.storedRequests (s.requests.outbox u ++ [w]) =
      RequestWrite.apply (s.requestsSeenBy u) w := by
    rw [requestsSeenBy, WriteLog.view_length, WriteLog.replay, List.foldl_append]
    rfl
  constructor
  · intro hs' b
    have hcount := hs' u b (s.requests.outbox u ++ [w]) (by rw [h]; simp)
    rwa [hstored, hall] at hcount
  · intro hlast a b ws hws
    rw [hstored]
    by_cases ha : a = u
    · subst ha
      rw [h, WriteLog.issue_outbox_self] at hws
      rcases List.prefix_concat_iff.mp hws with rfl | hold
      · rw [hall]
        exact hlast b
      · exact hs a b ws hold
    · rw [h, WriteLog.issue_outbox_of_ne ha] at hws
      exact hs a b ws hws

/-- A user sees only requests that have been started. -/
theorem Traced.mem_of_seen (htraced : s.Traced) {u : String} (hr : r ∈ s.requestsSeenBy u) :
    r ∈ s.started := by
  refine WriteLog.view_invariant (I := fun docs : List GameRequest =>
    ∀ r ∈ docs, r ∈ s.started) (by simp) ?_ _ r hr
  intro c w hw docs hdocs r hr
  rcases mem_apply hr with hold | rfl
  · exact hdocs r hold
  · exact (htraced.issued c r hw).1

/-- A new request leaves the requests that its user sees. -/
theorem Traced.apply_start (htraced : s.Traced) {u : String}
    (hfresh : ∀ r' ∈ s.started, r'.id ≠ r.id) :
    RequestWrite.apply (s.requestsSeenBy u) (.start r) = s.requestsSeenBy u ++ [r] := by
  have hall : (s.requestsSeenBy u).filter (fun r' => r'.id ≠ r.id) = s.requestsSeenBy u := by
    rw [List.filter_eq_self]
    intro r' hr'
    simpa using hfresh r' (htraced.mem_of_seen hr')
  rw [RequestWrite.apply, hall]

/-- **The invariant is kept by exactly the steps that start a request alone.** -/
theorem Single.step_iff (hs : s.Single) (htraced : s.Traced) (h : s.step e = some s') :
    s'.Single ↔ s.StartsAlone e := by
  have hview : ∀ u b, (pending (s.requestsSeenBy u) u b).length ≤ 1 := by
    intro u b
    rw [requestsSeenBy, WriteLog.view_length]
    exact hs u b _ (List.prefix_refl _)
  rcases requests_of_step h with ⟨hsame, hnone⟩ | ⟨u, hcommit, hnone⟩ |
    ⟨r, hstarting, hfresh, hissue⟩ | ⟨u, id, hissue, hnone⟩
  · have hkept : s'.Single := by
      intro a b ws hws
      rw [storedRequests, hsame]
      rw [hsame] at hws
      exact hs a b ws hws
    simp [hkept, StartsAlone, hnone]
  · simp [hs.commit htraced hcommit, StartsAlone, hnone]
  · have halone : s.StartsAlone e ↔ pending (s.requestsSeenBy r.fromId) r.fromId r.toId = [] := by
      simp [StartsAlone, hstarting, checkForExtistingGameRequest_eq_false]
    rw [hs.issue_iff hissue, halone, htraced.apply_start hfresh]
    constructor
    · intro hlast
      have hnew : pending [r] r.fromId r.toId = [r] := by simp [pending]
      have hcount := hlast r.toId
      rw [pending_append, hnew, List.length_append] at hcount
      exact List.length_eq_zero_iff.mp (Nat.le_zero.mp (Nat.le_of_succ_le_succ hcount))
    · intro hempty b
      rw [pending_append]
      by_cases hb : b = r.toId
      · subst hb
        rw [hempty, List.nil_append]
        exact List.length_filter_le _ _
      · have hother : pending [r] r.fromId b = [] := by
          simp [pending, Ne.symm hb]
        rw [hother, List.append_nil]
        exact hview r.fromId b
  · have hkept : s'.Single := by
      rw [hs.issue_iff hissue]
      intro b
      exact le_trans (pending_apply_of_not_starts fun r hr => by simp at hr).length_le (hview u b)
    simp [hkept, StartsAlone, hnone]

/-- **At most one request of a pair** is ever waiting or stored, in every run in which each
request is started alone. -/
theorem single_of_run {es : List LobbyEvent} (h : RunWhere step StartsAlone init es s) :
    s.Single := by
  have hboth : s.Single ∧ s.Traced := by
    refine h.invariant (I := fun s => s.Single ∧ s.Traced) ⟨single_init, traced_init⟩ ?_
    rintro s e s' ⟨hs, htraced⟩ halone hstep
    exact ⟨(hs.step_iff htraced hstep).mpr halone, htraced.step (step_of_step_eq hstep)⟩
  exact hboth.1

end Lobby

end RockPaperScissors
