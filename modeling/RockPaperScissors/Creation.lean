import RockPaperScissors.Writes

/-!
# The Creation of a Game

`createGame` is the first write of a game document: until it is committed nothing else
is, and only the client that created the game can see it, as its own waiting write. Every
later write is an update of an existing document.

## Main results

* `created_of_run`: the creation is the first write of every reachable session.
* `Created.not_create`: once the document is stored, no creation waits to be committed.
-/

open TransitionSystem

namespace RockPaperScissors

namespace GameWrite

/-- The write is `createGame`'s. -/
def creates : GameWrite → Bool
  | create _ => true
  | picked _ => false
  | decided _ => false
  | status _ => false

end GameWrite

namespace Session

/-- The creation waits to be committed: nothing is stored, the acceptor's client has
issued it first, and the requester's client has seen nothing. -/
structure Creating (P : Pairing) (s : Session) : Prop where
  log : s.store.log = []
  acceptor : ∃ ws, s.store.outbox .acceptor = .create P.createdGame :: ws ∧
    ∀ w ∈ ws, w.creates = false
  requester : s.store.outbox .requester = []
  found : s.found .requester = []
  screens : ∀ sc ∈ s.screens, sc.owner = .acceptor

/-- The creation is the first committed write, and the only creation. -/
structure Stored (P : Pairing) (s : Session) : Prop where
  log : ∃ cws, s.store.log = (.acceptor, .create P.createdGame) :: cws ∧
    ∀ cw ∈ cws, cw.2.creates = false
  waiting : ∀ p, ∀ w ∈ s.store.outbox p, w.creates = false

/-- **The creation comes first.** -/
def Created (P : Pairing) (s : Session) : Prop :=
  s.Creating P ∨ s.Stored P

variable {P : Pairing} {s s' : Session} {e : Event} {p : Player} {ws : List GameWrite}

/-- No input of a screen creates a game. -/
theorem Issues.not_creates (h : Issues P s e p ws) : ∀ w ∈ ws, w.creates = false := by
  intro w hw
  cases h with
  | nothing => exact absurd hw (by simp)
  | entered | picked _ _ _ _ _ | exited _ | delivered _ _ _ | animated _ _ _ _
  | declared _ _ _ =>
      obtain rfl := List.mem_singleton.mp hw
      rfl

/-- The game is not created yet at first. -/
theorem created_init : (init P).Creating P where
  log := rfl
  acceptor := ⟨[], rfl, by simp⟩
  requester := rfl
  found := rfl
  screens := by simp [init]

/-- The requester's client sees nothing before the creation is committed. -/
theorem Creating.view_requester (hs : s.Creating P) (version : ℕ) :
    s.view .requester version = none := by
  simp [Session.view, WriteLog.view, WriteLog.atVersion, WriteLog.unseen, WriteLog.replay,
    hs.log, hs.requester]

/-- Nothing is stored before the creation is committed. -/
theorem Creating.stored_eq_none (hs : s.Creating P) : s.stored = none := by
  simp [Session.stored, WriteLog.current, WriteLog.replay, hs.log]

/-- Before the creation is committed only the acceptor's client issues writes. -/
theorem Creating.issue {t : Session} (hs : s.Creating P) (hws : ∀ w ∈ ws, w.creates = false)
    (hstore : t.store = s.store.issue .acceptor ws) (hfound : t.found .requester = [])
    (hscreens : ∀ sc ∈ t.screens, sc.owner = .acceptor) : t.Creating P := by
  obtain ⟨us, hout, hus⟩ := hs.acceptor
  refine ⟨by rw [hstore]; exact hs.log, ⟨us ++ ws, ?_, ?_⟩, ?_, hfound, hscreens⟩
  · rw [hstore, WriteLog.issue_outbox_self, hout, List.cons_append]
  · intro w hw
    rcases List.mem_append.mp hw with hold | hnew
    · exact hus w hold
    · exact hws w hnew
  · rw [hstore, WriteLog.issue_outbox_of_ne (by decide)]
    exact hs.requester

/-- Only the commit of the creation ends the wait for it. -/
theorem Creating.step (hs : s.Creating P) (h : Step P s e s') : s'.Created P := by
  cases h with
  | @commit p store hstore =>
      right
      obtain ⟨w, ws, hout, rfl⟩ := WriteLog.commit_eq_some_iff.mp hstore
      obtain ⟨us, hacceptor, hus⟩ := hs.acceptor
      cases p with
      | requester =>
          rw [hs.requester] at hout
          exact absurd hout (by simp)
      | acceptor =>
          obtain ⟨rfl, rfl⟩ := List.cons.inj (hout.symm.trans hacceptor)
          refine ⟨⟨[], by simp [hs.log], by simp⟩, fun q v hv => ?_⟩
          cases q with
          | acceptor => exact hus v (by simpa using hv)
          | requester => exact absurd hv (by simp [hs.requester])
  | completeCreate _ hstored =>
      rw [hs.stored_eq_none] at hstored
      exact absurd hstored (by simp)
  | @find p version game _ hview _ =>
      cases p with
      | requester =>
          rw [hs.view_requester] at hview
          exact absurd hview (by simp)
      | acceptor =>
          exact Or.inl ⟨hs.log, hs.acceptor, hs.requester, by simpa using hs.found,
            hs.screens⟩
  | @gameAccepted p game rest hfound =>
      cases p with
      | requester =>
          rw [hs.found] at hfound
          exact absurd hfound (by simp)
      | acceptor =>
          have hws : ∀ w ∈ [GameWrite.status .inprogress], w.creates = false := by
            simp [GameWrite.creates]
          refine Or.inl (hs.issue hws (by rw [performSegue_store]) ?_ ?_)
          · rw [performSegue_found]
            simpa using hs.found
          · intro sc hsc
            rcases mem_performSegue hsc with hold | ⟨-, rfl⟩
            · exact hs.screens sc hold
            · rfl
  | snapshot hsc _ _ =>
      have howner := hs.screens _ (List.mem_of_getElem? hsc)
      refine Or.inl ⟨hs.log, hs.acceptor, hs.requester, hs.found, fun b hb => ?_⟩
      rcases List.mem_or_eq_of_mem_set hb with hold | rfl
      · exact hs.screens b hold
      · exact howner
  | @input place i sc sc' ws hsc hhandle =>
      have hhandles := Screen.handles_of_handle hhandle
      have howner := hs.screens sc (List.mem_of_getElem? hsc)
      refine Or.inl (hs.issue (issues_of_handles hsc hhandles).not_creates
        (by rw [howner]) hs.found fun b hb => ?_)
      rcases List.mem_or_eq_of_mem_set hb with hold | rfl
      · exact hs.screens b hold
      · rw [hhandles.owner, howner]

/-- A stored document is updated, never created again. -/
theorem Stored.step (hs : s.Stored P) (h : Step P s e s') : s'.Stored P := by
  obtain ⟨cws, hlog, hcws⟩ := hs.log
  rcases h.store with ⟨p, -, hcommit⟩ | ⟨p, ws, hissues, hstore⟩
  · obtain ⟨w, ws, hout, hstore, -⟩ := stored_commit hcommit
    refine ⟨⟨cws ++ [(p, w)], by rw [hstore, hlog]; rfl, fun cw hcw => ?_⟩, fun q v hv => ?_⟩
    · rcases List.mem_append.mp hcw with hold | hnew
      · exact hcws cw hold
      · obtain rfl := List.mem_singleton.mp hnew
        exact hs.waiting p w (hout ▸ List.mem_cons_self)
    · exact hs.waiting q v (WriteLog.mem_outbox_commit hcommit hv)
  · refine ⟨⟨cws, by rw [hstore]; exact hlog, hcws⟩, fun q v hv => ?_⟩
    rw [hstore] at hv
    rcases WriteLog.mem_outbox_issue hv with hold | ⟨-, hnew⟩
    · exact hs.waiting q v hold
    · exact hissues.not_creates v hnew

/-- **In every reachable session the creation comes first.** -/
theorem created_of_run {es : List Event} (h : Run (Session.step P) (init P) es s) :
    s.Created P := by
  refine h.invariant (I := fun s => s.Created P) (Or.inl created_init) ?_
  intro t e t' ht _ hstep
  rcases ht with hcreating | hstored
  · exact hcreating.step (step_of_step_eq hstep)
  · exact Or.inr (hstored.step (step_of_step_eq hstep))

/-- Once the document is stored, no creation waits to be committed. -/
theorem Created.not_create (hs : s.Created P) {g : Game} (hg : s.stored = some g) :
    ∀ p, ∀ w ∈ s.store.outbox p, w.creates = false := by
  rcases hs with hcreating | hstored
  · rw [hcreating.stored_eq_none] at hg
    exact absurd hg (by simp)
  · exact hstored.waiting

end Session

end RockPaperScissors
