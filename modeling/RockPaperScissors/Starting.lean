import RockPaperScissors.Creation
import RockPaperScissors.Provenance

/-!
# A Started Game Is Not Starting Again

Only `createGame` writes the state `starting`: `enterGame` writes `inprogress`, the ends of
the game write `finished`, and `pickedMove` writes the state of a local copy whose buttons
are enabled, which is not `starting`. The creation is the first write of the document. So
a client that has seen one other write never again sees the game as starting, and the
query of `setGameListener` does not find it any more.

## Main results

* `started_of_run`: in every reachable session only the creation writes `starting`.
* `Past.step`, `Past.view`: what a client has seen started it does not find again.
* `past_of_view`: a client that sees the game in another state has seen it started.
-/

open TransitionSystem

namespace RockPaperScissors

namespace GameViewController

variable {vc vc' : GameViewController} {localUserId : String} {game g : Game}
  {writes : List GameWrite}

/-- `checkForWinner` keeps the local copy or finishes it. -/
theorem Checked.game_cases (h : vc.Checked localUserId game vc' writes)
    (hg : vc'.game = some g) : vc.game = some g ∨ g.state = .finished := by
  cases h with
  | waiting _ | lost _ => exact Or.inl hg
  | won _ _ | drawn _ _ =>
      obtain rfl := Option.some.inj hg
      exact Or.inr rfl

/-- After a snapshot the local copy has its state or is finished. -/
theorem Updated.game_state (h : vc.Updated localUserId game vc' writes)
    (hg : vc'.game = some g) : g.state = game.state ∨ g.state = .finished := by
  have hchecked : ∀ {vc₁ : GameViewController} {copy : Game},
      (vc.receive localUserId game).Checked localUserId game vc₁ writes →
      vc₁.game = some copy → copy.state = game.state ∨ copy.state = .finished := by
    intro vc₁ copy hcheck hcopy
    refine (hcheck.game_cases hcopy).imp_left fun hsame => ?_
    rw [receive_game] at hsame
    obtain rfl := Option.some.inj hsame
    rfl
  cases h with
  | plain hcheck _ => exact hchecked hcheck hg
  | walkover hcheck _ _ =>
      obtain ⟨copy, hcopy, rfl⟩ := Option.map_eq_some_iff.mp hg
      have hstate := hchecked hcheck hcopy
      exact hstate

end GameViewController

namespace Screen

variable {sc sc' : Screen} {localUserId : String} {i : Input} {writes : List GameWrite}

/-- A screen with enabled buttons has a local copy that is not starting. -/
def Started (sc : Screen) : Prop :=
  sc.controller.buttonsEnabled = true →
    ∀ g, sc.controller.game = some g → g.state ≠ .starting

/-- The local copy of a screen under an input, when the buttons are enabled after it. -/
theorem Started.handles (hs : sc.Started) (h : sc.Handles localUserId i sc' writes) :
    sc'.Started := by
  intro henabled g hg
  cases h with
  | deliver _ hupdate =>
      rw [hupdate.buttonsEnabled] at henabled
      rcases hupdate.game_state hg with hstate | hstate
      · rw [hstate, of_decide_eq_true henabled]
        decide
      · rw [hstate]
        decide
  | animatedMoves _ hcheck =>
      rw [hcheck.buttonsEnabled] at henabled
      rcases hcheck.game_cases hg with hsame | hstate
      · exact hs henabled g hsame
      · rw [hstate]
        decide
  | declaredWinner _ _ =>
      obtain rfl := Option.some.inj hg
      simp
  | pick _ _ _ _ => exact absurd henabled (by simp [GameViewController.shouldEnableButtons])
  | interrupted _ | kicked _ | wasKicked _ _ | wasKickedAlone _ _ | continuedToResults _
  | pickNothing _ | exit _ _ | exitNothing _ _ | home => exact hs henabled g hg

end Screen

namespace Session

variable (P : Pairing) (s : Session)

/-- Only the creation writes the state `starting`. -/
def StartsOnce : Prop :=
  s.Shares (fun w => w.state = .starting → w.creates = true) (fun _ => True) Screen.Started

/-- The client of `p` has seen the game started. -/
def Past (p : Player) : Prop :=
  s.seen p ≤ s.store.log.length ∧ ∃ w ∈ s.store.visible p (s.seen p), w.state ≠ .starting

variable {P s} {s' : Session} {e : Event} {p : Player} {g : Game}

/-- The writes of an event, from screens whose enabled buttons mean a started copy. -/
theorem Issues.state_ne_starting {ws : List GameWrite} (h : Issues P s e p ws)
    (hs : ∀ sc ∈ s.screens, sc.Started) : ∀ w ∈ ws, w.state ≠ .starting := by
  intro w hw
  cases h with
  | nothing => exact absurd hw (by simp)
  | entered | exited _ | delivered _ _ _ | animated _ _ _ _ | declared _ _ _ =>
      obtain rfl := List.mem_singleton.mp hw
      simp [GameWrite.state]
  | picked hsc _ henabled _ hcopy =>
      obtain rfl := List.mem_singleton.mp hw
      have hne := hs _ (List.mem_of_getElem? hsc) henabled _ hcopy
      exact hne

/-- No step brings a game back to `starting`. -/
theorem StartsOnce.step (hs : s.StartsOnce) (h : Step P s e s') : s'.StartsOnce := by
  refine Shares.step hs h (fun _ _ _ _ => trivial) (by simp [GameWrite.state]) ?_ ?_ ?_ ?_
  · intro p henabled
    exact absurd henabled (by simp [GameViewController.viewDidLoad])
  · intro p g _ _ copy hcopy
    obtain rfl := Option.some.inj hcopy
    simp
  · intro sc version g hsc _
    exact hsc
  · intro place i sc sc' ws _ hsc hhandles
    refine ⟨(hs.screens sc (List.mem_of_getElem? hsc)).handles hhandles, fun w hw hstate => ?_⟩
    have hne := (issues_of_handles hsc hhandles).state_ne_starting hs.screens w hw
    exact absurd hstate hne

/-- **Only the creation writes `starting`.** -/
theorem started_of_run {es : List Event} (h : Run (Session.step P) (init P) es s) :
    s.StartsOnce := by
  refine h.invariant (I := StartsOnce) (shares_init fun _ => rfl) ?_
  intro t e t' ht _ hstep
  exact ht.step (step_of_step_eq hstep)

/-! ### What a client has seen -/

/-- The creation can only be the first write a client sees. -/
theorem Created.visible (hs : s.Created P) (p : Player) (n : ℕ) :
    ∀ w ∈ (s.store.visible p n).tail, w.creates = false := by
  have hall : ∀ w ∈ (s.store.log.map Prod.snd ++ s.store.outbox p).tail,
      w.creates = false := by
    rcases hs with hcreating | hstored
    · obtain ⟨ws, hout, hws⟩ := hcreating.acceptor
      cases p with
      | acceptor => simpa [hcreating.log, hout] using hws
      | requester => simp [hcreating.log, hcreating.requester]
    · obtain ⟨cws, hlog, hcws⟩ := hstored.log
      intro w hw
      rw [hlog, List.map_cons, List.cons_append, List.tail_cons] at hw
      rcases List.mem_append.mp hw with hlog' | hout
      · obtain ⟨cw, hcw, rfl⟩ := List.mem_map.mp hlog'
        exact hcws cw hcw
      · exact hstored.waiting p w hout
  intro w hw
  exact hall w ((WriteLog.visible_sublist n).tail.subset hw)

/-- What a client sees has the state of the last write visible to it. -/
theorem exists_last_of_view {n : ℕ} (hg : s.view p n = some g) :
    ∃ ws last, s.store.visible p n = ws ++ [last] ∧ g.state = last.state := by
  rw [Session.view, WriteLog.view_eq_replay_visible] at hg
  rcases List.eq_nil_or_concat' (s.store.visible p n) with hnil | ⟨ws, last, hconcat⟩
  · rw [hnil] at hg
    exact absurd hg (by simp [WriteLog.replay])
  · rw [hconcat, WriteLog.replay, List.foldl_append] at hg
    exact ⟨ws, last, hconcat, GameWrite.state_of_apply hg⟩

/-- **Who has seen the game started does not find it again.** -/
theorem Past.view (hs : s.Past p) (hcreated : s.Created P) (hstarts : s.StartsOnce)
    {n : ℕ} (hn : s.seen p ≤ n) (hg : s.view p n = some g) : g.state ≠ .starting := by
  obtain ⟨-, w, hw, hstate⟩ := hs
  have hvisible : w ∈ s.store.visible p n := WriteLog.visible_subset_of_le hn hw
  obtain ⟨ws, last, hconcat, hlast⟩ := exists_last_of_view hg
  rw [hlast]
  intro hstarting
  obtain ⟨q, hissued⟩ := WriteLog.exists_mem_issuedBy_of_mem_visible
    (hconcat ▸ List.mem_append_right ws (List.mem_singleton.mpr rfl) :
      last ∈ s.store.visible p n)
  have hcreates : last.creates = true := hstarts.written q last hissued hstarting
  have htail := hcreated.visible p n
  rw [hconcat] at htail hvisible
  cases ws with
  | nil =>
      obtain rfl := List.mem_singleton.mp hvisible
      exact hstate hstarting
  | cons first ws =>
      have hnot := htail last (List.mem_append_right ws (List.mem_singleton.mpr rfl))
      exact absurd (hcreates.symm.trans hnot) (by simp)

/-- A client that sees the game in another state has seen it started. -/
theorem past_of_view (hseen : s.seen p ≤ s.store.log.length)
    (hg : s.view p (s.seen p) = some g) (hstate : g.state ≠ .starting) : s.Past p := by
  obtain ⟨ws, last, hconcat, hlast⟩ := exists_last_of_view hg
  refine ⟨hseen, last, ?_, hlast ▸ hstate⟩
  rw [hconcat]
  exact List.mem_append_right ws (List.mem_singleton.mpr rfl)

/-- The version a client has received is one that exists, and does not go back. -/
theorem Step.seen (h : Step P s e s') (hseen : s.seen p ≤ s.store.log.length) :
    s.seen p ≤ s'.seen p ∧ s'.seen p ≤ s'.store.log.length := by
  have hlength : s.store.log.length ≤ s'.store.log.length := by
    rcases h.store with ⟨q, -, hcommit⟩ | ⟨q, ws, -, hstore⟩
    · obtain ⟨w, ws, -, hstore, -⟩ := stored_commit hcommit
      simp [hstore]
    · simp [hstore]
  have hcases : s'.seen p = s.seen p ∨ s.canSee (s.seen p) (s'.seen p) := by
    cases h with
    | commit _ | snapshot _ _ _ | input _ _ => exact Or.inl rfl
    | completeCreate _ _ | gameAccepted _ =>
        left
        rw [performSegue_seen]
    | @find q version game hsee _ _ =>
        by_cases hp : p = q
        · subst hp
          right
          simpa using hsee
        · left
          simp [hp]
  rcases hcases with heq | hsee
  · omega
  · exact ⟨hsee.1, hsee.2.trans hlength⟩

/-- What is visible at a version stays visible. -/
theorem Step.visible (h : Step P s e s') {n : ℕ} (hn : n ≤ s.store.log.length) :
    s.store.visible p n ⊆ s'.store.visible p n := by
  rcases h.store with ⟨q, -, hcommit⟩ | ⟨q, ws, -, hstore⟩
  · exact WriteLog.visible_subset_commit hcommit hn
  · rw [hstore]
    exact WriteLog.visible_subset_issue n

/-- **What has been seen stays seen.** -/
theorem Past.step (hs : s.Past p) (h : Step P s e s') : s'.Past p := by
  obtain ⟨hseen, w, hw, hstate⟩ := hs
  obtain ⟨hle, hseen'⟩ := h.seen hseen
  exact ⟨hseen', w, WriteLog.visible_subset_of_le hle (h.visible hseen hw), hstate⟩

/-- A client has received no version that does not exist. -/
theorem seen_le_of_run {es : List Event} (h : Run (Session.step P) (init P) es s)
    (p : Player) : s.seen p ≤ s.store.log.length :=
  h.invariant (I := fun s => s.seen p ≤ s.store.log.length) (Nat.zero_le _)
    fun _ _ _ ht _ hstep => ((step_of_step_eq hstep).seen ht).2

end Session

end RockPaperScissors
