import RockPaperScissors.Starting

/-!
# Nothing Is Played Before the Start

The acceptor's screen opens while the game is still starting, with its buttons off, and the
requester's opens with the optimistic copy of `enterGame`, which issues the state
`inprogress` in the same breath. Every other snapshot or copy with that state descends from
such a write. So before some client has issued it no buttons are enabled, and the only
write of the document is its creation.

## Main results

* `Waiting.step`, `waiting_of_run`: until a client has entered the game nothing has the
  state `inprogress` and no buttons are enabled.
* `Created.stored_starting`: a stored game that is starting is the created one.
* `nothing_before_start`: both, and that a started game never becomes starting again.
-/

open TransitionSystem

namespace RockPaperScissors

/-- No snapshot that waits for the screen has started, and its buttons are off. -/
structure Screen.Waiting (sc : Screen) : Prop where
  buttons : sc.controller.buttonsEnabled = false
  inbox : ∀ g ∈ sc.inbox, g.state ≠ .inprogress

namespace Screen

variable {sc sc' : Screen} {localUserId : String} {i : Input} {writes : List GameWrite}

/-- A screen goes on waiting under every input, and writes no started game. -/
theorem Waiting.handles (hs : sc.Waiting) (h : sc.Handles localUserId i sc' writes) :
    sc'.Waiting ∧ ∀ g ∈ writes, g.state ≠ .inprogress := by
  have hbuttons : sc'.controller.buttonsEnabled = false := by
    rw [← Bool.not_eq_true]
    intro hon
    rcases h.buttonsEnabled hon with hold | ⟨-, g, rest, hinbox, hstate⟩
    · exact absurd (hs.buttons.symm.trans hold) (by simp)
    · exact hs.inbox g (hinbox ▸ List.mem_cons_self) hstate
  have hinbox : sc'.inbox ⊆ sc.inbox := by
    cases h with
    | deliver hinbox _ =>
        rw [hinbox]
        exact List.subset_cons_self _ _
    | interrupted _ | animatedMoves _ _ | kicked _ | wasKicked _ _ | wasKickedAlone _ _
    | declaredWinner _ _ | continuedToResults _ | pick _ _ _ _ | pickNothing _ | exit _ _
    | exitNothing _ _ | home => exact List.Subset.refl _
  refine ⟨⟨hbuttons, fun g hg => hs.inbox g (hinbox hg)⟩, fun w hw => ?_⟩
  cases h with
  | deliver _ hupdate =>
      rcases hupdate.writes_cases with rfl | ⟨-, rfl⟩
      · exact absurd hw (by simp)
      · obtain rfl := List.mem_singleton.mp hw
        simp [GameWrite.state]
  | animatedMoves _ hcheck =>
      rcases hcheck.writes_cases with rfl | ⟨-, copy, -, rfl⟩
      · exact absurd hw (by simp)
      · obtain rfl := List.mem_singleton.mp hw
        simp [GameWrite.state]
  | declaredWinner _ _ | exit _ _ =>
      obtain rfl := List.mem_singleton.mp hw
      simp [GameWrite.state]
  | pick _ henabled _ _ => exact absurd (hs.buttons.symm.trans henabled) (by simp)
  | interrupted _ | kicked _ | wasKicked _ _ | wasKickedAlone _ _ | continuedToResults _
  | pickNothing _ | exitNothing _ _ | home => exact absurd hw (by simp)

end Screen

namespace Session

/-- Some client has issued the write of `enterGame`. -/
def Entered (s : Session) : Prop :=
  ∃ p, .status .inprogress ∈ s.store.issuedBy p

/-- **The invariant**, until some client has entered the game. -/
abbrev Waiting (s : Session) : Prop :=
  s.Shares (fun w => w.state ≠ .inprogress) (fun g => g.state ≠ .inprogress) Screen.Waiting

variable {P : Pairing} {s s' t : Session} {e : Event} {es : List Event} {p : Player} {g : Game}

/-- What a client sees before the start has not started. -/
theorem Waiting.view (hs : s.Waiting) {version : ℕ} (hg : s.view p version = some g) :
    g.state ≠ .inprogress := by
  obtain ⟨ws, last, hconcat, hstate⟩ := exists_last_of_view hg
  obtain ⟨q, hissued⟩ := WriteLog.exists_mem_issuedBy_of_mem_visible
    (hconcat ▸ List.mem_append_right ws (List.mem_singleton.mpr rfl) :
      last ∈ s.store.visible p version)
  rw [hstate]
  exact hs.written q last hissued

/-- An issued write stays issued. -/
theorem Step.mem_issuedBy (h : Step P s e s') {w : GameWrite} (hw : w ∈ s.store.issuedBy p) :
    w ∈ s'.store.issuedBy p := by
  rcases h.store with ⟨q, -, hcommit⟩ | ⟨q, ws, -, hstore⟩
  · rwa [WriteLog.issuedBy_commit hcommit]
  · rw [hstore, WriteLog.issuedBy_issue]
    exact List.mem_append_left _ hw

/-- `gameAccepted` invokes `enterGame`. -/
theorem Step.entered (h : Step P s (.gameAccepted p) s') : s'.Entered := by
  cases h with
  | gameAccepted _ =>
      refine ⟨p, ?_⟩
      rw [performSegue_store, WriteLog.issuedBy_issue, if_pos rfl]
      simp

/-- **Only entering the game ends the wait for it.** -/
theorem Waiting.step (hs : s.Waiting) (h : Step P s e s') : s'.Entered ∨ s'.Waiting := by
  by_cases hentered : ∃ p, e = .gameAccepted p
  · obtain ⟨p, rfl⟩ := hentered
    exact Or.inl h.entered
  right
  refine hs.step_of_event h (fun p version g hg => Waiting.view hs hg)
    (fun p he => absurd ⟨p, he⟩ hentered)
    (fun p => ⟨by simp [GameViewController.viewDidLoad], by simp⟩)
    (fun p g he => absurd ⟨p, he⟩ hentered) ?_ ?_
  · intro sc version g hsc hg
    exact ⟨hsc.buttons,
      List.forall_mem_append.mpr ⟨hsc.inbox, List.forall_mem_singleton.mpr hg⟩⟩
  · intro place i sc sc' ws _ hsc hhandles
    exact (hs.screens sc (List.mem_of_getElem? hsc)).handles hhandles

/-- A session waits for the requester at first. -/
theorem waiting_init : (init P).Waiting :=
  shares_init (by simp [GameWrite.state])

/-- In every run the game has been entered, or it waits to be. -/
theorem waiting_of_run (h : Run (Session.step P) (init P) es s) : s.Entered ∨ s.Waiting := by
  refine h.invariant (I := fun s => s.Entered ∨ s.Waiting) (Or.inr waiting_init) ?_
  intro t e t' ht _ hstep
  have hstep' := step_of_step_eq hstep
  rcases ht with ⟨p, hissued⟩ | hwaiting
  · exact Or.inl ⟨p, hstep'.mem_issuedBy hissued⟩
  · exact hwaiting.step hstep'

/-- **A stored game that is starting is the created one**: a later write would have left
another state. -/
theorem Created.stored_starting (hs : s.Created P) (hstarts : s.StartsOnce)
    (hg : s.stored = some g) (hstate : g.state = .starting) : g = P.createdGame := by
  rcases hs with hcreating | hstored
  · rw [hcreating.stored_eq_none] at hg
    exact absurd hg (by simp)
  obtain ⟨cws, hlog, hcws⟩ := hstored.log
  rw [Session.stored, WriteLog.current, hlog, List.map_cons] at hg
  rcases List.eq_nil_or_concat' cws with rfl | ⟨cws', ⟨q, w⟩, rfl⟩
  · exact (Option.some.inj hg).symm
  · rw [List.map_append, ← List.cons_append, WriteLog.replay, List.foldl_append] at hg
    have hlast : w.state = .starting := (GameWrite.state_of_apply hg).symm.trans hstate
    have hissued : w ∈ s.store.issuedBy q :=
      WriteLog.mem_issuedBy_of_mem_log (by rw [hlog]; simp)
    have hcreates := hstarts.written q w hissued hlast
    exact absurd (hcreates.symm.trans (hcws (q, w) (by simp))) (by simp)

/-- **A stored game that is not starting stays so**: the creation does not wait any more. -/
theorem Created.not_starting (hs : s.Created P) (hstarts : s.StartsOnce) (h : Step P s e s')
    (hg : s.stored = some g) (hstate : g.state ≠ .starting) :
    ∃ g', s'.stored = some g' ∧ g'.state ≠ .starting := by
  rcases h.store with ⟨p, -, hcommit⟩ | ⟨p, ws, -, hstore⟩
  · obtain ⟨w, ws, hout, -, hstored⟩ := stored_commit hcommit
    have hw : w ∈ s.store.outbox p := hout ▸ List.mem_cons_self
    obtain ⟨g', hg'⟩ := Option.isSome_iff_exists.mp
      (h.isSome_stored (Option.isSome_iff_exists.mpr ⟨g, hg⟩))
    refine ⟨g', hg', fun hstarting => ?_⟩
    rw [hstored] at hg'
    have hcreates := hstarts.written p w (WriteLog.mem_issuedBy_of_mem_outbox hw)
      ((GameWrite.state_of_apply hg').symm.trans hstarting)
    exact absurd (hcreates.symm.trans (hs.not_create hg p w hw)) (by simp)
  · exact ⟨g, (stored_issue hstore).trans hg, hstate⟩

/-- **Nothing is played before the start.** A stored game that is starting is the game
`createGame` wrote, buttons are enabled only after some client has issued the write of
`enterGame`, and a stored game that has left the state `starting` never has it again. -/
theorem nothing_before_start (h : Run (Session.step P) (init P) es s) :
    (∀ g, s.stored = some g → g.state = .starting →
      createGame P.gameId P.players P.createdAt = some g ∧
        (∀ p, g.moves (P.userId p) = some .idle) ∧ g.winner = none) ∧
    (∀ sc ∈ s.screens, sc.controller.buttonsEnabled = true → s.Entered) ∧
    ∀ es' t, Run (Session.step P) s es' t → ∀ g, s.stored = some g → g.state ≠ .starting →
      ∃ g', t.stored = some g' ∧ g'.state ≠ .starting := by
  refine ⟨fun g hg hstate => ?_, fun sc hsc henabled => ?_, fun es' t h' g hg hstate => ?_⟩
  · rw [(created_of_run h).stored_starting (started_of_run h) hg hstate]
    exact ⟨P.createGame_eq, Pairing.createdGame_moves, rfl⟩
  · rcases waiting_of_run h with hentered | hwaiting
    · exact hentered
    · exact absurd ((hwaiting.screens sc hsc).buttons.symm.trans henabled) (by simp)
  · refine h'.invariant_events
      (I := fun _ u => ∃ g', u.stored = some g' ∧ g'.state ≠ .starting) ⟨g, hg, hstate⟩ ?_
    rintro es'' u e u' hrun ⟨g', hg', hstate'⟩ _ hstep
    have hrun' := h.append hrun
    exact (created_of_run hrun').not_starting (started_of_run hrun') (step_of_step_eq hstep)
      hg' hstate'

/-- The acceptor's screen waits for the start of the game. -/
theorem nothing_before_start_waiting : ∃ s g,
    Run (Session.step sample) (init sample) (opening.take 2) s ∧ s.stored = some g ∧
      g.state = .starting ∧ createGame "game" sample.players 0 = some g ∧
      ∀ sc ∈ s.screens, sc.controller.buttonsEnabled = true → s.Entered := by
  have hrun : Run (Session.step sample) (init sample) (opening.take 2)
      ((exec (Session.step sample) (init sample) (opening.take 2)).get (by decide)) :=
    runWhere_get _
  have hstarting : ((exec (Session.step sample) (init sample) (opening.take 2)).get
      (by decide)).stored.map Game.state = some .starting := by decide
  obtain ⟨g, hg, hstate⟩ := Option.map_eq_some_iff.mp hstarting
  obtain ⟨hcreated, hbuttons, -⟩ := nothing_before_start hrun
  exact ⟨_, g, hrun, hg, hstate, (hcreated g hg hstate).1, hbuttons⟩

end Session

end RockPaperScissors
