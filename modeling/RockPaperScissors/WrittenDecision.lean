import RockPaperScissors.Winners

/-!
# What Is Decided and What Is Written

`checkForWinner` and `setWinner` decide on their argument and write `self.game`. On a
snapshot the two are the same game. The argument of a closure was captured seconds before,
and in between the listener may have replaced `self.game`, so that the moves of one game are
written on the decision of another (`other_moves_written`).

A screen is **matched** when every closure that may still decide captured the moves of the
local copy. It stays so under exactly the inputs that keep the moves: no snapshot with other
moves is delivered while such a closure waits.

## Main results

* `Screen.Matched.handles_iff`, `Matched.step_iff`: the screens stay matched on exactly the
  steps that keep the moves.
* `written_decision`: in every run whose steps keep the moves, the game a client finishes
  has the moves of the game it has decided on.
* `other_moves_written`: without the condition it does not.
-/

open TransitionSystem

namespace RockPaperScissors

/-- The two games have the same moves of the two players. -/
def Game.SameMoves (P : Pairing) (g g' : Game) : Prop :=
  ∀ p, g.moves (P.userId p) = g'.moves (P.userId p)

instance (P : Pairing) (g g' : Game) : Decidable (g.SameMoves P g') :=
  decidable_of_iff (∀ p ∈ [Player.acceptor, Player.requester],
      g.moves (P.userId p) = g'.moves (P.userId p))
    ⟨fun h p => h p (by cases p <;> simp), fun h p _ => h p⟩

/-- The closure may decide the game and write it, at once or after a kick. -/
def Delayed.decides (localUserId : String) : Delayed → Bool
  | animateMoves game => (game.verdict localUserId).finishes
  | animateFinalMoves myHand _ => myHand
  | setWinner _ => true
  | continueToResults => false

namespace Screen

variable (P : Pairing) (sc : Screen)

/-- The closures that may decide have captured the moves of the game. -/
def Captured (g : Game) : Prop :=
  ∀ d ∈ sc.controller.delayed, d.decides (P.userId sc.owner) = true →
    ∀ c ∈ d.game?, g.SameMoves P c

/-- The closures that may decide have captured the moves of the local copy. -/
def Matched : Prop :=
  ∀ copy ∈ sc.controller.game, sc.Captured P copy

/-- **The input keeps the moves** that waiting closures may decide on. -/
def KeepsMoves : Input → Prop
  | .deliver => ∀ g ∈ sc.inbox.head?, sc.Captured P g
  | _ => True

instance (g : Game) : Decidable (sc.Captured P g) :=
  inferInstanceAs (Decidable (∀ d ∈ sc.controller.delayed, _ → ∀ c ∈ _, _))

instance (i : Input) : Decidable (sc.KeepsMoves P i) :=
  match i with
  | .deliver => inferInstanceAs (Decidable (∀ g ∈ sc.inbox.head?, _))
  | .fire _ _ | .pick _ | .exit | .home => inferInstanceAs (Decidable True)

end Screen

namespace GameViewController

variable {vc vc' : GameViewController} {localUserId : String} {game g : Game} {d : Delayed}
  {writes : List GameWrite}

/-- `checkForWinner` leaves the moves of the local copy. -/
theorem Checked.game_moves (h : vc.Checked localUserId game vc' writes) :
    vc'.game.map Game.moves = vc.game.map Game.moves := by
  cases h with
  | waiting _ | lost _ => rfl
  | won _ hcopy | drawn _ hcopy =>
      rw [hcopy]
      rfl

/-- `checkForWinner` drops no closure. -/
theorem Checked.delayed_subset (h : vc.Checked localUserId game vc' writes) :
    vc.delayed ⊆ vc'.delayed := by
  cases h with
  | waiting _ => exact List.Subset.refl _
  | lost _ | drawn _ _ => exact List.subset_append_left _ _
  | won _ _ => exact List.Subset.trans (List.subset_append_left _ _) (List.subset_append_left _ _)

/-- The closures of `checkForWinner` capture its argument, and kick when it is won. -/
theorem Checked.mem_delayed (h : vc.Checked localUserId game vc' writes)
    (hd : d ∈ vc'.delayed) : d ∈ vc.delayed ∨ d = .continueToResults ∨
      d = .animateFinalMoves false game ∨
      d = .animateFinalMoves true game ∧ game.verdict localUserId = .won := by
  cases h with
  | waiting _ => exact Or.inl hd
  | lost _ =>
      rcases mem_later hd with hold | hnew
      · exact Or.inl hold
      · exact Or.inr (Or.inr (Or.inl hnew))
  | drawn _ _ =>
      rcases mem_later hd with hold | hnew
      · exact Or.inl hold
      · exact Or.inr (Or.inl hnew)
  | won hverdict _ =>
      rcases mem_later hd with hkick | hnew
      · rcases mem_later hkick with hold | hnew
        · exact Or.inl hold
        · exact Or.inr (Or.inr (Or.inr ⟨hnew, hverdict⟩))
      · exact Or.inr (Or.inl hnew)

/-- A snapshot drops no closure. -/
theorem receive_delayed_subset : vc.delayed ⊆ (vc.receive localUserId game).delayed := by
  rw [receive]
  rcases animateMoves_cases { vc with
      buttonsEnabled := game.state = .inprogress
      game := some game } localUserId game with h | h <;> rw [h]
  · exact List.Subset.refl _
  · exact List.subset_append_left _ _

/-- After a snapshot the local copy has its moves. -/
theorem Updated.game_moves (h : vc.Updated localUserId game vc' writes) :
    vc'.game.map Game.moves = some game.moves := by
  have hchecked : ∀ {vc₁ : GameViewController} {ws : List GameWrite},
      (vc.receive localUserId game).Checked localUserId game vc₁ ws →
      vc₁.game.map Game.moves = some game.moves := by
    intro vc₁ ws hcheck
    rw [hcheck.game_moves, receive_game]
    rfl
  cases h with
  | plain hcheck _ => exact hchecked hcheck
  | walkover hcheck _ _ =>
      rw [← hchecked hcheck]
      exact Option.map_map ..

/-- A snapshot leaves the closures that wait. -/
theorem Updated.delayed_subset (h : vc.Updated localUserId game vc' writes) :
    vc.delayed ⊆ vc'.delayed := by
  cases h with
  | plain hcheck _ => exact List.Subset.trans receive_delayed_subset hcheck.delayed_subset
  | walkover hcheck _ _ =>
      exact List.Subset.trans (List.Subset.trans receive_delayed_subset hcheck.delayed_subset)
        (List.subset_append_left _ _)

/-- The closures of a snapshot capture it. -/
theorem Updated.mem_delayed (h : vc.Updated localUserId game vc' writes)
    (hd : d ∈ vc'.delayed) : d ∈ vc.delayed ∨ ∀ c ∈ d.game?, c = game := by
  have hchecked : ∀ {vc₁ : GameViewController} {ws : List GameWrite},
      (vc.receive localUserId game).Checked localUserId game vc₁ ws → d ∈ vc₁.delayed →
      d ∈ vc.delayed ∨ ∀ c ∈ d.game?, c = game := by
    intro vc₁ ws hcheck hd
    rcases hcheck.mem_delayed hd with hreceived | rfl | rfl | ⟨rfl, -⟩
    · rcases mem_receive_delayed hreceived with hold | rfl
      · exact Or.inl hold
      · exact Or.inr fun c hc => (Option.some.inj hc).symm
    · exact Or.inr fun c hc => absurd hc (by simp [Delayed.game?])
    · exact Or.inr fun c hc => (Option.some.inj hc).symm
    · exact Or.inr fun c hc => (Option.some.inj hc).symm
  cases h with
  | plain hcheck _ => exact hchecked hcheck hd
  | walkover hcheck _ _ =>
      rcases mem_later hd with hold | rfl
      · exact hchecked hcheck hold
      · exact Or.inr fun c hc => absurd hc (by simp [Delayed.game?])

end GameViewController

namespace Screen

variable {P : Pairing} {sc sc' : Screen} {i : Input} {g copy : Game} {writes : List GameWrite}

/-- Games with the same moves are captured alike. -/
theorem Captured.congr (hs : sc.Captured P g) (h : copy.moves = g.moves) :
    sc.Captured P copy := by
  intro d hd hdecides c hc p
  rw [h]
  exact hs d hd hdecides c hc p

/-- **A snapshot keeps a screen matched exactly when it keeps the moves.** -/
theorem Matched.delivered_iff {rest : List Game} {vc : GameViewController}
    (hinbox : sc.inbox = g :: rest)
    (h : sc.controller.Updated (P.userId sc.owner) g vc writes) :
    Matched P { sc with controller := vc, inbox := rest } ↔ sc.KeepsMoves P .deliver := by
  have hcond : sc.KeepsMoves P .deliver ↔ sc.Captured P g := by
    simp [KeepsMoves, hinbox]
  rw [hcond]
  obtain ⟨copy, hcopy, hmoves⟩ := Option.map_eq_some_iff.mp h.game_moves
  constructor
  · intro hmatched
    have hcaptured : sc.Captured P copy :=
      fun d hd => hmatched copy hcopy d (h.delayed_subset hd)
    exact hcaptured.congr hmoves.symm
  · intro hs copy' hcopy' d hd hdecides c hc p
    obtain rfl := Option.some.inj (hcopy.symm.trans hcopy')
    rw [hmoves]
    rcases h.mem_delayed hd with hold | hnew
    · exact hs d hold hdecides c hc p
    · rw [hnew c hc]

/-- **A screen stays matched exactly under the inputs that keep the moves.** -/
theorem Matched.handles_iff (hs : sc.Matched P)
    (h : sc.Handles (P.userId sc.owner) i sc' writes) :
    sc'.Matched P ↔ sc.KeepsMoves P i := by
  have htake : ∀ j, Matched P { sc with controller := sc.takeClosure j } :=
    fun j copy hcopy d hd => hs copy hcopy d (List.mem_of_mem_eraseIdx hd)
  cases h with
  | deliver hinbox hupdate => exact Matched.delivered_iff hinbox hupdate
  | @animatedMoves place captured vc _ hclosure hcheck =>
      refine iff_of_true (fun copy hcopy d hd hdecides c hc p => ?_) trivial
      have hsame : sc.controller.game.map Game.moves = some copy.moves := by
        rw [← Option.map_some, ← hcopy]
        exact hcheck.game_moves.symm
      obtain ⟨copy', hcopy', hmoves⟩ := Option.map_eq_some_iff.mp hsame
      rw [← hmoves]
      rcases hcheck.mem_delayed hd with hold | rfl | rfl | ⟨rfl, hverdict⟩
      · exact hs copy' hcopy' d (List.mem_of_mem_eraseIdx hold) hdecides c hc p
      · exact absurd hc (by simp [Delayed.game?])
      · exact absurd hdecides (by simp [Delayed.decides])
      · refine hs copy' hcopy' _ (List.mem_of_getElem? hclosure) ?_ c hc p
        simp [Delayed.decides, hverdict, Verdict.finishes]
  | @kicked place captured hclosure =>
      refine iff_of_true (fun copy hcopy d hd hdecides c hc => ?_) trivial
      rcases GameViewController.mem_later hd with hold | rfl
      · exact htake place copy hcopy d hold hdecides c hc
      · exact hs copy hcopy _ (List.mem_of_getElem? hclosure) rfl c hc
  | @wasKicked place captured _ _ =>
      refine iff_of_true (fun copy hcopy d hd hdecides c hc => ?_) trivial
      rcases GameViewController.mem_later hd with hold | rfl
      · exact htake place copy hcopy d hold hdecides c hc
      · exact absurd hc (by simp [Delayed.game?])
  | @declaredWinner place finished captured old _ hgame =>
      refine iff_of_true (fun copy hcopy d hd hdecides c hc => ?_) trivial
      obtain rfl := Option.some.inj hcopy
      rcases GameViewController.mem_later hd with hold | rfl
      · exact htake place old hgame d hold hdecides c hc
      · exact absurd hc (by simp [Delayed.game?])
  | interrupted _ | wasKickedAlone _ _ => exact iff_of_true (htake _) trivial
  | @continuedToResults place _ _ => exact iff_of_true (htake place) trivial
  | pick _ _ _ _ | pickNothing _ | exit _ _ | exitNothing _ _ | home =>
      exact iff_of_true hs trivial

/-- The game that `checkForWinner` or `setWinner` gets under an input. -/
def decidedOn (sc : Screen) : Input → Option Game
  | .deliver => sc.inbox.head?
  | .fire place _ => sc.controller.delayed[place]?.bind Delayed.game?
  | _ => none

end Screen

namespace Session

variable (P : Pairing) (s : Session)

/-- The event keeps the moves that waiting closures may decide on. -/
def KeepsMoves : Event → Prop
  | .input place i => ∀ sc ∈ s.screens[place]?, sc.KeepsMoves P i
  | _ => True

instance (e : Event) : Decidable (s.KeepsMoves P e) :=
  match e with
  | .input _ _ => inferInstanceAs (Decidable (∀ sc ∈ _, _))
  | .commit _ | .completeCreate | .find _ _ | .gameAccepted _ | .snapshot _ _ =>
      inferInstanceAs (Decidable True)

/-- Every screen is matched. -/
def Matched : Prop :=
  ∀ sc ∈ s.screens, sc.Matched P

/-- The game that `checkForWinner` or `setWinner` gets in an event. -/
def decidedOn : Event → Option Game
  | .input place i => s.screens[place]?.bind fun sc => sc.decidedOn i
  | _ => none

variable {P s} {s' : Session} {e : Event} {es : List Event} {p : Player} {g : Game}

/-- **The screens stay matched on exactly the steps that keep the moves.** -/
theorem Matched.step_iff (hs : s.Matched P) (h : Step P s e s') :
    s'.Matched P ↔ s.KeepsMoves P e := by
  constructor
  · intro hs'
    cases h with
    | input hsc hhandle =>
        intro sc hsc'
        obtain rfl := Option.some.inj (hsc.symm.trans hsc')
        refine ((hs _ (List.mem_of_getElem? hsc)).handles_iff
          (Screen.handles_of_handle hhandle)).mp (hs' _ ?_)
        exact List.mem_set (List.getElem?_eq_some_iff.mp hsc).1 _
    | commit _ | completeCreate _ _ | find _ _ _ | gameAccepted _ | snapshot _ _ _ => trivial
  · intro hC sc' hsc'
    obtain ⟨j, hj⟩ := List.mem_iff_getElem?.mp hsc'
    rcases h.screens hj with ⟨sc, hsc, hturns⟩ | ⟨-, q, g, -, rfl⟩
    · have hmatched := hs sc (List.mem_of_getElem? hsc)
      cases hturns with
      | stays | receives _ => exact hmatched
      | handles hhandles => exact (hmatched.handles_iff hhandles).mpr (hC sc hsc)
    · intro copy _ d hd
      exact absurd hd (by simp [GameViewController.viewDidLoad])

/-- On matched screens a decision is written with its moves. -/
theorem Matched.written (hs : s.Matched P) (h : Step P s e s')
    (hw : s'.store.issuedBy p = s.store.issuedBy p ++ [.decided g]) :
    ∃ arg, s.decidedOn e = some arg ∧ g.SameMoves P arg := by
  rcases h.store with ⟨q, -, hcommit⟩ | ⟨q, ws, hissues, hstore⟩
  · rw [WriteLog.issuedBy_commit hcommit] at hw
    exact absurd hw (by simp)
  rw [hstore, WriteLog.issuedBy_issue] at hw
  have hws : (if p = q then ws else []) = [.decided g] := List.append_cancel_left hw
  by_cases hp : p = q
  · rw [if_pos hp] at hws
    cases hissues with
    | nothing | entered | picked _ _ _ _ _ | exited _ => exact absurd hws (by simp)
    | @delivered place sc arg rest hsc hinbox _ =>
        obtain rfl := GameWrite.decided.inj (List.singleton_inj.mp hws)
        exact ⟨arg, by simp [decidedOn, hsc, Screen.decidedOn, hinbox], fun _ => rfl⟩
    | @animated place i sc arg copy hsc hclosure hverdict hcopy =>
        obtain rfl := GameWrite.decided.inj (List.singleton_inj.mp hws)
        refine ⟨arg, by simp [decidedOn, hsc, Screen.decidedOn, hclosure, Delayed.game?], ?_⟩
        exact hs sc (List.mem_of_getElem? hsc) copy hcopy _ (List.mem_of_getElem? hclosure)
          hverdict arg rfl
    | @declared place i finished sc arg copy hsc hclosure hcopy =>
        obtain rfl := GameWrite.decided.inj (List.singleton_inj.mp hws)
        refine ⟨arg, by simp [decidedOn, hsc, Screen.decidedOn, hclosure, Delayed.game?], ?_⟩
        exact hs sc (List.mem_of_getElem? hsc) copy hcopy _ (List.mem_of_getElem? hclosure) rfl
          arg rfl
  · rw [if_neg hp] at hws
    exact absurd hws (by simp)

/-- **What is decided is what is written.** In every run whose steps keep the moves, the
game that `checkForWinner` or `setWinner` writes has the moves of its argument. -/
theorem written_decision (h : RunWhere (Session.step P) (KeepsMoves P) (init P) es s)
    (hstep : s.step P e = some s')
    (hw : s'.store.issuedBy p = s.store.issuedBy p ++ [.decided g]) :
    ∃ arg, s.decidedOn e = some arg ∧ g.SameMoves P arg := by
  have hs : s.Matched P := h.invariant (I := fun s => s.Matched P)
    (fun sc hsc => absurd hsc (by simp [init]))
    fun t e t' ht hC hstep => (ht.step_iff (step_of_step_eq hstep)).mpr hC
  exact hs.written (step_of_step_eq hstep) hw

/-! ### Sample runs -/

/-- A completed animation of a draw writes the local copy. -/
theorem issuedBy_of_drawn {place i : ℕ} {sc : Screen} {arg copy : Game}
    (hsc : s.screens[place]? = some sc)
    (hclosure : sc.controller.delayed[i]? = some (.animateMoves arg))
    (hverdict : arg.verdict (P.userId sc.owner) = .drawn)
    (hcopy : sc.controller.game = some copy)
    (h : s.step P (.input place (.fire i true)) = some s') :
    s'.store.issuedBy sc.owner =
      s.store.issuedBy sc.owner ++ [.decided { copy with state := .finished }] := by
  have hfire : (sc.takeClosure i).fire (P.userId sc.owner) true (.animateMoves arg) =
      some ((sc.takeClosure i).finishedOn copy,
        [.decided { copy with state := .finished }]) := by
    have hgame : (sc.takeClosure i).game = some copy := hcopy
    rw [GameViewController.fire, if_pos rfl, GameViewController.checkForWinner_eq, hverdict]
    simp [GameViewController.finishGame, hgame, GameViewController.finishedOn]
  have hhandle : sc.handle (P.userId sc.owner) (.fire i true) =
      some ({ sc with controller := (sc.takeClosure i).finishedOn copy },
        [.decided { copy with state := .finished }]) := by
    rw [Screen.takeClosure] at hfire
    simp [Screen.handle, hclosure, hfire, Screen.takeClosure]
  simp only [step, hsc, Option.bind_some, hhandle, Option.map_some] at h
  obtain rfl := Option.some.inj h
  simp [WriteLog.issuedBy_issue]

/-- The first animation on the acceptor's screen captured a draw, and the local copy has
the requester's move of it, or has not. -/
def animatingDraw (s : Session) (matched : Bool) : Bool :=
  s.screens[0]?.any fun sc => sc.owner = .acceptor ∧
    (s.step sample (.input 0 (.fire 0 true))).isSome ∧
    sc.controller.delayed[0]?.any fun d => d.finds "uid1" .drawn ∧
      sc.controller.game.any fun copy => d.game?.any fun arg =>
        decide (copy.moves "uid2" = arg.moves "uid2") = matched

/-- What the test `animatingDraw` finds: the write of a draw. -/
theorem exists_of_animatingDraw {matched : Bool} (h : s.animatingDraw matched = true) :
    ∃ s' arg g, s.step sample (.input 0 (.fire 0 true)) = some s' ∧
      s'.store.issuedBy .acceptor = s.store.issuedBy .acceptor ++ [.decided g] ∧
      s.decidedOn (.input 0 (.fire 0 true)) = some arg ∧
      decide (g.moves "uid2" = arg.moves "uid2") = matched := by
  obtain ⟨sc, hsc, hscreen⟩ := (Option.any_eq_true _ _).mp h
  obtain ⟨howner, hstep, hdelayed⟩ := of_decide_eq_true hscreen
  obtain ⟨s', hs'⟩ := Option.isSome_iff_exists.mp hstep
  obtain ⟨d, hd, hdrawn⟩ := (Option.any_eq_true _ _).mp hdelayed
  obtain ⟨hfinds, hgame⟩ := of_decide_eq_true hdrawn
  obtain ⟨copy, hcopy, hgame⟩ := (Option.any_eq_true _ _).mp hgame
  obtain ⟨arg, harg, hmatched⟩ := (Option.any_eq_true _ _).mp hgame
  cases d with
  | animateMoves game =>
      obtain rfl : game = arg := Option.some.inj harg
      have hdrawn : game.verdict "uid1" = .drawn := by simpa [Delayed.finds] using hfinds
      have hverdict : game.verdict (sample.userId sc.owner) = .drawn := by
        rw [howner]
        exact hdrawn
      have hwritten := issuedBy_of_drawn hsc hd hverdict hcopy hs'
      rw [howner] at hwritten
      exact ⟨s', game, _, hs', hwritten,
        by simp [decidedOn, hsc, Screen.decidedOn, hd, Delayed.game?],
        of_decide_eq_true hmatched⟩
  | animateFinalMoves _ _ | setWinner _ | continueToResults =>
      exact absurd hfinds (by simp [Delayed.finds])

/-- Both pick rock, and the acceptor's client finishes the game. -/
def bothRocks : List Event :=
  opening ++ [.input 1 (.pick .rock), .commit .requester, .snapshot 0 3, .input 0 .deliver,
    .input 0 (.pick .rock), .commit .acceptor, .snapshot 0 4, .input 0 .deliver,
    .commit .acceptor]

/-- When the hands are back the acceptor's client writes the draw again. -/
theorem written_decision_bothRocks : ∃ s s' arg g,
    Run (Session.step sample) (init sample) bothRocks s ∧
      s.step sample (.input 0 (.fire 0 true)) = some s' ∧
      s'.store.issuedBy .acceptor = s.store.issuedBy .acceptor ++ [.decided g] ∧
      s.decidedOn (.input 0 (.fire 0 true)) = some arg ∧ g.SameMoves sample arg := by
  have hsome : ((execWhere (Session.step sample) (KeepsMoves sample) (init sample)
      bothRocks).any fun s => s.animatingDraw true) = true := by decide
  obtain ⟨s, hs, hdraw⟩ := (Option.any_eq_true _ _).mp hsome
  have hrun : RunWhere (Session.step sample) (KeepsMoves sample) (init sample) bothRocks s :=
    runWhere_of_execWhere hs
  obtain ⟨s', -, g, hstep, hwritten, -, -⟩ := exists_of_animatingDraw hdraw
  obtain ⟨arg, harg, hsame⟩ := written_decision hrun hstep hwritten
  exact ⟨s, s', arg, g, hrun.toRun, hstep, hwritten, harg, hsame⟩

/-- **Other moves are written.** After `bothRocks` the requester, whose client has received
its own rock, picks paper; the acceptor's client receives that and then completes the
animation of the draw. -/
theorem other_moves_written : ¬ ∀ (P : Pairing) (es : List Event) (e : Event)
    (s s' : Session) (p : Player) (g : Game), Run (Session.step P) (init P) es s →
    s.step P e = some s' → s'.store.issuedBy p = s.store.issuedBy p ++ [.decided g] →
    ∃ arg, s.decidedOn e = some arg ∧ g.SameMoves P arg := by
  intro h
  have hsome : ((exec (Session.step sample) (init sample)
      (bothRocks ++ [.snapshot 1 3, .input 1 .deliver, .input 1 (.pick .paper),
        .commit .requester, .snapshot 0 6, .input 0 .deliver])).any
          fun s => s.animatingDraw false) = true := by decide
  obtain ⟨s, hs, hdraw⟩ := (Option.any_eq_true _ _).mp hsome
  obtain ⟨s', arg, g, hstep, hwritten, harg, hother⟩ := exists_of_animatingDraw hdraw
  obtain ⟨arg', harg', hsame⟩ :=
    h sample _ _ s s' .acceptor g (runWhere_of_execWhere hs) hstep hwritten
  obtain rfl := Option.some.inj (harg.symm.trans harg')
  exact of_decide_eq_false hother (hsame .requester)

end Session

end RockPaperScissors
