import RockPaperScissors.Session

/-!
# Where the Games of a Session Come From

Whole games travel between the store, the snapshots, the local copies, the closures and
the writes. This module follows them. `Session.Holds s g` says that the game `g` is in
one of the places a session keeps games in, and `Step.holds` is the one induction step
all statements about such games use: a predicate that merges and the local edits of the
program keep is kept by every event but a pick, and a pick may strengthen it.

## Main results

* `Step.holds`: the step rule.
* `stored_of_holds`, `view_of_holds`: what holds of every game in a session holds of the
  stored document and of everything a client can see.
* `copy_of_run`: every game in every reachable session is a copy of the created game.
* `no_fabricated_moves`: every move that is not idle, wherever it is found, was passed
  to `pickedMove` by the client of its player at an earlier step of the run.
-/

open TransitionSystem

namespace RockPaperScissors

/-- A predicate on games that merges and the edits of `GameViewController` and
`HomeViewController` keep, except for a pick. -/
structure EditClosed (φ : Game → Prop) : Prop where
  merge : ∀ d g, φ d → φ g → φ (d.merge g)
  state : ∀ g st, φ g → φ { g with state := st }
  noWinner : ∀ g, φ g → φ { g with winner := none }
  winner : ∀ g captured : Game, φ g → φ captured → ∀ userId,
    φ { g with winner := captured.player userId }

/-! ### On a screen -/

namespace GameViewController

/-- The screen keeps the game. -/
inductive Holds (vc : GameViewController) (g : Game) : Prop
  | localCopy : vc.game = some g → Holds vc g
  | captured {d : Delayed} : d ∈ vc.delayed → d.game? = some g → Holds vc g
  | result : some g ∈ vc.results → Holds vc g

variable {vc vc' : GameViewController} {localUserId : String} {game : Game}
  {writes : List GameWrite} {φ : Game → Prop}

/-- A closure that joins brings its own game to the screen, and no other. -/
theorem holds_later {d : Delayed} (hvc : ∀ g, vc.Holds g → φ g)
    (hd : ∀ g, d.game? = some g → φ g) : ∀ g, (vc.later d).Holds g → φ g := by
  intro g hg
  cases hg with
  | localCopy h => exact hvc g (.localCopy h)
  | captured hmem h =>
      rcases mem_later hmem with hold | rfl
      · exact hvc g (.captured hold h)
      · exact hd g h
  | result h => exact hvc g (.result h)

/-- A screen whose copy is replaced holds the new copy and its closures. -/
theorem holds_withGame {copy : Option Game} (hvc : ∀ g, vc.Holds g → φ g)
    (hcopy : ∀ g, copy = some g → φ g) :
    ∀ g, Holds { vc with game := copy } g → φ g := by
  intro g hg
  cases hg with
  | localCopy h => exact hcopy g h
  | captured hmem h => exact hvc g (.captured hmem h)
  | result h => exact hvc g (.result h)

/-- `finishGame` leaves an edit of the copy on the screen. -/
theorem holds_finishedOn {copy : Game} (hφ : EditClosed φ)
    (hvc : ∀ g, vc.Holds g → φ g) (hcopy : φ copy) :
    ∀ g, (vc.finishedOn copy).Holds g → φ g := by
  refine holds_later (holds_withGame hvc ?_) (by simp [Delayed.game?])
  intro g hg
  obtain rfl := Option.some.inj hg
  exact hφ.noWinner _ (hφ.state copy .finished hcopy)

/-- `checkForWinner` keeps and writes edits of what it was given. -/
theorem Checked.holds (h : vc.Checked localUserId game vc' writes) (hφ : EditClosed φ)
    (hgame : φ game) (hvc : ∀ g, vc.Holds g → φ g) :
    (∀ g, vc'.Holds g → φ g) ∧ ∀ w ∈ writes, ∀ g, w.game? = some g → φ g := by
  have hcaptured : ∀ myHand, ∀ g, (vc.animateFinalMoves myHand game).Holds g → φ g := by
    intro myHand
    refine holds_later hvc fun g hg => ?_
    obtain rfl : game = g := Option.some.inj hg
    exact hgame
  have hwrite : ∀ copy : Game, φ copy → ∀ w ∈ [GameWrite.decided
      { copy with state := .finished }], ∀ g, w.game? = some g → φ g := by
    intro copy hcopy w hw g hg
    obtain rfl := List.mem_singleton.mp hw
    obtain rfl := Option.some.inj hg
    exact hφ.state _ _ hcopy
  cases h with
  | waiting _ => exact ⟨hvc, by simp⟩
  | lost _ => exact ⟨hcaptured false, by simp⟩
  | won _ hcopy =>
      have hφcopy := hvc _ (.localCopy hcopy)
      exact ⟨holds_finishedOn hφ (hcaptured true) hφcopy, hwrite _ hφcopy⟩
  | drawn _ hcopy =>
      have hφcopy := hvc _ (.localCopy hcopy)
      exact ⟨holds_finishedOn hφ hvc hφcopy, hwrite _ hφcopy⟩

/-- A snapshot brings its game to the screen, and no other. -/
theorem holds_receive (hgame : φ game) (hvc : ∀ g, vc.Holds g → φ g) :
    ∀ g, (vc.receive localUserId game).Holds g → φ g := by
  intro g hg
  cases hg with
  | localCopy h =>
      rw [receive_game] at h
      obtain rfl := Option.some.inj h
      exact hgame
  | captured hmem h =>
      rcases mem_receive_delayed hmem with hold | rfl
      · exact hvc g (.captured hold h)
      · obtain rfl : game = g := Option.some.inj h
        exact hgame
  | result h =>
      rw [receive_results] at h
      exact hvc g (.result h)

/-- `updateGame` keeps and writes edits of the snapshot and of what the screen kept. -/
theorem Updated.holds (h : vc.Updated localUserId game vc' writes) (hφ : EditClosed φ)
    (hgame : φ game) (hvc : ∀ g, vc.Holds g → φ g) :
    (∀ g, vc'.Holds g → φ g) ∧ ∀ w ∈ writes, ∀ g, w.game? = some g → φ g := by
  cases h with
  | plain hcheck _ => exact hcheck.holds hφ hgame (holds_receive hgame hvc)
  | walkover hcheck _ _ =>
      obtain ⟨hvc', hwrites⟩ := hcheck.holds hφ hgame (holds_receive hgame hvc)
      refine ⟨holds_later (holds_withGame hvc' ?_) (by simp [Delayed.game?]), hwrites⟩
      intro g hg
      obtain ⟨copy, hcopy, rfl⟩ := Option.map_eq_some_iff.mp hg
      exact hφ.winner _ _ (hvc' _ (.localCopy hcopy)) hgame _

end GameViewController

namespace Screen

/-- The screen or its listener keeps the game. -/
inductive Holds (sc : Screen) (g : Game) : Prop
  | controller : sc.controller.Holds g → Holds sc g
  | inbox : g ∈ sc.inbox → Holds sc g

variable {sc sc' : Screen} {localUserId : String} {i : Input} {writes : List GameWrite}
  {φ ψ : Game → Prop}

/-- What a screen holds is what its controller and its inbox hold. -/
theorem holds_withController {vc : GameViewController} (hsc : ∀ g, sc.Holds g → φ g)
    (hvc : ∀ g, vc.Holds g → φ g) :
    ∀ g, Holds { sc with controller := vc } g → φ g := by
  intro g hg
  cases hg with
  | controller h => exact hvc g h
  | inbox h => exact hsc g (.inbox h)

/-- A closure that is taken leaves the others. -/
theorem holds_takeClosure (place : ℕ) (hsc : ∀ g, sc.Holds g → φ g) :
    ∀ g, (sc.takeClosure place).Holds g → φ g := by
  intro g hg
  cases hg with
  | localCopy h => exact hsc g (.controller (.localCopy h))
  | captured hmem h =>
      exact hsc g (.controller (.captured (List.mem_of_mem_eraseIdx hmem) h))
  | result h => exact hsc g (.controller (.result h))

/-- The game of a waiting closure is held by its screen. -/
theorem holds_closure {place : ℕ} {closure : Delayed} {g : Game}
    (h : sc.controller.delayed[place]? = some closure) (hg : closure.game? = some g) :
    sc.Holds g :=
  .controller (.captured (List.mem_of_getElem? h) hg)

/-- An input keeps and writes edits of what the screen held, and of a pick the local
copy with the new move. -/
theorem Handles.holds (h : sc.Handles localUserId i sc' writes) (hψ : EditClosed ψ)
    (hφψ : ∀ g, φ g → ψ g)
    (hpick : ∀ m g, i = .pick m → m ≠ .idle → sc.controller.game = some g → φ g →
      ψ (g.setMove localUserId m))
    (hsc : ∀ g, sc.Holds g → φ g) :
    (∀ g, sc'.Holds g → ψ g) ∧ ∀ w ∈ writes, ∀ g, w.game? = some g → ψ g := by
  have hscψ : ∀ g, sc.Holds g → ψ g := fun g hg => hφψ g (hsc g hg)
  have htake := fun place => holds_takeClosure place hscψ
  cases h with
  | deliver hinbox hupdate =>
      have hgame := hscψ _ (.inbox (hinbox ▸ List.mem_cons_self))
      obtain ⟨hvc, hwrites⟩ := hupdate.holds hψ hgame fun g hg => hscψ g (.controller hg)
      refine ⟨fun g hg => ?_, hwrites⟩
      cases hg with
      | controller h => exact hvc g h
      | inbox h => exact hscψ g (.inbox (hinbox ▸ List.mem_cons_of_mem _ h))
  | interrupted _ => exact ⟨holds_withController hscψ (htake _), by simp⟩
  | animatedMoves hclosure hcheck =>
      obtain ⟨hvc, hwrites⟩ := hcheck.holds hψ (hscψ _ (holds_closure hclosure rfl))
        (htake _)
      exact ⟨holds_withController hscψ hvc, hwrites⟩
  | kicked hclosure =>
      have hgame := hscψ _ (holds_closure hclosure rfl)
      refine ⟨holds_withController hscψ (GameViewController.holds_later (htake _) ?_),
        by simp⟩
      intro g hg
      obtain rfl := Option.some.inj hg
      exact hgame
  | wasKicked _ _ =>
      exact ⟨holds_withController hscψ (GameViewController.holds_later (htake _)
        (by simp [Delayed.game?])), by simp⟩
  | wasKickedAlone _ _ => exact ⟨holds_withController hscψ (htake _), by simp⟩
  | declaredWinner hclosure hcopy =>
      have hgame := hscψ _ (holds_closure hclosure rfl)
      have hdecided := hψ.state _ .finished (hψ.winner _ _
        (hscψ _ (.controller (.localCopy hcopy))) hgame localUserId)
      refine ⟨holds_withController hscψ (GameViewController.holds_later
        (GameViewController.holds_withGame (htake _) ?_) (by simp [Delayed.game?])), ?_⟩
      · intro g hg
        obtain rfl := Option.some.inj hg
        exact hdecided
      · intro w hw g hg
        obtain rfl := List.mem_singleton.mp hw
        obtain rfl := Option.some.inj hg
        exact hdecided
  | @continuedToResults place finished _ =>
      refine ⟨holds_withController hscψ fun g hg => ?_, by simp⟩
      cases hg with
      | localCopy h => exact htake place g (.localCopy h)
      | captured hmem h => exact htake place g (.captured hmem h)
      | result h =>
          rcases List.mem_append.mp h with hold | hnew
          · exact hscψ g (.controller (.result hold))
          · exact hscψ g (.controller (.localCopy (List.mem_singleton.mp hnew).symm))
  | pick hmove _ _ hgame =>
      refine ⟨fun g hg => ?_, fun w hw g hg => ?_⟩
      · cases hg with
        | controller h =>
            cases h with
            | localCopy h => exact hscψ g (.controller (.localCopy h))
            | captured hmem h => exact hscψ g (.controller (.captured hmem h))
            | result h => exact hscψ g (.controller (.result h))
        | inbox h => exact hscψ g (.inbox h)
      · obtain rfl := List.mem_singleton.mp hw
        obtain rfl := Option.some.inj hg
        exact hpick _ _ rfl hmove hgame (hsc _ (.controller (.localCopy hgame)))
  | pickNothing _ => exact ⟨hscψ, by simp⟩
  | exit _ _ | exitNothing _ _ | home =>
      refine ⟨holds_withController hscψ fun g hg => ?_, by simp [GameWrite.game?]⟩
      cases hg with
      | localCopy h => exact hscψ g (.controller (.localCopy h))
      | captured hmem h => exact hscψ g (.controller (.captured hmem h))
      | result h => exact hscψ g (.controller (.result h))

end Screen

/-! ### In a session -/

namespace Session

/-- The game is a pending or committed write, an undelivered snapshot of a listener, or
kept by a screen. -/
inductive Holds (s : Session) (g : Game) : Prop
  | write {p : Player} {w : GameWrite} :
      w ∈ s.store.issuedBy p → w.game? = some g → Holds s g
  | found {p : Player} : g ∈ s.found p → Holds s g
  | screen {sc : Screen} : sc ∈ s.screens → sc.Holds g → Holds s g

variable {P : Pairing} {s s' : Session} {e : Event} {φ ψ : Game → Prop}

/-- What holds of every game in a session holds of every document its writes make. -/
theorem doc_of_holds (hφ : EditClosed φ) (hs : ∀ g, s.Holds g → φ g) (p : Player)
    (w : GameWrite) (hw : w ∈ s.store.issuedBy p) (doc : Option Game)
    (hdoc : ∀ g, doc = some g → φ g) : ∀ g, w.apply doc = some g → φ g :=
  GameWrite.apply_invariant (fun g hg => hs g (.write hw hg)) hφ.merge
    (fun d st _ => hφ.state d st) hdoc

/-- **The stored document** has every property of the games in the session. -/
theorem stored_of_holds (hφ : EditClosed φ) (hs : ∀ g, s.Holds g → φ g) {g : Game}
    (hg : s.stored = some g) : φ g :=
  WriteLog.current_invariant (I := fun doc => ∀ g, doc = some g → φ g) (by simp)
    (doc_of_holds hφ hs) g hg

/-- **What a client can see** has every property of the games in the session. -/
theorem view_of_holds (hφ : EditClosed φ) (hs : ∀ g, s.Holds g → φ g) {p : Player}
    {version : ℕ} {g : Game} (hg : s.view p version = some g) : φ g :=
  WriteLog.view_invariant (I := fun doc => ∀ g, doc = some g → φ g) (by simp)
    (doc_of_holds hφ hs) version g hg

/-- The game is the stored one, or a client can see it, or it is kept somewhere. -/
def Finds (s : Session) (g : Game) : Prop :=
  s.stored = some g ∨ (∃ p version, s.view p version = some g) ∨ s.Holds g

/-- What holds of every game that is kept holds of every game that is found. -/
theorem Finds.of_holds {g : Game} (h : s.Finds g) (hφ : EditClosed φ)
    (hs : ∀ g, s.Holds g → φ g) : φ g := by
  rcases h with hstored | ⟨p, version, hview⟩ | hholds
  · exact stored_of_holds hφ hs hstored
  · exact view_of_holds hφ hs hview
  · exact hs g hholds

/-- An entry of an updated queue is in the new queue or was there. -/
theorem mem_update {f : Player → List Game} {p q : Player} {games : List Game} {g : Game}
    (h : g ∈ Function.update f p games q) : g ∈ games ∨ g ∈ f q := by
  by_cases hq : q = p
  · subst hq
    exact Or.inl (by simpa using h)
  · exact Or.inr (by simpa [hq] using h)

/-! ### The step rule -/

/-- Every issued write has `φ`, every game a query listener has not delivered has `γ`, and
every screen has `σ`. -/
structure Shares (φ : GameWrite → Prop) (γ : Game → Prop) (σ : Screen → Prop)
    (s : Session) : Prop where
  written : ∀ p, ∀ w ∈ s.store.issuedBy p, φ w
  found : ∀ p, ∀ g ∈ s.found p, γ g
  screens : ∀ sc ∈ s.screens, σ sc

variable {χ : GameWrite → Prop} {γ : Game → Prop} {σ : Screen → Prop}

/-- A new game screen that shares what the others share. -/
theorem Shares.performSegue {p : Player} {game : Game} (hs : s.Shares χ γ σ)
    (hnew : σ ⟨p, .viewDidLoad game, 0, []⟩) : (s.performSegue p game).Shares χ γ σ := by
  refine ⟨?_, ?_, fun sc hsc => ?_⟩
  · rw [performSegue_store]
    exact hs.written
  · rw [performSegue_found]
    exact hs.found
  · rcases mem_performSegue hsc with hold | ⟨-, rfl⟩
    · exact hs.screens sc hold
    · exact hnew

/-- Writes that are issued join those that are shared. -/
theorem Shares.issue {p : Player} {ws : List GameWrite} (hs : s.Shares χ γ σ)
    (hws : ∀ w ∈ ws, χ w) : Shares χ γ σ { s with store := s.store.issue p ws } := by
  refine ⟨fun q w hw => ?_, hs.found, hs.screens⟩
  rw [WriteLog.issuedBy_issue] at hw
  rcases List.mem_append.mp hw with hold | hnew
  · exact hs.written q w hold
  · split at hnew
    · exact hws w hnew
    · exact absurd hnew (by simp)

/-- A screen is replaced by one that shares what the others share. -/
theorem Shares.set {place : ℕ} {sc' : Screen} (hs : s.Shares χ γ σ) (hsc' : σ sc') :
    Shares χ γ σ { s with screens := s.screens.set place sc' } := by
  refine ⟨hs.written, hs.found, fun b hb => ?_⟩
  rcases List.mem_or_eq_of_mem_set hb with hold | rfl
  · exact hs.screens b hold
  · exact hsc'

/-- **The step rule for everything a session shares.** What holds of all writes, all found
games and all screens holds after a step, when a view has `γ`, a new screen and a screen
with one more snapshot have `σ`, and an input keeps `σ` and issues writes with `φ`. What
`enterGame` writes and opens is asked for only when the event invokes it. -/
theorem Shares.step_of_event (hs : s.Shares χ γ σ) (h : Step P s e s')
    (hview : ∀ p version g, s.view p version = some g → γ g)
    (hentered : ∀ p, e = .gameAccepted p → χ (.status .inprogress))
    (hcreated : ∀ p, σ ⟨p, .viewDidLoad P.createdGame, 0, []⟩)
    (haccepted : ∀ p g, e = .gameAccepted p → γ g →
      σ ⟨p, .viewDidLoad { g with state := .inprogress }, 0, []⟩)
    (hsnapshot : ∀ sc version g, σ sc → γ g →
      σ { sc with seen := version, inbox := sc.inbox ++ [g] })
    (hinput : ∀ place i sc sc' ws, e = .input place i → s.screens[place]? = some sc →
      sc.Handles (P.userId sc.owner) i sc' ws → σ sc' ∧ ∀ w ∈ ws, χ w) :
    s'.Shares χ γ σ := by
  cases h with
  | commit hstore =>
      refine ⟨fun q w hw => ?_, hs.found, hs.screens⟩
      rw [WriteLog.issuedBy_commit hstore] at hw
      exact hs.written q w hw
  | completeCreate _ _ =>
      have hs' : Shares χ γ σ { s with completed := true } :=
        ⟨hs.written, hs.found, hs.screens⟩
      exact hs'.performSegue (hcreated .acceptor)
  | @find p version game _ hgame _ =>
      refine ⟨hs.written, fun q g hg => ?_, hs.screens⟩
      rcases mem_update hg with hg | hg
      · rcases List.mem_append.mp hg with hold | hnew
        · exact hs.found p g hold
        · obtain rfl := List.mem_singleton.mp hnew
          exact hview p version g hgame
      · exact hs.found q g hg
  | @gameAccepted p game rest hfound =>
      have hs' : Shares χ γ σ { s with found := Function.update s.found p rest } := by
        refine ⟨hs.written, fun q g hg => ?_, hs.screens⟩
        rcases mem_update hg with hg | hg
        · exact hs.found p g (hfound ▸ List.mem_cons_of_mem _ hg)
        · exact hs.found q g hg
      have hws : ∀ w ∈ [GameWrite.status .inprogress], χ w := by
        simpa using hentered p rfl
      have hissued := hs'.issue (p := p) hws
      exact hissued.performSegue (haccepted p game rfl (hs.found p game
        (hfound ▸ List.mem_cons_self)))
  | snapshot hsc _ hgame =>
      exact hs.set (hsnapshot _ _ _ (hs.screens _ (List.mem_of_getElem? hsc))
        (hview _ _ _ hgame))
  | input hsc hhandle =>
      obtain ⟨hsc', hws⟩ := hinput _ _ _ _ _ rfl hsc (Screen.handles_of_handle hhandle)
      exact (hs.issue hws).set hsc'

/-- The step rule, when what `enterGame` writes and opens is asked for in any case. -/
theorem Shares.step (hs : s.Shares χ γ σ) (h : Step P s e s')
    (hview : ∀ p version g, s.view p version = some g → γ g)
    (hentered : χ (.status .inprogress))
    (hcreated : ∀ p, σ ⟨p, .viewDidLoad P.createdGame, 0, []⟩)
    (haccepted : ∀ p g, γ g → σ ⟨p, .viewDidLoad { g with state := .inprogress }, 0, []⟩)
    (hsnapshot : ∀ sc version g, σ sc → γ g →
      σ { sc with seen := version, inbox := sc.inbox ++ [g] })
    (hinput : ∀ place i sc sc' ws, e = .input place i → s.screens[place]? = some sc →
      sc.Handles (P.userId sc.owner) i sc' ws → σ sc' ∧ ∀ w ∈ ws, χ w) :
    s'.Shares χ γ σ :=
  hs.step_of_event h hview (fun _ _ => hentered) hcreated (fun p g _ => haccepted p g)
    hsnapshot hinput

/-- **The step rule for games.** When the games of a session have `φ`, those of the next
one have any weaker `ψ` that the edits keep and that a pick establishes. -/
theorem Step.holds (h : Step P s e s') (hψ : EditClosed ψ) (hφψ : ∀ g, φ g → ψ g)
    (hcreated : ψ P.createdGame)
    (hpick : ∀ place m sc g, e = .input place (.pick m) → s.screens[place]? = some sc →
      m ≠ .idle → sc.controller.game = some g → φ g → ψ (g.setMove (P.userId sc.owner) m))
    (hs : ∀ g, s.Holds g → φ g) : ∀ g, s'.Holds g → ψ g := by
  have hsψ : ∀ g, s.Holds g → ψ g := fun g hg => hφψ g (hs g hg)
  have hnew : ∀ p g, ψ g → ∀ g', Screen.Holds ⟨p, .viewDidLoad g, 0, []⟩ g' → ψ g' := by
    intro p g hg g' hg'
    cases hg' with
    | controller h =>
        cases h with
        | localCopy h =>
            obtain rfl : g = g' := Option.some.inj h
            exact hg
        | captured hmem _ => exact absurd hmem (by simp [GameViewController.viewDidLoad])
        | result h => exact absurd h (by simp [GameViewController.viewDidLoad])
    | inbox h => exact absurd h (by simp)
  have hshares : s.Shares (fun w => ∀ g, w.game? = some g → ψ g) ψ
      (fun sc => ∀ g, sc.Holds g → ψ g) :=
    ⟨fun p w hw g hg => hsψ g (.write hw hg), fun p g hg => hsψ g (.found hg),
      fun sc hsc g hg => hsψ g (.screen hsc hg)⟩
  have hshares' := hshares.step h (fun p version g hg => view_of_holds hψ hsψ hg)
    (by simp [GameWrite.game?]) (fun p => hnew p _ hcreated)
    (fun p g hg => hnew p _ (hψ.state g .inprogress hg)) ?_ ?_
  · intro g hg
    cases hg with
    | write hw h => exact hshares'.written _ _ hw g h
    | found h => exact hshares'.found _ g h
    | screen hsc h => exact hshares'.screens _ hsc g h
  · intro sc version g hsc hg g' hg'
    cases hg' with
    | controller h => exact hsc g' (.controller h)
    | inbox h =>
        rcases List.mem_append.mp h with hold | hlast
        · exact hsc g' (.inbox hold)
        · obtain rfl := List.mem_singleton.mp hlast
          exact hg
  · rintro place i sc sc' ws rfl hsc hhandles
    exact hhandles.holds hψ hφψ
      (fun m g hi hm hgame hg => hpick place m sc g (by rw [hi]) hsc hm hgame hg)
      fun g hg => hs g (.screen (List.mem_of_getElem? hsc) hg)

/-- The only write of a new session creates the document. -/
theorem eq_create_of_mem_issuedBy_init {p : Player} {w : GameWrite}
    (hw : w ∈ (init P).store.issuedBy p) : w = .create P.createdGame := by
  simp only [init, WriteLog.issuedBy_issue, WriteLog.issuedBy_empty, List.nil_append] at hw
  split at hw
  · exact List.mem_singleton.mp hw
  · exact absurd hw (by simp)

/-- What the creation meets is shared in a new session. -/
theorem shares_init (h : χ (.create P.createdGame)) : (init P).Shares χ γ σ where
  written := fun _ _ hw => eq_create_of_mem_issuedBy_init hw ▸ h
  found := by simp [init]
  screens := by simp [init]

/-- The only game of a new session is the created one. -/
theorem eq_createdGame_of_holds_init {g : Game} (h : (init P).Holds g) :
    g = P.createdGame := by
  cases h with
  | @write p w hw h =>
      obtain rfl := eq_create_of_mem_issuedBy_init hw
      exact (Option.some.inj h).symm
  | found h => exact absurd h (by simp [init])
  | screen h _ => exact absurd h (by simp [init])

/-! ### Every game is a copy -/

/-- Edits of copies are copies. -/
theorem editClosed_copy : EditClosed P.Copy where
  merge := fun _ _ hd hg => hd.merge hg
  state := fun _ st hg => hg.withState st
  noWinner := fun _ hg => hg.withoutWinner
  winner := by
    intro g captured hg hcaptured userId
    refine { hg with winner_id := ?_ }
    intro u hu
    have hmem : u ∈ P.players := by
      rw [← hcaptured.players_eq]
      exact List.mem_of_mem_filter (List.mem_of_head? hu)
    rcases List.mem_cons.mp hmem with rfl | hmem
    · exact ⟨.acceptor, P.user_id _⟩
    · obtain rfl := List.mem_singleton.mp hmem
      exact ⟨.requester, P.user_id _⟩

/-- **Every game in a reachable session is a copy of the created game.** -/
theorem copy_of_run {es : List Event} (h : Run (step P) (init P) es s) :
    ∀ g, s.Holds g → P.Copy g := by
  refine h.invariant (I := fun s => ∀ g, s.Holds g → P.Copy g) ?_ ?_
  · intro g hg
    rw [eq_createdGame_of_holds_init hg]
    exact Pairing.copy_createdGame
  · intro t e t' ht _ hstep
    exact (step_of_step_eq hstep).holds editClosed_copy (fun _ hg => hg)
      Pairing.copy_createdGame (fun _ m sc _ _ _ _ _ hg => hg.setMove sc.owner m) ht

/-! ### Every move was picked -/

/-- In the run with the events `es`, the client of `p` executed `pickedMove(m)`. -/
def PickedBy (P : Pairing) (es : List Event) (p : Player) (m : Moves) : Prop :=
  ∃ (es₁ es₂ : List Event) (place : ℕ) (t : Session) (sc : Screen),
    es = es₁ ++ .input place (.pick m) :: es₂ ∧ Run (step P) (init P) es₁ t ∧
    t.screens[place]? = some sc ∧ sc.owner = p

/-- Later steps do not take a pick back. -/
theorem PickedBy.append {es : List Event} {p : Player} {m : Moves}
    (h : PickedBy P es p m) (es' : List Event) : PickedBy P (es ++ es') p m := by
  obtain ⟨es₁, es₂, place, t, sc, rfl, hrun, hsc, howner⟩ := h
  exact ⟨es₁, es₂ ++ es', place, t, sc, by simp, hrun, hsc, howner⟩

/-- Every move of the game that is not idle was picked by its player. -/
def AllPicked (P : Pairing) (es : List Event) (g : Game) : Prop :=
  ∀ p m, g.moves (P.userId p) = some m → m ≠ .idle → PickedBy P es p m

/-- Edits add no move that was not picked. -/
theorem editClosed_allPicked (es : List Event) : EditClosed (AllPicked P es) where
  merge := by
    intro d g hd hg p m hm hidle
    rcases Game.merge_moves_cases hm with h | h
    · exact hg p m h hidle
    · exact hd p m h hidle
  state := fun _ _ hg => hg
  noWinner := fun _ hg => hg
  winner := fun _ _ hg _ _ => hg

/-- In the game that is created nobody has picked. -/
theorem allPicked_createdGame (es : List Event) : AllPicked P es P.createdGame := by
  intro p m hm hidle
  rw [Pairing.createdGame_moves] at hm
  exact absurd (Option.some.inj hm).symm hidle

/-- In every reachable session, every game has picked moves only. -/
theorem allPicked_of_run {es : List Event} (h : Run (step P) (init P) es s) :
    ∀ g, s.Holds g → AllPicked P es g := by
  refine h.invariant_events (I := fun es s => ∀ g, s.Holds g → AllPicked P es g) ?_ ?_
  · intro g hg
    rw [eq_createdGame_of_holds_init hg]
    exact allPicked_createdGame []
  · intro es t e t' hrun ht _ hstep
    refine (step_of_step_eq hstep).holds (editClosed_allPicked _)
      (fun g hg p m hm hidle => (hg p m hm hidle).append [e])
      (allPicked_createdGame _) ?_ ht
    intro place m sc g he hsc _ _ hg p m' hm' hidle
    by_cases hp : P.userId p = P.userId sc.owner
    · rw [hp, Game.setMove_self] at hm'
      obtain rfl := Option.some.inj hm'
      exact ⟨es, [], place, t, sc, by rw [he], hrun, hsc, (P.userId_injective hp).symm⟩
    · rw [Game.setMove_of_ne g m hp] at hm'
      exact (hg p m' hm' hidle).append [e]

/-- **No fabricated moves.** In every reachable session a move that is not idle, found
for `p` in the stored document, in what a client can see, in a write, in an undelivered
snapshot, in a local copy or in a closure, was passed to `pickedMove` by the client of
`p` at an earlier step. -/
theorem no_fabricated_moves {es : List Event} (h : Run (step P) (init P) es s)
    {g : Game} (hg : s.stored = some g ∨ (∃ p version, s.view p version = some g) ∨
      s.Holds g) {p : Player} {m : Moves} (hm : g.moves (P.userId p) = some m)
    (hidle : m ≠ .idle) : PickedBy P es p m := by
  have hall := allPicked_of_run h
  have hclosed : EditClosed (AllPicked P es) := editClosed_allPicked es
  rcases hg with hstored | ⟨q, version, hview⟩ | hholds
  · exact stored_of_holds hclosed hall hstored p m hm hidle
  · exact view_of_holds hclosed hall hview p m hm hidle
  · exact hall g hholds p m hm hidle

/-- The requester picks rock, and the write is committed. -/
def onePick : List Event :=
  opening ++ [.input 1 (.pick .rock), .commit .requester]

/-- The stored rock of `onePick` was picked by the requester. -/
theorem no_fabricated_moves_onePick : PickedBy sample onePick .requester .rock := by
  have hrun : Run (step sample) (init sample) onePick
      ((exec (step sample) (init sample) onePick).get (by decide)) := runWhere_get _
  have hstored : ∃ g, ((exec (step sample) (init sample) onePick).get
      (by decide)).stored = some g ∧ g.moves "uid2" = some .rock := ⟨_, rfl, rfl⟩
  obtain ⟨g, hg, hm⟩ := hstored
  exact no_fabricated_moves hrun (Or.inl hg) hm (by decide)

end Session

end RockPaperScissors
