import RockPaperScissors.Presenting

/-!
# Exit Is a Walkover

A player who exits finishes the stored game without a winner, and the opponent's client,
on receiving that, names its own user in its local copy and continues to the results. But
it presents the copy it has when the results appear, and until then a snapshot that was
computed earlier replaces that copy. A decision of its own, taken while the Exit is on its
way, clears the winner and continues to the results as well (`walkover_lost`).

The results are safe as long as every input of the remaining player's client **keeps the
walkover**: a snapshot takes the walkover branch, or it is no decision and does not replace
a copy that is on its way to the results by one without the winner; and no completed
animation decides the game or continues to the results of a copy without the winner.

## Main results

* `Screen.Safe.handles_iff`, `Safe.step_iff`: the results stay safe on exactly the steps
  that keep the walkover.
* `walkover_named`: in every run whose steps keep the walkover, the results that the
  remaining player's client presents after an Exit name that player.
* `walkover_lost`: without the condition they do not.
-/

open TransitionSystem

namespace RockPaperScissors

/-- The completed closure of a screen of `p` keeps the walkover in the local copy. -/
def Delayed.KeepsWalkover (P : Pairing) (p : Player) (copy : Option Game) : Delayed → Prop
  | animateMoves g => (g.verdict (P.userId p)).finishes = false
  | animateFinalMoves false _ => ∀ g ∈ copy, g.winner = some (P.user p)
  | _ => True

instance (P : Pairing) (p : Player) (copy : Option Game) (d : Delayed) :
    Decidable (d.KeepsWalkover P p copy) :=
  match d with
  | .animateMoves _ => inferInstanceAs (Decidable (_ = false))
  | .animateFinalMoves false _ => inferInstanceAs (Decidable (∀ g ∈ copy, _))
  | .animateFinalMoves true _ | .setWinner _ | .continueToResults =>
      inferInstanceAs (Decidable True)

namespace Screen

variable (P : Pairing)

/-- Results that are on their way name the player of the screen. -/
def Safe (sc : Screen) : Prop :=
  sc.controller.leaving = true →
    sc.controller.game.bind Game.winner = some (P.user sc.owner)

/-- **The input keeps the walkover.** -/
def KeepsWalkover (sc : Screen) : Input → Prop
  | .deliver => ∀ g ∈ sc.inbox.head?, g.walksOver (P.userId sc.owner) = true ∨
      (g.verdict (P.userId sc.owner)).finishes = false ∧
        (sc.controller.leaving = true → g.winner = some (P.user sc.owner))
  | .fire place true => ∀ d ∈ sc.controller.delayed[place]?,
      d.KeepsWalkover P sc.owner sc.controller.game
  | _ => True

instance (sc : Screen) : Decidable (sc.Safe P) :=
  inferInstanceAs (Decidable (_ → _))

instance (sc : Screen) (i : Input) : Decidable (sc.KeepsWalkover P i) :=
  match i with
  | .deliver => inferInstanceAs (Decidable (∀ g ∈ sc.inbox.head?, _))
  | .fire _ true => inferInstanceAs (Decidable (∀ d ∈ _, _))
  | .fire _ false | .pick _ | .exit | .home => inferInstanceAs (Decidable True)

variable {P} {sc sc' : Screen} {i : Input} {g : Game} {writes : List GameWrite}

/-- A copy without a winner that is on its way to the results. -/
theorem not_safe_finishedOn {vc : GameViewController} {copy : Game} {rest : List Game} :
    ¬ Safe P { sc with controller := vc.finishedOn copy, inbox := rest } := by
  intro hsafe
  have hwinner := hsafe (by simp [GameViewController.finishedOn])
  exact absurd hwinner (by simp [GameViewController.finishedOn,
    GameViewController.continueToResults, GameViewController.later])

/-- **A snapshot leaves the results safe exactly when it keeps the walkover.** -/
theorem Safe.delivered_iff {rest : List Game} {vc : GameViewController}
    (hinbox : sc.inbox = g :: rest)
    (h : sc.controller.Updated (P.userId sc.owner) g vc writes) (hcopy : P.Copy g) :
    Safe P { sc with controller := vc, inbox := rest } ↔ sc.KeepsWalkover P .deliver := by
  have hcond : sc.KeepsWalkover P .deliver ↔ g.walksOver (P.userId sc.owner) = true ∨
      (g.verdict (P.userId sc.owner)).finishes = false ∧
        (sc.controller.leaving = true → g.winner = some (P.user sc.owner)) := by
    simp [KeepsWalkover, hinbox]
  rw [hcond]
  cases h with
  | @walkover vc' _ hcheck hfin hnone =>
      refine iff_of_true (fun _ => ?_) (Or.inl (Session.walksOver_of_checked hcheck hfin hnone))
      have hgame : vc'.game.isSome := by
        cases hcheck with
        | waiting _ => simp
        | lost _ =>
            have hsome : (sc.controller.receive (P.userId sc.owner) g).game.isSome := by simp
            exact hsome
        | won _ _ | drawn _ _ => rfl
      obtain ⟨copy, hcopy'⟩ := Option.isSome_iff_exists.mp hgame
      simpa [GameViewController.walkover, GameViewController.continueToResults,
        GameViewController.later, hcopy'] using hcopy.player sc.owner
  | plain hcheck hleft =>
      have hwalk : g.walksOver (P.userId sc.owner) = false := by
        rw [← Bool.not_eq_true, Session.walksOver_iff_of_checked hcheck]
        rintro ⟨hfin, hnone⟩
        exact absurd hnone (Option.isSome_iff_ne_none.mp (hleft hfin))
      cases hcheck with
      | waiting hverdict =>
          simp [hwalk, Safe, hverdict, Verdict.finishes]
      | lost hverdict =>
          have hgame : ((sc.controller.receive (P.userId sc.owner) g).animateFinalMoves
              false g).game = some g := GameViewController.receive_game
          simp [hwalk, Safe, hverdict, Verdict.finishes, hgame]
      | won hverdict _ | drawn hverdict _ =>
          refine iff_of_false not_safe_finishedOn ?_
          simp [hwalk, hverdict, Verdict.finishes]

/-- **The results stay safe exactly under the inputs that keep the walkover.** -/
theorem Safe.handles_iff (hs : sc.Safe P) (h : sc.Handles (P.userId sc.owner) i sc' writes)
    (hcopy : ∀ g, sc.Holds g → P.Copy g) : sc'.Safe P ↔ sc.KeepsWalkover P i := by
  have htake : ∀ j, Safe P { sc with controller := sc.takeClosure j } :=
    fun j hleaving => hs (leaving_of_takeClosure hleaving)
  cases h with
  | deliver hinbox hupdate =>
      exact Safe.delivered_iff hinbox hupdate (hcopy _ (.inbox (hinbox ▸ List.mem_cons_self)))
  | interrupted _ => exact iff_of_true (htake _) trivial
  | @animatedMoves place captured vc _ hclosure hcheck =>
      have hcond : sc.KeepsWalkover P (.fire place true) ↔
          (captured.verdict (P.userId sc.owner)).finishes = false := by
        simp [KeepsWalkover, Delayed.KeepsWalkover, hclosure]
      rw [hcond]
      cases hcheck with
      | waiting hverdict => exact iff_of_true (htake place) (by rw [hverdict]; rfl)
      | lost hverdict =>
          refine iff_of_true (fun hleaving => ?_) (by rw [hverdict]; rfl)
          rw [GameViewController.leaving_animateFinalMoves] at hleaving
          exact htake place hleaving
      | won hverdict _ | drawn hverdict _ =>
          exact iff_of_false not_safe_finishedOn (by rw [hverdict]; decide)
  | @kicked place captured hclosure =>
      refine iff_of_true (fun hleaving => ?_)
        (by simp [KeepsWalkover, Delayed.KeepsWalkover, hclosure])
      rw [GameViewController.leaving_setWinner] at hleaving
      exact htake place hleaving
  | @wasKicked place captured hclosure hgame =>
      obtain ⟨copy, hcopy'⟩ := Option.isSome_iff_exists.mp hgame
      have hsame : (sc.takeClosure place).continueToResults.game = some copy := hcopy'
      simp [KeepsWalkover, Delayed.KeepsWalkover, hclosure, hcopy', Safe, hsame]
  | @wasKickedAlone place captured hclosure hgame =>
      exact iff_of_true (htake place)
        (by simp [KeepsWalkover, Delayed.KeepsWalkover, hclosure, hgame])
  | @declaredWinner place finished captured copy hclosure _ =>
      refine iff_of_true (fun _ => ?_) ?_
      · have hplayer := (hcopy captured (holds_closure hclosure rfl)).player sc.owner
        exact hplayer
      · cases finished <;> simp [KeepsWalkover, Delayed.KeepsWalkover, hclosure]
  | @continuedToResults place finished hclosure =>
      refine iff_of_true (fun hleaving => hs (leaving_of_takeClosure hleaving)) ?_
      cases finished <;> simp [KeepsWalkover, Delayed.KeepsWalkover, hclosure]
  | pick _ _ _ _ | pickNothing _ | exit _ _ | exitNothing _ _ | home =>
      exact iff_of_true hs trivial

end Screen

namespace Session

variable (P : Pairing) (p : Player) (s : Session)

/-- The results on their way on the screens of the player name that player. -/
def Safe : Prop :=
  ∀ sc ∈ s.screens, sc.owner = p → sc.Safe P

/-- **The event keeps the walkover** of the player. -/
def KeepsWalkover : Event → Prop
  | .input place i => ∀ sc ∈ s.screens[place]?, sc.owner = p → sc.KeepsWalkover P i
  | _ => True

instance : Decidable (s.Safe P p) :=
  inferInstanceAs (Decidable (∀ sc ∈ s.screens, _))

instance (e : Event) : Decidable (s.KeepsWalkover P p e) :=
  match e with
  | .input _ _ => inferInstanceAs (Decidable (∀ sc ∈ _, _))
  | .commit _ | .completeCreate | .find _ _ | .gameAccepted _ | .snapshot _ _ =>
      inferInstanceAs (Decidable True)

/-- The player exits while the stored game is not finished and waits for a move. -/
structure ExitsOpen (place : ℕ) (s' : Session) : Prop where
  screen : ∃ sc ∈ s.screens[place]?, sc.owner = p
  step : s.step P (.input place .exit) = some s'
  stored : ∃ g, s.stored = some g ∧ g.state ≠ .finished ∧
    ∃ q, g.moves (P.userId q) = some .idle

variable {P p s} {s' t t' : Session} {e : Event} {es es' : List Event} {place : ℕ}
  {r : Option Game}

/-- **The results stay safe on exactly the steps that keep the walkover.** -/
theorem Safe.step_iff (hs : s.Safe P p) (h : Step P s e s')
    (hcopy : ∀ g, s.Holds g → P.Copy g) : s'.Safe P p ↔ s.KeepsWalkover P p e := by
  constructor
  · intro hs'
    cases h with
    | input hsc hhandle =>
        intro sc hsc' howner
        obtain rfl := Option.some.inj (hsc.symm.trans hsc')
        have hhandles := Screen.handles_of_handle hhandle
        have hmem := List.mem_of_getElem? hsc
        refine ((hs _ hmem howner).handles_iff hhandles fun g hg => hcopy g (.screen hmem hg)).mp
          (hs' _ ?_ (hhandles.owner.trans howner))
        exact List.mem_set (List.getElem?_eq_some_iff.mp hsc).1 _
    | commit _ | completeCreate _ _ | find _ _ _ | gameAccepted _ | snapshot _ _ _ => trivial
  · intro hC sc' hsc' howner
    obtain ⟨j, hj⟩ := List.mem_iff_getElem?.mp hsc'
    rcases h.screens hj with ⟨sc, hsc, hturns⟩ | ⟨-, q, g, -, rfl⟩
    · have hmem := List.mem_of_getElem? hsc
      have hsafe := hs sc hmem (hturns.owner.symm.trans howner)
      cases hturns with
      | stays | receives _ => exact hsafe
      | handles hhandles =>
          exact (hsafe.handles_iff hhandles fun g hg => hcopy g (.screen hmem hg)).mpr
            (hC sc hsc (hhandles.owner.symm.trans howner))
    · intro hleaving
      exact absurd hleaving (by simp [GameViewController.leaving,
        GameViewController.viewDidLoad])

/-- What a player presents while the results are safe names that player. -/
theorem Safe.presents (hs : s.Safe P p) (h : Step P s e s') (hr : Presents s s' p r) :
    r.bind Game.winner = some (P.user p) := by
  obtain ⟨sc, hmem, rfl, hleaving, rfl⟩ := hr.leaving h
  exact hs sc hmem rfl hleaving

/-- **Exit is a walkover.** After an Exit, unless the remaining player's client is already
on its way to results that do not name the player, every run whose steps keep the walkover
presents on that client only results that name the player. -/
theorem walkover_named (h : Run (Session.step P) (init P) es s) (hs : s.Safe P p.other)
    (hexit : s.ExitsOpen P p place s')
    (h' : RunWhere (Session.step P) (KeepsWalkover P p.other) s' es' t)
    (hstep : t.step P e = some t') (hr : Presents t t' p.other r) :
    r.bind Game.winner = some (P.user p.other) := by
  have hexited : Run (Session.step P) (init P) (es ++ [.input place .exit]) s' :=
    RunWhere.snoc h trivial hexit.step
  have hs' : s'.Safe P p.other :=
    (hs.step_iff (step_of_step_eq hexit.step) (copy_of_run h)).mpr fun _ _ _ => trivial
  have ht : t.Safe P p.other := by
    refine h'.invariant_events (I := fun _ u => u.Safe P p.other) hs' ?_
    intro es'' u e' u' hrun hu hC hstep'
    have hcopy := copy_of_run (hexited.append hrun.toRun)
    exact (hu.step_iff (step_of_step_eq hstep') hcopy).mpr hC
  exact ht.presents (step_of_step_eq hstep) hr

/-! ### Sample runs -/

/-- The acceptor can exit an open game, and after some more events the requester's client
can present results that name a winner or not. -/
def exitingAndPresenting (C : Session → Event → Prop) [∀ s e, Decidable (C s e)]
    (es es' : List Event) (i : ℕ) (named : Bool) : Bool :=
  (exec (Session.step sample) (init sample) es).any fun s =>
    s.Safe sample .requester ∧ (s.screens[0]?.any fun sc => sc.owner = .acceptor) ∧
      (s.stored.any fun g => g.state ≠ .finished ∧ ∃ q ∈ [Player.acceptor, Player.requester],
        g.moves (sample.userId q) = some .idle) ∧
      (s.step sample (.input 0 .exit)).any fun s' =>
        (execWhere (Session.step sample) C s' es').any fun t =>
          (t.step sample (.input 1 (.fire i true))).isSome ∧ t.screens[1]?.any fun sc =>
            sc.owner = .requester ∧ sc.controller.delayed[i]?.any Delayed.presents ∧
              (sc.controller.game.bind Game.winner).isSome = named

/-- What the test `exitingAndPresenting` finds. -/
theorem exists_of_exitingAndPresenting {C : Session → Event → Prop}
    [∀ s e, Decidable (C s e)] {i : ℕ} {named : Bool}
    (h : exitingAndPresenting C es es' i named = true) :
    ∃ s s' t t' r, Run (Session.step sample) (init sample) es s ∧
      s.Safe sample .requester ∧ s.ExitsOpen sample .acceptor 0 s' ∧
      RunWhere (Session.step sample) C s' es' t ∧
      t.step sample (.input 1 (.fire i true)) = some t' ∧ Presents t t' .requester r ∧
      (r.bind Game.winner).isSome = named := by
  obtain ⟨s, hs, hrest⟩ := (Option.any_eq_true _ _).mp h
  obtain ⟨hsafe, hsc, hg, hrest⟩ := of_decide_eq_true hrest
  obtain ⟨s', hs', hrest⟩ := (Option.any_eq_true _ _).mp hrest
  obtain ⟨t, ht, hrest⟩ := (Option.any_eq_true _ _).mp hrest
  obtain ⟨hstep, hpresents⟩ := of_decide_eq_true hrest
  obtain ⟨sc₀, hsc₀, howner₀⟩ := (Option.any_eq_true _ _).mp hsc
  obtain ⟨g, hg, hopen⟩ := (Option.any_eq_true _ _).mp hg
  obtain ⟨hstate, q, -, hidle⟩ := of_decide_eq_true hopen
  obtain ⟨t', ht'⟩ := Option.isSome_iff_exists.mp hstep
  obtain ⟨sc, hsc, hscreen⟩ := (Option.any_eq_true _ _).mp hpresents
  obtain ⟨howner, hdelayed, hnamed⟩ := of_decide_eq_true hscreen
  obtain ⟨d, hd, hd'⟩ := (Option.any_eq_true _ _).mp hdelayed
  have hshown := presents_of_fire hsc hd hd' ht'
  rw [howner] at hshown
  exact ⟨s, s', t, t', _, runWhere_of_execWhere hs, hsafe,
    ⟨⟨sc₀, hsc₀, of_decide_eq_true howner₀⟩, hs', g, hg, hstate, q, hidle⟩,
    runWhere_of_execWhere ht, ht', hshown, hnamed⟩

/-- The acceptor exits after the requester has picked rock. -/
theorem walkover_named_afterRock : ∃ s s' t t' r,
    Run (Session.step sample) (init sample)
      (opening ++ [.input 1 (.pick .rock), .commit .requester]) s ∧
    s.ExitsOpen sample .acceptor 0 s' ∧
    Run (Session.step sample) s' [.commit .acceptor, .snapshot 1 4, .input 1 .deliver] t ∧
    t.step sample (.input 1 (.fire 0 true)) = some t' ∧ Presents t t' .requester r ∧
    r.bind Game.winner = some (sample.user .requester) := by
  have htest : exitingAndPresenting (KeepsWalkover sample .requester)
      (opening ++ [.input 1 (.pick .rock), .commit .requester])
      [.commit .acceptor, .snapshot 1 4, .input 1 .deliver] 0 true = true := by decide
  obtain ⟨s, s', t, t', r, hrun, hsafe, hexit, hrun', hstep, hr, -⟩ :=
    exists_of_exitingAndPresenting htest
  exact ⟨s, s', t, t', r, hrun, hexit, hrun'.toRun, hstep, hr,
    walkover_named (p := .acceptor) hrun hsafe hexit hrun' hstep hr⟩

/-- **A walkover is lost.** The acceptor picks rock and exits, and the requester, who has
not received the Exit, picks rock as well: the requester's client presents a draw. -/
theorem walkover_lost : ¬ ∀ (P : Pairing) (es es' : List Event) (e : Event)
    (s s' t t' : Session) (p : Player) (place : ℕ) (r : Option Game),
    Run (Session.step P) (init P) es s → s.ExitsOpen P p place s' →
    RunWhere (Session.step P) (fun _ e => e.exits = false) s' es' t →
    t.step P e = some t' → Presents t t' p.other r →
    r.bind Game.winner = some (P.user p.other) := by
  intro h
  have htest : exitingAndPresenting (fun _ e => e.exits = false)
      (opening ++ [.input 0 (.pick .rock), .commit .acceptor, .snapshot 1 3, .input 1 .deliver])
      [.input 1 (.pick .rock), .snapshot 1 3, .input 1 .deliver] 1 false = true := by decide
  obtain ⟨s, s', t, t', r, hrun, -, hexit, hrun', hstep, hr, hnone⟩ :=
    exists_of_exitingAndPresenting htest
  have hnamed := h sample _ _ _ s s' t t' .acceptor 0 r hrun hexit hrun' hstep hr
  rw [hnamed] at hnone
  exact absurd hnone (by simp)

end Session

end RockPaperScissors
