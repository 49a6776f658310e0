import Mathlib.Algebra.GroupWithZero.Nat
import Mathlib.Data.List.Perm.Basic
import RockPaperScissors.Endings
import RockPaperScissors.LocalGames
import RockPaperScissors.Simulation
import RockPaperScissors.Starting

/-!
# A Game Does Not Get Stuck

What the program does without being asked: a client that has both moves and has not lost
finishes the game, and every client that has both moves is on its way to the results screen.

A client can wait for the other one only. A game in which both have picked and which is not
finished has a client that has not caught up with it, since the client that has won, and each
client of a drawn game, finishes its copy as soon as it has the moves (`not_stuck`). The
closures on a main queue leave fewer and fewer others, so the queue drains, and at its end
`present` has been called for the results (`results_follow`), unless the completion of the
opponent's kick was interrupted on that screen.

## Main results

* `Created.view_starting`: what a client sees starting is the game as it was created.
* `finishes_of_run`: a local copy that has both moves and is not lost is finished.
* `not_stuck`: a game on which both clients agree is finished once both have picked.
* `results_follow`: a queue drains in as many steps as it has work for, and the results of a
  decided game are to be presented by then.
-/

open TransitionSystem

namespace RockPaperScissors

/-! ### Closures -/

namespace Delayed

/-- The kick of the opponent's hand, on the client that has lost. -/
def losingKick : Delayed → Bool
  | animateMoves _ => false
  | animateFinalMoves myHand _ => !myHand
  | setWinner _ => false
  | continueToResults => false

/-- The closure presents the results, or leaves the one that does. The local kick is not
counted, since `checkForWinner` has left another way to the results then. -/
def leads : Delayed → Bool
  | continueToResults => true
  | d => d.losingKick

/-- How many closures fire because of this one, itself included. -/
def work : Delayed → ℕ
  | animateMoves _ => 5
  | animateFinalMoves _ _ => 3
  | setWinner _ => 2
  | continueToResults => 1

end Delayed

namespace GameViewController

/-- The results are presented, or are going to be. -/
def Leads (vc : GameViewController) : Prop :=
  vc.results ≠ [] ∨ ∃ d ∈ vc.delayed, d.leads = true

/-- The closures that are still to fire, when no more events reach the screen. -/
def work (vc : GameViewController) : ℕ :=
  (vc.delayed.map Delayed.work).sum

variable {vc vc' : GameViewController} {localUserId : String} {game : Game}
  {writes : List GameWrite}

/-- A screen that leads to the results still does when a closure joins. -/
theorem Leads.later (h : vc.Leads) (closure : Delayed) : (vc.later closure).Leads := by
  rcases h with hresults | ⟨d, hd, hleads⟩
  · exact Or.inl hresults
  · exact Or.inr ⟨d, List.mem_append_left _ hd, hleads⟩

/-- A closure that leads to the results makes its screen lead there. -/
theorem leads_later {closure : Delayed} (h : closure.leads = true) : (vc.later closure).Leads :=
  Or.inr ⟨closure, List.mem_append_right _ (List.mem_singleton.mpr rfl), h⟩

/-- A snapshot does not stop what leads to the results. -/
theorem Leads.receive (h : vc.Leads) : (vc.receive localUserId game).Leads := by
  rw [GameViewController.receive]
  rcases animateMoves_cases { vc with
      buttonsEnabled := game.state = .inprogress
      game := some game } localUserId game with heq | heq <;> rw [heq]
  · exact h
  · have hshown : GameViewController.Leads { vc with
        buttonsEnabled := game.state = .inprogress
        game := some game } := h
    exact hshown.later _

/-- `checkForWinner` keeps a client on its way to the results. -/
theorem Leads.checked (hvc : vc.Leads) (h : vc.Checked localUserId game vc' writes) :
    vc'.Leads := by
  cases h with
  | waiting _ => exact hvc
  | lost _ => exact hvc.later _
  | won _ _ | drawn _ _ => exact leads_later rfl

/-- **A decision leads to the results.** -/
theorem Checked.leads (h : vc.Checked localUserId game vc' writes)
    (hverdict : game.verdict localUserId ≠ .waiting) : vc'.Leads := by
  cases h with
  | waiting hwaiting => exact absurd hwaiting hverdict
  | lost _ | won _ _ | drawn _ _ => exact leads_later rfl

/-- `checkForWinner` leaves the moves of the local copy. -/
theorem Checked.verdict (h : vc.Checked localUserId game vc' writes) {g' : Game}
    (hg' : vc'.game = some g') :
    ∃ g, vc.game = some g ∧ g'.verdict localUserId = g.verdict localUserId := by
  cases h with
  | waiting _ | lost _ => exact ⟨g', hg', rfl⟩
  | won _ hcopy | drawn _ hcopy =>
      obtain rfl := Option.some.inj hg'
      exact ⟨_, hcopy, rfl⟩

/-- **A decision finishes the local copy**, unless it is lost. -/
theorem Checked.finishes (h : vc.Checked localUserId game vc' writes)
    (hverdict : (game.verdict localUserId).finishes = true) {g' : Game}
    (hg' : vc'.game = some g') : g'.state = .finished := by
  cases h with
  | waiting hwaiting => exact absurd hverdict (by simp [hwaiting, Verdict.finishes])
  | lost hlost => exact absurd hverdict (by simp [hlost, Verdict.finishes])
  | won _ _ | drawn _ _ =>
      obtain rfl := Option.some.inj hg'
      rfl

/-- The moves of the local copy after a snapshot are those of the snapshot. -/
theorem Checked.verdict_receive
    (h : (vc.receive localUserId game).Checked localUserId game vc' writes) {g' : Game}
    (hg' : vc'.game = some g') : g'.verdict localUserId = game.verdict localUserId := by
  obtain ⟨g, hg, hsame⟩ := h.verdict hg'
  rw [receive_game] at hg
  obtain rfl := Option.some.inj hg
  exact hsame

end GameViewController

/-! ### Screens -/

namespace Screen

/-- A local copy that has both moves and is not lost is finished. -/
def Finishes (sc : Screen) (localUserId : String) : Prop :=
  ∀ g, sc.controller.game = some g → (g.verdict localUserId).finishes = true →
    g.state = .finished

/-- A client whose local copy has both moves is on its way to the results. -/
def LeadsOn (sc : Screen) (localUserId : String) : Prop :=
  ∀ g, sc.controller.game = some g → g.verdict localUserId ≠ .waiting → sc.controller.Leads

/-- The input does not interrupt the kick of the opponent's hand. -/
def KickCompletes (sc : Screen) : Input → Prop
  | .fire place false => ∀ d ∈ sc.controller.delayed[place]?, d.losingKick = false
  | _ => True

instance (sc : Screen) (i : Input) : Decidable (sc.KickCompletes i) :=
  match i with
  | .fire _ false => inferInstanceAs (Decidable (∀ d ∈ _, _))
  | .fire _ true | .deliver | .pick _ | .exit | .home => inferInstanceAs (Decidable True)

variable {sc sc' : Screen} {localUserId : String} {i : Input} {writes : List GameWrite}
  {game : Game} {vc' : GameViewController} {rest : List Game} {place : ℕ} {closure : Delayed}

/-- After a snapshot, a copy that has both moves and is not lost is finished. -/
theorem Finishes.delivered
    (h : sc.controller.Updated localUserId game vc' writes) :
    Finishes { sc with controller := vc', inbox := rest } localUserId := by
  intro g hg hverdict
  cases h with
  | plain hcheck _ =>
      rw [hcheck.verdict_receive hg] at hverdict
      exact hcheck.finishes hverdict hg
  | walkover hcheck _ _ =>
      obtain ⟨copy, hcopy, rfl⟩ := Option.map_eq_some_iff.mp hg
      have hmoves : (copy.verdict localUserId).finishes = true := hverdict
      rw [hcheck.verdict_receive hcopy] at hmoves
      have hfinished := hcheck.finishes hmoves hcopy
      exact hfinished

/-- **Every input keeps a decided copy finished.** -/
theorem Finishes.handles (hs : sc.Finishes localUserId)
    (h : sc.Handles localUserId i sc' writes) : sc'.Finishes localUserId := by
  cases h with
  | deliver _ hupdate => exact Finishes.delivered hupdate
  | animatedMoves _ hcheck =>
      intro g hg hverdict
      rcases Session.checked_game_cases hcheck with ⟨-, hsame⟩ | ⟨hfinishes, -⟩
      · exact hs g (hsame.symm.trans hg) hverdict
      · exact hcheck.finishes hfinishes hg
  | declaredWinner _ _ =>
      intro g hg _
      obtain rfl := Option.some.inj hg
      rfl
  | interrupted _ | kicked _ | wasKicked _ _ | wasKickedAlone _ _ | continuedToResults _
  | pick _ _ _ _ | pickNothing _ | exit _ _ | exitNothing _ _ | home => exact hs

/-- What leads to the results goes on when another closure fires. -/
theorem leads_takeClosure (h : sc.controller.Leads)
    (hclosure : sc.controller.delayed[place]? = some closure) (hnot : closure.leads = false) :
    (sc.takeClosure place).Leads := by
  rcases h with hresults | ⟨d, hd, hleads⟩
  · exact Or.inl hresults
  · obtain ⟨j, hj⟩ := List.getElem?_of_mem hd
    refine Or.inr ⟨d, List.mem_eraseIdx_iff_getElem?.mpr ⟨j, fun heq => ?_, hj⟩, hleads⟩
    rw [heq] at hj
    obtain rfl := Option.some.inj (hj.symm.trans hclosure)
    exact absurd (hnot.symm.trans hleads) (by simp)

/-- A closure whose animation is interrupted leaves the way to the results, unless it is the
kick of the opponent's hand. -/
theorem LeadsOn.interrupted (hs : sc.LeadsOn localUserId)
    (hC : sc.KickCompletes (.fire place false))
    (h : sc.handle localUserId (.fire place false) = some (sc', writes)) :
    sc'.LeadsOn localUserId := by
  obtain ⟨closure, hclosure, h⟩ := Option.bind_eq_some_iff.mp h
  obtain ⟨⟨vc, ws⟩, hfire, heq⟩ := Option.map_eq_some_iff.mp h
  obtain ⟨rfl, rfl⟩ := Prod.mk.inj heq
  intro g hg hverdict
  cases closure with
  | animateMoves game =>
      obtain ⟨rfl, rfl⟩ := Prod.mk.inj (Option.some.inj hfire)
      exact leads_takeClosure (hs g hg hverdict) hclosure rfl
  | animateFinalMoves myHand game =>
      obtain ⟨rfl, rfl⟩ := Prod.mk.inj (Option.some.inj hfire)
      exact leads_takeClosure (hs g hg hverdict) hclosure (hC _ hclosure)
  | setWinner game =>
      obtain ⟨copy, -, heq⟩ := Option.map_eq_some_iff.mp hfire
      obtain ⟨rfl, rfl⟩ := Prod.mk.inj heq
      exact GameViewController.leads_later rfl
  | continueToResults =>
      obtain ⟨rfl, rfl⟩ := Prod.mk.inj (Option.some.inj hfire)
      exact Or.inl (by simp)

/-- The moves of the local copy after a delivery are those of the snapshot. -/
theorem verdict_delivered (h : sc.controller.Updated localUserId game vc' writes) {g : Game}
    (hg : vc'.game = some g) : g.verdict localUserId = game.verdict localUserId := by
  cases h with
  | plain hcheck _ => exact hcheck.verdict_receive hg
  | walkover hcheck _ _ =>
      obtain ⟨copy, hcopy, rfl⟩ := Option.map_eq_some_iff.mp hg
      have hmoves := hcheck.verdict_receive hcopy
      exact hmoves

/-- A snapshot that is decided leads to the results. -/
theorem LeadsOn.delivered (h : sc.controller.Updated localUserId game vc' writes) :
    LeadsOn { sc with controller := vc', inbox := rest } localUserId := by
  intro g hg hverdict
  rw [verdict_delivered h hg] at hverdict
  cases h with
  | plain hcheck _ => exact hcheck.leads hverdict
  | walkover _ _ _ => exact GameViewController.leads_later rfl

/-- **Every input keeps a decided client on its way to the results**, if it does not
interrupt the kick. -/
theorem LeadsOn.handle (hs : sc.LeadsOn localUserId) (hC : sc.KickCompletes i)
    (h : sc.handle localUserId i = some (sc', writes)) : sc'.LeadsOn localUserId := by
  by_cases hinterrupted : ∃ place, i = .fire place false
  · obtain ⟨place, rfl⟩ := hinterrupted
    exact hs.interrupted hC h
  intro g hg hverdict
  cases handles_of_handle h with
  | deliver _ hupdate => exact LeadsOn.delivered hupdate g hg hverdict
  | interrupted _ => exact absurd ⟨_, rfl⟩ hinterrupted
  | animatedMoves hclosure hcheck =>
      obtain ⟨copy, hcopy, hsame⟩ := hcheck.verdict hg
      rw [hsame] at hverdict
      exact (leads_takeClosure (hs copy hcopy hverdict) hclosure rfl).checked hcheck
  | kicked hclosure =>
      exact (leads_takeClosure (hs g hg hverdict) hclosure rfl).later _
  | wasKicked _ _ => exact GameViewController.leads_later rfl
  | wasKickedAlone _ hnone => exact absurd (hnone.symm.trans hg) (by simp)
  | declaredWinner _ _ => exact GameViewController.leads_later rfl
  | continuedToResults _ => exact Or.inl (by simp)
  | pick _ _ _ _ | pickNothing _ | exit _ _ | exitNothing _ _ | home => exact hs g hg hverdict

/-! ### Draining a queue -/

/-- A closure adds its own work. -/
theorem work_later (vc : GameViewController) (closure : Delayed) :
    (vc.later closure).work = vc.work + closure.work := by
  simp [GameViewController.work, GameViewController.later]

/-- `checkForWinner` leaves at most the kick and the way to the results. -/
theorem work_checked {vc vc' : GameViewController} {game : Game}
    (h : vc.Checked localUserId game vc' writes) : vc'.work ≤ vc.work + 4 := by
  cases h with
  | waiting _ => exact Nat.le_add_right ..
  | lost _ =>
      have hwork := work_later vc (.animateFinalMoves false game)
      rw [Delayed.work] at hwork
      exact hwork.le.trans (Nat.add_le_add_left (by decide) _)
  | @won copy _ _ =>
      have hkick := work_later vc (.animateFinalMoves true game)
      have hfinish : ((vc.animateFinalMoves true game).finishedOn copy).work =
          (vc.animateFinalMoves true game).work + 1 := work_later _ _
      rw [Delayed.work] at hkick
      rw [hfinish]
      exact (congrArg (· + 1) hkick).le
  | @drawn copy _ _ =>
      have hfinish : (vc.finishedOn copy).work = vc.work + 1 := work_later _ _
      rw [hfinish]
      omega

/-- Firing a closure takes its work off the queue. -/
theorem work_takeClosure (h : sc.controller.delayed[place]? = some closure) :
    (sc.takeClosure place).work + closure.work = sc.controller.work := by
  obtain ⟨hlt, rfl⟩ := List.getElem?_eq_some_iff.mp h
  have hperm := (List.getElem_cons_eraseIdx_perm hlt).map Delayed.work
  have hsum := hperm.sum_nat
  rw [List.map_cons, List.sum_cons] at hsum
  simp only [takeClosure, GameViewController.work]
  omega

/-- **A closure that fires leaves less work** than it was. -/
theorem work_fire {finished : Bool}
    (h : sc.handle localUserId (.fire place finished) = some (sc', writes)) :
    sc'.controller.work + 1 ≤ sc.controller.work := by
  cases handles_of_handle h with
  | interrupted hclosure =>
      rename_i closure
      have htake := work_takeClosure hclosure
      have hpos : 1 ≤ closure.work := by cases closure <;> simp [Delayed.work]
      simp only
      omega
  | animatedMoves hclosure hcheck =>
      have htake := work_takeClosure hclosure
      have hchecked := work_checked hcheck
      simp only [Delayed.work] at htake ⊢
      omega
  | @kicked _ game hclosure =>
      have htake := work_takeClosure hclosure
      have hlater : ((sc.takeClosure place).setWinner game).work =
          (sc.takeClosure place).work + 2 := work_later _ _
      simp only [Delayed.work, hlater] at htake ⊢
      omega
  | wasKicked hclosure _ =>
      have htake := work_takeClosure hclosure
      have hlater : (sc.takeClosure place).continueToResults.work =
          (sc.takeClosure place).work + 1 := work_later _ _
      simp only [Delayed.work, hlater] at htake ⊢
      omega
  | wasKickedAlone hclosure _ =>
      have htake := work_takeClosure hclosure
      simp only [Delayed.work] at htake ⊢
      omega
  | @declaredWinner _ _ game copy hclosure _ =>
      have htake := work_takeClosure hclosure
      have hlater : (GameViewController.continueToResults { sc.takeClosure place with
          game := some { copy with
            winner := game.player localUserId
            state := .finished } }).work = (sc.takeClosure place).work + 1 := work_later _ _
      simp only [Delayed.work, hlater] at htake ⊢
      omega
  | continuedToResults hclosure =>
      have htake := work_takeClosure hclosure
      simp only [Delayed.work] at htake
      exact htake.le

/-- The screen after one of its closures has fired, at a place of the queue and with what
its animation completed with. -/
def fireClosure (localUserId : String) (sc : Screen) (c : ℕ × Bool) : Option Screen :=
  (sc.handle localUserId (.fire c.1 c.2)).map Prod.fst

/-- The screen has both moves and is on its way to the results. -/
structure Decided (sc : Screen) (localUserId : String) : Prop where
  copy : ∃ g, sc.controller.game = some g ∧ g.verdict localUserId ≠ .waiting
  leadsOn : sc.LeadsOn localUserId

/-- A decided screen leads to its results. -/
theorem Decided.leads (hs : sc.Decided localUserId) : sc.controller.Leads := by
  obtain ⟨g, hg, hverdict⟩ := hs.copy
  exact hs.leadsOn g hg hverdict

/-- **Every closure that fires takes work away.** -/
theorem work_fireClosure {c : ℕ × Bool} (h : sc.fireClosure localUserId c = some sc') :
    sc'.controller.work + 1 ≤ sc.controller.work := by
  obtain ⟨⟨sc'', writes⟩, hhandle, rfl⟩ := Option.map_eq_some_iff.mp h
  exact work_fire hhandle

/-- A snapshot with both moves decides a screen. -/
theorem Decided.delivered (h : sc.controller.Updated localUserId game vc' writes)
    (hverdict : game.verdict localUserId ≠ .waiting) :
    Decided { sc with controller := vc', inbox := rest } localUserId := by
  obtain ⟨g, hg⟩ := Option.isSome_iff_exists.mp h.game_isSome
  exact ⟨⟨g, hg, verdict_delivered h hg ▸ hverdict⟩, LeadsOn.delivered h⟩

/-- A closure that fires leaves the moves of the local copy. -/
theorem Decided.fireClosure {c : ℕ × Bool} (hs : sc.Decided localUserId)
    (hC : sc.KickCompletes (.fire c.1 c.2)) (h : sc.fireClosure localUserId c = some sc') :
    sc'.Decided localUserId := by
  obtain ⟨place, finished⟩ := c
  obtain ⟨⟨sc'', writes⟩, hhandle, rfl⟩ := Option.map_eq_some_iff.mp h
  refine ⟨?_, hs.leadsOn.handle hC hhandle⟩
  obtain ⟨g, hg, hverdict⟩ := hs.copy
  cases handles_of_handle hhandle with
  | @animatedMoves _ _ vc _ hclosure hcheck =>
      have hsome : (sc.takeClosure place).game.isSome := by simp [takeClosure, hg]
      obtain ⟨g', hg'⟩ := Option.isSome_iff_exists.mp (hcheck.game_isSome hsome)
      obtain ⟨copy, hcopy, hsame⟩ := hcheck.verdict hg'
      obtain rfl := Option.some.inj (hcopy.symm.trans hg)
      exact ⟨g', hg', hsame ▸ hverdict⟩
  | declaredWinner _ hcopy =>
      obtain rfl := Option.some.inj (hcopy.symm.trans hg)
      exact ⟨_, rfl, hverdict⟩
  | interrupted _ | kicked _ | wasKicked _ _ | wasKickedAlone _ _ | continuedToResults _ =>
      exact ⟨g, hg, hverdict⟩

/-- The oldest closure of a screen with a local copy can fire. -/
theorem Decided.fires (hs : sc.Decided localUserId) (h : sc.controller.delayed ≠ []) :
    (sc.fireClosure localUserId (0, true)).isSome := by
  obtain ⟨g, hg, -⟩ := hs.copy
  obtain ⟨closure, rest, hdelayed⟩ := List.exists_cons_of_ne_nil h
  have hsome : (sc.takeClosure 0).game.isSome := by simp [takeClosure, hg]
  have hfires := GameViewController.fire_isSome hsome localUserId true closure
  simpa [Screen.fireClosure, handle, hdelayed, takeClosure] using hfires

end Screen

namespace Session

/-- **The event does not interrupt the kick of the opponent's hand** on the screen at the
place. -/
def KicksComplete (place : ℕ) (s : Session) : Event → Prop
  | .input place' i => place' = place → ∀ sc ∈ s.screens[place]?, sc.KickCompletes i
  | _ => True

instance (place : ℕ) (s : Session) (e : Event) : Decidable (KicksComplete place s e) :=
  match e with
  | .input _ _ => inferInstanceAs (Decidable (_ → ∀ sc ∈ _, _))
  | .commit _ | .completeCreate | .find _ _ | .gameAccepted _ | .snapshot _ _ =>
      inferInstanceAs (Decidable True)

variable {P : Pairing} {s s' t : Session} {e : Event} {p : Player} {g d : Game}
  {es es' : List Event}

/-! ### New screens -/

/-- The creation is the only write that creates. -/
theorem Created.eq_create (hs : s.Created P) {w : GameWrite}
    (hw : w ∈ s.store.log.map Prod.snd ++ s.store.outbox p) (hcreates : w.creates = true) :
    w = .create P.createdGame := by
  rcases hs with hcreating | hstored
  · obtain ⟨ws, hout, hws⟩ := hcreating.acceptor
    rw [hcreating.log, List.map_nil, List.nil_append] at hw
    cases p with
    | acceptor =>
        rw [hout] at hw
        rcases List.mem_cons.mp hw with rfl | hrest
        · rfl
        · exact absurd ((hws w hrest).symm.trans hcreates) (by simp)
    | requester => exact absurd hw (by simp [hcreating.requester])
  · obtain ⟨cws, hlog, hcws⟩ := hstored.log
    rcases List.mem_append.mp hw with hlogged | hout
    · rw [hlog, List.map_cons, List.mem_cons] at hlogged
      rcases hlogged with rfl | hrest
      · rfl
      · obtain ⟨cw, hcw, rfl⟩ := List.mem_map.mp hrest
        exact absurd ((hcws cw hcw).symm.trans hcreates) (by simp)
    · exact absurd ((hstored.waiting p w hout).symm.trans hcreates) (by simp)

/-- **What a client sees starting is the game as it was created.** -/
theorem Created.view_starting (hs : s.Created P) (hstarts : s.StartsOnce) {version : ℕ}
    (hg : s.view p version = some g) (hstate : g.state = .starting) : g = P.createdGame := by
  obtain ⟨ws, last, hconcat, hlast⟩ := exists_last_of_view hg
  have hmem : last ∈ s.store.visible p version := by simp [hconcat]
  obtain ⟨q, hissued⟩ := WriteLog.exists_mem_issuedBy_of_mem_visible hmem
  have hcreates := hstarts.written q last hissued (hlast ▸ hstate)
  have hcreated := hs.eq_create ((WriteLog.visible_sublist version).subset hmem) hcreates
  have htail := hs.visible p version
  rw [hconcat] at htail
  cases ws with
  | nil =>
      rw [Session.view, WriteLog.view_eq_replay_visible, hconcat, hcreated] at hg
      exact (Option.some.inj hg).symm
  | cons first ws =>
      have hnot := htail last (List.mem_append_right ws (List.mem_singleton.mpr rfl))
      exact absurd (hcreates.symm.trans hnot) (by simp)

/-- The games `setGameListener` finds are as they were created. -/
theorem found_of_run (h : Run (Session.step P) (init P) es s) :
    ∀ p, ∀ g ∈ s.found p, g = P.createdGame := by
  refine h.invariant_events (I := fun _ s => ∀ p, ∀ g ∈ s.found p, g = P.createdGame)
    (by simp [init]) ?_
  intro es t e t' hrun ht _ hstep q g hg
  cases step_of_step_eq hstep with
  | commit _ | snapshot _ _ _ | input _ _ => exact ht q g hg
  | completeCreate _ _ =>
      rw [performSegue_found] at hg
      exact ht q g hg
  | @find p version game _ hview hstarting =>
      have hnew : game = P.createdGame :=
        (created_of_run hrun).view_starting (started_of_run hrun) hview hstarting.2
      rcases mem_update hg with hown | hold
      · rcases List.mem_append.mp hown with hold | hlast
        · exact ht p g hold
        · exact (List.mem_singleton.mp hlast).trans hnew
      · exact ht q g hold
  | @gameAccepted p game rest hfound =>
      rw [performSegue_found] at hg
      rcases mem_update hg with hrest | hold
      · exact ht p g (hfound ▸ List.mem_cons_of_mem _ hrest)
      · exact ht q g hold

/-- A game as it was created is not decided. -/
theorem verdict_createdGame (st : GameState) :
    Game.verdict { P.createdGame with state := st } (P.userId p) = .waiting := by
  have hcopy := Pairing.copy_createdGame (P := P)
  have hmoves := Pairing.createdGame_moves (P := P)
  rw [(hcopy.withState st).verdict]
  simp [Verdict.ofMoves, hmoves]

/-- **What holds of new screens and of every input on the screen at a place holds of that
screen**, where a new screen shows the game as it was created. -/
theorem screen_of_run {C : Screen → Input → Prop} {Q : Screen → Prop} {place : ℕ}
    (hnew : ∀ p st, Q ⟨p, .viewDidLoad { P.createdGame with state := st }, 0, []⟩)
    (hreceives : ∀ sc version g, Q sc → Q { sc with seen := version, inbox := sc.inbox ++ [g] })
    (hhandle : ∀ sc i sc' ws, Q sc → C sc i → sc.handle (P.userId sc.owner) i = some (sc', ws) →
      Q sc')
    (h : RunWhere (Session.step P) (fun s e => ∀ i, e = .input place i →
      ∀ sc ∈ s.screens[place]?, C sc i) (init P) es s) :
    ∀ sc, s.screens[place]? = some sc → Q sc := by
  refine h.invariant_events (I := fun _ s => ∀ sc, s.screens[place]? = some sc → Q sc)
    (by simp [init]) ?_
  intro es t e t' hrun ht hC hstep sc hsc
  cases step_of_step_eq hstep with
  | commit _ | find _ _ _ => exact ht sc hsc
  | completeCreate _ _ =>
      rcases getElem?_performSegue hsc with hold | rfl
      · exact ht sc hold
      · exact hnew .acceptor .starting
  | @gameAccepted p game rest hfound =>
      rcases getElem?_performSegue hsc with hold | rfl
      · exact ht sc hold
      · rw [found_of_run hrun.toRun p game (hfound ▸ List.mem_cons_self)]
        exact hnew p .inprogress
  | snapshot hold _ _ =>
      rcases getElem?_set_cases hsc with ⟨rfl, rfl⟩ | ⟨-, hsame⟩
      · exact hreceives _ _ _ (ht _ hold)
      · exact ht sc hsame
  | input hold hhandles =>
      rcases getElem?_set_cases hsc with ⟨rfl, rfl⟩ | ⟨-, hsame⟩
      · exact hhandle _ _ _ _ (ht _ hold) (hC _ rfl _ hold) hhandles
      · exact ht sc hsame

/-- **A local copy that has both moves and is not lost is finished**, in every run. -/
theorem finishes_of_run (h : Run (Session.step P) (init P) es s) :
    ∀ sc ∈ s.screens, sc.Finishes (P.userId sc.owner) := by
  intro sc hsc
  obtain ⟨place, hplace⟩ := List.getElem?_of_mem hsc
  refine screen_of_run (P := P) (C := fun _ _ => True)
    (Q := fun sc => sc.Finishes (P.userId sc.owner)) ?_ ?_ ?_
    (h.mono fun _ _ _ _ _ _ _ => trivial) sc hplace
  · intro p st g hg hverdict
    obtain rfl := Option.some.inj hg
    rw [verdict_createdGame] at hverdict
    exact absurd hverdict (by decide)
  · exact fun sc version g hsc => hsc
  · intro sc i sc' ws hsc _ hhandle
    have hhandles := Screen.handles_of_handle hhandle
    rw [hhandles.owner]
    exact hsc.handles hhandles

/-- A client whose local copy has both moves is on its way to the results, as long as no
kick of the opponent's hand is interrupted on that screen. -/
theorem leadsOn_of_run {place : ℕ}
    (h : RunWhere (Session.step P) (KicksComplete place) (init P) es s) {sc : Screen}
    (hsc : s.screens[place]? = some sc) : sc.LeadsOn (P.userId sc.owner) := by
  refine screen_of_run (P := P) (C := Screen.KickCompletes)
    (Q := fun sc => sc.LeadsOn (P.userId sc.owner)) ?_ ?_ ?_
    (h.mono fun t e hC i he sc hsc => ?_) sc hsc
  · intro p st g hg hverdict
    obtain rfl := Option.some.inj hg
    exact absurd (verdict_createdGame st) hverdict
  · exact fun sc version g hsc => hsc
  · intro sc i sc' ws hsc hC hhandle
    rw [(Screen.handles_of_handle hhandle).owner]
    exact hsc.handle hC hhandle
  · subst he
    exact hC rfl sc hsc

/-! ### At rest -/

/-- Of two clients that have both moves one at least has not lost. -/
theorem exists_finishes (hcopy : P.Copy d) (hmoves : ∀ p, d.moves (P.userId p) ≠ some .idle) :
    ∃ p, (d.verdict (P.userId p)).finishes = true := by
  obtain ⟨m, hm⟩ := hcopy.exists_move .acceptor
  obtain ⟨o, ho⟩ := hcopy.exists_move .requester
  have hmi : m ≠ .idle := fun h => hmoves .acceptor (h ▸ hm)
  have hoi : o ≠ .idle := fun h => hmoves .requester (h ▸ ho)
  by_cases hlt : m < o
  · refine ⟨.requester, ?_⟩
    rw [hcopy.verdict, ho, Player.other, hm, Verdict.ofMoves_some hoi hmi,
      if_neg (Moves.lt_asymm hlt), if_pos hlt]
    rfl
  · refine ⟨.acceptor, ?_⟩
    rw [hcopy.verdict, hm, Player.other, ho, Verdict.ofMoves_some hmi hoi, if_neg hlt]
    split <;> rfl

/-- Each client has a screen that shows the moves and the state of the game. -/
def CaughtUp (P : Pairing) (s : Session) (d : Game) : Prop :=
  ∀ p, ∃ sc ∈ s.screens, sc.owner = p ∧ ∃ g, sc.controller.game = some g ∧
    (∀ q, g.moves (P.userId q) = d.moves (P.userId q)) ∧ g.state = d.state

/-- **A game does not get stuck.** When both clients have caught up with the stored game and
both moves are in it, it is finished. -/
theorem not_stuck (h : Run (Session.step P) (init P) es s) (hd : s.stored = some d)
    (hcaught : s.CaughtUp P d) (hmoves : ∀ p, d.moves (P.userId p) ≠ some .idle) :
    d.state = .finished := by
  have hcopy : P.Copy d := stored_of_holds editClosed_copy (copy_of_run h) hd
  obtain ⟨p, hp⟩ := exists_finishes hcopy hmoves
  obtain ⟨sc, hsc, rfl, g, hg, hgm, hgs⟩ := hcaught p
  have hgcopy : P.Copy g := copy_of_run h g (.screen hsc (.controller (.localCopy hg)))
  rw [← hgs]
  refine finishes_of_run h sc hsc g hg ?_
  rwa [hgcopy.verdict, hgm, hgm, ← hcopy.verdict]

/-! ### Draining a queue -/

/-- **A queue drains, and the results follow.** From a local copy that has both moves, no
more closures fire than the queue has work for, the oldest of those that are left can fire,
and when none is left `present` has been called for the results; unless the kick of the
opponent's hand is interrupted on the screen. -/
theorem results_follow {place : ℕ}
    (h : RunWhere (Session.step P) (KicksComplete place) (init P) es s) {sc sc' : Screen}
    (hsc : s.screens[place]? = some sc) (hg : sc.controller.game = some g)
    (hverdict : g.verdict (P.userId sc.owner) ≠ .waiting) {closures : List (ℕ × Bool)}
    (hfires : RunWhere (Screen.fireClosure (P.userId sc.owner))
      (fun sc c => sc.KickCompletes (.fire c.1 c.2)) sc closures sc') :
    closures.length ≤ sc.controller.work ∧
      (sc'.controller.delayed ≠ [] →
        (sc'.fireClosure (P.userId sc.owner) (0, true)).isSome) ∧
      (sc'.controller.delayed = [] → sc'.controller.results ≠ []) := by
  have hdrains := hfires.length_add_le (I := fun _ => True) (μ := fun sc => sc.controller.work)
    trivial (fun _ _ _ _ _ _ => trivial) fun _ _ _ _ _ hfire => Screen.work_fireClosure hfire
  have hleads : sc'.Decided (P.userId sc.owner) :=
    hfires.invariant (I := fun t => t.Decided (P.userId sc.owner))
      ⟨⟨g, hg, hverdict⟩, leadsOn_of_run h hsc⟩
      fun _ _ _ ht hC hfire => ht.fireClosure hC hfire
  refine ⟨by omega, hleads.fires, fun hempty => ?_⟩
  rcases hleads.leads with hresults | ⟨d, hd, -⟩
  · exact hresults
  · exact absurd hd (by simp [hempty])

/-- The three closures of the acceptor's client in `bothPaper` present the results. -/
theorem results_follow_bothPaper : ∃ s sc sc', Run (Session.step sample) (init sample)
    bothPaper s ∧ s.screens[0]? = some sc ∧ RunWhere (Screen.fireClosure "uid1")
      (fun sc c => sc.KickCompletes (.fire c.1 c.2)) sc [(0, true), (0, true), (0, true)] sc' ∧
        sc'.controller.results ≠ [] := by
  have hdrained : ((execWhere (Session.step sample) (KicksComplete 0) (init sample) bothPaper).bind
      fun s => s.screens[0]?.bind fun sc => (execWhere (Screen.fireClosure "uid1")
        (fun sc c => sc.KickCompletes (.fire c.1 c.2)) sc [(0, true), (0, true), (0, true)]).bind
          fun sc' => if sc.owner = .acceptor ∧
            sc.controller.game.any (fun g => g.verdict "uid1" ≠ .waiting) ∧
              sc'.controller.delayed = [] then some () else none).isSome := by
    decide
  obtain ⟨_, h⟩ := Option.isSome_iff_exists.mp hdrained
  obtain ⟨s, hs, h⟩ := Option.bind_eq_some_iff.mp h
  obtain ⟨sc, hsc, h⟩ := Option.bind_eq_some_iff.mp h
  obtain ⟨sc', hsc', h⟩ := Option.bind_eq_some_iff.mp h
  obtain ⟨howner, hany, hempty⟩ := (Option.ite_none_right_eq_some.mp h).1
  obtain ⟨g, hg, hverdict⟩ := (Option.any_eq_true ..).mp hany
  have huser : sample.userId sc.owner = "uid1" := by rw [howner]; rfl
  have hrun := runWhere_of_execWhere hs
  have hfires := runWhere_of_execWhere hsc'
  have hfollow := results_follow hrun hsc hg (huser ▸ of_decide_eq_true hverdict)
    (huser ▸ hfires)
  exact ⟨s, sc, sc', hrun.toRun, hsc, hfires, hfollow.2.2 hempty⟩

end Session

end RockPaperScissors
