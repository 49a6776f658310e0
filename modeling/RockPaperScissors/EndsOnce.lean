import Mathlib.Algebra.GroupWithZero.Nat
import Mathlib.Data.List.Perm.Basic
import RockPaperScissors.Results

/-!
# A Game Ends Once per Client

Every call of `continueToResults` leaves one closure, which presents one results screen. So
the closures that wait and the results presented, on all screens of a client, count the
calls (`Session.endings`).

The call is reached from five places, and nothing keeps a client from reaching it again:
`removeGameListener` removes the listener of the query, not the one of the document. A won
game always reaches it twice, in the last branch of `checkForWinner` and after the kick, and
so does a finished snapshot on which `checkForWinner` decides (`ends_twice`).

## Main results

* `Screen.endings_handle`, `Step.endings`: what an input adds to the count.
* `ends_once`: a client calls `continueToResults` at most once in exactly the runs in which
  a client that has called it gets no other input that ends the game.
* `ends_twice`: in other runs it calls it again.
-/

open TransitionSystem

namespace RockPaperScissors

section Lists

variable {α : Type*} {l : List α} {i : ℕ} {a b : α}

/-- Removing an entry removes it from a count. -/
theorem countP_eraseIdx (p : α → Bool) (h : l[i]? = some a) :
    (l.eraseIdx i).countP p + (p a).toNat = l.countP p := by
  obtain ⟨hlt, rfl⟩ := List.getElem?_eq_some_iff.mp h
  rw [← (List.getElem_cons_eraseIdx_perm hlt).countP_eq p, List.countP_cons]
  cases p l[i] <;> rfl

/-- A sum changes as much as the replaced entry. -/
theorem sum_map_set {f : α → ℕ} {n : ℕ} (h : l[i]? = some a) (hb : f b = f a + n) :
    ((l.set i b).map f).sum = (l.map f).sum + n := by
  induction l generalizing i with
  | nil => exact absurd h (by simp)
  | cons c l ih =>
      cases i with
      | zero =>
          obtain rfl : c = a := Option.some.inj h
          simp only [List.set_cons_zero, List.map_cons, List.sum_cons, hb]
          omega
      | succ i =>
          have htail := ih (i := i) (by simpa using h)
          simp only [List.set_cons_succ, List.map_cons, List.sum_cons, htail]
          omega

end Lists

/-- Firing the closure over the local copy continues to the results. -/
def Delayed.ends (localUserId : String) (copy : Option Game) (finished : Bool) :
    Delayed → Bool
  | animateMoves game => finished && (game.verdict localUserId).finishes
  | animateFinalMoves myHand _ => finished && !myHand && copy.isSome
  | setWinner _ => true
  | continueToResults => false

namespace GameViewController

/-- How often the screen has continued to the results. -/
def endings (vc : GameViewController) : ℕ :=
  vc.delayed.countP Delayed.presents + vc.results.length

variable {vc vc' : GameViewController} {localUserId : String} {game : Game}
  {writes : List GameWrite}

/-- A closure that joins counts if it presents the results. -/
theorem endings_later (closure : Delayed) :
    (vc.later closure).endings = vc.endings + closure.presents.toNat := by
  simp only [endings, later, List.countP_append, List.countP_singleton]
  cases closure.presents
  · rfl
  · exact Nat.add_right_comm ..

/-- `finishGame` adds an ending. -/
theorem endings_finishedOn (copy : Game) : (vc.finishedOn copy).endings = vc.endings + 1 :=
  endings_later .continueToResults

/-- A snapshot adds none by itself. -/
theorem endings_receive : (vc.receive localUserId game).endings = vc.endings := by
  rw [receive]
  rcases animateMoves_cases { vc with
      buttonsEnabled := game.state = .inprogress
      game := some game } localUserId game with h | h <;> rw [h]
  · rfl
  · exact endings_later (.animateMoves game)

/-- `checkForWinner` continues to the results in its last branch. -/
theorem Checked.endings (h : vc.Checked localUserId game vc' writes) :
    vc'.endings = vc.endings + (game.verdict localUserId).finishes.toNat := by
  cases h with
  | waiting hverdict =>
      rw [hverdict]
      rfl
  | lost hverdict =>
      rw [hverdict]
      exact endings_later (.animateFinalMoves false game)
  | won hverdict _ =>
      rw [hverdict, endings_finishedOn]
      exact congrArg (· + 1) (endings_later (.animateFinalMoves true game))
  | drawn hverdict _ =>
      rw [hverdict]
      exact endings_finishedOn _

/-- `updateGame` continues to the results in `checkForWinner` and by a walkover. -/
theorem Updated.endings (h : vc.Updated localUserId game vc' writes) :
    vc'.endings = vc.endings + (game.verdict localUserId).finishes.toNat +
      (game.walksOver localUserId).toNat := by
  have hchecked : ∀ {vc₁ : GameViewController} {ws : List GameWrite},
      (vc.receive localUserId game).Checked localUserId game vc₁ ws →
      vc₁.endings = vc.endings + (game.verdict localUserId).finishes.toNat := by
    intro vc₁ ws hcheck
    rw [hcheck.endings, endings_receive]
  cases h with
  | plain hcheck hleft =>
      have hwalk : game.walksOver localUserId = false := by
        rw [← Bool.not_eq_true, Session.walksOver_iff_of_checked hcheck]
        rintro ⟨hfin, hnone⟩
        exact absurd hnone (Option.isSome_iff_ne_none.mp (hleft hfin))
      rw [hwalk]
      exact hchecked hcheck
  | walkover hcheck hfin hnone =>
      rw [Session.walksOver_of_checked hcheck hfin hnone, ← hchecked hcheck]
      exact endings_later .continueToResults

end GameViewController

namespace Screen

variable (sc : Screen) (localUserId : String)

/-- The input continues to the results. -/
def ends : Input → Bool
  | .deliver => sc.inbox.head?.any fun game =>
      (game.verdict localUserId).finishes || game.walksOver localUserId
  | .fire place finished => sc.controller.delayed[place]?.any
      fun closure => closure.ends localUserId sc.controller.game finished
  | _ => false

/-- The input continues to the results twice: `checkForWinner` decides on a finished
snapshot. -/
def endsTwice : Input → Bool
  | .deliver => sc.inbox.head?.any fun game =>
      (game.verdict localUserId).finishes && game.walksOver localUserId
  | _ => false

variable {sc localUserId} {sc' : Screen} {i : Input} {writes : List GameWrite}

/-- An input that ends a screen twice ends it. -/
theorem ends_of_endsTwice (h : sc.endsTwice localUserId i = true) :
    sc.ends localUserId i = true := by
  cases i with
  | deliver =>
      obtain ⟨game, hgame, hboth⟩ := (Option.any_eq_true ..).mp h
      exact (Option.any_eq_true ..).mpr ⟨game, hgame, by simp_all⟩
  | fire _ _ | pick _ | exit | home => exact absurd h (by simp [endsTwice])

/-- Firing a closure takes it off the queue. -/
theorem endings_takeClosure {place : ℕ} {closure : Delayed}
    (h : sc.controller.delayed[place]? = some closure) :
    (sc.takeClosure place).endings + closure.presents.toNat = sc.controller.endings := by
  have hcount := countP_eraseIdx Delayed.presents h
  simp only [takeClosure, GameViewController.endings]
  omega

/-- What the completion of the final animation adds. -/
theorem endings_finalMoves {place : ℕ} {myHand : Bool} {game : Game}
    {vc : GameViewController}
    (hclosure : sc.controller.delayed[place]? = some (.animateFinalMoves myHand game))
    (h : (sc.takeClosure place).fire localUserId true (.animateFinalMoves myHand game) =
      some (vc, writes)) :
    vc.endings = sc.controller.endings + (!myHand && sc.controller.game.isSome).toNat := by
  have htake : (sc.takeClosure place).endings = sc.controller.endings :=
    endings_takeClosure hclosure
  cases myHand with
  | true =>
      obtain ⟨rfl, rfl⟩ := Prod.mk.inj (Option.some.inj h)
      rw [← htake]
      exact GameViewController.endings_later (.setWinner game)
  | false =>
      cases hgame : sc.controller.game with
      | none =>
          have heq : some (sc.takeClosure place, []) = some (vc, writes) := by
            simpa [GameViewController.fire, takeClosure, hgame] using h
          obtain ⟨rfl, rfl⟩ := Prod.mk.inj (Option.some.inj heq)
          exact htake
      | some copy =>
          have heq : some ((sc.takeClosure place).continueToResults, []) =
              some (vc, writes) := by
            simpa [GameViewController.fire, takeClosure, hgame] using h
          obtain ⟨rfl, rfl⟩ := Prod.mk.inj (Option.some.inj heq)
          rw [← htake]
          exact GameViewController.endings_later .continueToResults

/-- **What a closure adds when it fires.** -/
theorem endings_fire {place : ℕ} {finished : Bool} {closure : Delayed}
    {vc : GameViewController} (hclosure : sc.controller.delayed[place]? = some closure)
    (h : (sc.takeClosure place).fire localUserId finished closure = some (vc, writes)) :
    vc.endings = sc.controller.endings +
      (closure.ends localUserId sc.controller.game finished).toNat := by
  have htake := endings_takeClosure hclosure
  cases closure with
  | animateMoves game =>
      cases finished with
      | true =>
          rw [← htake]
          exact (GameViewController.checked_of_checkForWinner h).endings
      | false =>
          obtain ⟨rfl, rfl⟩ := Prod.mk.inj (Option.some.inj h)
          exact htake
  | animateFinalMoves myHand game =>
      cases finished with
      | true => exact endings_finalMoves hclosure h
      | false =>
          obtain ⟨rfl, rfl⟩ := Prod.mk.inj (Option.some.inj h)
          exact htake
  | setWinner game =>
      obtain ⟨copy, hcopy, heq⟩ := Option.map_eq_some_iff.mp h
      obtain ⟨rfl, rfl⟩ := Prod.mk.inj heq
      rw [← htake]
      exact GameViewController.endings_later .continueToResults
  | continueToResults =>
      obtain ⟨rfl, rfl⟩ := Prod.mk.inj (Option.some.inj h)
      rw [← htake, GameViewController.endings, List.length_append, ← Nat.add_assoc]
      rfl

/-- **What an input adds**: a call when it ends the game, and another one when it ends it
twice. -/
theorem endings_handle (h : sc.handle localUserId i = some (sc', writes)) :
    sc'.controller.endings = sc.controller.endings + (sc.ends localUserId i).toNat +
      (sc.endsTwice localUserId i).toNat := by
  cases i with
  | deliver =>
      cases handles_of_deliver h with
      | @deliver game rest vc _ hinbox hupdate =>
          have hor : ∀ a b : Bool, (a || b).toNat + (a && b).toNat = a.toNat + b.toNat := by
            decide
          simp only [ends, endsTwice, hinbox, List.head?_cons, Option.any_some]
          rw [hupdate.endings, Nat.add_assoc, Nat.add_assoc, hor]
  | fire place finished =>
      obtain ⟨closure, hclosure, h⟩ := Option.bind_eq_some_iff.mp h
      obtain ⟨⟨vc, ws⟩, hfire, heq⟩ := Option.map_eq_some_iff.mp h
      obtain ⟨rfl, rfl⟩ := Prod.mk.inj heq
      simp only [ends, endsTwice, hclosure, Option.any_some]
      exact endings_fire hclosure hfire
  | pick move =>
      cases handles_of_pick h with
      | pick _ _ _ _ | pickNothing _ => rfl
  | exit =>
      cases handles_of_exit h with
      | exit _ _ | exitNothing _ _ => rfl
  | home =>
      cases handles_of_handle h with
      | home => rfl

end Screen

namespace Session

variable (P : Pairing) (s : Session)

/-- How often the client of `p` has continued to the results. -/
def endings (p : Player) : ℕ :=
  (s.screens.map fun sc => if sc.owner = p then sc.controller.endings else 0).sum

/-- How often the event makes the client of `p` continue to the results. -/
def endingsOf (p : Player) : Event → ℕ
  | .input place i => s.screens[place]?.elim 0 fun sc =>
      if sc.owner = p then (sc.ends (P.userId sc.owner) i).toNat +
        (sc.endsTwice (P.userId sc.owner) i).toNat
      else 0
  | _ => 0

/-- **The event ends the game at most once**: no decision on a finished snapshot, and no
further end on a client that has continued to the results. -/
def EndsOnce : Event → Prop
  | .input place i => ∀ sc ∈ s.screens[place]?,
      (sc.ends (P.userId sc.owner) i = true → s.endings sc.owner = 0) ∧
        sc.endsTwice (P.userId sc.owner) i = false
  | _ => True

instance (e : Event) : Decidable (s.EndsOnce P e) :=
  match e with
  | .input _ _ => inferInstanceAs (Decidable (∀ sc ∈ _, _))
  | .commit _ | .completeCreate | .find _ _ | .gameAccepted _ | .snapshot _ _ =>
      inferInstanceAs (Decidable True)

variable {P s} {s' : Session} {e : Event} {es : List Event} {p : Player}

/-- A new screen adds none. -/
theorem endings_performSegue {q : Player} {game : Game} :
    (s.performSegue q game).endings p = s.endings p := by
  unfold performSegue
  split
  · rfl
  · simp [endings, GameViewController.endings, GameViewController.viewDidLoad]

/-- The calls after an update of one screen. -/
theorem endings_set {place n : ℕ} {sc sc' : Screen} {store : WriteLog Player GameWrite}
    (hsc : s.screens[place]? = some sc) (howner : sc'.owner = sc.owner)
    (hn : sc'.controller.endings = sc.controller.endings + n) :
    endings { s with store := store, screens := s.screens.set place sc' } p =
      s.endings p + if sc.owner = p then n else 0 := by
  refine sum_map_set hsc ?_
  rw [howner]
  split
  · exact hn
  · rfl

/-- **What a step adds to the calls of a client.** -/
theorem endings_step (h : s.step P e = some s') :
    s'.endings p = s.endings p + s.endingsOf P p e := by
  cases step_of_step_eq h with
  | commit _ | find _ _ _ => rfl
  | completeCreate _ _ | gameAccepted _ => exact endings_performSegue
  | @snapshot place version sc game hsc _ _ =>
      have hsame : endings { s with
          screens := s.screens.set place
            { sc with seen := version, inbox := sc.inbox ++ [game] } } p =
          s.endings p + if sc.owner = p then 0 else 0 := endings_set hsc rfl rfl
      rwa [ite_self] at hsame
  | input hsc hhandle =>
      rw [endings_set hsc (Screen.handles_of_handle hhandle).owner
        ((Screen.endings_handle hhandle).trans (Nat.add_assoc ..))]
      simp [endingsOf, hsc]

/-- **The event ends the game at most once exactly when the calls stay at most one.** -/
theorem endsOnce_iff (hs : ∀ p, s.endings p ≤ 1) :
    s.EndsOnce P e ↔ ∀ p, s.endings p + s.endingsOf P p e ≤ 1 := by
  cases e with
  | input place i =>
      cases hsc : s.screens[place]? with
      | none => simpa [EndsOnce, endingsOf, hsc] using hs
      | some sc =>
          have hself := hs sc.owner
          have htwice : sc.endsTwice (P.userId sc.owner) i = true →
              sc.ends (P.userId sc.owner) i = true := sc.ends_of_endsTwice
          simp only [EndsOnce, endingsOf, hsc, Option.mem_some_iff, forall_eq', Option.elim_some]
          constructor
          · rintro ⟨hfirst, honce⟩ p
            by_cases hp : sc.owner = p
            · subst hp
              rw [if_pos rfl, honce]
              cases hends : sc.ends (P.userId sc.owner) i with
              | false => exact hself
              | true => simp [hfirst hends]
            · rw [if_neg hp]
              exact hs p
          · intro hall
            have hcount := hall sc.owner
            rw [if_pos rfl] at hcount
            cases hends : sc.ends (P.userId sc.owner) i with
            | false =>
                refine ⟨by simp, ?_⟩
                rw [← Bool.not_eq_true]
                intro h2
                exact absurd (hends.symm.trans (htwice h2)) (by simp)
            | true =>
                rw [hends, Bool.toNat_true] at hcount
                have hone : (sc.endsTwice (P.userId sc.owner) i).toNat = 0 := by omega
                exact ⟨fun _ => by omega, by simpa using hone⟩
  | commit _ | completeCreate | find _ _ | gameAccepted _ | snapshot _ _ =>
      exact iff_of_true trivial hs

/-- **A game ends once per client** in exactly the runs whose events end it at most once. -/
theorem ends_once (h : Run (Session.step P) (init P) es s) :
    (∀ p, s.endings p ≤ 1) ↔ RunWhere (Session.step P) (EndsOnce P) (init P) es s := by
  constructor
  · refine h.invariant_events (I := fun es s => (∀ p, s.endings p ≤ 1) →
      RunWhere (Session.step P) (EndsOnce P) (init P) es s) (fun _ => RunWhere.nil) ?_
    intro es t e t' _ ht _ hstep hcount
    have hcount' : ∀ p, t.endings p + t.endingsOf P p e ≤ 1 :=
      fun p => endings_step hstep ▸ hcount p
    have hbefore : ∀ p, t.endings p ≤ 1 :=
      fun p => (Nat.le_add_right _ _).trans (hcount' p)
    exact RunWhere.snoc (ht hbefore) ((endsOnce_iff hbefore).mpr hcount') hstep
  · intro hwhere
    refine hwhere.invariant (I := fun s => ∀ p, s.endings p ≤ 1)
      (by simp [endings, init]) fun t e t' ht hC hstep p => ?_
    rw [endings_step hstep]
    exact (endsOnce_iff ht).mp hC p

/-- The acceptor exits, and the requester's client presents its walkover. -/
def exiting : List Event :=
  opening ++ [.input 0 .exit, .commit .acceptor, .snapshot 1 3, .input 1 .deliver,
    .input 1 (.fire 0 true)]

/-- The walkover of `exiting` ends the game once on the requester's client, and not at all
on the acceptor's. -/
theorem ends_once_exiting : ∃ s, Run (Session.step sample) (init sample) exiting s ∧
    s.endings .requester = 1 ∧ s.endings .acceptor = 0 ∧
      RunWhere (Session.step sample) (EndsOnce sample) (init sample) exiting s := by
  have hrun : Run (Session.step sample) (init sample) exiting
      ((exec (Session.step sample) (init sample) exiting).get (by decide)) := runWhere_get _
  refine ⟨_, hrun, by decide, by decide, (ends_once hrun).mp fun p => ?_⟩
  cases p <;> decide

/-- Rock against scissors: the requester's client wins, finishes the game and kicks. -/
def winning : List Event :=
  opening ++ [.input 1 (.pick .rock), .commit .requester, .snapshot 0 3, .input 0 .deliver,
    .input 0 (.pick .scissors), .commit .acceptor, .snapshot 1 4, .input 1 .deliver,
    .input 1 (.fire 1 true), .input 1 (.fire 2 true)]

/-- **A won game ends twice** on the client of the winner. -/
theorem ends_twice : ¬ ∀ (P : Pairing) (es : List Event) (s : Session),
    Run (Session.step P) (init P) es s → ∀ p, s.endings p ≤ 1 := by
  intro h
  have hrun : Run (Session.step sample) (init sample) winning
      ((exec (Session.step sample) (init sample) winning).get (by decide)) := runWhere_get _
  exact absurd (h sample _ _ hrun .requester) (by decide)

end Session

end RockPaperScissors
