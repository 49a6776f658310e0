import RockPaperScissors.Writes

/-!
# Move Commitment

`pickedMove` disables the four move buttons, and nothing else keeps a player from
picking again: every snapshot sets them by the state of the game alone, the local echo
of the pick included, and so does every new screen. A player whose copy already shows
both moves can change their own (`pick_changed`).

A player picks at most once as long as the **buttons stay off**: no snapshot of a game
in progress is delivered to the screen of a client that has picked, and such a client
does not enter the game again. `Session.OneScreen` holds without any condition: a client
has at most one screen that it has not dismissed.

## Main results

* `oneScreen_of_run`: one screen for each client, in every run.
* `pick_once`: at most one pick of each client, in every run in which the buttons stay
  off after a pick.
* `pick_changed`: without the condition there are two.
-/

open TransitionSystem

namespace RockPaperScissors

namespace Session

variable (P : Pairing) (s : Session)

/-- Two screens of one client that have not been dismissed are one. -/
def OneScreen : Prop :=
  ∀ (i j : ℕ) (a b : Screen), s.screens[i]? = some a → s.screens[j]? = some b → a.owner = b.owner →
    a.controller.dismissed = false → b.controller.dismissed = false → i = j

/-- **The event does not enable the buttons of a client that has picked.** -/
def ButtonsStayOff : Event → Prop
  | .gameAccepted p => s.presenting p = true ∨ s.issuedPicks P p = []
  | .input place .deliver => ∀ sc ∈ s.screens[place]?, ∀ g ∈ sc.inbox.head?,
      g.state = .inprogress → sc.controller.dismissed = false → s.issuedPicks P sc.owner = []
  | _ => True

instance (e : Event) : Decidable (s.ButtonsStayOff P e) :=
  match e with
  | .gameAccepted _ => inferInstanceAs (Decidable (_ ∨ _))
  | .input _ .deliver => inferInstanceAs (Decidable (∀ sc ∈ _, _))
  | .input _ (.fire _ _) | .input _ (.pick _) | .input _ .exit | .input _ .home
  | .commit _ | .completeCreate | .find _ _ | .snapshot _ _ =>
      inferInstanceAs (Decidable True)

/-- The invariant: a client that has picked has picked once, and its buttons are off. -/
structure Committed : Prop where
  once : ∀ p, (s.issuedPicks P p).length ≤ 1
  off : ∀ sc ∈ s.screens, sc.controller.dismissed = false →
    s.issuedPicks P sc.owner ≠ [] → sc.controller.buttonsEnabled = false

variable {P s} {s' : Session} {e : Event} {p : Player}

/-! ### One screen -/

/-- A new screen comes up only where the client has none up. -/
theorem OneScreen.performSegue {game : Game} (hs : s.OneScreen) :
    (s.performSegue p game).OneScreen := by
  unfold Session.performSegue
  split
  · exact hs
  · next hpresenting =>
      have hnone : ∀ sc ∈ s.screens, sc.owner = p → sc.controller.dismissed = true := by
        intro sc hsc howner
        by_contra hup
        refine hpresenting (List.any_eq_true.mpr ⟨sc, hsc, ?_⟩)
        simpa [howner] using hup
      have hnew : ∀ (i : ℕ) (a : Screen),
          (s.screens ++ [⟨p, .viewDidLoad game, 0, []⟩])[i]? = some a →
          a.controller.dismissed = false →
          (a.owner = p ∧ i = s.screens.length) ∨ (a.owner ≠ p ∧ s.screens[i]? = some a) := by
        intro i a ha hup
        rcases getElem?_concat_cases ha with hold | ⟨hi, rfl⟩
        · refine Or.inr ⟨fun howner => ?_, hold⟩
          rw [hnone a (List.mem_of_getElem? hold) howner] at hup
          exact absurd hup (by simp)
        · exact Or.inl ⟨rfl, hi⟩
      intro i j a b ha hb howner hup hup'
      rcases hnew i a ha hup with ⟨hp, hi⟩ | ⟨hp, hi⟩
      · rcases hnew j b hb hup' with ⟨-, hj⟩ | ⟨hq, -⟩
        · rw [hi, hj]
        · exact absurd (howner.symm.trans hp) hq
      · rcases hnew j b hb hup' with ⟨hq, -⟩ | ⟨-, hj⟩
        · exact absurd (howner.trans hq) hp
        · exact hs i j a b hi hj howner hup hup'

/-- A screen that changes comes up no more than before. -/
theorem OneScreen.set {place : ℕ} {sc sc' : Screen} (hs : s.OneScreen)
    (hsc : s.screens[place]? = some sc) (howner : sc'.owner = sc.owner)
    (hup : sc'.controller.dismissed = false → sc.controller.dismissed = false) :
    OneScreen { s with screens := s.screens.set place sc' } := by
  have hold : ∀ (i : ℕ) (a : Screen), (s.screens.set place sc')[i]? = some a →
      a.controller.dismissed = false →
      ∃ a', s.screens[i]? = some a' ∧ a'.owner = a.owner ∧
        a'.controller.dismissed = false := by
    intro i a ha hdismissed
    rcases getElem?_set_cases ha with ⟨rfl, rfl⟩ | ⟨-, ha⟩
    · exact ⟨sc, hsc, howner.symm, hup hdismissed⟩
    · exact ⟨a, ha, rfl, hdismissed⟩
  intro i j a b ha hb hab hdismissed hdismissed'
  obtain ⟨a', ha', hown, hdis⟩ := hold i a ha hdismissed
  obtain ⟨b', hb', hown', hdis'⟩ := hold j b hb hdismissed'
  exact hs i j a' b' ha' hb' (by rw [hown, hown', hab]) hdis hdis'

/-- Every step leaves a client with one screen up. -/
theorem OneScreen.step (hs : s.OneScreen) (h : Step P s e s') : s'.OneScreen := by
  cases h with
  | commit _ | find _ _ _ => exact hs
  | completeCreate _ _ => exact OneScreen.performSegue hs
  | gameAccepted _ => exact OneScreen.performSegue hs
  | snapshot hsc _ _ => exact OneScreen.set hs hsc rfl fun h => h
  | input hsc hhandle =>
      have hhandles := Screen.handles_of_handle hhandle
      exact OneScreen.set (s := { s with store := _ }) hs hsc hhandles.owner hhandles.up

/-- **A client has at most one screen that it has not dismissed.** -/
theorem oneScreen_of_run {es : List Event} (h : Run (Session.step P) (init P) es s) :
    s.OneScreen := by
  refine h.invariant (I := OneScreen) ?_ fun t e t' ht _ hstep =>
    ht.step (step_of_step_eq hstep)
  intro i j a b ha
  exact absurd ha (by simp [init])

/-! ### One pick -/

/-- Nobody has picked at first. -/
theorem committed_init : (init P).Committed P where
  once := by
    intro p
    cases p <;> exact Nat.zero_le 1
  off := by
    intro sc hsc
    exact absurd hsc (by simp [init])

/-- A screen that can be tapped after a step could be tapped before it, unless its client
has not picked. -/
theorem Step.tappable (h : Step P s e s') (hC : s.ButtonsStayOff P e) {b : Screen}
    (hb : b ∈ s'.screens) (hup : b.controller.dismissed = false)
    (henabled : b.controller.buttonsEnabled = true) :
    (∃ a ∈ s.screens, a.owner = b.owner ∧ a.controller.dismissed = false ∧
      a.controller.buttonsEnabled = true) ∨ s.issuedPicks P b.owner = [] := by
  cases h with
  | commit _ | find _ _ _ => exact Or.inl ⟨b, hb, rfl, hup, henabled⟩
  | completeCreate _ _ =>
      rcases mem_performSegue hb with hold | ⟨-, rfl⟩
      · exact Or.inl ⟨b, hold, rfl, hup, henabled⟩
      · exact absurd henabled (by simp [GameViewController.viewDidLoad])
  | gameAccepted _ =>
      rcases mem_performSegue hb with hold | ⟨hpresenting, rfl⟩
      · exact Or.inl ⟨b, hold, rfl, hup, henabled⟩
      · rcases hC with hpres | hnone
        · exact absurd (hpresenting.symm.trans hpres) (by simp)
        · exact Or.inr hnone
  | snapshot hsc _ _ =>
      rcases List.mem_or_eq_of_mem_set hb with hold | rfl
      · exact Or.inl ⟨b, hold, rfl, hup, henabled⟩
      · exact Or.inl ⟨_, List.mem_of_getElem? hsc, rfl, hup, henabled⟩
  | @input place i sc sc' ws hsc hhandle =>
      rcases List.mem_or_eq_of_mem_set hb with hold | rfl
      · exact Or.inl ⟨b, hold, rfl, hup, henabled⟩
      · have hhandles := Screen.handles_of_handle hhandle
        rw [hhandles.owner]
        rcases hhandles.buttonsEnabled henabled with henabled | ⟨rfl, g, rest, hinbox, hg⟩
        · exact Or.inl ⟨sc, List.mem_of_getElem? hsc, rfl, hhandles.up hup, henabled⟩
        · exact Or.inr (hC sc hsc g (by rw [hinbox]; rfl) hg (hhandles.up hup))

/-- A tap on a move button turns the buttons of its screen off, when it picks. -/
theorem Step.pick_screens {place : ℕ} {move : Moves} {sc : Screen}
    (h : Step P s (.input place (.pick move)) s') (hsc : s.screens[place]? = some sc)
    (hgrows : s'.issuedPicks P sc.owner ≠ s.issuedPicks P sc.owner) : s'.screens =
      s.screens.set place { sc with controller := sc.controller.shouldEnableButtons false } := by
  cases h with
  | input hsc' hhandle =>
      obtain rfl := Option.some.inj (hsc'.symm.trans hsc)
      cases Screen.handles_of_handle hhandle with
      | pick _ _ _ _ => rfl
      | pickNothing _ =>
          refine absurd ?_ hgrows
          simp [Session.issuedPicks]

/-- **A step that leaves the buttons off keeps the invariant.** A pick is the first of its
client, because the screen it was tapped on could be tapped. -/
theorem Committed.step (hs : s.Committed P) (hone : s.OneScreen)
    (hC : s.ButtonsStayOff P e) (h : Step P s e s') : s'.Committed P := by
  have hfirst : ∀ a ∈ s.screens, a.controller.dismissed = false →
      a.controller.buttonsEnabled = true → s.issuedPicks P a.owner = [] := by
    intro a ha hup henabled
    by_contra hpicked
    exact absurd (henabled.symm.trans (hs.off a ha hup hpicked)) (by simp)
  rcases h.issuedPicks with hsame |
    ⟨place, move, sc, rfl, hsc, hmove, henabled, hup, hself, hother⟩
  · refine ⟨fun q => by rw [hsame]; exact hs.once q, fun b hb hup hpicked => ?_⟩
    rw [hsame] at hpicked
    by_contra henabled
    rcases h.tappable hC hb hup (by simpa using henabled) with ⟨a, ha, howner, haup, hae⟩ | hnone
    · exact hpicked (howner ▸ hfirst a ha haup hae)
    · exact hpicked hnone
  · have hnone := hfirst sc (List.mem_of_getElem? hsc) hup henabled
    have hscreens := h.pick_screens hsc (by simp [hself])
    refine ⟨fun q => ?_, fun b hb hbup hpicked => ?_⟩
    · by_cases hq : q = sc.owner
      · rw [hq, hself, hnone]
        exact le_refl 1
      · rw [hother q hq]
        exact hs.once q
    · obtain ⟨j, hj⟩ := List.mem_iff_getElem?.mp hb
      rw [hscreens] at hj
      rcases getElem?_set_cases hj with ⟨-, rfl⟩ | ⟨hne, hj⟩
      · rfl
      · by_cases howner : b.owner = sc.owner
        · exact absurd (hone j place b sc hj hsc howner hbup hup) hne
        · rw [hother _ howner] at hpicked
          exact hs.off b (List.mem_of_getElem? hj) hbup hpicked

/-- **A player picks once.** In every run in which the buttons of a client that has picked
stay off, each client issues at most one pick. -/
theorem pick_once {es : List Event}
    (h : RunWhere (Session.step P) (ButtonsStayOff P) (init P) es s) (p : Player) :
    (s.issuedPicks P p).length ≤ 1 := by
  have hcommitted : s.Committed P :=
    h.invariant_events (I := fun _ s => s.Committed P) committed_init
      fun es t e t' hrun ht hC hstep =>
        ht.step (oneScreen_of_run hrun.toRun) hC (step_of_step_eq hstep)
  exact hcommitted.once p

/-- The requester picks, and the pick is applied. -/
theorem pick_once_rock : ∃ s, Run (Session.step sample) (init sample)
    (opening ++ [.input 1 (.pick .rock), .commit .requester]) s ∧
      (s.issuedPicks sample .requester).length ≤ 1 := by
  have hrun : RunWhere (Session.step sample) (ButtonsStayOff sample) (init sample)
      (opening ++ [.input 1 (.pick .rock), .commit .requester])
      ((execWhere (Session.step sample) (ButtonsStayOff sample) (init sample)
        (opening ++ [.input 1 (.pick .rock), .commit .requester])).get (by decide)) :=
    runWhere_get _
  exact ⟨_, hrun.toRun, pick_once hrun .requester⟩

/-- The acceptor picks scissors, the requester sees it and picks paper, and the echo of
that enables the buttons for a rock. -/
def changeOfMind : List Event :=
  opening ++ [.input 0 (.pick .scissors), .commit .acceptor, .snapshot 1 3,
    .input 1 .deliver, .input 1 (.pick .paper), .snapshot 1 3, .input 1 .deliver,
    .input 1 (.pick .rock)]

/-- **A pick is changed**, on a copy that shows both moves. -/
theorem pick_changed : ¬ ∀ (P : Pairing) (es : List Event) (s : Session),
    Run (Session.step P) (init P) es s → ∀ p, (s.issuedPicks P p).length ≤ 1 := by
  intro h
  have hrun : Run (Session.step sample) (init sample) changeOfMind
      ((exec (Session.step sample) (init sample) changeOfMind).get (by decide)) :=
    runWhere_get _
  exact absurd (h sample changeOfMind _ hrun .requester) (by decide)

end Session

end RockPaperScissors
