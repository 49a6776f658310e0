import Mathlib.Data.List.Basic
import RockPaperScissors.GameEncoding
import RockPaperScissors.LocalGames
import RockPaperScissors.WinnerOnce
import RockPaperScissors.WrittenDecision

/-!
# What a Game Screen Shows

The labels, the hands and the selected buttons of `GameViewController`, over the runs of a
session. `animateMoves` hides both hands when nobody has to pick any more, and a closure on
the main queue shows them again; meanwhile each hand gets the image of its move by the
completion of `animateHandTo`, in any order and unless the animation was interrupted. What a
screen shows never changes what it does, so a board follows the screen it belongs to.

The closure of `animateMoves` also starts the animation whose completion is an input of the
session; the two are not ordered here.

The kick of `animateFinalMoves` moves the images and shows no other, and the blood under it is
left out; so is the layout for smaller devices.

## Main results

* `Boards.no_peeking`: a screen shows a move of the opponent only when its own client has
  picked, and shows only moves that were picked.
* `Boards.hands_mirror`: the hands two screens show of a player are of the same move.
* `Boards.hands_tell_winner`: the stored winner is the player whose hand beats the other.
* `Boards.hands_come_back`: hands that are hidden are going to be shown again.
-/

open TransitionSystem

namespace RockPaperScissors

namespace Moves

/-- Where the hands are hidden. -/
def maximumY : ℤ := -500

/-- Where the hands are fully shown. -/
def minimumY (isOpponent : Bool) : ℤ := if isOpponent then -90 else -30

/-- `imageName(isOpponent:)`. -/
def imageName (isOpponent : Bool) : Moves → String
  | idle => if isOpponent then "steady" else "steady_bottom"
  | rock => if isOpponent then "rock_top" else "rock_bottom"
  | paper => if isOpponent then "paper_top" else "paper_bot"
  | scissors => if isOpponent then "scissors_top" else "scissors_bot"

/-- **The image of a hand tells the move.** -/
theorem imageName_injective (isOpponent : Bool) : Function.Injective (imageName isOpponent) := by
  intro m m'
  cases isOpponent <;> cases m <;> cases m' <;> decide

end Moves

/-- The completion of an `animateHandTo` that has not run. -/
structure HandAnimation where
  move : Moves
  isMyHand : Bool
  deriving DecidableEq, Repr

/-- What the game screen shows. -/
structure Board where
  lblGameStatus : Option String
  lblFight : String
  myHandImage : String
  opponentHandImage : String
  /-- The constant of `myHandButtomConstraint`. -/
  myHandButtom : ℤ
  /-- The constant of `opponentTopConstraint`. -/
  opponentTop : ℤ
  /-- `isSelected` of the button of a move. -/
  selected : Moves → Bool
  animations : List HandAnimation
  /-- How many closures of `animateMoves` wait on the main queue. -/
  returning : ℕ

namespace Board

/-- `viewDidLoad`. The storyboard has the hands fully shown with the images of `.idle`. -/
def viewDidLoad (game : Option Game) : Board where
  lblGameStatus := game.map fun game => game.state.rawValue
  lblFight := "FIGHT"
  myHandImage := Moves.idle.imageName false
  opponentHandImage := Moves.idle.imageName true
  myHandButtom := Moves.minimumY false
  opponentTop := Moves.minimumY true
  selected := fun _ => false
  animations := []
  returning := 0

variable (b : Board)

/-- The hand of a move that has been picked starts to come in. -/
def animateHandTo (move : Option Moves) (isMyHand : Bool) : Board :=
  match move with
  | none => b
  | some move =>
      if move = .idle then b
      else if isMyHand then
        { b with
          myHandButtom := Moves.maximumY
          animations := b.animations ++ [⟨move, isMyHand⟩] }
      else
        { b with
          opponentTop := Moves.maximumY
          animations := b.animations ++ [⟨move, isMyHand⟩] }

/-- `animateMoves(game:)`. -/
def animateMoves (localUserId : String) (game : Game) : Board :=
  match game.opponentUserId localUserId with
  | none => b
  | some opponentUserId =>
      let myMove := game.moves localUserId
      let otherMove := game.moves opponentUserId
      if myMove ≠ some .idle ∧ otherMove ≠ some .idle then
        let b := (b.animateHandTo myMove true).animateHandTo otherMove false
        { b with returning := b.returning + 1 }
      else b

/-- `updateGame(updatedGame:)`. -/
def updateGame (localUserId : String) (updatedGame : Game) : Board :=
  { b with lblGameStatus := some updatedGame.state.rawValue }.animateMoves localUserId updatedGame

/-- The closure of `animateMoves` takes both hands back on the board. -/
def handsBack : Board :=
  { b with
    myHandButtom := Moves.minimumY false
    opponentTop := Moves.minimumY true
    returning := b.returning - 1 }

/-- `onRock`, `onPaper`, `onScissors` and `selsectButtonForMove`, and what follows the pick. -/
def select (move : Moves) : Board :=
  { b with selected := Function.update b.selected move true, lblFight := "" }

/-- The completion of `animateHandTo` at a place. -/
def handAnimated (k : ℕ) (animation : HandAnimation) (finished : Bool) : Board :=
  let b := { b with animations := b.animations.eraseIdx k }
  if finished then
    if animation.isMyHand then
      { b with myHandImage := animation.move.imageName (!animation.isMyHand) }
    else { b with opponentHandImage := animation.move.imageName true }
  else b

/-- What an input on the screen does to the board. -/
def input (sc : Screen) (localUserId : String) : Input → Board
  | .deliver =>
      match sc.inbox with
      | [] => b
      | game :: _ => b.updateGame localUserId game
  | .pick move => b.select move
  | .fire _ _ => b
  | .exit => b
  | .home => b

end Board

/-- A session with the boards of its screens. -/
structure Boards where
  session : Session
  boards : List Board

/-- What can happen in a session and on its boards. -/
inductive BoardEvent
  /-- An event of the session. -/
  | session (e : Event)
  /-- The completion of an `animateHandTo` of the screen at the place runs. -/
  | handAnimated (place k : ℕ) (finished : Bool)
  /-- A closure of `animateMoves` of the screen at the place runs. -/
  | handsBack (place : ℕ)

/-! ### The hands a board may show -/

namespace Session

/-- **A hand may be shown on the client of `p`**: its move has been picked by its player, and
the opponent's may be shown only when `p` has picked too. -/
def Reveals (P : Pairing) (s : Session) (p : Player) (animation : HandAnimation) : Prop :=
  s.issuedPicks P p ≠ [] ∧
    animation.move ∈ s.issuedPicks P (if animation.isMyHand then p else p.other)

/-- The hand has the image of `.idle`, or of a move that may be shown. -/
def RevealsImage (P : Pairing) (s : Session) (p : Player) (isMyHand : Bool)
    (image : String) : Prop :=
  image = Moves.idle.imageName (!isMyHand) ∨
    ∃ move, s.Reveals P p ⟨move, isMyHand⟩ ∧ image = move.imageName (!isMyHand)

variable {P : Pairing} {s s' : Session} {p : Player} {animation : HandAnimation}
  {isMyHand : Bool} {image : String}

/-- What an animation reveals has been picked, also when more has. -/
theorem Reveals.mono (h : s.Reveals P p animation)
    (hsub : ∀ q, s.issuedPicks P q ⊆ s'.issuedPicks P q) : s'.Reveals P p animation := by
  obtain ⟨hpicked, hmove⟩ := h
  obtain ⟨m, hm⟩ := List.exists_mem_of_ne_nil _ hpicked
  exact ⟨List.ne_nil_of_mem (hsub p hm), hsub _ hmove⟩

/-- What an image reveals has been picked, also when more has. -/
theorem RevealsImage.mono (h : s.RevealsImage P p isMyHand image)
    (hsub : ∀ q, s.issuedPicks P q ⊆ s'.issuedPicks P q) :
    s'.RevealsImage P p isMyHand image :=
  h.imp_right fun ⟨move, hmove, himage⟩ => ⟨move, hmove.mono hsub, himage⟩

end Session

/-- **The invariant** of a board and its screen. -/
structure Board.Fair (P : Pairing) (s : Session) (sc : Screen) (b : Board) : Prop where
  myHand : s.RevealsImage P sc.owner true b.myHandImage
  opponentHand : s.RevealsImage P sc.owner false b.opponentHandImage
  animations : ∀ animation ∈ b.animations, s.Reveals P sc.owner animation
  selected : ∀ m, b.selected m = true → m ∈ s.issuedPicks P sc.owner
  enabled : sc.controller.buttonsEnabled = true →
    b.lblGameStatus = some GameState.inprogress.rawValue
  hidden : b.myHandButtom = Moves.maximumY ∨ b.opponentTop = Moves.maximumY → 0 < b.returning

namespace Session

variable {P : Pairing} {s s' : Session} {e : Event} {place : ℕ} {sc' : Screen}

/-- A screen after an event has handled an input, or shows the same game, or is new. -/
theorem Step.screens_cases (h : Step P s e s') (hsc' : s'.screens[place]? = some sc') :
    (∃ sc i writes, e = .input place i ∧ s.screens[place]? = some sc ∧
      sc.Handles (P.userId sc.owner) i sc' writes) ∨
      (∃ sc, (∀ i, e ≠ .input place i) ∧ s.screens[place]? = some sc ∧
        sc'.owner = sc.owner ∧ sc'.controller = sc.controller) ∨
      s.screens[place]? = none ∧ ∃ p game, sc' = ⟨p, .viewDidLoad game, 0, []⟩ := by
  by_cases hinput : ∃ i, e = .input place i
  · obtain ⟨i, rfl⟩ := hinput
    cases h with
    | input hsc hhandle =>
        rw [getElem?_set_eq hsc, if_pos rfl] at hsc'
        obtain rfl := Option.some.inj hsc'
        exact Or.inl ⟨_, i, _, rfl, hsc, Screen.handles_of_handle hhandle⟩
  · have hne : ∀ i, e ≠ .input place i := fun i he => hinput ⟨i, he⟩
    rcases h.screens hsc' with ⟨sc, hsc, hturns⟩ | ⟨hnone, p, game, -, hnew⟩
    · cases hturns with
      | stays => exact Or.inr (Or.inl ⟨_, hne, hsc, rfl, rfl⟩)
      | receives _ => exact Or.inr (Or.inl ⟨_, hne, hsc, rfl, rfl⟩)
      | handles _ => exact absurd rfl (hne _)
    · exact Or.inr (Or.inr ⟨hnone, p, game, hnew⟩)

/-- Screens are never taken away. -/
theorem Step.length_screens (h : Step P s e s') : s.screens.length ≤ s'.screens.length := by
  have hsegue : ∀ {t : Session} {p : Player} {game : Game}, t.screens = s.screens →
      s.screens.length ≤ (t.performSegue p game).screens.length := by
    intro t p game ht
    rw [← ht]
    unfold performSegue
    split <;> simp
  cases h with
  | commit _ | find _ _ _ => exact le_refl _
  | completeCreate _ _ | gameAccepted _ => exact hsegue (by rfl)
  | snapshot _ _ _ | input _ _ => simp

end Session

namespace Board

variable {P : Pairing} {s s' : Session} {sc sc' : Screen} {b : Board} {g game : Game}
  {p : Player} {writes : List GameWrite}

/-- **The hands that `animateMoves` hides** on a copy: none, or both, for two moves that are
not idle. -/
theorem animateMoves_cases (hcopy : P.Copy g) (p : Player) (b : Board) :
    b.animateMoves (P.userId p) g = b ∨
      ∃ m o, g.moves (P.userId p) = some m ∧ g.moves (P.userId p.other) = some o ∧
        m ≠ .idle ∧ o ≠ .idle ∧
        b.animateMoves (P.userId p) g = { b with
          myHandButtom := Moves.maximumY
          opponentTop := Moves.maximumY
          animations := b.animations ++ [⟨m, true⟩, ⟨o, false⟩]
          returning := b.returning + 1 } := by
  obtain ⟨m, hm⟩ := Option.isSome_iff_exists.mp (hcopy.moves_isSome p)
  obtain ⟨o, ho⟩ := Option.isSome_iff_exists.mp (hcopy.moves_isSome p.other)
  rw [animateMoves, hcopy.opponentUserId]
  simp only [hm, ho]
  split
  · next hpicked =>
      have hmi : m ≠ .idle := by simpa using hpicked.1
      have hoi : o ≠ .idle := by simpa using hpicked.2
      exact Or.inr ⟨m, o, rfl, rfl, hmi, hoi, by simp [animateHandTo, hmi, hoi]⟩
  · exact Or.inl rfl

/-- A board stays fair when nothing happens to it and no animation of the hands ends. -/
theorem Fair.mono (hb : b.Fair P s sc) (hsub : ∀ q, s.issuedPicks P q ⊆ s'.issuedPicks P q)
    (howner : sc'.owner = sc.owner)
    (henabled : sc'.controller.buttonsEnabled = true → sc.controller.buttonsEnabled = true) :
    b.Fair P s' sc' where
  myHand := howner ▸ hb.myHand.mono hsub
  opponentHand := howner ▸ hb.opponentHand.mono hsub
  animations := fun animation hmem => howner ▸ (hb.animations animation hmem).mono hsub
  selected := fun m hm => howner ▸ hsub _ (hb.selected m hm)
  enabled := fun h => hb.enabled (henabled h)
  hidden := hb.hidden

/-- The opponent's hand a fair board shows. -/
theorem Fair.exists_opponentHand (hb : b.Fair P s sc)
    (hshown : b.opponentHandImage ≠ Moves.idle.imageName true) :
    s.issuedPicks P sc.owner ≠ [] ∧
      ∃ m ∈ s.issuedPicks P sc.owner.other, b.opponentHandImage = m.imageName true := by
  obtain ⟨m, ⟨hpicked, hm⟩, himage⟩ := hb.opponentHand.resolve_left hshown
  exact ⟨hpicked, m, hm, himage⟩

/-- The local player's hand a fair board shows. -/
theorem Fair.exists_myHand (hb : b.Fair P s sc)
    (hshown : b.myHandImage ≠ Moves.idle.imageName false) :
    ∃ m ∈ s.issuedPicks P sc.owner, b.myHandImage = m.imageName false := by
  obtain ⟨m, ⟨-, hm⟩, himage⟩ := hb.myHand.resolve_left hshown
  exact ⟨m, hm, himage⟩

/-- A new screen shows no hand. -/
theorem fair_viewDidLoad (hgame : sc.controller.game = some g)
    (henabled : sc.controller.buttonsEnabled = decide (g.state = .inprogress)) :
    (viewDidLoad sc.controller.game).Fair P s sc where
  myHand := Or.inl rfl
  opponentHand := Or.inl rfl
  animations := by simp [viewDidLoad]
  selected := by simp [viewDidLoad]
  enabled := by
    intro h
    rw [henabled, decide_eq_true_iff] at h
    rw [viewDidLoad, hgame, Option.map_some, h]
  hidden := by simp [viewDidLoad, Moves.minimumY, Moves.maximumY]

/-- The hands that are back may be shown. -/
theorem Fair.handsBack (hb : b.Fair P s sc) : b.handsBack.Fair P s sc :=
  { hb with hidden := by simp [Board.handsBack, Moves.minimumY, Moves.maximumY] }

/-- An animation shows a hand that may be shown. -/
theorem Fair.handAnimated {k : ℕ} {animation : HandAnimation} (hb : b.Fair P s sc)
    (hanimation : b.animations[k]? = some animation) (finished : Bool) :
    (b.handAnimated k animation finished).Fair P s sc := by
  have hreveals := hb.animations animation (List.mem_of_getElem? hanimation)
  have herased : { b with animations := b.animations.eraseIdx k }.Fair P s sc :=
    { hb with animations := fun a ha => hb.animations a (List.mem_of_mem_eraseIdx ha) }
  obtain ⟨move, isMyHand⟩ := animation
  cases finished with
  | false => exact herased
  | true =>
      cases isMyHand with
      | true => exact { herased with myHand := Or.inr ⟨move, hreveals, rfl⟩ }
      | false => exact { herased with opponentHand := Or.inr ⟨move, hreveals, rfl⟩ }

/-- **A snapshot** hides the hands only for moves that may be shown. -/
theorem Fair.deliver {rest : List Game} (hb : b.Fair P s sc) (hinbox : sc.inbox = g :: rest)
    (hcopy : P.Copy g) (hpicked : s.EntriesPicked P g)
    (h : sc.Handles (P.userId sc.owner) .deliver sc' writes) :
    (b.updateGame (P.userId sc.owner) g).Fair P s sc' := by
  cases h with
  | @deliver game rest' vc _ hinbox' hupdate =>
      obtain ⟨rfl, rfl⟩ := List.cons.inj (hinbox.symm.trans hinbox')
      have hlabel : { b with lblGameStatus := some g.state.rawValue }.Fair P s
          { sc with controller := vc, inbox := rest } :=
        { hb with
          enabled := fun henabled => by
            rw [hupdate.buttonsEnabled, decide_eq_true_iff] at henabled
            rw [henabled] }
      rcases animateMoves_cases hcopy sc.owner { b with
        lblGameStatus := some g.state.rawValue } with hsame | ⟨m, o, hm, ho, hmi, hoi, hhide⟩
      · rw [updateGame, hsame]
        exact hlabel
      · have hmine := hpicked sc.owner m hm hmi
        have hother := hpicked sc.owner.other o ho hoi
        rw [updateGame, hhide]
        refine { hlabel with
          animations := fun animation hmem => ?_
          hidden := fun _ => Nat.succ_pos _ }
        rcases List.mem_append.mp hmem with hold | hnew
        · exact hb.animations animation hold
        · rcases List.mem_pair.mp hnew with rfl | rfl
          · exact ⟨List.ne_nil_of_mem hmine, hmine⟩
          · exact ⟨List.ne_nil_of_mem hmine, hother⟩

/-- **An input** keeps a board fair. -/
theorem Fair.input {i : Input} (hb : b.Fair P s sc) (hgame : sc.controller.game.isSome)
    (hheld : ∀ g ∈ sc.inbox, P.Copy g ∧ s.EntriesPicked P g)
    (hsub : ∀ q, s.issuedPicks P q ⊆ s'.issuedPicks P q)
    (hpick : ∀ m, i = .pick m → m ∈ s'.issuedPicks P sc.owner)
    (h : sc.Handles (P.userId sc.owner) i sc' writes) :
    (b.input sc (P.userId sc.owner) i).Fair P s' sc' := by
  have hlater {b' : Board} (hb' : b'.Fair P s sc') : b'.Fair P s' sc' :=
    hb'.mono hsub rfl id
  cases i with
  | deliver =>
      cases hinbox : sc.inbox with
      | nil =>
          cases h with
          | deliver hcons _ => exact absurd (hinbox.symm.trans hcons) (by simp)
      | cons g rest =>
          obtain ⟨hcopy, hpicked⟩ := hheld g (by simp [hinbox])
          rw [Board.input, hinbox]
          exact hlater (hb.deliver hinbox hcopy hpicked h)
  | fire place finished =>
      exact hb.mono hsub h.owner fun henabled =>
        (h.buttonsEnabled henabled).resolve_right fun hdeliver => by simp at hdeliver
  | pick m =>
      have hb' : b.Fair P s' sc := hb.mono hsub rfl id
      have hselect : (b.select m).Fair P s' sc :=
        { hb' with
          selected := by
            intro m' hm'
            by_cases hsame : m' = m
            · subst hsame
              exact hpick m' rfl
            · exact hb'.selected m' (by simpa [select, hsame] using hm') }
      cases h with
      | pick _ _ _ _ =>
          exact { hselect with enabled := by simp [GameViewController.shouldEnableButtons] }
      | pickNothing hnone => exact absurd hgame (by simp [hnone])
  | exit =>
      cases h with
      | exit _ _ | exitNothing _ _ => exact hb.mono hsub rfl id
  | home =>
      cases h with
      | home => exact hb.mono hsub rfl id

end Board

namespace Boards

variable (P : Pairing)

/-- A session that has not begun has no screens. -/
def init : Boards where
  session := Session.init P
  boards := []

/-- The board of the screen at a place after an event, if the event is an input on it. -/
def after (s : Boards) (place : ℕ) (b : Board) : Event → Board
  | .input place' i =>
      if place = place' then
        match s.session.screens[place]? with
        | none => b
        | some sc => b.input sc (P.userId sc.owner) i
      else b
  | _ => b

/-- The boards after an event; `none` when the event cannot happen. -/
def step (s : Boards) : BoardEvent → Option Boards
  | .session e =>
      (s.session.step P e).map fun session =>
        { session
          boards := (s.boards.mapIdx fun place b => s.after P place b e) ++
            (session.screens.drop s.boards.length).map fun sc =>
              Board.viewDidLoad sc.controller.game }
  | .handAnimated place k finished =>
      s.boards[place]?.bind fun b =>
        b.animations[k]?.map fun animation =>
          { s with boards := s.boards.set place (b.handAnimated k animation finished) }
  | .handsBack place =>
      s.boards[place]?.bind fun b =>
        if 0 < b.returning then some { s with boards := s.boards.set place b.handsBack } else none

variable {P} {s s' : Boards}

/-- A board after an event of the session: it was there before, or is that of a new screen. -/
theorem getElem?_boards {e : Event} {session : Session} {place : ℕ} {b' : Board}
    (h : ((s.boards.mapIdx fun place b => s.after P place b e) ++
      (session.screens.drop s.boards.length).map fun sc =>
        Board.viewDidLoad sc.controller.game)[place]? = some b') :
    (∃ b, s.boards[place]? = some b ∧ b' = s.after P place b e) ∨
      s.boards[place]? = none ∧ ∃ sc, session.screens[place]? = some sc ∧
        b' = Board.viewDidLoad sc.controller.game := by
  by_cases hlt : place < s.boards.length
  · rw [List.getElem?_append_left (by simpa using hlt), List.getElem?_mapIdx] at h
    obtain ⟨b, hb, rfl⟩ := Option.map_eq_some_iff.mp h
    exact Or.inl ⟨b, hb, rfl⟩
  · have hle : s.boards.length ≤ place := Nat.le_of_not_lt hlt
    rw [List.getElem?_append_right (by simpa using hle), List.getElem?_map,
      List.getElem?_drop, List.length_mapIdx, Nat.add_sub_cancel' hle] at h
    obtain ⟨sc, hsc, rfl⟩ := Option.map_eq_some_iff.mp h
    exact Or.inr ⟨List.getElem?_eq_none hle, sc, hsc, rfl⟩

/-- **The invariant**: every screen has its board, and every board is fair. -/
structure Fair (P : Pairing) (s : Boards) : Prop where
  length_eq : s.boards.length = s.session.screens.length
  boards : ∀ (place : ℕ) (sc : Screen) (b : Board), s.session.screens[place]? = some sc →
    s.boards[place]? = some b → b.Fair P s.session sc

/-- No screen shows anything at first. -/
theorem fair_init : (init P).Fair P where
  length_eq := rfl
  boards := by simp [init]

/-- **An event of the session** keeps the boards fair. -/
theorem Fair.step_session {es : List Event} {e : Event} (hs : s.Fair P)
    (hrun : Run (Session.step P) (Session.init P) es s.session)
    (h : s.step P (.session e) = some s') : s'.Fair P := by
  obtain ⟨session, hsession, rfl⟩ := Option.map_eq_some_iff.mp h
  have hstep := Session.step_of_step_eq hsession
  have hsub : ∀ q, s.session.issuedPicks P q ⊆ session.issuedPicks P q :=
    hstep.issuedPicks_subset
  refine ⟨?_, fun place sc' b' hsc' hb' => ?_⟩
  · have hle : s.boards.length ≤ session.screens.length := hs.length_eq ▸ hstep.length_screens
    simp [Nat.add_sub_cancel' hle]
  · rcases getElem?_boards hb' with ⟨b, hb, rfl⟩ | ⟨hnone, sc, hsc, rfl⟩
    · rcases hstep.screens_cases hsc' with ⟨sc, i, writes, rfl, hsc, hhandles⟩ |
        ⟨sc, hother, hsc, howner, hcontroller⟩ | ⟨hnew, -⟩
      · have hmem := List.mem_of_getElem? hsc
        have hafter : s.after P place b (.input place i) = b.input sc (P.userId sc.owner) i := by
          simp [after, hsc]
        rw [hafter]
        refine (hs.boards place sc b hsc hb).input
          (Session.games_of_run hrun sc hmem) (fun g hg => ?_) hsub ?_ hhandles
        · exact ⟨Session.copy_of_run hrun g (.screen hmem (.inbox hg)),
            Session.entriesPicked_of_run hrun g (.screen hmem (.inbox hg))⟩
        · rintro m rfl
          obtain ⟨g, hg⟩ := Option.isSome_iff_exists.mp (Session.games_of_run hrun sc hmem)
          exact hstep.mem_issuedPicks hsc hg
      · have hafter : s.after P place b e = b := by
          cases e with
          | input place' i =>
              have hne : place ≠ place' := fun heq => hother i (heq ▸ rfl)
              simp [after, hne]
          | _ => rfl
        have hb := hs.boards place sc b hsc hb
        rw [hafter]
        exact hb.mono hsub howner (hcontroller ▸ id)
      · have hlt := (List.getElem?_eq_some_iff.mp hb).1
        rw [List.getElem?_eq_none_iff, ← hs.length_eq] at hnew
        exact absurd hlt (Nat.not_lt.mpr hnew)
    · obtain rfl := Option.some.inj (hsc'.symm.trans hsc)
      have hnew : s.session.screens[place]? = none := by
        rw [List.getElem?_eq_none_iff, ← hs.length_eq]
        exact List.getElem?_eq_none_iff.mp hnone
      rcases hstep.screens_cases hsc with ⟨old, -, -, -, hold, -⟩ | ⟨old, -, hold, -⟩ |
        ⟨-, p, game, rfl⟩
      · exact absurd (hnew.symm.trans hold) (by simp)
      · exact absurd (hnew.symm.trans hold) (by simp)
      · exact Board.fair_viewDidLoad rfl rfl

/-- **A board that changes by itself** leaves all of them fair when it stays fair. -/
theorem Fair.set {place : ℕ} {b b' : Board} (hs : s.Fair P) (hb : s.boards[place]? = some b)
    (hkeeps : ∀ sc, b.Fair P s.session sc → b'.Fair P s.session sc) :
    Fair P { s with boards := s.boards.set place b' } := by
  refine ⟨by simpa using hs.length_eq, fun place' sc b'' hsc hb'' => ?_⟩
  rcases getElem?_set_cases hb'' with ⟨rfl, rfl⟩ | ⟨-, hold⟩
  · exact hkeeps sc (hs.boards _ sc b hsc hb)
  · exact hs.boards place' sc b'' hsc hold

/-- **An event** is one of the session, or leaves it as it is; either keeps the boards fair. -/
theorem Fair.step {es : List Event} {e : BoardEvent} (hs : s.Fair P)
    (hrun : Run (Session.step P) (Session.init P) es s.session) (h : s.step P e = some s') :
    ((∃ e', e = .session e' ∧ s.session.step P e' = some s'.session) ∨
      s'.session = s.session) ∧ s'.Fair P := by
  cases e with
  | session e =>
      refine ⟨Or.inl ⟨e, rfl, ?_⟩, hs.step_session hrun h⟩
      obtain ⟨session, hsession, rfl⟩ := Option.map_eq_some_iff.mp h
      exact hsession
  | handAnimated place k finished =>
      obtain ⟨b, hb, h⟩ := Option.bind_eq_some_iff.mp h
      obtain ⟨animation, hanimation, rfl⟩ := Option.map_eq_some_iff.mp h
      exact ⟨Or.inr rfl, hs.set hb fun sc hfair => hfair.handAnimated hanimation finished⟩
  | handsBack place =>
      obtain ⟨b, hb, h⟩ := Option.bind_eq_some_iff.mp h
      obtain ⟨-, h⟩ := Option.ite_none_right_eq_some.mp h
      obtain rfl := Option.some.inj h
      exact ⟨Or.inr rfl, hs.set hb fun sc hfair => hfair.handsBack⟩

/-- **Every board is fair**, and its session is reached by a run of its own, under the
condition the events of the session meet. -/
theorem fair_of_run {C : Boards → BoardEvent → Prop} (C' : Session → Event → Prop)
    (hC : ∀ s e, C s (.session e) → C' s.session e) {es : List BoardEvent}
    (h : RunWhere (step P) C (init P) es s) :
    (∃ es, RunWhere (Session.step P) C' (Session.init P) es s.session) ∧ s.Fair P := by
  refine h.invariant (I := fun s =>
    (∃ es, RunWhere (Session.step P) C' (Session.init P) es s.session) ∧ s.Fair P)
    ⟨⟨[], RunWhere.nil⟩, fair_init⟩ ?_
  rintro s e s' ⟨⟨es, hrun⟩, hs⟩ hCe hstep
  obtain ⟨⟨e', rfl, hsession⟩ | hsame, hs'⟩ := hs.step hrun.toRun hstep
  · exact ⟨⟨_, hrun.snoc (hC s e' hCe) hsession⟩, hs'⟩
  · exact ⟨⟨es, hsame ▸ hrun⟩, hs'⟩

/-- The condition on the events of the session. -/
def OnSession (C : Session → Event → Prop) (s : Boards) : BoardEvent → Prop
  | .session e => C s.session e
  | .handAnimated _ _ _ | .handsBack _ => True

instance (C : Session → Event → Prop) [∀ s e, Decidable (C s e)] (s : Boards)
    (e : BoardEvent) : Decidable (OnSession C s e) :=
  match e with
  | .session e => inferInstanceAs (Decidable (C s.session e))
  | .handAnimated _ _ _ | .handsBack _ => inferInstanceAs (Decidable True)

/-- No client changes its pick in a run in which none picks a second move. -/
theorem oneMove_of_run {es : List Event} {s : Session}
    (h : RunWhere (Session.step P) (Session.PicksOneMove P) (Session.init P) es s) :
    s.OneMove P :=
  h.invariant (I := fun s => s.OneMove P)
    (Session.winners_init : (Session.init P).Winners P true).one
    fun _ _ _ hs hC hstep => Session.OneMove.step hs hC (Session.step_of_step_eq hstep)

/-! ### What every screen shows -/

section Shown

variable {es : List BoardEvent} {place place' : ℕ} {sc sc' : Screen} {b b' : Board}

/-- **Nobody peeks.** In every run, with the animations ending in any order, a screen shows a
hand of the opponent only when its own client has picked; every hand it shows, and every
button it shows selected, is that of a move its player has picked. -/
theorem no_peeking (h : Run (step P) (init P) es s)
    (hsc : s.session.screens[place]? = some sc) (hb : s.boards[place]? = some b) :
    (b.opponentHandImage ≠ Moves.idle.imageName true →
      s.session.issuedPicks P sc.owner ≠ [] ∧
        ∃ m ∈ s.session.issuedPicks P sc.owner.other, b.opponentHandImage = m.imageName true) ∧
    (b.myHandImage ≠ Moves.idle.imageName false →
      ∃ m ∈ s.session.issuedPicks P sc.owner, b.myHandImage = m.imageName false) ∧
    ∀ m, b.selected m = true → m ∈ s.session.issuedPicks P sc.owner := by
  have hfair := (fair_of_run (fun _ _ => True) (fun _ _ => id) h).2.boards place sc b hsc hb
  exact ⟨hfair.exists_opponentHand, hfair.exists_myHand, hfair.selected⟩

/-- The requester's client has animated both hands in the session `decided`. -/
def handsShown : List BoardEvent :=
  Session.decided.map BoardEvent.session ++ [.handAnimated 1 0 true, .handAnimated 1 0 true]

/-- The requester's screen shows the acceptor's scissors. -/
theorem no_peeking_handsShown : ∃ s sc b,
    Run (step Session.sample) (init Session.sample) handsShown s ∧
      s.session.screens[1]? = some sc ∧ s.boards[1]? = some b ∧
        b.opponentHandImage = "scissors_top" ∧
          s.session.issuedPicks Session.sample sc.owner ≠ [] := by
  have hrun : Run (step Session.sample) (init Session.sample) handsShown
      ((exec (step Session.sample) (init Session.sample) handsShown).get (by decide)) :=
    runWhere_get _
  have hshown : ∃ sc b, ((exec (step Session.sample) (init Session.sample) handsShown).get
      (by decide)).session.screens[1]? = some sc ∧ ((exec (step Session.sample)
        (init Session.sample) handsShown).get (by decide)).boards[1]? = some b ∧
          b.opponentHandImage = "scissors_top" := ⟨_, _, rfl, rfl, rfl⟩
  obtain ⟨sc, b, hsc, hb, himage⟩ := hshown
  refine ⟨_, sc, b, hrun, hsc, hb, himage, ((no_peeking hrun hsc hb).1 ?_).1⟩
  rw [himage]
  decide

/-- **Hands that are hidden are going to be shown again**, and a move can be picked only under
the label of a game in progress, in every run. -/
theorem hands_come_back (h : Run (step P) (init P) es s)
    (hsc : s.session.screens[place]? = some sc) (hb : s.boards[place]? = some b) :
    (b.myHandButtom = Moves.maximumY ∨ b.opponentTop = Moves.maximumY → 0 < b.returning) ∧
      (sc.controller.buttonsEnabled = true →
        b.lblGameStatus = some GameState.inprogress.rawValue) := by
  have hfair := (fair_of_run (fun _ _ => True) (fun _ _ => id) h).2.boards place sc b hsc hb
  exact ⟨hfair.hidden, hfair.enabled⟩

/-- **The hands mirror each other.** In every run in which no client picks a second move, the
hand a screen shows of its opponent and the hand the opponent's screen shows of its own player
are of one move. -/
theorem hands_mirror
    (h : RunWhere (step P) (OnSession (Session.PicksOneMove P)) (init P) es s)
    (hsc : s.session.screens[place]? = some sc) (hb : s.boards[place]? = some b)
    (hsc' : s.session.screens[place']? = some sc') (hb' : s.boards[place']? = some b')
    (howner : sc'.owner = sc.owner.other)
    (hshown : b.opponentHandImage ≠ Moves.idle.imageName true)
    (hshown' : b'.myHandImage ≠ Moves.idle.imageName false) :
    ∃ m ∈ s.session.issuedPicks P sc'.owner,
      b.opponentHandImage = m.imageName true ∧ b'.myHandImage = m.imageName false := by
  obtain ⟨⟨es, hrun⟩, hfair⟩ := fair_of_run (Session.PicksOneMove P) (fun _ _ => id) h
  have hone : s.session.OneMove P := oneMove_of_run hrun
  obtain ⟨-, o, ho, himage⟩ := (hfair.boards place sc b hsc hb).exists_opponentHand hshown
  obtain ⟨m, hm, himage'⟩ := (hfair.boards place' sc' b' hsc' hb').exists_myHand hshown'
  obtain rfl := hone sc'.owner m hm o (howner ▸ ho)
  exact ⟨m, hm, himage, himage'⟩

/-- **The hands tell the winner.** In every run in which no client picks a second move and a
draw is only found where no winner is named, the stored winner is the player whose hand beats
the other, on every screen that shows both hands. -/
theorem hands_tell_winner {g : Game} {u : User}
    (h : RunWhere (step P) (OnSession (Session.OneResult P)) (init P) es s)
    (hsc : s.session.screens[place]? = some sc) (hb : s.boards[place]? = some b)
    (hg : s.session.stored = some g) (hu : g.winner = some u)
    (hmine : b.myHandImage ≠ Moves.idle.imageName false)
    (hother : b.opponentHandImage ≠ Moves.idle.imageName true) :
    ∃ m o : Moves, b.myHandImage = m.imageName false ∧ b.opponentHandImage = o.imageName true ∧
      (o < m ∧ u = P.user sc.owner ∨ m < o ∧ u = P.user sc.owner.other) := by
  obtain ⟨⟨es, hrun⟩, hfair⟩ :=
    fair_of_run (Session.OneResult P) (fun _ _ => id) h
  have hwinners := Session.winners_of_run hrun
  have hfair := hfair.boards place sc b hsc hb
  obtain ⟨m, hm, hmyHand⟩ := hfair.exists_myHand hmine
  obtain ⟨-, o, ho, hopponentHand⟩ := hfair.exists_opponentHand hother
  refine ⟨m, o, hmyHand, hopponentHand, ?_⟩
  obtain ⟨q, ⟨x, hx, y, hy, hlt⟩, rfl⟩ := hwinners.stored hg u hu
  rcases sc.owner.eq_or_eq_other q with rfl | rfl
  · obtain rfl := hwinners.one _ m hm x hx
    obtain rfl := hwinners.one _ o ho y hy
    exact Or.inl ⟨hlt, rfl⟩
  · rw [Player.other_other] at hy
    obtain rfl := hwinners.one _ o ho x hx
    obtain rfl := hwinners.one _ m hm y hy
    exact Or.inr ⟨hlt, rfl⟩

/-- The requester's rock beats the acceptor's scissors on the requester's screen, and the
requester is stored as the winner. -/
theorem hands_tell_winner_handsShown : ∃ s sc b g u,
    Run (step Session.sample) (init Session.sample) handsShown s ∧
      s.session.screens[1]? = some sc ∧ s.boards[1]? = some b ∧
        s.session.stored = some g ∧ g.winner = some u ∧
          ∃ m o : Moves, b.myHandImage = m.imageName false ∧
            b.opponentHandImage = o.imageName true ∧
              (o < m ∧ u = Session.sample.user sc.owner ∨
                m < o ∧ u = Session.sample.user sc.owner.other) := by
  have hrun : RunWhere (step Session.sample) (OnSession (Session.OneResult Session.sample))
      (init Session.sample) handsShown
      ((execWhere (step Session.sample) (OnSession (Session.OneResult Session.sample))
        (init Session.sample) handsShown).get (by decide)) := runWhere_get _
  have hshown : ∃ sc b g u, ((execWhere (step Session.sample)
      (OnSession (Session.OneResult Session.sample)) (init Session.sample) handsShown).get
        (by decide)).session.screens[1]? = some sc ∧ ((execWhere (step Session.sample)
      (OnSession (Session.OneResult Session.sample)) (init Session.sample) handsShown).get
        (by decide)).boards[1]? = some b ∧ ((execWhere (step Session.sample)
      (OnSession (Session.OneResult Session.sample)) (init Session.sample) handsShown).get
        (by decide)).session.stored = some g ∧ g.winner = some u ∧
          b.myHandImage = "rock_bottom" ∧ b.opponentHandImage = "scissors_top" :=
    ⟨_, _, _, _, rfl, rfl, rfl, rfl, rfl, rfl⟩
  obtain ⟨sc, b, g, u, hsc, hb, hg, hu, hmine, hother⟩ := hshown
  refine ⟨_, sc, b, g, u, hrun.toRun, hsc, hb, hg, hu,
    hands_tell_winner hrun hsc hb hg hu ?_ ?_⟩
  · rw [hmine]
    decide
  · rw [hother]
    decide

end Shown

end Boards

end RockPaperScissors
