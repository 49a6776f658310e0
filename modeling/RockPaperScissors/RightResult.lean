import RockPaperScissors.Winners

/-!
# The Stored Result

`checkForWinner` compares the moves and finishes the game. The test for a won game has no
`else`, so the client that has won also runs the branch of a draw: it writes `finished`
without a winner, and the stored game is then a finished game that looks drawn
(`wrong_result`). In a drawn game the completion of `animateMoves` writes whatever the
local copy is by then, a walkover included.

Without an Exit, the stored result of a finished game is right as long as the clients
find **draws only**: no won game is checked, a draw found by the completion of
`animateMoves` is still one in the local copy, without a winner, and a pick that is
tapped on a finished copy is the opponent's move.

## Main results

* `AllUnwon.step`: the invariant; every game that is shared has no winner, and is drawn
  once it is finished.
* `right_result`: in every run that finds draws only, the stored result of a finished
  game is right.
* `wrong_result`: without the condition it is not.
-/

open TransitionSystem

namespace RockPaperScissors

/-- The game has the right result: no winner exactly when both moves are the same and not
idle, and otherwise the player whose move beats the other one. -/
def RightResult (P : Pairing) (g : Game) : Prop :=
  (g.winner = none ↔ ∃ m, m ≠ .idle ∧ ∀ p, g.moves (P.userId p) = some m) ∧
    ∀ u, g.winner = some u → ∃ p m o, u.id = some (P.userId p) ∧
      g.moves (P.userId p) = some m ∧ g.moves (P.userId p.other) = some o ∧ o < m

/-- A copy without a winner that is drawn once it is finished. -/
structure Unwon (P : Pairing) (g : Game) : Prop where
  copy : P.Copy g
  winner : g.winner = none
  drawn : g.state = .finished → ∃ m, m ≠ .idle ∧ ∀ p, g.moves (P.userId p) = some m

/-- A write of such a copy, or of a state that is not `finished`. -/
def GameWrite.Unwon (P : Pairing) (w : GameWrite) : Prop :=
  (∀ g, w.game? = some g → RockPaperScissors.Unwon P g) ∧
    ∀ st, w = .status st → st ≠ .finished

variable {P : Pairing} {g : Game} {p : Player}

/-- A finished game that nobody has won shows the right result, a draw. -/
theorem Unwon.rightResult (h : Unwon P g) (hfin : g.state = .finished) : RightResult P g := by
  refine ⟨⟨fun _ => h.drawn hfin, fun _ => h.winner⟩, fun u hu => ?_⟩
  exact absurd (h.winner.symm.trans hu) (by simp)

/-- The moves of a merge are those of the written copy. -/
theorem Unwon.merge {d : Game} (hd : Unwon P d) (hg : Unwon P g) : Unwon P (d.merge g) where
  copy := hd.copy.merge hg.copy
  winner := by rw [Game.merge_winner_of_none hg.winner, hd.winner]
  drawn := by
    intro hfin
    obtain ⟨m, hm, hmoves⟩ := hg.drawn hfin
    exact ⟨m, hm, fun p => Game.merge_moves (hmoves p)⟩

/-- A game that nobody has won stays so before its end. -/
theorem Unwon.withState (h : Unwon P g) {st : GameState} (hst : st ≠ .finished) :
    Unwon P { g with state := st } :=
  ⟨h.copy.withState st, h.winner, fun hfin => absurd hfin hst⟩

/-- Nobody has won the game that is created. -/
theorem unwon_createdGame : Unwon P P.createdGame :=
  ⟨Pairing.copy_createdGame, rfl, fun h => absurd h (by simp)⟩

/-- A drawn verdict says that both players have one move. -/
theorem exists_move_of_drawn (hcopy : P.Copy g) (h : g.verdict (P.userId p) = .drawn) :
    ∃ m, m ≠ .idle ∧ ∀ q, g.moves (P.userId q) = some m := by
  rw [hcopy.verdict] at h
  obtain ⟨m, o, hm, ho, hmi, -, hcases⟩ := Verdict.ofMoves_cases (by rw [h]; decide)
  rw [h] at hcases
  have hmo : m = o := by simpa using hcases
  subst hmo
  refine ⟨m, hmi, fun q => ?_⟩
  rcases p.eq_or_eq_other q with rfl | rfl
  · exact hm
  · exact ho

namespace Session

/-- **The event finds draws only.** -/
def DrawsOnly (P : Pairing) (s : Session) : Event → Prop
  | .input _ .exit => False
  | .input place .deliver => ∀ sc ∈ s.screens[place]?, ∀ g ∈ sc.inbox.head?,
      g.verdict (P.userId sc.owner) ≠ .won
  | .input place (.fire i true) => ∀ sc ∈ s.screens[place]?,
      ∀ d ∈ sc.controller.delayed[i]?, d.finds (P.userId sc.owner) .won = false ∧
        (d.finds (P.userId sc.owner) .drawn = true → ∀ copy ∈ sc.controller.game,
          copy.winner = none ∧ copy.verdict (P.userId sc.owner) = .drawn)
  | .input place (.pick m) => ∀ sc ∈ s.screens[place]?, ∀ copy ∈ sc.controller.game,
      copy.state = .finished → copy.moves (P.userId sc.owner.other) = some m
  | _ => True

instance (P : Pairing) (s : Session) (e : Event) : Decidable (s.DrawsOnly P e) :=
  match e with
  | .input _ .exit => inferInstanceAs (Decidable False)
  | .input _ .deliver => inferInstanceAs (Decidable (∀ sc ∈ _, _))
  | .input _ (.fire _ true) => inferInstanceAs (Decidable (∀ sc ∈ _, _))
  | .input _ (.pick _) => inferInstanceAs (Decidable (∀ sc ∈ _, _))
  | .input _ (.fire _ false) | .input _ .home | .commit _ | .completeCreate | .find _ _
  | .gameAccepted _ | .snapshot _ _ => inferInstanceAs (Decidable True)

/-- What the invariant says of a screen: a copy that can be written by a pick has no
winner, and nothing is on its way to `setWinner`. -/
structure ScreenUnwon (P : Pairing) (sc : Screen) : Prop where
  inbox : ∀ g ∈ sc.inbox, Unwon P g
  localCopy : ∀ g, sc.controller.game = some g → sc.controller.buttonsEnabled = true →
    g.winner = none
  kicking : ∀ d ∈ sc.controller.delayed, d.kicks = false

/-- **The invariant.** -/
abbrev AllUnwon (P : Pairing) (s : Session) : Prop :=
  s.Shares (GameWrite.Unwon P) (Unwon P) (ScreenUnwon P)

variable {s s' : Session} {e : Event}

/-- What the writes make of a document is unwon. -/
theorem AllUnwon.doc (hs : s.AllUnwon P) (q : Player) (w : GameWrite)
    (hw : w ∈ s.store.issuedBy q) (doc : Option Game) (hdoc : ∀ g, doc = some g → Unwon P g) :
    ∀ g, w.apply doc = some g → Unwon P g :=
  GameWrite.apply_invariant (hs.written q w hw).1 (fun _ _ hd hg => hd.merge hg)
    (fun _ st hst hd => hd.withState ((hs.written q w hw).2 st hst)) hdoc

/-- Nobody has won what is stored. -/
theorem AllUnwon.stored (hs : s.AllUnwon P) (hg : s.stored = some g) : Unwon P g :=
  WriteLog.current_invariant (I := fun doc => ∀ g, doc = some g → Unwon P g)
    (by simp) hs.doc g hg

/-- Nobody has won what a client sees. -/
theorem AllUnwon.view (hs : s.AllUnwon P) {version : ℕ} (hg : s.view p version = some g) :
    Unwon P g :=
  WriteLog.view_invariant (I := fun doc => ∀ g, doc = some g → Unwon P g)
    (by simp) hs.doc version g hg

/-- `checkForWinner` on a game that is not won: it writes a drawn copy, when the local one
is drawn whenever the game is. -/
theorem unwon_of_checked {vc vc' : GameViewController} {ws : List GameWrite}
    (h : vc.Checked (P.userId p) g vc' ws) (hwon : g.verdict (P.userId p) ≠ .won)
    (hlocal : ∀ c, vc.game = some c → P.Copy c)
    (hdrawn : g.verdict (P.userId p) = .drawn → ∀ c, vc.game = some c →
      c.winner = none ∧ c.verdict (P.userId p) = .drawn)
    (hkick : ∀ d ∈ vc.delayed, d.kicks = false) :
    (∀ d ∈ vc'.delayed, d.kicks = false) ∧
      (vc'.game = vc.game ∨ ∀ c, vc'.game = some c → c.winner = none) ∧
      ∀ w ∈ ws, w.Unwon P := by
  cases h with
  | waiting _ => exact ⟨hkick, Or.inl rfl, by simp⟩
  | lost _ => exact ⟨GameViewController.forall_mem_later _ hkick rfl, Or.inl rfl, by simp⟩
  | won hverdict _ => exact absurd hverdict hwon
  | @drawn copy hverdict hgame =>
      have hkick' := GameViewController.forall_mem_later
        .continueToResults hkick rfl
      refine ⟨hkick', Or.inr fun c hc => ?_, fun w hw => ?_⟩
      · obtain rfl := Option.some.inj hc
        rfl
      · obtain rfl := List.mem_singleton.mp hw
        obtain ⟨hwinner, hcdrawn⟩ := hdrawn hverdict copy hgame
        have hcopy := hlocal copy hgame
        refine ⟨fun c hc => ?_, by simp⟩
        obtain rfl := Option.some.inj hc
        exact ⟨hcopy.withState .finished, hwinner, fun _ =>
          exists_move_of_drawn (g := copy) hcopy hcdrawn⟩

/-- A snapshot of a game that is not won. -/
theorem ScreenUnwon.delivered {sc : Screen} {rest : List Game} {vc : GameViewController}
    {ws : List GameWrite} (hs : ScreenUnwon P sc) (hinbox : sc.inbox = g :: rest)
    (h : sc.controller.Updated (P.userId sc.owner) g vc ws)
    (hwon : g.verdict (P.userId sc.owner) ≠ .won) :
    ScreenUnwon P { sc with controller := vc, inbox := rest } ∧ ∀ w ∈ ws, w.Unwon P := by
  have hg : Unwon P g := hs.inbox g (hinbox ▸ List.mem_cons_self)
  have hrest : ∀ c ∈ rest, Unwon P c :=
    fun c hc => hs.inbox c (hinbox ▸ List.mem_cons_of_mem _ hc)
  have hreceived : ∀ c, (sc.controller.receive (P.userId sc.owner) g).game = some c →
      c = g := by
    intro c hc
    rw [GameViewController.receive_game] at hc
    exact (Option.some.inj hc).symm
  have hkick : ∀ d ∈ (sc.controller.receive (P.userId sc.owner) g).delayed,
      d.kicks = false :=
    GameViewController.forall_mem_receive hs.kicking rfl
  have hcheck : ∀ vc', (sc.controller.receive (P.userId sc.owner) g).Checked
      (P.userId sc.owner) g vc' ws → (∀ d ∈ vc'.delayed, d.kicks = false) ∧
      (∀ c, vc'.game = some c → c.winner = none) ∧ ∀ w ∈ ws, w.Unwon P := by
    intro vc' hcheck
    obtain ⟨hkick', hgame, hwrites⟩ := unwon_of_checked hcheck hwon
      (fun c hc => hreceived c hc ▸ hg.copy)
      (fun hdrawn c hc => hreceived c hc ▸ ⟨hg.winner, hdrawn⟩) hkick
    refine ⟨hkick', fun c hc => ?_, hwrites⟩
    rcases hgame with hsame | hnone
    · rw [hreceived c (hsame ▸ hc)]
      exact hg.winner
    · exact hnone c hc
  cases h with
  | plain h _ =>
      obtain ⟨hkick', hwinner, hwrites⟩ := hcheck _ h
      exact ⟨⟨hrest, fun c hc _ => hwinner c hc, hkick'⟩, hwrites⟩
  | walkover h hfin _ =>
      obtain ⟨hkick', -, hwrites⟩ := hcheck _ h
      have hlater := GameViewController.forall_mem_later
        .continueToResults hkick' rfl
      refine ⟨⟨hrest, fun c _ henabled => ?_, hlater⟩, hwrites⟩
      have hoff := h.buttonsEnabled
      rw [GameViewController.receive_buttonsEnabled, hfin] at hoff
      exact absurd (hoff.symm.trans henabled) (by decide)

/-- **What an input that finds draws only keeps on a screen, and what it writes.** -/
theorem ScreenUnwon.handles {place : ℕ} {i : Input} {sc sc' : Screen} {ws : List GameWrite}
    (hs : ScreenUnwon P sc) (hmem : s.screens[place]? = some sc)
    (h : sc.Handles (P.userId sc.owner) i sc' ws) (hheld : ∀ g, sc.Holds g → P.Copy g)
    (hC : s.DrawsOnly P (.input place i)) : ScreenUnwon P sc' ∧ ∀ w ∈ ws, w.Unwon P := by
  have htake : ∀ j, ∀ d ∈ (sc.takeClosure j).delayed, d.kicks = false :=
    fun j d hd => hs.kicking d (List.mem_of_mem_eraseIdx hd)
  cases h with
  | deliver hinbox hupdate =>
      exact hs.delivered hinbox hupdate (hC sc hmem _ (by rw [hinbox]; rfl))
  | interrupted _ => exact ⟨⟨hs.inbox, hs.localCopy, htake _⟩, by simp⟩
  | @animatedMoves j captured vc _ hclosure hcheck =>
      obtain ⟨hwon, hdrawn⟩ := hC sc hmem _ hclosure
      have hnotwon : captured.verdict (P.userId sc.owner) ≠ .won := by
        simpa [Delayed.finds] using hwon
      have hcdrawn : captured.verdict (P.userId sc.owner) = .drawn → ∀ c,
          (sc.takeClosure j).game = some c →
            c.winner = none ∧ c.verdict (P.userId sc.owner) = .drawn :=
        fun hv c hc => hdrawn (by simpa [Delayed.finds] using hv) c hc
      obtain ⟨hkick, hgame, hwrites⟩ := unwon_of_checked hcheck hnotwon
        (fun c hc => hheld c (.controller (.localCopy hc))) hcdrawn (htake j)
      refine ⟨⟨hs.inbox, fun c hc henabled => ?_, hkick⟩, hwrites⟩
      rcases hgame with hsame | hnone
      · exact hs.localCopy c (hsame ▸ hc) (hcheck.buttonsEnabled.symm.trans henabled)
      · exact hnone c hc
  | kicked hclosure | declaredWinner hclosure _ =>
      have hnot := hs.kicking _ (List.mem_of_getElem? hclosure)
      exact absurd hnot (by simp [Delayed.kicks])
  | wasKicked _ _ =>
      exact ⟨⟨hs.inbox, hs.localCopy, GameViewController.forall_mem_later _ (htake _) rfl⟩,
        by simp⟩
  | wasKickedAlone _ _ => exact ⟨⟨hs.inbox, hs.localCopy, htake _⟩, by simp⟩
  | continuedToResults _ => exact ⟨⟨hs.inbox, hs.localCopy, htake _⟩, by simp⟩
  | @pick move copy hmove henabled _ hgame =>
      refine ⟨⟨hs.inbox, fun c _ hon => absurd hon (by
        simp [GameViewController.shouldEnableButtons]), hs.kicking⟩, fun w hw => ?_⟩
      obtain rfl := List.mem_singleton.mp hw
      refine ⟨fun c hc => ?_, by simp⟩
      obtain rfl := Option.some.inj hc
      refine ⟨(hheld copy (.controller (.localCopy hgame))).setMove sc.owner move,
        hs.localCopy copy hgame henabled, fun hfin => ⟨move, hmove, fun q => ?_⟩⟩
      rcases sc.owner.eq_or_eq_other q with rfl | rfl
      · exact Game.setMove_self ..
      · rw [Game.setMove_of_ne copy move (P.userId_other_ne sc.owner)]
        exact hC sc hmem copy hgame hfin
  | pickNothing _ => exact ⟨hs, by simp⟩
  | exit _ _ | exitNothing _ _ => exact absurd hC (by simp [DrawsOnly])
  | home => exact ⟨⟨hs.inbox, hs.localCopy, hs.kicking⟩, by simp⟩

/-- A new screen has a game that nobody has won. -/
theorem screenUnwon_viewDidLoad (hg : g.winner = none) (p : Player) :
    ScreenUnwon P ⟨p, .viewDidLoad g, 0, []⟩ := by
  refine ⟨by simp, fun c hc _ => ?_, by simp [GameViewController.viewDidLoad]⟩
  obtain rfl : g = c := Option.some.inj hc
  exact hg

/-- **A step that finds draws only keeps the invariant.** -/
theorem AllUnwon.step (hs : s.AllUnwon P) (h : Step P s e s')
    (hheld : ∀ g, s.Holds g → P.Copy g) (hC : s.DrawsOnly P e) : s'.AllUnwon P := by
  refine Shares.step hs h (fun p version g hg => AllUnwon.view hs hg) ?_
    (screenUnwon_viewDidLoad rfl)
    (fun p g hg => screenUnwon_viewDidLoad (g := { g with state := .inprogress }) hg.winner p)
    ?_ ?_
  · exact ⟨by simp [GameWrite.game?], by simp⟩
  · intro sc version g hsc hg
    have hinbox : ∀ c ∈ sc.inbox ++ [g], Unwon P c :=
      List.forall_mem_append.mpr ⟨hsc.inbox, List.forall_mem_singleton.mpr hg⟩
    exact ⟨hinbox, hsc.localCopy, hsc.kicking⟩
  · rintro place i sc sc' ws rfl hsc hhandles
    have hmem := List.mem_of_getElem? hsc
    exact (hs.screens sc hmem).handles hsc hhandles
      (fun g hg => hheld g (.screen hmem hg)) hC

/-- Nobody has won before anything happens. -/
theorem allUnwon_init : (init P).AllUnwon P := by
  refine shares_init ⟨fun g hg => ?_, by simp⟩
  obtain rfl := Option.some.inj hg
  exact unwon_createdGame

/-- **The stored result is right.** In every run that finds draws only, a stored game that
is finished has the right result. -/
theorem right_result {es : List Event}
    (h : RunWhere (Session.step P) (DrawsOnly P) (init P) es s) (hg : s.stored = some g)
    (hfin : g.state = .finished) : RightResult P g := by
  have hunwon : s.AllUnwon P := by
    refine h.invariant_events (I := fun _ s => s.AllUnwon P) allUnwon_init ?_
    intro es t e t' hrun ht hC hstep
    exact AllUnwon.step ht (step_of_step_eq hstep) (copy_of_run hrun.toRun) hC
  exact (AllUnwon.stored hunwon hg).rightResult hfin

/-- Both play rock, and the acceptor's client finishes the game. -/
def bothRock : List Event :=
  opening ++ [.input 1 (.pick .rock), .commit .requester, .snapshot 0 3,
    .input 0 .deliver, .input 0 (.pick .rock), .commit .acceptor, .snapshot 0 4,
    .input 0 .deliver, .commit .acceptor]

/-- Two rocks are stored as a draw. -/
theorem right_result_bothRock : ∃ s g, Run (Session.step sample) (init sample) bothRock s ∧
    s.stored = some g ∧ g.state = .finished ∧ RightResult sample g := by
  have hrun : RunWhere (Session.step sample) (DrawsOnly sample) (init sample) bothRock
      ((execWhere (Session.step sample) (DrawsOnly sample) (init sample) bothRock).get
        (by decide)) := runWhere_get _
  have hfin : ((execWhere (Session.step sample) (DrawsOnly sample) (init sample)
      bothRock).get (by decide)).stored.map Game.state = some .finished := by decide
  obtain ⟨g, hg, hstate⟩ := Option.map_eq_some_iff.mp hfin
  exact ⟨_, g, hrun.toRun, hg, hstate, right_result hrun hg hstate⟩

/-- The requester's rock beats the acceptor's scissors, and the requester's client finds
that out. -/
def rockBeatsScissors : List Event :=
  opening ++ [.input 1 (.pick .rock), .commit .requester, .snapshot 0 3,
    .input 0 .deliver, .input 0 (.pick .scissors), .commit .acceptor, .snapshot 1 4,
    .input 1 .deliver, .commit .requester]

/-- **A wrong result**: the won game is stored as finished without a winner. -/
theorem wrong_result : ¬ ∀ (P : Pairing) (es : List Event) (s : Session),
    RunWhere (Session.step P) (fun _ e => e.exits = false) (init P) es s →
    ∀ g, s.stored = some g → g.state = .finished → RightResult P g := by
  intro h
  have hrun : RunWhere (Session.step sample) (fun _ e => e.exits = false) (init sample)
      rockBeatsScissors ((execWhere (Session.step sample) (fun _ e => e.exits = false)
        (init sample) rockBeatsScissors).get (by decide)) := runWhere_get _
  have hresult : ((execWhere (Session.step sample) (fun _ e => e.exits = false)
      (init sample) rockBeatsScissors).get (by decide)).stored.map
        (fun g => (g.state, g.winner.isNone, g.moves "uid1", g.moves "uid2")) =
          some (.finished, true, some .scissors, some .rock) := by decide
  obtain ⟨g, hg, heq⟩ := Option.map_eq_some_iff.mp hresult
  simp only [Prod.mk.injEq] at heq
  obtain ⟨hfin, hnone, hacceptor, hrequester⟩ := heq
  obtain ⟨m, -, hmoves⟩ := (h sample _ _ hrun g hg hfin).1.mp
    (Option.isNone_iff_eq_none.mp hnone)
  have hscissors := hacceptor.symm.trans (hmoves .acceptor)
  have hrock := hrequester.symm.trans (hmoves .requester)
  exact absurd (hscissors.trans hrock.symm) (by decide)

end Session

end RockPaperScissors
