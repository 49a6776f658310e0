import RockPaperScissors.Winners

/-!
# No Premature Ending

A game ends by the decision of a client or by an Exit. `checkForWinner` decides a game
only when neither entry of `moves` is idle, and such entries come from picks of the two
players. Until both have picked, therefore, no closure is on its way to `setWinner`, no
write and no snapshot names a winner, and the state `finished` comes from an Exit.

The winner that `updateGame` assigns after an Exit stays in the local copy: the snapshot is
finished, so the buttons are off, and until both players have picked nothing else writes a
local copy.

## Main results

* `Undecided.step`: as long as every game waits for a pick, nothing is decided.
* `no_premature_ending`: a stored game that is finished without an Exit, or that has a
  winner, was picked in by both players.
-/

open TransitionSystem

namespace RockPaperScissors

/-- The game has no winner, and it is finished only if `x`. -/
structure Game.Open (x : Prop) (g : Game) : Prop where
  state : g.state = .finished → x
  winner : g.winner = none

/-- The write names no winner, and it finishes the game only if `x`. -/
structure GameWrite.Open (x : Prop) (w : GameWrite) : Prop where
  state : w.state = .finished → x
  winner : ∀ g, w.game? = some g → g.winner = none

/-- A screen of an undecided game: a copy that can be written by a pick has no winner, and
nothing is on its way to `setWinner`. -/
structure Screen.Open (x : Prop) (sc : Screen) : Prop where
  inbox : ∀ g ∈ sc.inbox, g.Open x
  state : ∀ g, sc.controller.game = some g → g.state = .finished → x
  winner : ∀ g, sc.controller.game = some g → sc.controller.buttonsEnabled = true →
    g.winner = none
  kicking : ∀ d ∈ sc.controller.delayed, d.kicks = false

variable {x y : Prop} {localUserId : String} {g : Game} {writes : List GameWrite}

/-- A game that is open stays so when more may have ended it. -/
theorem Game.Open.mono (hxy : x → y) (h : g.Open x) : g.Open y :=
  ⟨fun hfin => hxy (h.state hfin), h.winner⟩

/-- Merges of open games are open. -/
theorem Game.Open.merge {d : Game} (hd : d.Open x) (hg : g.Open x) : (d.merge g).Open x :=
  ⟨hg.state, (Game.merge_winner_of_none hg.winner).trans hd.winner⟩

/-- A write that is open stays so when more may have ended the game. -/
theorem GameWrite.Open.mono {w : GameWrite} (hxy : x → y) (h : w.Open x) : w.Open y :=
  ⟨fun hfin => hxy (h.state hfin), h.winner⟩

namespace Screen

variable {sc sc' : Screen} {i : Input}

/-- A screen that is open stays so when more may have ended the game. -/
theorem Open.mono (hxy : x → y) (h : sc.Open x) : sc.Open y where
  inbox := fun g hg => (h.inbox g hg).mono hxy
  state := fun g hg hfin => hxy (h.state g hg hfin)
  winner := h.winner
  kicking := h.kicking

/-- A snapshot on which `checkForWinner` still waits. -/
theorem Open.delivered {rest : List Game} {vc : GameViewController} (hs : sc.Open x)
    (hinbox : sc.inbox = g :: rest) (h : sc.controller.Updated localUserId g vc writes)
    (hwaiting : g.verdict localUserId = .waiting) :
    Open x { sc with controller := vc, inbox := rest } ∧ writes = [] := by
  have hg : g.Open x := hs.inbox g (hinbox ▸ List.mem_cons_self)
  have hrest : ∀ c ∈ rest, c.Open x :=
    fun c hc => hs.inbox c (hinbox ▸ List.mem_cons_of_mem _ hc)
  have hgame : ∀ c, (sc.controller.receive localUserId g).game = some c → c = g := by
    intro c hc
    rw [GameViewController.receive_game] at hc
    exact (Option.some.inj hc).symm
  have hkicking : ∀ d ∈ (sc.controller.receive localUserId g).delayed, d.kicks = false :=
    GameViewController.forall_mem_receive hs.kicking rfl
  have hchecked : ∀ vc', (sc.controller.receive localUserId g).Checked localUserId g vc'
      writes → vc' = sc.controller.receive localUserId g ∧ writes = [] := by
    intro vc' hcheck
    cases hcheck with
    | waiting _ => exact ⟨rfl, rfl⟩
    | lost hverdict | won hverdict _ | drawn hverdict _ =>
        exact absurd (hverdict.symm.trans hwaiting) (by simp)
  cases h with
  | plain hcheck _ =>
      obtain ⟨rfl, rfl⟩ := hchecked _ hcheck
      exact ⟨⟨hrest, fun c hc => hgame c hc ▸ hg.state, fun c hc _ => hgame c hc ▸ hg.winner,
        hkicking⟩, rfl⟩
  | walkover hcheck hfin _ =>
      obtain ⟨rfl, rfl⟩ := hchecked _ hcheck
      have hlater := GameViewController.forall_mem_later
        .continueToResults hkicking rfl
      refine ⟨⟨hrest, fun c _ _ => hg.state hfin, fun c _ henabled => ?_, hlater⟩, rfl⟩
      have hoff : (sc.controller.receive localUserId g).buttonsEnabled = true := henabled
      rw [GameViewController.receive_buttonsEnabled, hfin] at hoff
      exact absurd hoff (by decide)

/-- **What an input keeps on a screen of an undecided game, and what it writes.** -/
theorem Open.handles (hs : sc.Open x) (h : sc.Handles localUserId i sc' writes)
    (hwaiting : ∀ g, sc.Holds g → g.verdict localUserId = .waiting) (hx : i = .exit → x) :
    sc'.Open x ∧ ∀ w ∈ writes, w.Open x := by
  have htake : ∀ j, ∀ d ∈ (sc.takeClosure j).delayed, d.kicks = false :=
    fun j d hd => hs.kicking d (List.mem_of_mem_eraseIdx hd)
  cases h with
  | deliver hinbox hupdate =>
      have hg := hwaiting _ (.inbox (hinbox ▸ List.mem_cons_self))
      obtain ⟨hopen, rfl⟩ := hs.delivered hinbox hupdate hg
      exact ⟨hopen, by simp⟩
  | animatedMoves hclosure hcheck =>
      have hg := hwaiting _ (holds_closure hclosure rfl)
      cases hcheck with
      | waiting _ => exact ⟨⟨hs.inbox, hs.state, hs.winner, htake _⟩, by simp⟩
      | lost hverdict | won hverdict _ | drawn hverdict _ =>
          exact absurd (hverdict.symm.trans hg) (by simp)
  | kicked hclosure | declaredWinner hclosure _ =>
      have hnot := hs.kicking _ (List.mem_of_getElem? hclosure)
      exact absurd hnot (by simp [Delayed.kicks])
  | wasKicked _ _ =>
      exact ⟨⟨hs.inbox, hs.state, hs.winner,
        GameViewController.forall_mem_later _ (htake _) rfl⟩, by simp⟩
  | interrupted _ | wasKickedAlone _ _ | continuedToResults _ =>
      exact ⟨⟨hs.inbox, hs.state, hs.winner, htake _⟩, by simp⟩
  | @pick move copy _ henabled _ hgame =>
      refine ⟨⟨hs.inbox, hs.state, fun _ _ hon => absurd hon (by
        simp [GameViewController.shouldEnableButtons]), hs.kicking⟩, fun w hw => ?_⟩
      obtain rfl := List.mem_singleton.mp hw
      refine ⟨hs.state copy hgame, fun c hc => ?_⟩
      obtain rfl := Option.some.inj hc
      have hnone := hs.winner copy hgame henabled
      exact hnone
  | pickNothing _ => exact ⟨hs, by simp⟩
  | exit _ _ =>
      refine ⟨⟨hs.inbox, hs.state, hs.winner, hs.kicking⟩, fun w hw => ?_⟩
      obtain rfl := List.mem_singleton.mp hw
      exact ⟨fun _ => hx rfl, by simp [GameWrite.game?]⟩
  | exitNothing _ _ | home => exact ⟨⟨hs.inbox, hs.state, hs.winner, hs.kicking⟩, by simp⟩

/-- A new screen of an open game is open. -/
theorem open_viewDidLoad (hstate : g.state = .finished → x) (hwinner : g.winner = none)
    (p : Player) : Open x ⟨p, .viewDidLoad g, 0, []⟩ := by
  refine ⟨by simp, fun c hc => ?_, fun c hc _ => ?_, by simp [GameViewController.viewDidLoad]⟩
  · obtain rfl : g = c := Option.some.inj hc
    exact hstate
  · obtain rfl : g = c := Option.some.inj hc
    exact hwinner

end Screen

namespace Session

/-- **The invariant**, until both players have picked. -/
abbrev Undecided (x : Prop) (s : Session) : Prop :=
  s.Shares (GameWrite.Open x) (Game.Open x) (Screen.Open x)

variable {P : Pairing} {s s' : Session} {e : Event} {es : List Event} {p : Player}

/-- A session that is undecided stays so when more may have ended it. -/
theorem Undecided.mono (hxy : x → y) (hs : s.Undecided x) : s.Undecided y where
  written := fun p w hw => (hs.written p w hw).mono hxy
  found := fun p g hg => (hs.found p g hg).mono hxy
  screens := fun sc hsc => (hs.screens sc hsc).mono hxy

/-- What the writes make of a document is open. -/
theorem Undecided.doc (hs : s.Undecided x) (p : Player) (w : GameWrite)
    (hw : w ∈ s.store.issuedBy p) (doc : Option Game) (hdoc : ∀ g, doc = some g → g.Open x) :
    ∀ g, w.apply doc = some g → g.Open x := by
  have hopen := hs.written p w hw
  refine GameWrite.apply_invariant (fun g hg => ⟨fun hfin => hopen.state ?_, hopen.winner g hg⟩)
    (fun _ _ hd hg => hd.merge hg) (fun _ st hst hd => ⟨fun hfin => hopen.state ?_, hd.winner⟩)
    hdoc
  · cases w with
    | status _ => exact absurd hg (by simp [GameWrite.game?])
    | create _ | picked _ | decided _ =>
        obtain rfl := Option.some.inj hg
        exact hfin
  · rw [hst]
    exact hfin

/-- The stored document of an undecided game. -/
theorem Undecided.stored (hs : s.Undecided x) (hg : s.stored = some g) : g.Open x :=
  WriteLog.current_invariant (I := fun doc => ∀ g, doc = some g → g.Open x) (by simp)
    hs.doc g hg

/-- What a client can see of an undecided game. -/
theorem Undecided.view (hs : s.Undecided x) {version : ℕ} (hg : s.view p version = some g) :
    g.Open x :=
  WriteLog.view_invariant (I := fun doc => ∀ g, doc = some g → g.Open x) (by simp)
    hs.doc version g hg

/-- Nothing is decided at first. -/
theorem undecided_init : (init P).Undecided x := by
  refine shares_init ⟨by simp [GameWrite.state], fun g hg => ?_⟩
  obtain rfl := Option.some.inj hg
  rfl

/-- **As long as every game waits for a pick, nothing is decided.** -/
theorem Undecided.step (hs : s.Undecided x) (h : Step P s e s')
    (hwaiting : ∀ g, s.Holds g → ∀ p, g.verdict (P.userId p) = .waiting)
    (hx : e.exits = true → x) : s'.Undecided x := by
  refine Shares.step hs h (fun p version g hg => Undecided.view hs hg)
    ⟨by simp [GameWrite.state], by simp [GameWrite.game?]⟩
    (Screen.open_viewDidLoad (by simp) rfl)
    (fun p g hg => Screen.open_viewDidLoad (g := { g with state := .inprogress }) (by simp)
      hg.winner p) ?_ ?_
  · intro sc version g hsc hg
    have hinbox : ∀ c ∈ sc.inbox ++ [g], c.Open x :=
      List.forall_mem_append.mpr ⟨hsc.inbox, List.forall_mem_singleton.mpr hg⟩
    exact ⟨hinbox, hsc.state, hsc.winner, hsc.kicking⟩
  · rintro place i sc sc' ws rfl hsc hhandles
    have hmem := List.mem_of_getElem? hsc
    refine (hs.screens sc hmem).handles hhandles
      (fun g hg => hwaiting g (.screen hmem hg) sc.owner) ?_
    rintro rfl
    exact hx rfl

/-! ### Runs -/

/-- Both players have executed `pickedMove` in the run. -/
def BothPicked (P : Pairing) (es : List Event) : Prop :=
  ∀ p, ∃ m, PickedBy P es p m

/-- Somebody has used Exit in the run. -/
def Exited (es : List Event) : Prop :=
  ∃ e ∈ es, e.exits = true

/-- A game that does not wait for a pick was picked in by both players. -/
theorem bothPicked_of_verdict (hcopy : P.Copy g) (hpicked : AllPicked P es g)
    (h : g.verdict (P.userId p) ≠ .waiting) : BothPicked P es := by
  rw [hcopy.verdict] at h
  obtain ⟨m, o, hm, ho, hmi, hoi, -⟩ := Verdict.ofMoves_cases h
  intro q
  rcases p.eq_or_eq_other q with rfl | rfl
  · exact ⟨m, hpicked q m hm hmi⟩
  · exact ⟨o, hpicked p.other o ho hoi⟩

/-- Until both players have picked the game is undecided. -/
theorem undecided_of_run (h : Run (Session.step P) (init P) es s) :
    BothPicked P es ∨ s.Undecided (Exited es) := by
  refine h.invariant_events
    (I := fun es s => BothPicked P es ∨ s.Undecided (Exited es)) (Or.inr undecided_init) ?_
  intro es t e t' hrun ht _ hstep
  by_cases hboth : BothPicked P es
  · exact Or.inl fun p => (hboth p).imp fun m hm => hm.append [e]
  right
  have hexited : t.Undecided (Exited (es ++ [e])) := by
    refine (ht.resolve_left hboth).mono ?_
    rintro ⟨e', he', hexits⟩
    exact ⟨e', List.mem_append_left _ he', hexits⟩
  refine hexited.step (step_of_step_eq hstep) (fun g hg p => ?_)
    fun hexits => ⟨e, by simp, hexits⟩
  by_contra hverdict
  exact hboth (bothPicked_of_verdict (copy_of_run hrun g hg) (allPicked_of_run hrun g hg)
    hverdict)

/-- **No premature ending.** A stored game that is finished, unless by an Exit, and a
stored game with a winner was picked in by both players; and so was every game whose
winner a client has written. -/
theorem no_premature_ending (h : Run (Session.step P) (init P) es s) :
    (∀ g, s.stored = some g → g.state = .finished → ¬ Exited es → BothPicked P es) ∧
      (∀ g, s.stored = some g → g.winner.isSome → BothPicked P es) ∧
      ∀ p, ∀ w ∈ s.store.issuedBy p, ∀ g, w.game? = some g → g.winner.isSome →
        BothPicked P es := by
  rcases undecided_of_run h with hboth | hopen
  · exact ⟨fun _ _ _ _ => hboth, fun _ _ _ => hboth, fun _ _ _ _ _ _ => hboth⟩
  · refine ⟨fun g hg hfin hnot => ?_, fun g hg hwinner => ?_, fun p w hw g hg hwinner => ?_⟩
    · exact absurd ((Undecided.stored hopen hg).state hfin) hnot
    · rw [(Undecided.stored hopen hg).winner] at hwinner
      exact absurd hwinner (by simp)
    · rw [(hopen.written p w hw).winner g hg] at hwinner
      exact absurd hwinner (by simp)

/-- Both play paper, and the acceptor's client finishes the game. -/
def bothPaper : List Event :=
  opening ++ [.input 1 (.pick .paper), .commit .requester, .snapshot 0 3,
    .input 0 .deliver, .input 0 (.pick .paper), .snapshot 0 3, .input 0 .deliver,
    .commit .acceptor, .commit .acceptor]

/-- The game `bothPaper` finishes was picked in by both players. -/
theorem no_premature_ending_bothPaper :
    (∃ s g, Run (Session.step sample) (init sample) bothPaper s ∧ s.stored = some g ∧
      g.state = .finished) ∧ BothPicked sample bothPaper := by
  have hrun : Run (Session.step sample) (init sample) bothPaper
      ((exec (Session.step sample) (init sample) bothPaper).get (by decide)) := runWhere_get _
  have hfin : ((exec (Session.step sample) (init sample) bothPaper).get
      (by decide)).stored.map Game.state = some .finished := by decide
  obtain ⟨g, hg, hstate⟩ := Option.map_eq_some_iff.mp hfin
  refine ⟨⟨_, g, hrun, hg, hstate⟩, (no_premature_ending hrun).1 g hg hstate ?_⟩
  rintro ⟨e, he, hexits⟩
  revert e
  decide

end Session

end RockPaperScissors
