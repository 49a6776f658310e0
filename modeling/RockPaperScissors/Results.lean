import RockPaperScissors.Winners

/-!
# The Results Screens

Each client presents the results of its local copy, some seconds after it has decided
that the game is over. The two clients need not show the same: the client that has lost
receives the game finished without a winner first, takes the walkover branch and shows its
own user as the winner (`results_disagree`).

Without an Exit and without a second pick, the two screens agree as long as every event
is **conclusive**: the walkover branch is taken only on a client that has won, and the
results are presented only from a local copy that has both moves and, unless they are the
same, a winner.

## Main results

* `ShownWinners.step`: every game that has been presented has both issued picks and the
  winner of the two.
* `results_agree`: in every run whose events are conclusive, what the two clients present
  is the outcome of the two moves, the same on both.
* `results_disagree`: without the condition they show different winners.
-/

open TransitionSystem

namespace RockPaperScissors

/-! ### `ResultViewController` -/

/-- What the results screen shows. -/
inductive ResultInfo
  | wins (winnerPlayer looserPlayer winnerImage : String)
  | draw (imageOne imageTwo : String)
  deriving DecidableEq, Repr

/-- `showWinnerLooserInfo`; `none` when a guard fails and the labels stay as they are. -/
def showWinnerLooserInfo (game : Option Game) : Option ResultInfo :=
  match game.bind Game.winner with
  | some winner =>
      winner.avatarImage.bind fun winnerImage =>
        winner.username.bind fun winnerPlayer =>
          (game.bind fun g => (g.players.filter fun user => user.id ≠ winner.id).head?).bind
            fun looser => looser.username.map fun looserPlayer =>
              .wins winnerPlayer looserPlayer winnerImage
  | none =>
      (game.bind fun g => g.players.head?.bind User.avatarImage).bind fun imageOne =>
        (game.bind fun g => g.players.getLast?.bind User.avatarImage).map fun imageTwo =>
          .draw imageOne imageTwo

/-- The closure presents the results screen. -/
def Delayed.presents : Delayed → Bool
  | continueToResults => true
  | animateMoves _ => false
  | animateFinalMoves _ _ => false
  | setWinner _ => false

/-- The game has both moves and, unless they are the same, a winner. -/
def Game.resultKnown (game : Game) (localUserId : String) : Bool :=
  game.verdict localUserId ≠ .waiting ∧
    (game.winner.isSome ∨ game.verdict localUserId = .drawn)

/-- The winner of the acceptor's and the requester's move, if there is one. -/
def Pairing.outcome (P : Pairing) (m o : Moves) : Option User :=
  if o < m then some (P.user .acceptor)
  else if m < o then some (P.user .requester)
  else none

/-- The presented game `r` shows the outcome of the moves `m` and `o`. -/
structure Shows (P : Pairing) (m o : Moves) (r : Option Game) : Prop where
  picked : m ≠ .idle ∧ o ≠ .idle
  game : ∃ g, r = some g ∧ P.Copy g ∧ g.moves (P.userId .acceptor) = some m ∧
    g.moves (P.userId .requester) = some o ∧ g.winner = P.outcome m o

/-- Two presented games with one outcome look the same. -/
theorem Shows.showWinnerLooserInfo {P : Pairing} {m o : Moves} {r r' : Option Game}
    (h : Shows P m o r) (h' : Shows P m o r') :
    showWinnerLooserInfo r = showWinnerLooserInfo r' := by
  obtain ⟨g, rfl, hcopy, -, -, hwinner⟩ := h.game
  obtain ⟨g', rfl, hcopy', -, -, hwinner'⟩ := h'.game
  have hplayers : g.players = g'.players := hcopy.players_eq.trans hcopy'.players_eq.symm
  have hsame : g.winner = g'.winner := hwinner.trans hwinner'.symm
  simp [RockPaperScissors.showWinnerLooserInfo, hplayers, hsame]

/-- **The results are presented by one closure only**, and with the local copy. -/
theorem Screen.Handles.results_eq {sc sc' : Screen} {localUserId : String} {i : Input}
    {ws : List GameWrite} (h : sc.Handles localUserId i sc' ws) :
    sc'.controller.results = sc.controller.results ∨
      sc'.controller.results = sc.controller.results ++ [sc.controller.game] ∧
        ∃ place finished, i = .fire place finished ∧
          sc.controller.delayed[place]? = some .continueToResults := by
  cases h with
  | deliver _ hupdate => exact Or.inl hupdate.results
  | animatedMoves _ hcheck => exact Or.inl hcheck.results
  | continuedToResults hclosure => exact Or.inr ⟨rfl, _, _, rfl, hclosure⟩
  | interrupted _ | kicked _ | wasKicked _ _ | wasKickedAlone _ _ | declaredWinner _ _
  | pick _ _ _ _ | pickNothing _ | exit _ _ | exitNothing _ _ | home => exact Or.inl rfl

/-- What an input adds to the results of a screen. -/
theorem Screen.Handles.results {sc sc' : Screen} {localUserId : String} {i : Input}
    {ws : List GameWrite} (h : sc.Handles localUserId i sc' ws) {r : Option Game}
    (hr : r ∈ sc'.controller.results) : r ∈ sc.controller.results ∨
      r = sc.controller.game ∧ ∃ place finished, i = .fire place finished ∧
        sc.controller.delayed[place]? = some .continueToResults := by
  rcases h.results_eq with hsame | ⟨hnew, hfire⟩
  · exact Or.inl (hsame ▸ hr)
  · rw [hnew] at hr
    rcases List.mem_append.mp hr with hold | hlast
    · exact Or.inl hold
    · exact Or.inr ⟨List.mem_singleton.mp hlast, hfire⟩

namespace Session

/-! ### Conditions -/

/-- The results are presented only from a local copy whose result is known. -/
def PresentsKnown (P : Pairing) (s : Session) : Event → Prop
  | .input place (.fire i _) => ∀ sc ∈ s.screens[place]?, ∀ d ∈ sc.controller.delayed[i]?,
      d.presents = true →
        (sc.controller.game.any fun g => g.resultKnown (P.userId sc.owner)) = true
  | _ => True

instance (P : Pairing) (s : Session) (e : Event) : Decidable (s.PresentsKnown P e) :=
  match e with
  | .input _ (.fire _ _) => inferInstanceAs (Decidable (∀ sc ∈ _, _))
  | .input _ .deliver | .input _ (.pick _) | .input _ .exit | .input _ .home
  | .commit _ | .completeCreate | .find _ _ | .gameAccepted _ | .snapshot _ _ =>
      inferInstanceAs (Decidable True)

/-- **The event is conclusive**: it picks no second move of a client, takes the walkover
branch only on a client that has won, and presents only known results. -/
def Conclusive (P : Pairing) (s : Session) (e : Event) : Prop :=
  s.PicksOneMove P e ∧ s.WalkoversWon P e ∧ s.PresentsKnown P e

instance (P : Pairing) (s : Session) (e : Event) : Decidable (s.Conclusive P e) :=
  inferInstanceAs (Decidable (_ ∧ _ ∧ _))

/-! ### The invariant -/

/-- The screen has presented only games that show the outcome of two issued picks. -/
def Presented (P : Pairing) (s : Session) (sc : Screen) : Prop :=
  ∀ r ∈ sc.controller.results, ∃ m ∈ s.issuedPicks P .acceptor,
    ∃ o ∈ s.issuedPicks P .requester, Shows P m o r

/-- **The invariant.** -/
structure Concluded (P : Pairing) (s : Session) : Prop where
  winners : s.Winners P false
  presented : ∀ sc ∈ s.screens, s.Presented P sc

variable {P : Pairing} {s s' : Session} {e : Event} {p : Player} {g : Game}

/-- A game that is not waiting for a pick has both moves. -/
theorem exists_moves (hcopy : P.Copy g) (h : g.verdict (P.userId p) ≠ .waiting) :
    ∃ m o, g.moves (P.userId .acceptor) = some m ∧ g.moves (P.userId .requester) = some o ∧
      m ≠ .idle ∧ o ≠ .idle ∧ (g.verdict (P.userId p) = .drawn → m = o) := by
  rw [hcopy.verdict] at h ⊢
  obtain ⟨x, y, hx, hy, hxi, hyi, hcases⟩ := Verdict.ofMoves_cases h
  have hdrawn : Verdict.ofMoves (g.moves (P.userId p)) (g.moves (P.userId p.other)) = .drawn →
      x = y := by
    intro hv
    rw [hv] at hcases
    simpa using hcases
  cases p with
  | acceptor => exact ⟨x, y, hx, hy, hxi, hyi, hdrawn⟩
  | requester => exact ⟨y, x, hy, hx, hyi, hxi, fun hv => (hdrawn hv).symm⟩

/-- **A known result is the outcome of the picks.** -/
theorem shows_of_resultKnown (hone : s.OneMove P) (hcopy : P.Copy g)
    (hpicked : s.EntriesPicked P g) (hproper : s.ProperWinner P g)
    (hknown : g.resultKnown (P.userId p) = true) :
    ∃ m ∈ s.issuedPicks P .acceptor, ∃ o ∈ s.issuedPicks P .requester,
      Shows P m o (some g) := by
  have hknown : g.verdict (P.userId p) ≠ .waiting ∧
      (g.winner.isSome = true ∨ g.verdict (P.userId p) = .drawn) := by
    simpa [Game.resultKnown] using hknown
  obtain ⟨hverdict, hsettled⟩ := hknown
  obtain ⟨m, o, hm, ho, hmi, hoi, hdrawn⟩ := exists_moves hcopy hverdict
  have hmp := hpicked .acceptor m hm hmi
  have hop := hpicked .requester o ho hoi
  refine ⟨m, hmp, o, hop, ⟨hmi, hoi⟩, g, rfl, hcopy, hm, ho, ?_⟩
  -- unless the moves are the same, the winner of the copy is the one of the picks
  have hwinner : ∀ q, s.Beats P q → m ≠ o → g.winner = some (P.user q) := by
    intro q hq hne
    rcases hsettled with hsome | hv
    · obtain ⟨u, hu⟩ := Option.isSome_iff_exists.mp hsome
      obtain ⟨q', hq', rfl⟩ := hproper u hu
      rw [hu, hq'.unique hone hq]
    · exact absurd (hdrawn hv) hne
  rcases Moves.lt_trichotomy hmi hoi with hlt | rfl | hgt
  · have hne : m ≠ o := by
      rintro rfl
      exact Moves.lt_irrefl m hlt
    rw [hwinner .requester ⟨o, hop, m, hmp, hlt⟩ hne, Pairing.outcome,
      if_neg (Moves.lt_asymm hlt), if_pos hlt]
  · rw [Pairing.outcome, if_neg (Moves.lt_irrefl m), if_neg (Moves.lt_irrefl m)]
    by_contra hne
    obtain ⟨u, hu⟩ := Option.ne_none_iff_exists'.mp hne
    obtain ⟨q, hq, -⟩ := hproper u hu
    exact not_beats_of_mem (p := .acceptor) hone hmp hop hq
  · have hne : m ≠ o := by
      rintro rfl
      exact Moves.lt_irrefl m hgt
    rw [hwinner .acceptor ⟨m, hmp, o, hop, hgt⟩ hne, Pairing.outcome, if_pos hgt]

/-- What a screen has presented is right also when more has been picked. -/
theorem Presented.mono {sc : Screen} (hsub : ∀ q, s.issuedPicks P q ⊆ s'.issuedPicks P q)
    (h : s.Presented P sc) : s'.Presented P sc := by
  intro r hr
  obtain ⟨m, hm, o, ho, hshows⟩ := h r hr
  exact ⟨m, hsub _ hm, o, hsub _ ho, hshows⟩

/-- **A conclusive step keeps the invariant.** -/
theorem Concluded.step (hs : s.Concluded P) (h : Step P s e s')
    (hheld : ∀ g, s.Holds g → P.Copy g ∧ s.EntriesPicked P g) (hC : s.Conclusive P e) :
    s'.Concluded P := by
  obtain ⟨hpick, hwalk, hknown⟩ := hC
  refine ⟨hs.winners.step h hheld hpick (by simp) fun _ => hwalk, ?_⟩
  have hshares : s.Shares (fun _ => True) (fun _ => True) (s.Presented P) :=
    ⟨fun _ _ _ => trivial, fun _ _ _ => trivial, hs.presented⟩
  have hnew : ∀ q g, s.Presented P ⟨q, .viewDidLoad g, 0, []⟩ := by
    intro q g r hr
    exact absurd hr (by simp [GameViewController.viewDidLoad])
  have hshares' := hshares.step h (fun _ _ _ _ => trivial) trivial (fun q => hnew q _)
    (fun q g _ => hnew q _) (fun sc version g hsc _ => hsc) ?_
  · exact fun sc hsc => (hshares'.screens sc hsc).mono h.issuedPicks_subset
  · rintro place i sc sc' ws rfl hsc hhandles
    refine ⟨fun r hr => ?_, fun _ _ => trivial⟩
    have hmem := List.mem_of_getElem? hsc
    rcases hhandles.results hr with hold | ⟨rfl, j, finished, rfl, hclosure⟩
    · exact hs.presented sc hmem r hold
    · obtain ⟨g, hg, hgknown⟩ := (Option.any_eq_true ..).mp (hknown sc hsc _ hclosure rfl)
      obtain ⟨hcopy, hpicked⟩ := hheld g (.screen hmem (.controller (.localCopy hg)))
      have hproper : s.ProperWinner P g := by
        rcases (hs.winners.shares.screens sc hmem).localCopy g hg with hproper | ⟨hw, -, -⟩
        · exact hproper
        · exact absurd hw (by simp)
      rw [hg]
      exact shows_of_resultKnown hs.winners.one hcopy hpicked hproper hgknown

/-! ### The run -/

/-- The two clients present the same results: the outcome of the moves on which they
finished. -/
def ResultsAgree (P : Pairing) (s : Session) : Prop :=
  ∀ a ∈ s.screens, ∀ b ∈ s.screens, a.owner = .acceptor → b.owner = .requester →
    ∀ r ∈ a.controller.results, ∀ r' ∈ b.controller.results,
      ∃ m o, Shows P m o r ∧ Shows P m o r' ∧
        showWinnerLooserInfo r = showWinnerLooserInfo r'

/-- **The results agree.** In every run whose events are conclusive, whatever the two
clients present shows the outcome of the two moves, the same on both. -/
theorem results_agree {es : List Event}
    (h : RunWhere (Session.step P) (Conclusive P) (init P) es s) : s.ResultsAgree P := by
  have hconcluded : s.Concluded P := by
    refine h.invariant_events (I := fun _ s => s.Concluded P)
      ⟨winners_init, by simp [init]⟩ ?_
    intro es t e t' hrun ht hC hstep
    have hheld : ∀ g, t.Holds g → P.Copy g ∧ t.EntriesPicked P g := fun g hg =>
      ⟨copy_of_run hrun.toRun g hg, entriesPicked_of_run hrun.toRun g hg⟩
    exact ht.step (step_of_step_eq hstep) hheld hC
  intro a ha b hb _ _ r hr r' hr'
  obtain ⟨m, hm, o, ho, hshows⟩ := hconcluded.presented a ha r hr
  obtain ⟨m', hm', o', ho', hshows'⟩ := hconcluded.presented b hb r' hr'
  obtain rfl := hconcluded.winners.one .acceptor m hm m' hm'
  obtain rfl := hconcluded.winners.one .requester o ho o' ho'
  exact ⟨m, o, hshows, hshows', hshows.showWinnerLooserInfo hshows'⟩

/-- The requester's rock beats the acceptor's scissors. The acceptor's client receives the
game with its winner, and both present it. -/
def bothPresent : List Event :=
  opening ++ [.input 1 (.pick .rock), .commit .requester, .snapshot 0 3,
    .input 0 .deliver, .input 0 (.pick .scissors), .commit .acceptor, .snapshot 1 4,
    .input 1 .deliver, .commit .requester, .input 1 (.fire 1 true), .input 1 (.fire 2 true),
    .commit .requester, .snapshot 0 6, .input 0 .deliver, .input 0 (.fire 1 true),
    .input 0 (.fire 1 true), .input 1 (.fire 2 true)]

/-- Both clients present the requester as the winner. -/
theorem results_agree_bothPresent : ∃ s, Run (Session.step sample) (init sample) bothPresent s ∧
    s.screens.map (fun sc => sc.controller.results.length) = [1, 1] ∧
      s.ResultsAgree sample := by
  have hrun : RunWhere (Session.step sample) (Conclusive sample) (init sample) bothPresent
      ((execWhere (Session.step sample) (Conclusive sample) (init sample) bothPresent).get
        (by decide)) := runWhere_get _
  exact ⟨_, hrun.toRun, by decide, results_agree hrun⟩

/-- The same moves, but the acceptor's client receives the game finished without a winner
first. -/
def bothWin : List Event :=
  opening ++ [.input 1 (.pick .rock), .commit .requester, .snapshot 0 3,
    .input 0 .deliver, .input 0 (.pick .scissors), .commit .acceptor, .snapshot 1 4,
    .input 1 .deliver, .commit .requester, .snapshot 0 5, .input 0 .deliver,
    .input 1 (.fire 1 true), .input 1 (.fire 2 true), .input 0 (.fire 2 true),
    .input 1 (.fire 2 true)]

/-- **The results disagree**: each client presents its own user as the winner. -/
theorem results_disagree : ¬ ∀ (P : Pairing) (es : List Event) (s : Session),
    RunWhere (Session.step P) (fun _ e => e.exits = false) (init P) es s →
    s.ResultsAgree P := by
  intro h
  have hrun : RunWhere (Session.step sample) (fun _ e => e.exits = false) (init sample)
      bothWin ((execWhere (Session.step sample) (fun _ e => e.exits = false) (init sample)
        bothWin).get (by decide)) := runWhere_get _
  have hshown : ∃ a b r r', ((execWhere (Session.step sample) (fun _ e => e.exits = false)
      (init sample) bothWin).get (by decide)).screens = [a, b] ∧ a.owner = .acceptor ∧
        b.owner = .requester ∧ a.controller.results = [r] ∧ b.controller.results = [r'] ∧
          showWinnerLooserInfo r = some (.wins "playerOne" "playerTwo" "avatarOne") ∧
          showWinnerLooserInfo r' = some (.wins "playerTwo" "playerOne" "avatarTwo") :=
    ⟨_, _, _, _, rfl, rfl, rfl, rfl, rfl, by decide, by decide⟩
  obtain ⟨a, b, r, r', hscreens, ha, hb, hr, hr', hwins, hwins'⟩ := hshown
  obtain ⟨m, o, -, -, hsame⟩ := h sample _ _ hrun a (by rw [hscreens]; simp) b
    (by rw [hscreens]; simp) ha hb r (by rw [hr]; simp) r' (by rw [hr']; simp)
  exact absurd (hwins.symm.trans (hsame.trans hwins')) (by decide)

end Session

end RockPaperScissors
