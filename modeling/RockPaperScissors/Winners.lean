import RockPaperScissors.Outcome

/-!
# The Winners a Session Names

This module follows the winners through a session: `Winners` says that every write and
every snapshot has a proper winner or none, and so has every local copy, up to one
exception.

The exception is the walkover branch of `updateGame`. It names the local user in the
local copy of a game that is finished without a winner, which is wrong whenever the local
user has not won. It does no harm to others as long as that copy is not written: the
buttons are off, so no pick writes it, and `checkForWinner` writes it only on a game that
is won, when the local user is the winner after all, or drawn.

The invariant therefore has two forms. With `walkovers` the branch may be taken at any
time, but no draw writes a local copy with a winner (`DrawsUnnamed`). Without, the branch
is only taken on a client that has won (`WalkoversWon`), and every local copy has a proper
winner or none.

## Main results

* `ScreenWinners.handles`: what an input keeps on a screen, and what it writes.
* `Winners.step`, `winners_of_run`: the invariant.
* `Winners.doc`: the stored document has a proper winner or none.
-/

open TransitionSystem

namespace RockPaperScissors

/-- A closure on the way to `setWinner`. -/
def Delayed.kicks : Delayed → Bool
  | animateFinalMoves myHand _ => myHand
  | setWinner _ => true
  | animateMoves _ => false
  | continueToResults => false

/-- A completion of `animateMoves` on which `checkForWinner` is going to find a verdict. -/
def Delayed.finds (localUserId : String) (verdict : Verdict) : Delayed → Bool
  | animateMoves game => game.verdict localUserId = verdict
  | _ => false

/-- A snapshot takes the walkover branch of `updateGame`: it is finished, and it has no
winner or `checkForWinner` has just cleared it. -/
def Game.walksOver (game : Game) (localUserId : String) : Bool :=
  game.state = .finished ∧ (game.winner.isNone ∨ (game.verdict localUserId).finishes)

namespace Session

/-! ### Conditions -/

/-- The event picks no second move of a client. -/
def PicksOneMove (P : Pairing) (s : Session) : Event → Prop
  | .input place (.pick m) => ∀ sc ∈ s.screens[place]?, ∀ m' ∈ s.issuedPicks P sc.owner, m' = m
  | _ => True

/-- The completion of `animateMoves` finds a draw only where the local copy has no
winner. -/
def DrawsUnnamed (P : Pairing) (s : Session) : Event → Prop
  | .input place (.fire i true) => ∀ sc ∈ s.screens[place]?,
      ∀ d ∈ sc.controller.delayed[i]?, d.finds (P.userId sc.owner) .drawn = true →
        ∀ copy ∈ sc.controller.game, copy.winner = none
  | _ => True

/-- The walkover branch of `updateGame` is taken only on a client that has won. -/
def WalkoversWon (P : Pairing) (s : Session) : Event → Prop
  | .input place .deliver => ∀ sc ∈ s.screens[place]?, ∀ g ∈ sc.inbox.head?,
      g.walksOver (P.userId sc.owner) = true → g.verdict (P.userId sc.owner) = .won
  | _ => True

instance (P : Pairing) (s : Session) (e : Event) : Decidable (s.PicksOneMove P e) :=
  match e with
  | .input _ (.pick _) => inferInstanceAs (Decidable (∀ sc ∈ _, _))
  | .input _ .deliver | .input _ (.fire _ _) | .input _ .exit | .input _ .home
  | .commit _ | .completeCreate | .find _ _ | .gameAccepted _ | .snapshot _ _ =>
      inferInstanceAs (Decidable True)

instance (P : Pairing) (s : Session) (e : Event) : Decidable (s.DrawsUnnamed P e) :=
  match e with
  | .input _ (.fire _ true) => inferInstanceAs (Decidable (∀ sc ∈ _, _))
  | .input _ .deliver | .input _ (.fire _ false) | .input _ (.pick _) | .input _ .exit
  | .input _ .home | .commit _ | .completeCreate | .find _ _ | .gameAccepted _
  | .snapshot _ _ => inferInstanceAs (Decidable True)

instance (P : Pairing) (s : Session) (e : Event) : Decidable (s.WalkoversWon P e) :=
  match e with
  | .input _ .deliver => inferInstanceAs (Decidable (∀ sc ∈ _, _))
  | .input _ (.fire _ _) | .input _ (.pick _) | .input _ .exit | .input _ .home
  | .commit _ | .completeCreate | .find _ _ | .gameAccepted _ | .snapshot _ _ =>
      inferInstanceAs (Decidable True)

/-! ### The invariant -/

/-- The local copy of a client has a proper winner or none, or the client's user by a
walkover, and then the buttons are off. -/
def LocalWinner (P : Pairing) (walkovers : Bool) (s : Session) (sc : Screen) (g : Game) :
    Prop :=
  s.ProperWinner P g ∨ (walkovers = true ∧ sc.controller.buttonsEnabled = false ∧
    g.winner = some (P.user sc.owner))

/-- What the invariant says of a screen. -/
structure ScreenWinners (P : Pairing) (walkovers : Bool) (s : Session) (sc : Screen) :
    Prop where
  inbox : ∀ g ∈ sc.inbox, s.ProperWinner P g
  localCopy : ∀ g, sc.controller.game = some g → s.LocalWinner P walkovers sc g
  kicking : ∀ d ∈ sc.controller.delayed, d.kicks = true → s.Beats P sc.owner

/-- **The invariant**: no client changes its pick, and the winners that are named are
proper, or walkovers where these are allowed for. -/
structure Winners (P : Pairing) (walkovers : Bool) (s : Session) : Prop where
  one : s.OneMove P
  shares : s.Shares (fun w => ∀ g, w.game? = some g → s.ProperWinner P g) (s.ProperWinner P)
    (s.ScreenWinners P walkovers)

variable {P : Pairing} {walkovers : Bool} {s s' : Session} {e : Event} {p q : Player}
  {g : Game}

/-- A local winner is right also when more has been picked. -/
theorem LocalWinner.mono {sc : Screen}
    (hsub : ∀ q, s.issuedPicks P q ⊆ s'.issuedPicks P q)
    (h : s.LocalWinner P walkovers sc g) : s'.LocalWinner P walkovers sc g := by
  rcases h with hproper | hwalk
  · exact Or.inl (hproper.mono hsub)
  · exact Or.inr hwalk

/-- The winners of a screen are right also when more has been picked. -/
theorem ScreenWinners.mono {sc : Screen}
    (hsub : ∀ q, s.issuedPicks P q ⊆ s'.issuedPicks P q)
    (h : s.ScreenWinners P walkovers sc) : s'.ScreenWinners P walkovers sc where
  inbox := fun g hg => (h.inbox g hg).mono hsub
  localCopy := fun g hg => (h.localCopy g hg).mono hsub
  kicking := fun d hd hk => (h.kicking d hd hk).mono hsub

/-! ### On a screen -/

/-- `checkForWinner` writes a proper winner or none, provided that a draw does not find a
walkover in the local copy, and kicks only on the client that has won. -/
theorem winners_of_checked {vc vc' : GameViewController} {ws : List GameWrite}
    (h : vc.Checked (P.userId p) g vc' ws) (hcopy : P.Copy g) (hpicked : s.EntriesPicked P g)
    (hlocal : ∀ c, vc.game = some c → s.ProperWinner P c ∨ c.winner = some (P.user p))
    (hdrawn : g.verdict (P.userId p) = .drawn →
      ∀ c, vc.game = some c → s.ProperWinner P c)
    (hkick : ∀ d ∈ vc.delayed, d.kicks = true → s.Beats P p) :
    (∀ d ∈ vc'.delayed, d.kicks = true → s.Beats P p) ∧
      (vc'.game = vc.game ∨ ∀ c, vc'.game = some c → c.winner = none) ∧
      ∀ w ∈ ws, ∀ c, w.game? = some c → s.ProperWinner P c := by
  cases h with
  | waiting _ => exact ⟨hkick, Or.inl rfl, by simp⟩
  | lost _ =>
      have hkick' := GameViewController.forall_mem_later
        (.animateFinalMoves false g) hkick (by simp [Delayed.kicks])
      exact ⟨hkick', Or.inl rfl, by simp⟩
  | @won copy hverdict hgame =>
      have hbeats : s.Beats P p := beats_of_won hcopy hpicked hverdict
      refine ⟨fun _ _ _ => hbeats, Or.inr fun c hc => ?_, fun w hw c hc => ?_⟩
      · obtain rfl := Option.some.inj hc
        rfl
      · obtain rfl := List.mem_singleton.mp hw
        obtain rfl := Option.some.inj hc
        rcases hlocal copy hgame with hproper | hwalk
        · exact hproper
        · intro u hu
          exact ⟨p, hbeats, Option.some.inj (hu.symm.trans hwalk)⟩
  | @drawn copy hverdict hgame =>
      have hkick' := GameViewController.forall_mem_later
        .continueToResults hkick (by simp [Delayed.kicks])
      refine ⟨hkick', Or.inr fun c hc => ?_, fun w hw c hc => ?_⟩
      · obtain rfl := Option.some.inj hc
        rfl
      · obtain rfl := List.mem_singleton.mp hw
        obtain rfl := Option.some.inj hc
        exact hdrawn hverdict copy hgame

/-- `checkForWinner` keeps the local copy, or decides and clears its winner. -/
theorem checked_game_cases {vc vc' : GameViewController} {localUserId : String}
    {ws : List GameWrite} (h : vc.Checked localUserId g vc' ws) :
    ((g.verdict localUserId).finishes = false ∧ vc'.game = vc.game) ∨
      (g.verdict localUserId).finishes = true ∧ vc'.game.bind Game.winner = none := by
  cases h with
  | waiting hverdict | lost hverdict => exact Or.inl ⟨by rw [hverdict]; rfl, rfl⟩
  | won hverdict _ | drawn hverdict _ => exact Or.inr ⟨by rw [hverdict]; rfl, rfl⟩

/-- The snapshot says whether `updateGame` takes the walkover branch. -/
theorem walksOver_iff_of_checked {vc vc' : GameViewController} {localUserId : String}
    {ws : List GameWrite} (h : (vc.receive localUserId g).Checked localUserId g vc' ws) :
    g.walksOver localUserId = true ↔
      g.state = .finished ∧ vc'.game.bind Game.winner = none := by
  rcases checked_game_cases h with ⟨hverdict, hgame⟩ | ⟨hverdict, hnone⟩
  · simp [Game.walksOver, hverdict, hgame]
  · simp [Game.walksOver, hverdict, hnone]

/-- When `updateGame` takes the walkover branch, the snapshot says so. -/
theorem walksOver_of_checked {vc vc' : GameViewController} {localUserId : String}
    {ws : List GameWrite} (h : (vc.receive localUserId g).Checked localUserId g vc' ws)
    (hfin : g.state = .finished) (hnone : vc'.game.bind Game.winner = none) :
    g.walksOver localUserId = true :=
  (walksOver_iff_of_checked h).mpr ⟨hfin, hnone⟩

/-- A delivered snapshot, up to the queue it came from. -/
theorem ScreenWinners.delivered {sc : Screen} {rest : List Game} {vc : GameViewController}
    {ws : List GameWrite} {place : ℕ} (hs : s.ScreenWinners P walkovers sc)
    (hmem : s.screens[place]? = some sc) (hinbox : sc.inbox = g :: rest)
    (h : sc.controller.Updated (P.userId sc.owner) g vc ws) (hcopy : P.Copy g)
    (hpicked : s.EntriesPicked P g)
    (hwalk : walkovers = false → s.WalkoversWon P (.input place .deliver)) :
    s.ScreenWinners P walkovers { sc with controller := vc, inbox := rest } ∧
      ∀ w ∈ ws, ∀ c, w.game? = some c → s.ProperWinner P c := by
  have hg : s.ProperWinner P g := hs.inbox g (hinbox ▸ List.mem_cons_self)
  have hrest : ∀ c ∈ rest, s.ProperWinner P c :=
    fun c hc => hs.inbox c (hinbox ▸ List.mem_cons_of_mem _ hc)
  have hreceived : ∀ c, (sc.controller.receive (P.userId sc.owner) g).game = some c →
      s.ProperWinner P c := by
    intro c hc
    rw [GameViewController.receive_game] at hc
    obtain rfl : g = c := Option.some.inj hc
    exact hg
  have hkick : ∀ d ∈ (sc.controller.receive (P.userId sc.owner) g).delayed,
      d.kicks = true → s.Beats P sc.owner :=
    GameViewController.forall_mem_receive hs.kicking (by simp [Delayed.kicks])
  cases h with
  | plain hcheck _ =>
      obtain ⟨hkick', hgame, hwrites⟩ := winners_of_checked hcheck hcopy hpicked
        (fun c hc => Or.inl (hreceived c hc)) (fun _ => hreceived) hkick
      refine ⟨⟨hrest, fun c hc => Or.inl ?_, hkick'⟩, hwrites⟩
      rcases hgame with hsame | hnone
      · exact hreceived c (hsame ▸ hc)
      · exact properWinner_of_none (hnone c hc)
  | @walkover vc' _ hcheck hfin hnone =>
      obtain ⟨hkick', -, hwrites⟩ := winners_of_checked hcheck hcopy hpicked
        (fun c hc => Or.inl (hreceived c hc)) (fun _ => hreceived) hkick
      have hlater := GameViewController.forall_mem_later
        .continueToResults hkick' (by simp [Delayed.kicks])
      refine ⟨⟨hrest, fun c hc => ?_, hlater⟩, hwrites⟩
      obtain ⟨copy, -, rfl⟩ := Option.map_eq_some_iff.mp hc
      have hwinner : g.player (P.userId sc.owner) = some (P.user sc.owner) :=
        hcopy.player sc.owner
      cases walkovers with
      | true =>
          refine Or.inr ⟨rfl, ?_, hwinner⟩
          have hbuttons := hcheck.buttonsEnabled
          rw [GameViewController.receive_buttonsEnabled, hfin] at hbuttons
          exact hbuttons
      | false =>
          left
          have hwon : g.verdict (P.userId sc.owner) = .won :=
            hwalk rfl sc hmem g (by rw [hinbox]; rfl)
              (walksOver_of_checked hcheck hfin hnone)
          intro u hu
          exact ⟨sc.owner, beats_of_won hcopy hpicked hwon,
            Option.some.inj (hu.symm.trans hwinner)⟩

/-- **What an input keeps on a screen, and what it writes.** -/
theorem ScreenWinners.handles {place : ℕ} {i : Input} {sc sc' : Screen}
    {ws : List GameWrite} (hs : s.ScreenWinners P walkovers sc)
    (hmem : s.screens[place]? = some sc) (h : sc.Handles (P.userId sc.owner) i sc' ws)
    (hheld : ∀ g, sc.Holds g → P.Copy g ∧ s.EntriesPicked P g)
    (hdraws : walkovers = true → s.DrawsUnnamed P (.input place i))
    (hwalk : walkovers = false → s.WalkoversWon P (.input place i)) :
    s.ScreenWinners P walkovers sc' ∧
      ∀ w ∈ ws, ∀ c, w.game? = some c → s.ProperWinner P c := by
  have htake : ∀ j, ∀ d ∈ (sc.takeClosure j).delayed, d.kicks = true → s.Beats P sc.owner :=
    fun j d hd hk => hs.kicking d (List.mem_of_mem_eraseIdx hd) hk
  cases h with
  | deliver hinbox hupdate =>
      obtain ⟨hcopy, hpicked⟩ := hheld _ (.inbox (hinbox ▸ List.mem_cons_self))
      exact hs.delivered hmem hinbox hupdate hcopy hpicked hwalk
  | interrupted _ => exact ⟨⟨hs.inbox, hs.localCopy, htake _⟩, by simp⟩
  | @animatedMoves j captured vc _ hclosure hcheck =>
      obtain ⟨hcopy, hpicked⟩ := hheld _ (Screen.holds_closure hclosure rfl)
      have hlocal : ∀ c, (sc.takeClosure j).game = some c →
          s.ProperWinner P c ∨ c.winner = some (P.user sc.owner) := by
        intro c hc
        rcases hs.localCopy c hc with hproper | ⟨-, -, hu⟩
        · exact Or.inl hproper
        · exact Or.inr hu
      have hdrawn : captured.verdict (P.userId sc.owner) = .drawn →
          ∀ c, (sc.takeClosure j).game = some c → s.ProperWinner P c := by
        intro hverdict c hc
        rcases hs.localCopy c hc with hproper | ⟨hw, -, -⟩
        · exact hproper
        · refine properWinner_of_none (hdraws hw sc hmem _ hclosure ?_ c hc)
          simpa [Delayed.finds] using hverdict
      obtain ⟨hkick, hgame, hwrites⟩ :=
        winners_of_checked hcheck hcopy hpicked hlocal hdrawn (htake j)
      refine ⟨⟨hs.inbox, fun c hc => ?_, hkick⟩, hwrites⟩
      rcases hgame with hsame | hnone
      · rcases hs.localCopy c (hsame ▸ hc) with hproper | ⟨hw, hoff, hu⟩
        · exact Or.inl hproper
        · exact Or.inr ⟨hw, hcheck.buttonsEnabled.trans hoff, hu⟩
      · exact Or.inl (properWinner_of_none (hnone c hc))
  | kicked hclosure =>
      have hbeats := hs.kicking _ (List.mem_of_getElem? hclosure) rfl
      exact ⟨⟨hs.inbox, hs.localCopy, fun _ _ _ => hbeats⟩, by simp⟩
  | @wasKicked j captured _ _ =>
      have hlater := GameViewController.forall_mem_later
        .continueToResults (htake j) (by simp [Delayed.kicks])
      exact ⟨⟨hs.inbox, hs.localCopy, hlater⟩, by simp⟩
  | wasKickedAlone _ _ => exact ⟨⟨hs.inbox, hs.localCopy, htake _⟩, by simp⟩
  | @declaredWinner j finished captured copy hclosure hcopy =>
      have hbeats := hs.kicking _ (List.mem_of_getElem? hclosure) rfl
      obtain ⟨hcaptured, -⟩ := hheld _ (Screen.holds_closure hclosure rfl)
      have hproper : s.ProperWinner P { copy with
          winner := captured.player (P.userId sc.owner)
          state := .finished } := by
        intro u hu
        have hu' := hu.symm.trans (hcaptured.player sc.owner)
        exact ⟨sc.owner, hbeats, Option.some.inj hu'⟩
      refine ⟨⟨hs.inbox, fun c hc => Or.inl ?_, fun _ _ _ => hbeats⟩, fun w hw c hc => ?_⟩
      · obtain rfl := Option.some.inj hc
        exact hproper
      · obtain rfl := List.mem_singleton.mp hw
        obtain rfl := Option.some.inj hc
        exact hproper
  | continuedToResults _ => exact ⟨⟨hs.inbox, hs.localCopy, htake _⟩, by simp⟩
  | pick _ henabled _ hgame =>
      refine ⟨⟨hs.inbox, fun c hc => ?_, hs.kicking⟩, fun w hw c hc => ?_⟩
      · rcases hs.localCopy c hc with hproper | ⟨hw, -, hu⟩
        · exact Or.inl hproper
        · exact Or.inr ⟨hw, rfl, hu⟩
      · obtain rfl := List.mem_singleton.mp hw
        obtain rfl := Option.some.inj hc
        rcases hs.localCopy _ hgame with hproper | ⟨-, hoff, -⟩
        · exact hproper
        · exact absurd (henabled.symm.trans hoff) (by simp)
  | pickNothing _ => exact ⟨hs, by simp⟩
  | exit _ _ => exact ⟨⟨hs.inbox, hs.localCopy, hs.kicking⟩, by simp [GameWrite.game?]⟩
  | exitNothing _ _ | home => exact ⟨⟨hs.inbox, hs.localCopy, hs.kicking⟩, by simp⟩

/-! ### In a session -/

/-- What holds of the written winners holds of every document the writes make. -/
theorem Winners.doc (hs : s.Winners P walkovers) (q : Player) (w : GameWrite)
    (hw : w ∈ s.store.issuedBy q) (doc : Option Game)
    (hdoc : ∀ g, doc = some g → s.ProperWinner P g) :
    ∀ g, w.apply doc = some g → s.ProperWinner P g :=
  GameWrite.apply_invariant (hs.shares.written q w hw) (fun _ _ hd hg => hd.merge hs.one hg)
    (fun _ _ _ hd => hd) hdoc

/-- The stored document has a proper winner or none. -/
theorem Winners.stored (hs : s.Winners P walkovers) (hg : s.stored = some g) :
    s.ProperWinner P g :=
  WriteLog.current_invariant (I := fun doc => ∀ g, doc = some g → s.ProperWinner P g)
    (by simp) hs.doc g hg

/-- What a client can see has a proper winner or none. -/
theorem Winners.view (hs : s.Winners P walkovers) {version : ℕ}
    (hg : s.view p version = some g) : s.ProperWinner P g :=
  WriteLog.view_invariant (I := fun doc => ∀ g, doc = some g → s.ProperWinner P g)
    (by simp) hs.doc version g hg

/-- There is no winner at first. -/
theorem winners_init : (init P).Winners P walkovers := by
  have hpicks : ∀ p, (init P).issuedPicks P p = [] := fun p => by cases p <;> rfl
  refine ⟨fun q m hm => absurd hm (by simp [hpicks]), shares_init fun g hg => ?_⟩
  obtain rfl := Option.some.inj hg
  exact properWinner_of_none rfl

/-- A client that picks no second move goes on with one. -/
theorem OneMove.step (hs : s.OneMove P) (hC : s.PicksOneMove P e) (h : Step P s e s') :
    s'.OneMove P := by
  intro q
  rcases h.issuedPicks with hsame | ⟨place, move, sc, rfl, hsc, -, -, -, hself, hother⟩
  · rw [hsame]
    exact hs q
  · by_cases hq : q = sc.owner
    · have hall : ∀ m ∈ s'.issuedPicks P q, m = move := by
        intro m hm
        rw [hq, hself] at hm
        rcases List.mem_append.mp hm with hold | hnew
        · exact hC sc hsc m hold
        · exact List.mem_singleton.mp hnew
      intro m hm m' hm'
      rw [hall m hm, hall m' hm']
    · rw [hother q hq]
      exact hs q

/-- A new screen on a game with a proper winner. -/
theorem screenWinners_viewDidLoad {g : Game} (hg : s.ProperWinner P g) (p : Player) :
    s.ScreenWinners P walkovers ⟨p, .viewDidLoad g, 0, []⟩ := by
  refine ⟨by simp, fun c hc => Or.inl ?_, by simp [GameViewController.viewDidLoad]⟩
  obtain rfl : g = c := Option.some.inj hc
  exact hg

/-- **A step keeps the invariant.** -/
theorem Winners.step (hs : s.Winners P walkovers) (h : Step P s e s')
    (hheld : ∀ g, s.Holds g → P.Copy g ∧ s.EntriesPicked P g) (hpick : s.PicksOneMove P e)
    (hdraws : walkovers = true → s.DrawsUnnamed P e)
    (hwalk : walkovers = false → s.WalkoversWon P e) : s'.Winners P walkovers := by
  have hsub := h.issuedPicks_subset
  have hshares := hs.shares.step h (fun p version g hg => hs.view hg)
    (by simp [GameWrite.game?])
    (screenWinners_viewDidLoad (properWinner_of_none rfl))
    (fun p g hg => screenWinners_viewDidLoad (g := { g with state := .inprogress }) hg p) ?_ ?_
  · exact ⟨hs.one.step hpick h, fun q w hw g hg => (hshares.written q w hw g hg).mono hsub,
      fun q g hg => (hshares.found q g hg).mono hsub,
      fun sc hsc => (hshares.screens sc hsc).mono hsub⟩
  · intro sc version g hsc hg
    have hinbox : ∀ c ∈ sc.inbox ++ [g], s.ProperWinner P c :=
      List.forall_mem_append.mpr ⟨hsc.inbox, List.forall_mem_singleton.mpr hg⟩
    exact ⟨hinbox, hsc.localCopy, hsc.kicking⟩
  · rintro place i sc sc' ws rfl hsc hhandles
    have hmem := List.mem_of_getElem? hsc
    exact (hs.shares.screens sc hmem).handles hsc hhandles
      (fun g hg => hheld g (.screen hmem hg)) hdraws hwalk

end Session

end RockPaperScissors
