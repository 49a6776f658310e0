import RockPaperScissors.Provenance
import RockPaperScissors.Writes

/-!
# Who Wins a Game

The winner a session is entitled to name is the player whose pick beats the opponent's.
`Session.Beats` says it of the issued picks, and `Session.ProperWinner` says of a game
that the winner it has, if any, is that player.

## Main results

* `entriesPicked_of_run`: the moves of every game in a session are issued picks.
* `Beats.unique`: when no client changes its pick, at most one player wins.
* `beats_of_won`: `checkForWinner` is right about the games of a session.
* `ProperWinner.merge`: merges of games with proper winners have proper winners.
-/

open TransitionSystem

namespace RockPaperScissors

namespace Session

/-! ### Entries are picks -/

/-- Every entry of the game that is not idle is an issued pick of its player. -/
def EntriesPicked (P : Pairing) (s : Session) (g : Game) : Prop :=
  ∀ p m, g.moves (P.userId p) = some m → m ≠ .idle → m ∈ s.issuedPicks P p

variable {P : Pairing} {s s' : Session} {e : Event} {p q : Player} {g : Game}

/-- Edits of games whose entries are picks have no other entries. -/
theorem editClosed_entriesPicked : EditClosed (s.EntriesPicked P) where
  merge := by
    intro d g hd hg p m hm hidle
    rcases Game.merge_moves_cases hm with h | h
    · exact hg p m h hidle
    · exact hd p m h hidle
  state := fun _ _ hg => hg
  noWinner := fun _ hg => hg
  winner := fun _ _ hg _ _ => hg

/-- A step issues picks and takes none back. -/
theorem Step.issuedPicks_subset (h : Step P s e s') (p : Player) :
    s.issuedPicks P p ⊆ s'.issuedPicks P p := by
  rcases h.issuedPicks with hsame | ⟨place, move, sc, -, -, -, -, -, hself, hother⟩
  · rw [hsame]
    exact List.Subset.refl _
  · by_cases hp : p = sc.owner
    · rw [hp, hself]
      exact List.subset_append_left _ _
    · rw [hother p hp]
      exact List.Subset.refl _

/-- A tap on a screen with a game issues the move. -/
theorem Step.mem_issuedPicks {place : ℕ} {move : Moves} {sc : Screen}
    (h : Step P s (.input place (.pick move)) s') (hsc : s.screens[place]? = some sc)
    (hgame : sc.controller.game = some g) : move ∈ s'.issuedPicks P sc.owner := by
  cases h with
  | input hsc' hhandle =>
      obtain rfl := Option.some.inj (hsc'.symm.trans hsc)
      cases Screen.handles_of_handle hhandle with
      | pick _ _ _ _ =>
          simp [Session.issuedPicks, WriteLog.issuedBy_issue, GameWrite.picks,
            GameWrite.pick?]
      | pickNothing hnone => exact absurd (hnone.symm.trans hgame) (by simp)

/-- **Every game in a reachable session has issued picks only.** -/
theorem entriesPicked_of_run {es : List Event} (h : Run (Session.step P) (init P) es s) :
    ∀ g, s.Holds g → s.EntriesPicked P g := by
  refine h.invariant (I := fun s => ∀ g, s.Holds g → s.EntriesPicked P g) ?_ ?_
  · intro g hg p m hm hidle
    rw [eq_createdGame_of_holds_init hg, Pairing.createdGame_moves] at hm
    exact absurd (Option.some.inj hm).symm hidle
  · intro t e t' ht _ hstep
    have hstep := step_of_step_eq hstep
    have hsub : ∀ g, t.EntriesPicked P g → t'.EntriesPicked P g :=
      fun g hg p m hm hidle => hstep.issuedPicks_subset p (hg p m hm hidle)
    refine hstep.holds editClosed_entriesPicked hsub ?_ ?_ ht
    · intro p m hm hidle
      rw [Pairing.createdGame_moves] at hm
      exact absurd (Option.some.inj hm).symm hidle
    · rintro place m sc g rfl hsc _ hgame hg p m' hm' hidle
      by_cases hp : P.userId p = P.userId sc.owner
      · rw [hp, Game.setMove_self] at hm'
        obtain rfl := Option.some.inj hm'
        rw [P.userId_injective hp]
        exact hstep.mem_issuedPicks hsc hgame
      · rw [Game.setMove_of_ne g m hp] at hm'
        exact hsub g hg p m' hm' hidle

/-! ### The winning player -/

/-- No client has issued two different moves. -/
def OneMove (P : Pairing) (s : Session) : Prop :=
  ∀ p, ∀ m ∈ s.issuedPicks P p, ∀ m' ∈ s.issuedPicks P p, m = m'

/-- A pick of `p` beats one of the opponent. -/
def Beats (P : Pairing) (s : Session) (p : Player) : Prop :=
  ∃ m ∈ s.issuedPicks P p, ∃ o ∈ s.issuedPicks P p.other, o < m

/-- **At most one player wins**, when no client changes its pick. -/
theorem Beats.unique (hone : s.OneMove P) (hp : s.Beats P p) (hq : s.Beats P q) : p = q := by
  obtain ⟨m, hm, o, ho, hlt⟩ := hp
  obtain ⟨m', hm', o', ho', hlt'⟩ := hq
  rcases p.eq_or_eq_other q with rfl | rfl
  · rfl
  · rw [Player.other_other] at ho'
    obtain rfl := hone p m hm o' ho'
    obtain rfl := hone p.other o ho m' hm'
    exact absurd hlt' (Moves.lt_asymm hlt)

/-- A pick that beats the other still does when more has been picked. -/
theorem Beats.mono (hsub : ∀ q, s.issuedPicks P q ⊆ s'.issuedPicks P q)
    (h : s.Beats P p) : s'.Beats P p := by
  obtain ⟨m, hm, o, ho, hlt⟩ := h
  exact ⟨m, hsub p hm, o, hsub p.other ho, hlt⟩

/-- Two different picks have a winner, so there is none when both players have picked one
move. -/
theorem not_beats_of_mem (hone : s.OneMove P) {m : Moves} (hm : m ∈ s.issuedPicks P p)
    (ho : m ∈ s.issuedPicks P p.other) : ¬ s.Beats P q := by
  rintro ⟨m', hm', o', ho', hlt⟩
  rcases p.eq_or_eq_other q with rfl | rfl
  · obtain rfl := hone _ m hm m' hm'
    obtain rfl := hone _ m ho o' ho'
    exact Moves.lt_irrefl m hlt
  · rw [Player.other_other] at ho'
    obtain rfl := hone _ m ho m' hm'
    obtain rfl := hone _ m hm o' ho'
    exact Moves.lt_irrefl m hlt

/-- A won verdict names the winning player. -/
theorem beats_of_won (hcopy : P.Copy g) (hg : s.EntriesPicked P g)
    (h : g.verdict (P.userId p) = .won) : s.Beats P p := by
  rw [hcopy.verdict] at h
  obtain ⟨m, o, hm, ho, hmi, hoi, hcases⟩ := Verdict.ofMoves_cases (by rw [h]; decide)
  rw [h] at hcases
  have hlt : o < m := by simpa using hcases
  exact ⟨m, hg p m hm hmi, o, hg p.other o ho hoi, hlt⟩

/-! ### Proper winners -/

/-- The winner of the game, if it has one, is the winning player. -/
def ProperWinner (P : Pairing) (s : Session) (g : Game) : Prop :=
  ∀ u, g.winner = some u → ∃ p, s.Beats P p ∧ u = P.user p

/-- Nobody is no improper winner. -/
theorem properWinner_of_none (h : g.winner = none) : s.ProperWinner P g := by
  intro u hu
  exact absurd (h.symm.trans hu) (by simp)

/-- A winner is proper also when more has been picked. -/
theorem ProperWinner.mono (hsub : ∀ q, s.issuedPicks P q ⊆ s'.issuedPicks P q)
    (h : s.ProperWinner P g) : s'.ProperWinner P g := by
  intro u hu
  obtain ⟨p, hp, rfl⟩ := h u hu
  exact ⟨p, hp.mono hsub, rfl⟩

/-- Proper winners merge into a proper winner: they are one user. -/
theorem ProperWinner.merge {d : Game} (hone : s.OneMove P) (hd : s.ProperWinner P d)
    (hg : s.ProperWinner P g) : s.ProperWinner P (d.merge g) := by
  intro u hu
  cases hwritten : g.winner with
  | none =>
      rw [Game.merge_winner_of_none hwritten] at hu
      exact hd u hu
  | some v =>
      obtain ⟨p, hp, rfl⟩ := hg v hwritten
      cases hstored : d.winner with
      | none =>
          have hv : some (P.user p) = some u := by
            simpa [Game.merge, Game.mergeWinner, hwritten, hstored] using hu
          exact ⟨p, hp, (Option.some.inj hv).symm⟩
      | some w =>
          obtain ⟨q, hq, rfl⟩ := hd w hstored
          obtain rfl := hp.unique hone hq
          have hv : some (P.user p) = some u := by
            simpa [Game.merge, Game.mergeWinner, hwritten, hstored, User.merge_self] using hu
          exact ⟨p, hp, (Option.some.inj hv).symm⟩

end Session

end RockPaperScissors
