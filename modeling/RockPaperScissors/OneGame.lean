import RockPaperScissors.GameStates
import RockPaperScissors.LobbySteps
import RockPaperScissors.Provenance

/-!
# One Ongoing Game for Each User

Whether a user is in a game is checked once, for the invited user, before the request is
sent. Nothing is checked when the request is accepted, so two requests to one user, or a
request accepted by a user who is playing by then, make a second game
(`two_ongoing`).

Users have one ongoing game in the runs in which an accept creates its game only when
every other game of its two users is finished, and in which the games only move forward:
a finished game that is taken back is ongoing again.

## Main results

* `Separate.step`: the invariant, earlier games of a user are finished.
* `one_ongoing`: in every run under the condition each user is in at most one stored game
  that is not finished.
* `two_ongoing`: without the condition a user is in two.
-/

open TransitionSystem

namespace RockPaperScissors

namespace Lobby

variable (s : Lobby)

/-- **The users of a new game are free, and games move forward**: when `createGame` is
called, the games of its users that were not rejected are stored as finished, and a game
that takes a step writes its state forward. -/
def FreePlayers (e : LobbyEvent) : Prop :=
  (match e with
    | .userFetched _ (some pairing) => ∀ userId ∈ pairing.userIds, ∀ g ∈ s.games,
        g.rejected = false → userId ∈ g.pairing.userIds →
        g.session.stored.map Game.state = some .finished
    | _ => True) ∧
  ∀ driven ∈ s.driven e, ∀ g ∈ s.games[driven.1]?, g.session.Forward g.pairing driven.2

instance (e : LobbyEvent) : Decidable (s.FreePlayers e) :=
  match e with
  | .userFetched _ (some _) =>
      inferInstanceAs (Decidable ((∀ userId ∈ _, _) ∧ ∀ driven ∈ _, _))
  | .userFetched _ none | .invite _ | .requestChecked _ _ | .gameChecked _ _ _ _
  | .requestStarted _ | .commitRequest _ | .tapAccept _ | .lookedUp _ _ | .rejectGame _
  | .gameCreated _ | .enableCancelGame _ | .timerTick _ | .close _ | .find _ _ _
  | .gameAccepted _ | .game _ _ => inferInstanceAs (Decidable (True ∧ ∀ driven ∈ _, _))

/-- Each user is in at most one stored game that is not finished. -/
def OneOngoing : Prop :=
  ∀ (i j : ℕ) (g g' : LobbyGame) (d d' : Game) (userId : String),
    s.games[i]? = some g → s.games[j]? = some g' →
    g.session.stored = some d → g'.session.stored = some d' →
    userId ∈ d.playerIds → userId ∈ d'.playerIds →
    d.state ≠ .finished → d'.state ≠ .finished → i = j

/-- Games only move forward, rejected games are not stored, and an earlier game of a user
of a later one is finished. -/
structure Separate : Prop where
  rising : ∀ g ∈ s.games, g.session.Rising
  rejected : ∀ g ∈ s.games, g.rejected = true → g.session.stored = none
  earlier : ∀ (i j : ℕ) (g g' : LobbyGame) (userId : String), i < j →
    s.games[i]? = some g → s.games[j]? = some g' → g.rejected = false →
    userId ∈ g.pairing.userIds → userId ∈ g'.pairing.userIds →
    g.session.stored.map Game.state = some .finished

variable {s} {s' : Lobby} {e : LobbyEvent} {place : ℕ} {g g' : LobbyGame}

/-- A stored game of the lobby lists its two users. -/
theorem playerIds_eq_userIds {es : List LobbyEvent} (h : Run Lobby.step init es s)
    (hg : g ∈ s.games) {d : Game} (hd : g.session.stored = some d) :
    d.playerIds = g.pairing.userIds := by
  obtain ⟨es', hrun⟩ := session_of_run h g hg
  exact (Session.stored_of_holds Session.editClosed_copy (Session.copy_of_run hrun)
    hd).playerIds_eq

/-- A game that only moves forward stays finished. -/
theorem Advances.finished (h : s.Advances e place g g') (hC : s.FreePlayers e)
    (hplace : s.games[place]? = some g) (hs : g.session.Rising)
    (hfin : g.session.stored.map Game.state = some .finished) :
    g'.session.stored.map Game.state = some .finished := by
  cases h with
  | stays | rejected _ _ => exact hfin
  | steps hdriven _ hsession =>
      have hforward := hC.2 _ hdriven g hplace
      obtain ⟨d, hd, hstate⟩ := Option.map_eq_some_iff.mp hfin
      obtain ⟨d', hd', hle⟩ :=
        (hs.step hforward (Session.step_of_step_eq hsession)).2 d hd
      rw [hstate] at hle
      rw [hd', Option.map_some, GameState.eq_finished_of_le hle]

/-- There are no games at first. -/
theorem separate_init : init.Separate :=
  ⟨by simp [init], by simp [init], by simp [init]⟩

/-- **Games of one user stay separate.** -/
theorem Separate.step (hs : s.Separate) (hC : s.FreePlayers e) (h : Step s e s') :
    s'.Separate where
  rising := by
    refine h.sessions (φ := fun _ s => s.Rising) hs.rising
      (fun P => Session.rising_init) ?_
    intro place g e' session hg hdriven hrising hsession
    exact (hrising.step (hC.2 _ hdriven g hg) (Session.step_of_step_eq hsession)).1
  rejected := by
    intro g' hg' hrejected
    obtain ⟨place, hplace⟩ := List.mem_iff_getElem?.mp hg'
    rcases h.games hplace with ⟨g, hg, hadv⟩ |
      ⟨j, a, r, pairing, -, -, -, -, -, -, -, rfl⟩
    · have hmem := List.mem_of_getElem? hg
      cases hadv with
      | stays => exact hs.rejected _ hmem hrejected
      | steps _ hnot _ => exact absurd (hnot.symm.trans hrejected) (by simp)
      | rejected _ hlog =>
          simp [Session.stored, WriteLog.current, WriteLog.replay, hlog]
    · exact absurd hrejected (by simp)
  earlier := by
    intro i j g₁ g₂ userId hlt hg₁ hg₂ hrejected huser₁ huser₂
    rcases h.games hg₁ with ⟨g, hg, hadv⟩ |
      ⟨k, a, r, pairing, rfl, -, -, -, -, hplace, -, -⟩
    · have hnot := hadv.not_rejected hrejected
      have hrising := hs.rising g (List.mem_of_getElem? hg)
      rw [hadv.pairing] at huser₁
      refine hadv.finished hC hg hrising ?_
      rcases h.games hg₂ with ⟨g', hg', hadv'⟩ |
        ⟨k, a, r, pairing, rfl, -, -, -, -, -, -, rfl⟩
      · rw [hadv'.pairing] at huser₂
        exact hs.earlier i j g g' userId hlt hg hg' hnot huser₁ huser₂
      · exact hC.1 userId huser₂ g (List.mem_of_getElem? hg) hnot huser₁
    · -- The new game is the last one.
      rcases h.games hg₂ with ⟨g', hg', -⟩ | ⟨-, -, -, -, -, -, -, -, -, hplace', -, -⟩
      · have hold : j < s.games.length := (List.getElem?_eq_some_iff.mp hg').1
        omega
      · omega

/-- The earlier one of two stored games of a user is finished. -/
theorem Separate.finished {es : List LobbyEvent} {i j : ℕ} {d d' : Game} {userId : String}
    (hs : s.Separate) (hrun : Run Lobby.step init es s) (hlt : i < j)
    (hg : s.games[i]? = some g) (hg' : s.games[j]? = some g')
    (hd : g.session.stored = some d) (hd' : g'.session.stored = some d')
    (huser : userId ∈ d.playerIds) (huser' : userId ∈ d'.playerIds) :
    d.state = .finished := by
  have hmem := List.mem_of_getElem? hg
  have hrejected : g.rejected = false := by
    by_contra hrej
    have hnone := hs.rejected g hmem (by simpa using hrej)
    exact absurd (hd.symm.trans hnone) (by simp)
  rw [playerIds_eq_userIds hrun hmem hd] at huser
  rw [playerIds_eq_userIds hrun (List.mem_of_getElem? hg') hd'] at huser'
  have hfin := hs.earlier i j g g' userId hlt hg hg' hrejected huser huser'
  rw [hd] at hfin
  exact Option.some.inj hfin

/-- **One ongoing game for each user**, in every run in which new games have free users
and games move forward. -/
theorem one_ongoing {es : List LobbyEvent}
    (h : RunWhere Lobby.step FreePlayers init es s) : s.OneOngoing := by
  have hs : s.Separate :=
    h.invariant separate_init fun t e t' ht hC hstep => ht.step hC (step_of_step_eq hstep)
  intro i j g g' d d' userId hg hg' hd hd' huser huser' hnot hnot'
  rcases Nat.lt_trichotomy i j with hlt | heq | hgt
  · exact absurd (hs.finished h.toRun hlt hg hg' hd hd' huser huser') hnot
  · exact heq
  · exact absurd (hs.finished h.toRun hgt hg' hg hd' hd huser' huser) hnot'

/-- The first user accepts a request, plays, leaves the game, and accepts another one. -/
def oneAfterTheOther : List LobbyEvent :=
  inviting 0 "request" (sampleInvitation "uid2" "uid1" uid2_ne_uid1) ++
    accepting 0 0 0 (samplePairing "game" "uid1" "uid2" uid2_ne_uid1.symm) ++
    [.find 0 0 1, .gameAccepted 0, .game 0 (.commit .requester), .game 0 (.input 0 .exit),
      .game 0 (.commit .acceptor)] ++
    inviting 1 "request2" (sampleInvitation "uid3" "uid1" uid3_ne_uid1) ++
    accepting 1 1 1 (samplePairing "game2" "uid1" "uid3" uid3_ne_uid1.symm)

/-- Two games are stored after `oneAfterTheOther`, one of them finished. -/
theorem one_ongoing_oneAfterTheOther : ∃ s, Run Lobby.step init oneAfterTheOther s ∧
    s.games.map (fun g => g.session.stored.map Game.state) =
      [some .finished, some .starting] ∧ s.OneOngoing := by
  have hrun : RunWhere Lobby.step FreePlayers init oneAfterTheOther
      ((execWhere Lobby.step FreePlayers init oneAfterTheOther).get (by decide)) :=
    runWhere_get _
  exact ⟨_, hrun.toRun, by decide, one_ongoing hrun⟩

/-- Two users invite the first user, who accepts both. -/
def twoRequests : List LobbyEvent :=
  inviting 0 "request" (sampleInvitation "uid2" "uid1" uid2_ne_uid1) ++
    inviting 1 "request2" (sampleInvitation "uid3" "uid1" uid3_ne_uid1) ++
    accepting 0 0 0 (samplePairing "game" "uid1" "uid2" uid2_ne_uid1.symm) ++
    accepting 1 1 1 (samplePairing "game2" "uid1" "uid3" uid3_ne_uid1.symm)

/-- **The first user is in two ongoing games.** -/
theorem two_ongoing :
    ¬ ∀ (es : List LobbyEvent) (s : Lobby), Run Lobby.step init es s → s.OneOngoing := by
  intro h
  have hrun : Run Lobby.step init twoRequests
      ((exec Lobby.step init twoRequests).get (by decide)) := runWhere_get _
  have hone := h _ _ hrun 0 1 _ _ _ _ "uid1" rfl rfl rfl rfl (by decide) (by decide)
    (by decide) (by decide)
  exact absurd hone (by decide)

end Lobby

end RockPaperScissors
