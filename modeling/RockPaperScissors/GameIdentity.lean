import RockPaperScissors.Provenance
import RockPaperScissors.RequestTrace

/-!
# The Identity of a Game

Every pick and every end of a game rewrites the whole document from a local copy, its id,
players and time of creation included. All these copies descend from the game `createGame`
wrote, and neither the edits of the program nor a merge touches what identifies the game:
`Game.SameGame` lists it. In particular `players.filter({ $0.id != localUser.id }).first`
is the opponent on both clients.

A client writes to the document with the id of its local copy, which therefore is the
document the game was created under.

## Main results

* `Pairing.Copy.sameGame`: copies of the created game are the same game.
* `identity_immutable`: in every run, every game that is stored, seen by a client or kept
  anywhere is the same game as the created one.
-/

open TransitionSystem

namespace RockPaperScissors

/-- The game `g` has the identity of the game `created`, and its entries of `moves` and its
winner are those of its players. -/
structure Game.SameGame (created g : Game) : Prop where
  id : g.id = created.id
  players : g.players = created.players
  playerIds : g.playerIds = created.playerIds
  createdAt : g.createdAt = created.createdAt
  playerIds_eq : g.players.map User.id = g.playerIds.map some
  keys : ∀ userId, (g.moves userId).isSome ↔ userId ∈ g.playerIds
  winner : ∀ u, g.winner = some u → ∃ userId ∈ g.playerIds, u.id = some userId

namespace Pairing

variable {P : Pairing} {g : Game}

/-- Both players' ids are stored in a copy. -/
theorem Copy.userId_mem (h : P.Copy g) (p : Player) : P.userId p ∈ g.playerIds := by
  rw [h.playerIds_eq]
  cases p <;> simp

/-- **A copy of the created game is the same game.** -/
theorem Copy.sameGame (h : P.Copy g) : P.createdGame.SameGame g where
  id := h.id_eq
  players := h.players_eq
  playerIds := h.playerIds_eq.trans copy_createdGame.playerIds_eq.symm
  createdAt := h.createdAt_eq
  playerIds_eq := by simp [h.players_eq, h.playerIds_eq, players, P.user_id]
  keys := by
    intro userId
    constructor
    · intro hkey
      by_contra hmem
      have hne : ∀ p, userId ≠ P.userId p := by
        rintro p rfl
        exact hmem (h.userId_mem p)
      rw [h.moves_none userId hne] at hkey
      exact absurd hkey (by simp)
    · intro hmem
      rw [h.playerIds_eq] at hmem
      rcases List.mem_cons.mp hmem with rfl | hmem
      · exact h.moves_isSome .acceptor
      · obtain rfl := List.mem_singleton.mp hmem
        exact h.moves_isSome .requester
  winner := by
    intro u hu
    obtain ⟨p, hp⟩ := h.winner_id u hu
    exact ⟨P.userId p, h.userId_mem p, hp⟩

/-- On a copy the first player with another id is the other user. -/
theorem Copy.opponentUser (h : P.Copy g) (p : Player) :
    g.opponentUser (P.userId p) = some (P.user p.other) := by
  have hne := P.userId_ne
  cases p <;>
    simp [Game.opponentUser, h.players_eq, players, P.user_id, Player.other, hne, hne.symm]

end Pairing

namespace Lobby

/-- **The identity of a game is immutable.** Every game document, wherever it is found, is
the same game as the one `createGame` made of the two users of the request, and each of
them finds the other one in it. -/
theorem identity_immutable {s : Lobby} {es : List LobbyEvent}
    (h : Run Lobby.step init es s) {g : LobbyGame} (hg : g ∈ s.games) {d : Game}
    (hd : g.session.Finds d) :
    ∃ created, createGame g.pairing.gameId g.pairing.players g.pairing.createdAt = some created ∧
      created.SameGame d ∧ d.playerIds = [g.gameRequest.toId, g.gameRequest.fromId] ∧
      ∀ p, d.opponentUser (g.pairing.userId p) = some (g.pairing.user p.other) := by
  obtain ⟨es', hrun⟩ := session_of_run h g hg
  have hcopy : g.pairing.Copy d := hd.of_holds Session.editClosed_copy (Session.copy_of_run hrun)
  obtain ⟨hacceptor, hrequester⟩ := users_of_run h g hg
  refine ⟨_, g.pairing.createGame_eq, hcopy.sameGame, ?_, hcopy.opponentUser⟩
  rw [hcopy.playerIds_eq, hacceptor, hrequester]

/-- The second user invites the first, who accepts and picks rock. -/
def acceptingAndPicking : List LobbyEvent :=
  inviting 0 "request" (sampleInvitation "uid2" "uid1" uid2_ne_uid1) ++
    accepting 0 0 0 (samplePairing "game" "uid1" "uid2" uid2_ne_uid1.symm) ++
    [.find 0 0 1, .gameAccepted 0, .game 0 (.commit .requester), .game 0 (.snapshot 0 2),
      .game 0 (.input 0 .deliver), .game 0 (.input 0 (.pick .rock)),
      .game 0 (.commit .acceptor)]

/-- The document stored at the end of `acceptingAndPicking` is still the created game. -/
theorem identity_immutable_acceptingAndPicking : ∃ s g d created,
    Run Lobby.step init acceptingAndPicking s ∧ g ∈ s.games ∧ g.session.stored = some d ∧
      d.moves "uid1" = some .rock ∧
      createGame g.pairing.gameId g.pairing.players g.pairing.createdAt = some created ∧
      created.SameGame d := by
  have hrun : Run Lobby.step init acceptingAndPicking
      ((exec Lobby.step init acceptingAndPicking).get (by decide)) := runWhere_get _
  have hpicked : ((((exec Lobby.step init acceptingAndPicking).get (by decide)).games.head?.bind
      fun g => g.session.stored).any fun d => d.moves "uid1" = some .rock) = true := by
    decide
  obtain ⟨d, hd, hrock⟩ := (Option.any_eq_true _ _).mp hpicked
  obtain ⟨g, hg, hstored⟩ := Option.bind_eq_some_iff.mp hd
  obtain ⟨created, hcreated, hsame, -⟩ :=
    identity_immutable hrun (List.mem_of_head? hg) (Or.inl hstored)
  exact ⟨_, g, d, created, hrun, List.mem_of_head? hg, hstored, by simpa using hrock,
    hcreated, hsame⟩

end Lobby

end RockPaperScissors
