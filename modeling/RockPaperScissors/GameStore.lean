import RockPaperScissors.Models
import RockPaperScissors.WriteLog

/-!
# Games in the Store

The operations of `DataStore+Game.swift` on one game document: what each of them writes
(`GameWrite`), what a write makes of the document (`GameWrite.apply`), and what the two
queries read. A document is an `Option Game`, `none` while it does not exist.

The game of a session is played by the two users of a `Pairing`: the user who accepted
the request, on whose device `createGame` runs, and the user who sent it. The pairing
carries the facts that make the game one of two players, and `Pairing.Copy` is what
every copy of the game keeps of them.

## Main results

* `Pairing.createGame_eq`: for two users with ids `createGame` succeeds, and what it
  writes is a copy of the game.
* `apply_invariant`, `Pairing.Copy.merge`: what writes keep, and that merges of copies are copies.
* `Pairing.Copy.opponentUserId`, `Pairing.Copy.player`: on a copy, the lookups by which
  `GameViewController` tells the two players apart find the right user.
-/

namespace RockPaperScissors

/-- The two users of a game: `acceptor` accepted the request and created the game,
`requester` sent the request. -/
inductive Player
  | acceptor
  | requester
  deriving DecidableEq, Repr

/-- The opponent. -/
def Player.other : Player → Player
  | acceptor => requester
  | requester => acceptor

/-- The opponent of the opponent. -/
@[simp] theorem Player.other_other (p : Player) : p.other.other = p := by
  cases p <;> rfl

/-- Nobody is the own opponent. -/
theorem Player.other_ne (p : Player) : p.other ≠ p := by
  cases p <;> decide

/-- There are two players. -/
theorem Player.eq_or_eq_other (p q : Player) : q = p ∨ q = p.other := by
  cases p <;> cases q <;> decide

/-! ### Writes -/

/-- A write of a game document. `picked` and `decided` are both `updateGameMoves`, that
is `setData(from: game, merge: true)`: the first is the call in `pickedMove`, the second
the calls in `checkForWinner` and `setWinner`. -/
inductive GameWrite
  /-- `createGame`: `setData(from: game)`. -/
  | create (game : Game)
  /-- `updateGameMoves` from `pickedMove`. -/
  | picked (game : Game)
  /-- `updateGameMoves` from `checkForWinner` or `setWinner`. -/
  | decided (game : Game)
  /-- `updateGameStatus`: `updateData(["state" : newState])`. -/
  | status (newState : GameState)

namespace GameWrite

/-- The game a write carries. -/
def game? : GameWrite → Option Game
  | create game => some game
  | picked game => some game
  | decided game => some game
  | status _ => none

/-- The state a write leaves in the document. -/
def state : GameWrite → GameState
  | create game => game.state
  | picked game => game.state
  | decided game => game.state
  | status newState => newState

/-- `setData(from: game, merge: true)`; it also creates a missing document. -/
def mergeInto (doc : Option Game) (game : Game) : Option Game :=
  match doc with
  | none => some game
  | some stored => some (stored.merge game)

/-- What a write makes of the document. `updateData` fails on a missing document. -/
def apply (doc : Option Game) : GameWrite → Option Game
  | create game => some game
  | picked game => mergeInto doc game
  | decided game => mergeInto doc game
  | status newState => doc.map fun stored => { stored with state := newState }

/-- Whatever document a write leaves has the state of the write. -/
theorem state_of_apply {doc : Option Game} {w : GameWrite} {g : Game}
    (h : apply doc w = some g) : g.state = w.state := by
  cases w with
  | create game =>
      obtain rfl : game = g := Option.some.inj h
      rfl
  | picked game | decided game =>
      cases doc with
      | none =>
          obtain rfl : game = g := Option.some.inj h
          rfl
      | some stored =>
          obtain rfl : stored.merge game = g := Option.some.inj h
          rfl
  | status newState =>
      cases doc with
      | none => exact absurd h (by simp [apply])
      | some stored =>
          obtain rfl := Option.some.inj h
          rfl

/-- A write leaves a document unless it updates a missing one. -/
theorem isSome_apply {doc : Option Game} (h : doc.isSome) (w : GameWrite) :
    (apply doc w).isSome := by
  obtain ⟨stored, rfl⟩ := Option.isSome_iff_exists.mp h
  cases w <;> rfl

/-- A whole-game write leaves the entries of `moves` it has. -/
theorem moves_apply {w : GameWrite} {g : Game} {userId : String} {m : Moves}
    (hw : w.game? = some g) (hm : g.moves userId = some m) (doc : Option Game) :
    ∃ d, apply doc w = some d ∧ d.moves userId = some m := by
  cases w with
  | create game =>
      obtain rfl : game = g := Option.some.inj hw
      exact ⟨game, rfl, hm⟩
  | picked game | decided game =>
      obtain rfl : game = g := Option.some.inj hw
      cases doc with
      | none => exact ⟨game, rfl, hm⟩
      | some stored => exact ⟨stored.merge game, rfl, Game.merge_moves hm⟩
  | status newState => exact absurd hw (by simp [game?])

/-- Any other write leaves the stored moves. -/
theorem moves_apply_of_game?_eq_none {w : GameWrite} (hw : w.game? = none) (d : Game) :
    ∃ d', apply (some d) w = some d' ∧ d'.moves = d.moves := by
  cases w with
  | status newState => exact ⟨_, rfl, rfl⟩
  | create game | picked game | decided game => exact absurd hw (by simp [game?])

/-- Predicates that merges and status updates keep are kept by every write that carries
a game with the predicate. -/
theorem apply_invariant {φ : Game → Prop} {w : GameWrite}
    (hw : ∀ g, w.game? = some g → φ g) (hmerge : ∀ d g, φ d → φ g → φ (d.merge g))
    (hstate : ∀ d st, w = .status st → φ d → φ { d with state := st }) {doc : Option Game}
    (hdoc : ∀ d, doc = some d → φ d) : ∀ d, apply doc w = some d → φ d := by
  intro d hd
  cases w with
  | create game =>
      obtain rfl : game = d := Option.some.inj hd
      exact hw _ rfl
  | picked game | decided game =>
      cases doc with
      | none =>
          obtain rfl : game = d := Option.some.inj hd
          exact hw _ rfl
      | some stored =>
          obtain rfl : stored.merge game = d := Option.some.inj hd
          exact hmerge _ _ (hdoc _ rfl) (hw _ rfl)
  | status newState =>
      cases doc with
      | none => exact absurd hd (by simp [apply])
      | some stored =>
          obtain rfl := Option.some.inj hd
          exact hstate _ _ rfl (hdoc _ rfl)

end GameWrite

/-! ### Operations -/

/-- `moves[$0.id!] = .idle`; `none` when the user has no id to unwrap. -/
def setIdle (moves : String → Option Moves) (user : User) :
    Option (String → Option Moves) :=
  user.id.map fun userId => Function.update moves userId (some .idle)

/-- The game `createGame(players:)` writes under the new document id; `none` when a
player has no id to unwrap. -/
def createGame (documentID : String) (players : List User) (now : TimeInterval) :
    Option Game :=
  (players.foldlM setIdle fun _ => none).map fun moves =>
    Game.new documentID players moves now

/-- The query of `setGameListener`: the starting games of the local user. -/
def isStartingGameOf (localUserId : String) (game : Game) : Prop :=
  localUserId ∈ game.playerIds ∧ game.state = .starting

instance (localUserId : String) (game : Game) :
    Decidable (isStartingGameOf localUserId game) :=
  inferInstanceAs (Decidable (_ ∧ _))

/-- The answer of `checkForOngoingGameWith` when the query reads the given documents. -/
def checkForOngoingGameWith (docs : List Game) (userId : String) : Bool :=
  docs.any fun game => userId ∈ game.playerIds ∧ game.state ≠ .finished

/-! ### The two users of a game -/

/-- Two users with distinct ids, and the document of their game. -/
structure Pairing where
  gameId : String
  createdAt : TimeInterval
  user : Player → User
  userId : Player → String
  user_id : ∀ p, (user p).id = some (userId p)
  userId_ne : userId .acceptor ≠ userId .requester

namespace Pairing

variable (P : Pairing)

/-- The two players have different ids. -/
theorem userId_other_ne (p : Player) : P.userId p.other ≠ P.userId p := by
  cases p with
  | acceptor => exact P.userId_ne.symm
  | requester => exact P.userId_ne

/-- An id tells the player. -/
theorem userId_injective {p q : Player} (h : P.userId p = P.userId q) : p = q := by
  rcases p.eq_or_eq_other q with rfl | rfl
  · rfl
  · exact absurd h.symm (P.userId_other_ne p)

/-- The players of the game: `createGame(players: [localUser, user])`. -/
def players : List User := [P.user .acceptor, P.user .requester]

/-- The game `createGame` writes for the two users. -/
def createdGame : Game :=
  Game.new P.gameId P.players (Function.update (Function.update (fun _ => none)
    (P.userId .acceptor) (some .idle)) (P.userId .requester) (some .idle)) P.createdAt

/-- **`createGame` succeeds** for two users with ids. -/
theorem createGame_eq : createGame P.gameId P.players P.createdAt = some P.createdGame := by
  simp [createGame, players, setIdle, P.user_id, createdGame]

/-- A **copy** of the game: the identity of the game, an entry of `moves` for exactly
the two players, and no winner but one of them. -/
structure Copy (g : Game) : Prop where
  id_eq : g.id = P.gameId
  players_eq : g.players = P.players
  playerIds_eq : g.playerIds = [P.userId .acceptor, P.userId .requester]
  createdAt_eq : g.createdAt = P.createdAt
  moves_isSome : ∀ p, (g.moves (P.userId p)).isSome
  moves_none : ∀ userId, (∀ p, userId ≠ P.userId p) → g.moves userId = none
  winner_id : ∀ u, g.winner = some u → ∃ p, u.id = some (P.userId p)

variable {P}

/-- The game that is created is a copy of the game. -/
theorem copy_createdGame : P.Copy P.createdGame where
  id_eq := rfl
  players_eq := rfl
  playerIds_eq := by simp [createdGame, Game.new, players, P.user_id]
  createdAt_eq := rfl
  moves_isSome := by
    intro p
    cases p with
    | acceptor => simp [createdGame, Game.new, P.userId_ne]
    | requester => simp [createdGame, Game.new]
  moves_none := by
    intro userId h
    simp [createdGame, Game.new, h .acceptor, h .requester]
  winner_id := by simp [createdGame, Game.new]

/-- Both players start with `idle`. -/
theorem createdGame_moves (p : Player) :
    P.createdGame.moves (P.userId p) = some .idle := by
  cases p with
  | acceptor => simp [createdGame, Game.new, P.userId_ne]
  | requester => simp [createdGame, Game.new]

/-- A game is created as `starting`. -/
@[simp] theorem createdGame_state : P.createdGame.state = .starting := rfl

/-- A copy has a move for each player. -/
theorem Copy.exists_move {g : Game} (h : P.Copy g) (p : Player) :
    ∃ m, g.moves (P.userId p) = some m :=
  Option.isSome_iff_exists.mp (h.moves_isSome p)

/-- On a copy the first player with another id is the opponent. -/
theorem Copy.opponentUserId {g : Game} (h : P.Copy g) (p : Player) :
    g.opponentUserId (P.userId p) = some (P.userId p.other) := by
  have hne := P.userId_ne
  cases p <;>
    simp [Game.opponentUserId, Game.opponentUser, h.players_eq, players, P.user_id,
      Player.other, hne, hne.symm]

/-- On a copy the first player with the local id is the local player. -/
theorem Copy.player {g : Game} (h : P.Copy g) (p : Player) :
    g.player (P.userId p) = some (P.user p) := by
  have hne := P.userId_ne
  cases p <;> simp [Game.player, h.players_eq, players, P.user_id, hne, hne.symm]

/-- **A merge of copies is a copy.** -/
theorem Copy.merge {d g : Game} (hd : P.Copy d) (hg : P.Copy g) : P.Copy (d.merge g) where
  id_eq := hg.id_eq
  players_eq := hg.players_eq
  playerIds_eq := hg.playerIds_eq
  createdAt_eq := hg.createdAt_eq
  moves_isSome := by
    intro p
    obtain ⟨m, hm⟩ := hg.exists_move p
    simp [Game.merge_moves hm]
  moves_none := by
    intro userId h
    simp [Game.merge, hg.moves_none userId h, hd.moves_none userId h]
  winner_id := by
    intro u hu
    cases hw : g.winner with
    | none =>
        rw [Game.merge_winner_of_none hw] at hu
        exact hd.winner_id u hu
    | some v =>
        obtain ⟨p, hp⟩ := hg.winner_id v hw
        obtain ⟨v', hv', hid⟩ := Game.merge_winner_id d hw hp
        obtain rfl : v' = u := Option.some.inj (hv'.symm.trans hu)
        exact ⟨p, hid⟩

/-- A copy with another state is a copy. -/
theorem Copy.withState {g : Game} (h : P.Copy g) (st : GameState) :
    P.Copy { g with state := st } :=
  { h with }

/-- A copy without its winner is a copy. -/
theorem Copy.withoutWinner {g : Game} (h : P.Copy g) : P.Copy { g with winner := none } :=
  { h with winner_id := by simp }

/-- A copy in which a player has another move is a copy. -/
theorem Copy.setMove {g : Game} (h : P.Copy g) (p : Player) (m : Moves) :
    P.Copy (g.setMove (P.userId p) m) :=
  { h with
    moves_isSome := by
      intro q
      by_cases hq : P.userId q = P.userId p
      · simp [hq]
      · rw [Game.setMove_of_ne g m hq]
        exact h.moves_isSome q
    moves_none := by
      intro userId huser
      rw [Game.setMove_of_ne g m (huser p)]
      exact h.moves_none userId huser }

end Pairing

end RockPaperScissors
