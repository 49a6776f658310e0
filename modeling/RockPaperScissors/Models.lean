import Mathlib.Logic.Function.Basic
import Mathlib.Order.Lattice

/-!
# The Models

The values the program stores and passes around: `Moves` with its comparison, `User`,
`Game` with its `GameState`, and `GameRequest`, from the files of `Models`. Optional
properties are `Option`, the dictionary `moves` is the function of its lookups, and a
time stamp is the number of milliseconds the source reads from the clock.

`Game.merge` is what `setData(from:merge: true)` makes of a stored game and a written
one. The encoder drops nil optionals, an array is replaced as a whole, and a merge
overwrites exactly the leaf fields present in the encoding: every field of the written
game, the entries of `moves` it has, and of an existing winner the fields the written
winner has. (An empty map is itself a leaf, so a winner without any field replaces the
stored one.)

## Main results

* `Moves.lt_trichotomy`, `Moves.lt_asymm`: on moves that are not idle the comparison
  decides every pair one way.
* `Game.merge_moves`, `Game.merge_winner_id`: what a merge leaves of the stored moves
  and of the stored winner.
-/

namespace RockPaperScissors

/-! ### Moves -/

/-- A move; `idle` is the one of a player who has not picked. -/
inductive Moves
  | idle
  | rock
  | paper
  | scissors
  deriving DecidableEq, Repr

namespace Moves

/-- `Moves.<`. -/
def lt : Moves → Moves → Bool
  | rock, paper => true
  | paper, scissors => true
  | scissors, rock => true
  | idle, paper => true
  | idle, rock => true
  | idle, scissors => true
  | _, _ => false

instance : LT Moves := ⟨fun lhs rhs => lt lhs rhs = true⟩

instance decidableLt (lhs rhs : Moves) : Decidable (lhs < rhs) :=
  inferInstanceAs (Decidable (lt lhs rhs = true))

/-- No two moves beat each other. -/
theorem lt_asymm {m o : Moves} (h : m < o) : ¬ o < m := by
  revert h
  cases m <;> cases o <;> decide

/-- No move beats itself. -/
theorem lt_irrefl (m : Moves) : ¬ m < m := fun h => lt_asymm h h

/-- **Two different moves that are not idle have a winner.** -/
theorem lt_trichotomy {m o : Moves} (hm : m ≠ idle) (ho : o ≠ idle) :
    m < o ∨ m = o ∨ o < m := by
  revert hm ho
  cases m <;> cases o <;> decide

end Moves

/-! ### Users -/

/-- A user. All that is decoded from a document may be missing. -/
structure User where
  id : Option String
  username : Option String
  avatarImage : Option String
  deviceToken : Option String
  deriving DecidableEq, Repr

/-- A written user laid over a stored one, field by field. Without any field the written
user is an empty map, which replaces the stored one. -/
def User.merge (old new : User) : User :=
  if new = ⟨none, none, none, none⟩ then new
  else
    { id := new.id.or old.id
      username := new.username.or old.username
      avatarImage := new.avatarImage.or old.avatarImage
      deviceToken := new.deviceToken.or old.deviceToken }

/-- The id of a merged user is the written one when there is one. -/
theorem User.merge_id {old new : User} {i : String} (h : new.id = some i) :
    (old.merge new).id = some i := by
  unfold User.merge
  split
  · exact h
  · simp [h]

/-- A user written over itself is that user. -/
theorem User.merge_self (u : User) : u.merge u = u := by
  unfold User.merge
  split
  · rfl
  · simp

/-! ### Games -/

/-- `Game.GameState`. -/
inductive GameState
  | starting
  | inprogress
  | finished
  deriving DecidableEq, Repr

namespace GameState

/-- The place of a state in the life of a game. -/
def rank : GameState → ℕ
  | starting => 0
  | inprogress => 1
  | finished => 2

/-- The states have different ranks. -/
theorem rank_injective : Function.Injective rank := by
  intro a b h
  revert h
  cases a <;> cases b <;> decide

/-- States are ordered by the life of a game. -/
instance : LinearOrder GameState := LinearOrder.lift' rank rank_injective

/-- `finished` is the last state. -/
theorem eq_finished_of_le {a : GameState} (h : finished ≤ a) : a = finished := by
  revert h
  cases a <;> decide

end GameState

/-- Milliseconds, as `Date().toMiliseconds()` reads them. -/
abbrev TimeInterval := ℕ

/-- A game of two players. -/
structure Game where
  id : String
  players : List User
  moves : String → Option Moves
  playerIds : List String
  winner : Option User
  createdAt : TimeInterval
  state : GameState

namespace Game

/-- `Game.init(id:players:moves:)`, called at the time `now`. -/
def new (id : String) (players : List User) (moves : String → Option Moves)
    (now : TimeInterval) : Game where
  id := id
  players := players
  moves := moves
  playerIds := players.filterMap fun user => user.id
  winner := none
  createdAt := now
  state := .starting

/-- `game.moves[userId] = move`. -/
def setMove (game : Game) (userId : String) (move : Moves) : Game :=
  { game with moves := Function.update game.moves userId (some move) }

/-- `players.filter({ $0.id == userId }).first`. -/
def player (game : Game) (userId : String) : Option User :=
  (game.players.filter fun user => user.id = some userId).head?

/-- `players.filter({ $0.id != userId }).first`. -/
def opponentUser (game : Game) (userId : String) : Option User :=
  (game.players.filter fun user => user.id ≠ some userId).head?

/-- The id of `opponentUser`, as the guards of `GameViewController` bind it. -/
def opponentUserId (game : Game) (userId : String) : Option String :=
  (game.opponentUser userId).bind User.id

/-- The stored winner under a written one. -/
def mergeWinner : Option User → Option User → Option User
  | old, none => old
  | none, some new => some new
  | some old, some new => some (old.merge new)

/-- The document `setData(from: new, merge: true)` leaves where `old` was stored. Firestore
merges the entries of `moves`, but replaces the stored map by an empty one; the entries are
kept here then, which no write of a game does, since every copy has an entry for each of its
two players. -/
def merge (old new : Game) : Game where
  id := new.id
  players := new.players
  moves := fun userId => (new.moves userId).or (old.moves userId)
  playerIds := new.playerIds
  winner := mergeWinner old.winner new.winner
  createdAt := new.createdAt
  state := new.state

/-- A move that is set is the user's move. -/
@[simp] theorem setMove_self (game : Game) (userId : String) (move : Moves) :
    (game.setMove userId move).moves userId = some move := by
  simp [setMove]

/-- The other users' moves stay. -/
theorem setMove_of_ne (game : Game) {userId other : String} (move : Moves)
    (h : other ≠ userId) : (game.setMove userId move).moves other = game.moves other := by
  simp [setMove, h]

/-- To set a move does not change the state. -/
@[simp] theorem setMove_state (game : Game) (userId : String) (move : Moves) :
    (game.setMove userId move).state = game.state := rfl

/-- The state of a merge is the one that is written. -/
@[simp] theorem merge_state (old new : Game) : (old.merge new).state = new.state := rfl

/-- A written entry replaces the stored one. -/
theorem merge_moves {old new : Game} {userId : String} {m : Moves}
    (h : new.moves userId = some m) : (old.merge new).moves userId = some m := by
  simp [merge, h]

/-- A merged entry is one of the two. -/
theorem merge_moves_cases {old new : Game} {userId : String} {m : Moves}
    (h : (old.merge new).moves userId = some m) :
    new.moves userId = some m ∨ old.moves userId = some m := by
  cases hnew : new.moves userId with
  | none => exact Or.inr (by simpa [merge, hnew] using h)
  | some m' => exact Or.inl (by simpa [merge, hnew] using h)

/-- A game without a winner leaves the stored winner, which is how a stored winner
survives every later write that does not name one. -/
theorem merge_winner_of_none {old new : Game} (h : new.winner = none) :
    (old.merge new).winner = old.winner := by
  simp [merge, mergeWinner, h]

/-- A merged winner has the id of the written winner. -/
theorem merge_winner_id (old : Game) {new : Game} {u : User} {i : String}
    (h : new.winner = some u) (hi : u.id = some i) :
    ∃ v, (old.merge new).winner = some v ∧ v.id = some i := by
  cases hold : old.winner with
  | none => exact ⟨u, by simp [merge, mergeWinner, h, hold], hi⟩
  | some w => exact ⟨w.merge u, by simp [merge, mergeWinner, h, hold], User.merge_id hi⟩

end Game

/-! ### Game requests -/

/-- A request for a game. -/
structure GameRequest where
  id : String
  /-- `from`, the user who initiated the request. -/
  fromId : String
  /-- `to`, the user who was invited to play. -/
  toId : String
  createdAt : Option TimeInterval
  fromUsername : Option String
  deriving DecidableEq, Repr

end RockPaperScissors
