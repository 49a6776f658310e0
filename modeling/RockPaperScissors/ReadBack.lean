import RockPaperScissors.GameDocuments
import RockPaperScissors.Provenance

/-!
# Reading a Game Back

What `data(as: Game.self)` makes of the document after `updateGameMoves` has merged a game
into it. The stored document and the written game are those of any runs of two clients; the
document is the tree of fields that the committed writes leave.

All copies of the game have the same players and the same keys of `moves`, so the written
game is read back but for the winner. A merge writes no field for a winner that is nil, nor
for a nil property of a winner: what is stored there stays.

## Main results

* `Session.of_stored`: the fields of the document are those of `Session.stored`.
* `written_game_read`: what is read, and when it is the written game.
* `stale_winner_read`: a game without a winner is read back with the stored winner.
-/

open TransitionSystem

namespace RockPaperScissors

open FieldValue

/-- The game that a write passes to `updateGameMoves`. -/
def GameWrite.updateGameMoves? : GameWrite → Option Game
  | create _ => none
  | picked game => some game
  | decided game => some game
  | status _ => none

/-- `updateGameMoves` writes a whole game. -/
theorem GameWrite.game?_of_updateGameMoves? {w : GameWrite} {g : Game}
    (h : w.updateGameMoves? = some g) : w.game? = some g := by
  cases w with
  | picked game | decided game => exact h
  | create game | status newState => exact absurd h (by simp [updateGameMoves?])

/-- **A written user replaces the stored one**: it has every property the stored one has, or
none at all. -/
def User.Replaces (new old : User) : Prop :=
  new = ⟨none, none, none, none⟩ ∨
    (new.id = none → old.id = none) ∧ (new.username = none → old.username = none) ∧
    (new.avatarImage = none → old.avatarImage = none) ∧
    (new.deviceToken = none → old.deviceToken = none)

/-- The first of two options is the result unless it is empty and the second is not. -/
theorem or_eq_left_iff {α : Type} {a b : Option α} : a.or b = a ↔ (a = none → b = none) := by
  cases a <;> simp

/-- A merge leaves the written user exactly when that replaces the stored one. -/
theorem User.merge_eq_iff {old new : User} : old.merge new = new ↔ new.Replaces old := by
  rw [User.merge, User.Replaces]
  split
  · next h => simp [h]
  · next h =>
      obtain ⟨id, username, avatarImage, deviceToken⟩ := new
      rw [or_iff_right h]
      simp [or_eq_left_iff]

namespace Game

/-- The written winner replaces the stored one. -/
def WinnerReplaces : Option User → Option User → Prop
  | none, old => old = none
  | some new, some old => new.Replaces old
  | some _, none => True

/-- A merge leaves the written winner exactly when that replaces the stored one. -/
theorem mergeWinner_eq_iff {old new : Option User} :
    mergeWinner old new = new ↔ WinnerReplaces new old := by
  cases old <;> cases new <;> simp [mergeWinner, WinnerReplaces, User.merge_eq_iff]

end Game

namespace Pairing

variable {P : Pairing} {d g : Game}

/-- **Copies agree but for the state, the winner and the moves**, and a merge leaves the
written moves. -/
theorem Copy.merge_eq (hd : P.Copy d) (hg : P.Copy g) :
    d.merge g = { g with winner := Game.mergeWinner d.winner g.winner } := by
  have hmoves : (fun userId => (g.moves userId).or (d.moves userId)) = g.moves := by
    funext userId
    rw [or_eq_left_iff]
    intro hnone
    refine hd.moves_none userId fun p hp => ?_
    have hsome := hg.moves_isSome p
    rw [← hp, hnone] at hsome
    exact Bool.noConfusion hsome
  rw [Game.merge, hmoves]

end Pairing

namespace Session

variable {P : Pairing} {s s' : Session} {es es' : List Event} {p : Player} {w : GameWrite}
  {d g : Game} {doc : Option Fields} {stored : Fields} {userIds : List String}

/-- The committed writes of the game document, oldest first. -/
def committed (s : Session) : List GameWrite :=
  s.store.log.map Prod.snd

/-- Every game that is written in a run is a copy of the game. -/
theorem copy_of_committed (h : Run (step P) (init P) es s) (hw : w ∈ s.committed)
    (hg : w.game? = some g) : P.Copy g := by
  obtain ⟨⟨p, w'⟩, hmem, rfl⟩ := List.mem_map.mp hw
  exact copy_of_run h g (.write (WriteLog.mem_issuedBy_of_mem_log hmem) hg)

/-- **The fields of the document are those of the stored game.** -/
theorem of_stored (h : Run (step P) (init P) es s)
    (hdoc : GameDocument.Stored s.committed doc) : Option.Rel OfGame doc s.stored :=
  GameDocument.of_stored hdoc fun _ hw _ hg => copy_of_committed h hw hg

/-- A document with fields is that of a stored game, from which it is decoded. -/
theorem exists_of_stored (h : Run (step P) (init P) es s)
    (hstored : GameDocument.Stored s.committed (some stored)) :
    ∃ d, s.stored = some d ∧ OfGame stored d := by
  have hof := of_stored h hstored
  revert hof
  generalize s.stored = doc
  intro hof
  cases hof with
  | some hd => exact ⟨_, rfl, hd⟩

/-- A stored game is in some document. -/
theorem exists_fields (h : Run (step P) (init P) es s) (hd : s.stored = some d) :
    ∃ stored, GameDocument.Stored s.committed (some stored) ∧ OfGame stored d := by
  obtain ⟨doc, hdoc⟩ := GameDocument.exists_stored fun w hw g hg => copy_of_committed h hw hg
  have hof := of_stored h hdoc
  rw [hd] at hof
  cases hof with
  | some hd => exact ⟨_, hdoc, hd⟩

/-- What is read of the document after the game has been merged into it. -/
theorem decode_patch (h : Run (step P) (init P) es s) (hd : s.stored = some d)
    (hof : OfGame stored d) (hg : P.Copy g) (hkeys : g.Keys userIds) :
    Game.decode (patch stored (g.encode userIds)) =
      some { g with winner := Game.mergeWinner d.winner g.winner } := by
  have hcopy : P.Copy d := stored_of_holds editClosed_copy (copy_of_run h) hd
  rw [← hcopy.merge_eq hg]
  exact (hof.patch hkeys (GameDocument.keys_ne_nil hg hkeys)).decode

/-- **A written game is read back but for the winner**: without one, the stored winner is
read; a winner is read with the stored properties it does not have, unless it has none. So
the written game is read exactly when its winner replaces the stored one. -/
theorem written_game_read (h : Run (step P) (init P) es s)
    (hstored : GameDocument.Stored s.committed (some stored))
    (h' : Run (step P) (init P) es' s') (hw : w ∈ s'.store.issuedBy p)
    (hg : w.updateGameMoves? = some g) (hkeys : g.Keys userIds) :
    ∃ d, Game.decode stored = some d ∧
      Game.decode (patch stored (g.encode userIds)) =
        some { g with winner := Game.mergeWinner d.winner g.winner } ∧
      (Game.decode (patch stored (g.encode userIds)) = some g ↔
        Game.WinnerReplaces g.winner d.winner) := by
  obtain ⟨d, hd, hof⟩ := exists_of_stored h hstored
  have hcopy : P.Copy g := copy_of_run h' g (.write hw (GameWrite.game?_of_updateGameMoves? hg))
  have hread := decode_patch h hd hof hcopy hkeys
  refine ⟨d, hof.decode, hread, ?_⟩
  rw [hread, ← Game.mergeWinner_eq_iff]
  constructor
  · intro hsame
    exact congrArg Game.winner (Option.some.inj hsame)
  · intro hsame
    rw [hsame]

/-- Both play rock, and the acceptor's client finishes the game. The requester's client
receives it, names its own user by a walkover and writes that; then the completion of
`animateMoves` on the acceptor's client writes the drawn game once more. -/
def drawnAfterWalkover : List Event :=
  opening ++ [.input 1 (.pick .rock), .commit .requester, .snapshot 0 3,
    .input 0 .deliver, .input 0 (.pick .rock), .commit .acceptor, .snapshot 0 4,
    .input 0 .deliver, .commit .acceptor, .snapshot 1 5, .input 1 .deliver,
    .input 1 (.fire 0 true), .commit .requester, .commit .requester, .input 0 (.fire 0 true)]

/-- The write carries a game without a winner. -/
def writesNoWinner : GameWrite → Bool
  | .decided game => game.winner.isNone
  | _ => false

/-- In the run a winner is stored, and a decided game without one has been issued. -/
theorem exists_of_drawnAfterWalkover : ∃ s d u g,
    Run (step sample) (init sample) drawnAfterWalkover s ∧ s.stored = some d ∧
    d.winner = some u ∧ .decided g ∈ s.store.issuedBy .acceptor ∧ g.winner = none := by
  have hsome : ((exec (step sample) (init sample) drawnAfterWalkover).any fun s =>
      (s.stored.bind Game.winner).isSome ∧ (s.store.outbox .acceptor).any writesNoWinner) =
        true := by decide
  obtain ⟨s, hs, hfound⟩ := (Option.any_eq_true _ _).mp hsome
  obtain ⟨hwinner, hwrites⟩ := of_decide_eq_true hfound
  obtain ⟨u, hu⟩ := Option.isSome_iff_exists.mp hwinner
  obtain ⟨d, hd, hdu⟩ := Option.bind_eq_some_iff.mp hu
  obtain ⟨w, hw, hnone⟩ := List.any_eq_true.mp hwrites
  cases w with
  | decided g =>
      exact ⟨s, d, u, g, runWhere_of_execWhere hs, hd, hdu,
        WriteLog.mem_issuedBy_of_mem_outbox hw, Option.isNone_iff_eq_none.mp hnone⟩
  | create _ | picked _ | status _ => exact absurd hnone (by simp [writesNoWinner])

/-- The drawn game is read with the winner that is stored. -/
theorem written_game_read_drawn : ∃ s stored d g,
    Run (step sample) (init sample) drawnAfterWalkover s ∧
    GameDocument.Stored s.committed (some stored) ∧ .decided g ∈ s.store.issuedBy .acceptor ∧
    Game.decode stored = some d ∧
    Game.decode (patch stored (g.encode ["uid1", "uid2"])) =
      some { g with winner := d.winner } := by
  obtain ⟨s, d, u, g, hrun, hd, -, hw, hnone⟩ := exists_of_drawnAfterWalkover
  obtain ⟨stored, hstored, -⟩ := exists_fields hrun hd
  have hkeys : g.Keys ["uid1", "uid2"] :=
    GameDocument.keys_of_copy (copy_of_run hrun g (.write hw rfl))
  obtain ⟨d', hd', hread, -⟩ := written_game_read hrun hstored hrun hw rfl hkeys
  refine ⟨s, stored, d', g, hrun, hstored, hw, hd', ?_⟩
  rw [hread, hnone]
  cases d'.winner <;> rfl

/-- **A game without a winner is read back with one**: a merge leaves the stored winner. -/
theorem stale_winner_read : ¬ ∀ (P : Pairing) (es : List Event) (s : Session) (p : Player)
    (w : GameWrite) (g : Game) (stored : Fields) (userIds : List String),
    Run (step P) (init P) es s → GameDocument.Stored s.committed (some stored) →
    w ∈ s.store.issuedBy p → w.updateGameMoves? = some g → g.Keys userIds →
    Game.decode (patch stored (g.encode userIds)) = some g := by
  intro h
  obtain ⟨s, d, u, g, hrun, hd, hu, hw, hnone⟩ := exists_of_drawnAfterWalkover
  obtain ⟨stored, hstored, hof⟩ := exists_fields hrun hd
  have hcopy : sample.Copy g := copy_of_run hrun g (.write hw rfl)
  have hkeys := GameDocument.keys_of_copy hcopy
  have hread := decode_patch hrun hd hof hcopy hkeys
  rw [h sample _ s .acceptor _ g stored _ hrun hstored hw rfl hkeys] at hread
  have hwinner := congrArg Game.winner (Option.some.inj hread)
  rw [hnone, hu] at hwinner
  exact absurd hwinner (by simp [Game.mergeWinner])

end Session

end RockPaperScissors
