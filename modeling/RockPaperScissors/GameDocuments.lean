import Mathlib.Data.List.Induction
import RockPaperScissors.GameEncoding
import RockPaperScissors.GameStore

/-!
# Game Documents

The documents of the collection `games` as Firestore keeps them, as trees of fields: what
`setData(from:)`, `setData(from:merge: true)` and `updateData` make of them
(`GameDocument.Writes`), and what a list of writes leaves (`GameDocument.Stored`).

The rest of the development describes the document by the game it decodes to, with
`Game.merge` and `GameWrite.apply`. Here that description is derived from the merge of the
leaf fields.

## Main results

* `OfUser.laid`, `OfMoves.laid`: the maps of a game laid over stored ones.
* `OfGame.patch`: `setData(from:merge: true)` leaves the fields of `Game.merge`.
* `GameDocument.of_stored`: the fields that writes leave are those of the game that
  `GameWrite.apply` leaves.
-/

namespace RockPaperScissors

open FieldValue

variable {fields : Fields} {user old new : User} {d g game : Game} {userIds : List String}
  {entries : Fields} {moves : String → Option Moves}

/-! ### Merging -/

/-- A string replaces what is stored in its place. -/
theorem map_laid_text (stored : Fields) (value : Option String) :
    (value.map text).map (laid stored) = value.map text := by
  cases value <;> rfl

/-- **A user laid over a stored one** has the fields of `User.merge`. -/
theorem OfUser.laid {stored : Fields} (h : OfUser stored old) (new : User) :
    OfUserField (laid stored (.map new.fields)) (old.merge new) := by
  have hnew := ofUser_fields new
  rw [User.merge]
  by_cases hnone : new = ⟨none, none, none, none⟩
  · -- an empty map is a leaf
    rw [if_pos hnone]
    exact ⟨new.fields, by rw [fields_eq_nil_iff.mpr hnone]; rfl, hnew⟩
  · rw [if_neg hnone]
    obtain ⟨merged, hlaid, hlookup⟩ :=
      exists_laid_map (mt fields_eq_nil_iff.mp hnone) (nodup_fields new)
    refine ⟨merged, hlaid, ?_, ?_, ?_, ?_⟩
    · rw [hlookup, hnew.id_eq, map_laid_text, h.id_eq, ← Option.map_or]
    · rw [hlookup, hnew.username_eq, map_laid_text, h.username_eq, ← Option.map_or]
    · rw [hlookup, hnew.avatarImage_eq, map_laid_text, h.avatarImage_eq, ← Option.map_or]
    · rw [hlookup, hnew.deviceToken_eq, map_laid_text, h.deviceToken_eq, ← Option.map_or]

/-- A winner laid over the stored field, if there is one. -/
theorem ofUserField_laid {stored : Fields} {key : String} {winner : Option User}
    (h : Option.Rel OfUserField (stored.lookup key) winner) (new : User) :
    Option.Rel OfUserField (some (laid (child stored key) (.map new.fields)))
      (Game.mergeWinner winner (some new)) := by
  rw [child]
  revert h
  generalize stored.lookup key = field
  intro h
  cases h with
  | none =>
      have hnone : OfUser [] ⟨none, none, none, none⟩ := ⟨rfl, rfl, rfl, rfl⟩
      have hlaid := hnone.laid new
      have hmerge : User.merge ⟨none, none, none, none⟩ new = new := by
        simp [User.merge]
      rw [hmerge] at hlaid
      exact Option.Rel.some hlaid
  | some huser =>
      obtain ⟨w, rfl, hw⟩ := huser
      exact Option.Rel.some (hw.laid new)

/-- The keys of the entries are among the keys they are listed by. -/
theorem entries_sublist (game : Game) (userIds : List String) :
    ((game.entries userIds).map Prod.fst).Sublist userIds := by
  induction userIds with
  | nil => exact List.Sublist.refl []
  | cons userId userIds ih =>
      rw [Game.entries] at ih ⊢
      cases hmove : game.moves userId with
      | none => simpa [hmove] using ih.cons userId
      | some move => simpa [hmove] using ih

/-- **Entries laid over stored ones** are those of the merged dictionary. -/
theorem OfMoves.laid {stored : Fields} (h : OfMoves stored moves) (hkeys : g.Keys userIds)
    (hne : userIds ≠ []) : ∃ merged, laid stored (.map (g.entries userIds)) = .map merged ∧
      OfMoves merged fun userId => (g.moves userId).or (moves userId) := by
  have hnew := hkeys.ofMoves
  have hnodup := hkeys.nodup.sublist (entries_sublist g userIds)
  have hentries : g.entries userIds ≠ [] := by
    obtain ⟨userId, rest, rfl⟩ := List.exists_cons_of_ne_nil hne
    obtain ⟨move, hmove⟩ := Option.isSome_iff_exists.mp
      ((hkeys.mem_iff userId).mp List.mem_cons_self)
    simp [Game.entries, hmove]
  obtain ⟨merged, hlaid, hlookup⟩ := exists_laid_map hentries hnodup
  refine ⟨merged, hlaid, fun key => ?_⟩
  rw [hlookup, hnew key, h key]
  cases hkey : g.moves key with
  | none => simp [hkey]
  | some move => simp [hkey, text, FieldValue.laid]

/-- A written game over any fields: what is stored of `moves` and of the winner stays below
the written one. -/
theorem ofGame_patch {stored : Fields} {winner : Option User}
    (hmoves : OfMoves (child stored "moves") moves)
    (hwinner : Option.Rel OfUserField (stored.lookup "winner") winner) (hkeys : g.Keys userIds)
    (hne : userIds ≠ []) : OfGame (patch stored (g.encode userIds))
      { g with
        moves := fun userId => (g.moves userId).or (moves userId)
        winner := Game.mergeWinner winner g.winner } := by
  have hnew := ofGame_encode hkeys
  have hlookup : ∀ key, (patch stored (g.encode userIds)).lookup key =
      (((g.encode userIds).lookup key).map (laid (child stored key))).or (stored.lookup key) :=
    fun key => lookup_patch (nodup_encode g userIds)
  constructor
  · rw [hlookup, hnew.id_eq]
    rfl
  · rw [hlookup, hnew.players_eq]
    rfl
  · obtain ⟨merged, hlaid, hmerged⟩ := hmoves.laid hkeys hne
    refine ⟨merged, ?_, hmerged⟩
    have hwritten : (g.encode userIds).lookup "moves" = some (.map (g.entries userIds)) := rfl
    rw [hlookup, hwritten, ← hlaid]
    rfl
  · rw [hlookup, hnew.playerIds_eq]
    rfl
  · rw [hlookup, lookup_winner_encode]
    cases g.winner with
    | none => exact hwinner
    | some user => exact ofUserField_laid hwinner user
  · rw [hlookup, hnew.createdAt_eq]
    rfl
  · rw [hlookup, hnew.state_eq]
    rfl

/-- **A game merged into a stored one** leaves the fields of `Game.merge`. An empty `moves`
would replace the stored one. -/
theorem OfGame.patch {stored : Fields} (h : OfGame stored d) (hkeys : g.Keys userIds)
    (hne : userIds ≠ []) : OfGame (patch stored (g.encode userIds)) (d.merge g) := by
  obtain ⟨entries, hentries, hmoves⟩ := h.moves_eq
  have hchild : child stored "moves" = entries := by
    rw [child, hentries]
    rfl
  exact ofGame_patch (by rwa [hchild]) h.winner_eq hkeys hne

/-- A game merged into a missing document leaves its own fields. -/
theorem ofGame_patch_nil (hkeys : g.Keys userIds) (hne : userIds ≠ []) :
    OfGame (patch [] (g.encode userIds)) g := by
  have hmoves : OfMoves (child [] "moves") fun _ => none := fun _ => rfl
  have hwinner : Option.Rel OfUserField (List.lookup "winner" []) none := Option.Rel.none
  have hsame : Game.mergeWinner none g.winner = g.winner := by
    cases g.winner <;> rfl
  simpa [hsame] using ofGame_patch hmoves hwinner hkeys hne

/-- **A state set in a stored game.** -/
theorem OfGame.setState (h : OfGame fields game) (newState : GameState) :
    OfGame (set fields ["state"] (text newState.rawValue)) { game with state := newState } := by
  have hlookup : ∀ key, (set fields ["state"] (text newState.rawValue)).lookup key =
      if key = "state" then some (text newState.rawValue) else fields.lookup key :=
    fun key => lookup_insert
  constructor <;> simp only [hlookup]
  · exact h.id_eq
  · exact h.players_eq
  · exact h.moves_eq
  · exact h.playerIds_eq
  · exact h.winner_eq
  · exact h.createdAt_eq
  · rfl

/-! ### Writes -/

namespace GameDocument

/-- What a write makes of the fields of the document, where the games it carries may be
encoded with their `moves` in any order. -/
inductive Writes : Option Fields → GameWrite → Option Fields → Prop
  | create {doc : Option Fields} {game : Game} {userIds : List String} :
      game.Keys userIds → Writes doc (.create game) (some (game.encode userIds))
  | picked {doc : Option Fields} {game : Game} {userIds : List String} :
      game.Keys userIds →
      Writes doc (.picked game) (some (patch (doc.getD []) (game.encode userIds)))
  | decided {doc : Option Fields} {game : Game} {userIds : List String} :
      game.Keys userIds →
      Writes doc (.decided game) (some (patch (doc.getD []) (game.encode userIds)))
  | status {doc : Option Fields} {newState : GameState} :
      Writes doc (.status newState)
        (doc.map fun fields => set fields ["state"] (text newState.rawValue))

/-- What a list of writes leaves, the first one first, of a document that did not exist. -/
inductive Stored : List GameWrite → Option Fields → Prop
  | nil : Stored [] none
  | snoc {ws : List GameWrite} {w : GameWrite} {doc doc' : Option Fields} :
      Stored ws doc → Writes doc w doc' → Stored (ws ++ [w]) doc'

variable {P : Pairing} {doc doc' : Option Fields} {stored : Option Game} {w : GameWrite}
  {ws : List GameWrite}

/-- A copy has an entry of `moves`, so its keys are not empty. -/
theorem keys_ne_nil (hg : P.Copy g) (h : g.Keys userIds) : userIds ≠ [] :=
  List.ne_nil_of_mem ((h.mem_iff _).mpr (hg.moves_isSome .acceptor))

/-- The two players are the keys of a copy. -/
theorem keys_of_copy (hg : P.Copy g) : g.Keys [P.userId .acceptor, P.userId .requester] where
  nodup := by simpa using P.userId_ne
  mem_iff := by
    intro userId
    constructor
    · intro h
      rcases List.mem_pair.mp h with rfl | rfl
      · exact hg.moves_isSome .acceptor
      · exact hg.moves_isSome .requester
    · intro h
      by_contra hnot
      have hother : ∀ p, userId ≠ P.userId p := by
        rintro (_ | _) rfl <;> simp at hnot
      rw [hg.moves_none userId hother] at h
      exact Bool.noConfusion h

/-- A merge into the document, which may be missing. -/
theorem ofGame_mergeInto (h : Option.Rel OfGame doc stored) (hg : P.Copy g)
    (hkeys : g.Keys userIds) : Option.Rel OfGame
      (some (patch (doc.getD []) (g.encode userIds))) (GameWrite.mergeInto stored g) := by
  have hne := keys_ne_nil hg hkeys
  cases h with
  | none => exact Option.Rel.some (ofGame_patch_nil hkeys hne)
  | some hd => exact Option.Rel.some (hd.patch hkeys hne)

/-- **A write keeps the fields those of the stored game**, if there is one. -/
theorem Writes.ofGame (h : Writes doc w doc') (hw : ∀ g, w.game? = some g → P.Copy g)
    (hdoc : Option.Rel OfGame doc stored) : Option.Rel OfGame doc' (w.apply stored) := by
  cases h with
  | create hkeys => exact Option.Rel.some (ofGame_encode hkeys)
  | picked hkeys => exact ofGame_mergeInto hdoc (hw _ rfl) hkeys
  | decided hkeys => exact ofGame_mergeInto hdoc (hw _ rfl) hkeys
  | status =>
      cases hdoc with
      | none => exact Option.Rel.none
      | some hd => exact Option.Rel.some (hd.setState _)

/-- **Stored fields** are those of the game that `GameWrite.apply` leaves. -/
theorem of_stored (h : Stored ws doc) (hws : ∀ w ∈ ws, ∀ g, w.game? = some g → P.Copy g) :
    Option.Rel OfGame doc (WriteLog.replay GameWrite.apply none ws) := by
  induction h with
  | nil => exact Option.Rel.none
  | @snoc ws w doc doc' _ hwrites ih =>
      have hprior := ih fun v hv => hws v (List.mem_append_left _ hv)
      rw [WriteLog.replay, List.foldl_append]
      exact hwrites.ofGame (hws w (by simp)) hprior

/-- Writes of copies leave some document. -/
theorem exists_stored (hws : ∀ w ∈ ws, ∀ g, w.game? = some g → P.Copy g) :
    ∃ doc, Stored ws doc := by
  induction ws using List.reverseRecOn with
  | nil => exact ⟨none, Stored.nil⟩
  | append_singleton ws w ih =>
      obtain ⟨doc, hdoc⟩ := ih fun v hv => hws v (List.mem_append_left _ hv)
      have hw := hws w (by simp)
      cases w with
      | create g => exact ⟨_, hdoc.snoc (Writes.create (keys_of_copy (hw g rfl)))⟩
      | picked g => exact ⟨_, hdoc.snoc (Writes.picked (keys_of_copy (hw g rfl)))⟩
      | decided g => exact ⟨_, hdoc.snoc (Writes.decided (keys_of_copy (hw g rfl)))⟩
      | status newState => exact ⟨_, hdoc.snoc Writes.status⟩

end GameDocument

end RockPaperScissors
