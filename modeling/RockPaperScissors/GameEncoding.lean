import RockPaperScissors.FieldValue
import RockPaperScissors.Users

/-!
# Encoded Games

The trees of fields (`FieldValue`) that `setData(from:)` encodes a game to and that
`data(as: Game.self)` decodes. A nil optional leaves no field, an enumeration is its raw
value, and the dictionary `moves` is a map, encoded in whatever order the dictionary has
(`Game.Keys`). Decoding fails on a field that is missing, unless it is optional, or of
another type.

`OfUser`, `OfMoves` and `OfGame` say by lookups that fields are those of a value: the encoding
has them, and decoding needs nothing else.

## Main results

* `OfGame.decode`: a game is decoded from its fields.
* `ofGame_encode`: the encoding of a game has the game's fields.
* `Game.decode_encode`: a game is decoded from what it was encoded to.
-/

namespace RockPaperScissors

/-- The scalars of a game document. -/
inductive Scalar
  | string (value : String)
  | number (value : TimeInterval)
  deriving DecidableEq, Repr

/-- A field of a document of the program. -/
abbrev Field := FieldValue String Scalar

/-- The fields of a document or of a map in one. -/
abbrev Fields := List (String × Field)

/-- A field with a string. -/
def text (value : String) : Field := .scalar (.string value)

/-! ### Raw values -/

namespace Moves

/-- The raw value of a move. -/
def rawValue : Moves → String
  | idle => "idle"
  | rock => "rock"
  | paper => "paper"
  | scissors => "scissors"

/-- `Moves.init(rawValue:)`. -/
def ofRawValue : String → Option Moves
  | "idle" => some idle
  | "rock" => some rock
  | "paper" => some paper
  | "scissors" => some scissors
  | _ => none

/-- A move is decoded from its raw value. -/
@[simp] theorem ofRawValue_rawValue (m : Moves) : ofRawValue m.rawValue = some m := by
  cases m <;> rfl

end Moves

namespace GameState

/-- The raw value of a state. -/
def rawValue : GameState → String
  | starting => "starting"
  | inprogress => "inprogress"
  | finished => "finished"

/-- `GameState.init(rawValue:)`. -/
def ofRawValue : String → Option GameState
  | "starting" => some starting
  | "inprogress" => some inprogress
  | "finished" => some finished
  | _ => none

/-- A state is decoded from its raw value. -/
@[simp] theorem ofRawValue_rawValue (st : GameState) : ofRawValue st.rawValue = some st := by
  cases st <;> rfl

end GameState

/-! ### Encoding -/

/-- The fields of a user within a game document. -/
def User.fields (user : User) : Fields :=
  user.encode.map fun (key, value) => (key, text value)

namespace Game

/-- The keys of the dictionary `moves`, in some order. -/
structure Keys (game : Game) (userIds : List String) : Prop where
  nodup : userIds.Nodup
  mem_iff : ∀ userId, userId ∈ userIds ↔ (game.moves userId).isSome

/-- The entries of `moves` in an order of its keys. -/
def entries (game : Game) (userIds : List String) : Fields :=
  userIds.filterMap fun userId =>
    (game.moves userId).map fun move => (userId, text move.rawValue)

/-- The fields `setData(from:)` writes for a game whose `moves` has the given keys. -/
def encode (game : Game) (userIds : List String) : Fields :=
  [("id", text game.id), ("players", .array (game.players.map fun user => .map user.fields)),
    ("moves", .map (game.entries userIds)), ("playerIds", .array (game.playerIds.map text))] ++
  (game.winner.map fun user => ("winner", .map user.fields)).toList ++
  [("createdAt", .scalar (.number game.createdAt)), ("state", text game.state.rawValue)]

end Game

/-! ### Decoding -/

/-- A text is decoded from a string. -/
def decodeString : Field → Option String
  | .scalar (.string value) => some value
  | _ => none

/-- A time is decoded from a number. -/
def decodeNumber : Field → Option TimeInterval
  | .scalar (.number value) => some value
  | _ => none

/-- An array is decoded if all of its elements are. -/
def decodeArray {α : Type} (decode : Field → Option α) : Field → Option (List α)
  | .array values => values.mapM decode
  | _ => none

/-- `decodeIfPresent`: a missing field is a nil optional. -/
def decodeIfPresent {α : Type} (decode : Field → Option α) (fields : Fields) (key : String) :
    Option (Option α) :=
  match fields.lookup key with
  | none => some none
  | some value => (decode value).map some

/-- A user is decoded from a map, whose fields may be missing. -/
def decodeUser : Field → Option User
  | .map fields => do
      let id ← decodeIfPresent decodeString fields "id"
      let username ← decodeIfPresent decodeString fields "username"
      let avatarImage ← decodeIfPresent decodeString fields "avatarImage"
      let deviceToken ← decodeIfPresent decodeString fields "deviceToken"
      return ⟨id, username, avatarImage, deviceToken⟩
  | _ => none

/-- A move is decoded from its raw value. -/
def decodeMove (value : Field) : Option Moves :=
  (decodeString value).bind Moves.ofRawValue

/-- A dictionary is decoded when every entry of it is. -/
def decodeMoves : Field → Option (String → Option Moves)
  | .map fields =>
      if ∀ entry ∈ fields, ((fields.lookup entry.1).bind decodeMove).isSome then
        some fun userId => (fields.lookup userId).bind decodeMove
      else none
  | _ => none

/-- `data(as: Game.self)` on a document with the given fields. -/
def Game.decode (fields : Fields) : Option Game := do
  let id ← (fields.lookup "id").bind decodeString
  let players ← (fields.lookup "players").bind (decodeArray decodeUser)
  let moves ← (fields.lookup "moves").bind decodeMoves
  let playerIds ← (fields.lookup "playerIds").bind (decodeArray decodeString)
  let winner ← decodeIfPresent decodeUser fields "winner"
  let createdAt ← (fields.lookup "createdAt").bind decodeNumber
  let state ← ((fields.lookup "state").bind decodeString).bind GameState.ofRawValue
  return ⟨id, players, moves, playerIds, winner, createdAt, state⟩

/-! ### Fields of a value -/

/-- The fields are those of the user. -/
structure OfUser (fields : Fields) (user : User) : Prop where
  id_eq : fields.lookup "id" = user.id.map text
  username_eq : fields.lookup "username" = user.username.map text
  avatarImage_eq : fields.lookup "avatarImage" = user.avatarImage.map text
  deviceToken_eq : fields.lookup "deviceToken" = user.deviceToken.map text

/-- The entries are those of the dictionary `moves`. -/
def OfMoves (entries : Fields) (moves : String → Option Moves) : Prop :=
  ∀ userId, entries.lookup userId = (moves userId).map fun move => text move.rawValue

/-- The field is that of the user. -/
def OfUserField (value : Field) (user : User) : Prop :=
  ∃ fields, value = .map fields ∧ OfUser fields user

/-- The fields are those of the game. -/
structure OfGame (fields : Fields) (game : Game) : Prop where
  id_eq : fields.lookup "id" = some (text game.id)
  players_eq :
    fields.lookup "players" = some (.array (game.players.map fun user => .map user.fields))
  moves_eq : ∃ entries, fields.lookup "moves" = some (.map entries) ∧ OfMoves entries game.moves
  playerIds_eq : fields.lookup "playerIds" = some (.array (game.playerIds.map text))
  winner_eq : Option.Rel OfUserField (fields.lookup "winner") game.winner
  createdAt_eq : fields.lookup "createdAt" = some (.scalar (.number game.createdAt))
  state_eq : fields.lookup "state" = some (text game.state.rawValue)

variable {fields : Fields} {user old new : User} {d g game : Game} {userIds : List String}
  {entries : Fields} {moves : String → Option Moves}

/-- A text is decoded from its field. -/
@[simp] theorem decodeString_text (value : String) : decodeString (text value) = some value := rfl

/-- An optional text is decoded from a field that is there or not. -/
theorem decodeIfPresent_text {key : String} {value : Option String}
    (h : fields.lookup key = value.map text) :
    decodeIfPresent decodeString fields key = some value := by
  rw [decodeIfPresent, h]
  cases value <;> rfl

/-- An array is decoded when its elements are. -/
theorem decodeArray_map {α β : Type} {decode : Field → Option α} {encode : β → Field}
    {values : List β} {f : β → α} (h : ∀ value, decode (encode value) = some (f value)) :
    decodeArray decode (.array (values.map encode)) = some (values.map f) := by
  induction values with
  | nil => rfl
  | cons value values ih =>
      rw [decodeArray] at ih ⊢
      rw [List.map_cons, List.mapM_cons, h, ih]
      rfl

/-- **A user is decoded from its fields.** -/
theorem OfUser.decode (h : OfUser fields user) : decodeUser (.map fields) = some user := by
  rw [decodeUser, decodeIfPresent_text h.id_eq, decodeIfPresent_text h.username_eq,
    decodeIfPresent_text h.avatarImage_eq, decodeIfPresent_text h.deviceToken_eq]
  rfl

/-- A map of texts is looked up as its values are. -/
theorem lookup_map_text {values : List (String × String)} {key : String} :
    (values.map fun (key, value) => (key, text value)).lookup key =
      (values.lookup key).map text := by
  induction values with
  | nil => rfl
  | cons entry values ih =>
      rw [List.map_cons, FieldValue.lookup_cons, ih, List.lookup_cons]
      by_cases h : key = entry.1
      · simp [h]
      · simp [h, beq_false_of_ne h]

/-- The encoding of a user has the user's fields. -/
theorem ofUser_fields (user : User) : OfUser user.fields user := by
  have hdecode := User.decode_encode user
  constructor
  · rw [User.fields, lookup_map_text]
    exact congrArg (Option.map text) (congrArg User.id hdecode)
  · rw [User.fields, lookup_map_text]
    exact congrArg (Option.map text) (congrArg User.username hdecode)
  · rw [User.fields, lookup_map_text]
    exact congrArg (Option.map text) (congrArg User.avatarImage hdecode)
  · rw [User.fields, lookup_map_text]
    exact congrArg (Option.map text) (congrArg User.deviceToken hdecode)

/-- The fields of a user have different keys. -/
theorem nodup_fields (user : User) : (user.fields.map Prod.fst).Nodup := by
  obtain ⟨id, username, avatarImage, deviceToken⟩ := user
  cases id <;> cases username <;> cases avatarImage <;> cases deviceToken <;>
    simp [User.fields, User.encode]

/-- A user is encoded to an empty map when all properties are nil. -/
theorem fields_eq_nil_iff : user.fields = [] ↔ user = ⟨none, none, none, none⟩ := by
  obtain ⟨id, username, avatarImage, deviceToken⟩ := user
  cases id <;> cases username <;> cases avatarImage <;> cases deviceToken <;>
    simp [User.fields, User.encode]

/-- A user is decoded from its fields. -/
@[simp] theorem decodeUser_fields (user : User) : decodeUser (.map user.fields) = some user :=
  (ofUser_fields user).decode

/-- **The dictionary `moves` is decoded from its entries.** -/
theorem OfMoves.decode (h : OfMoves entries moves) : decodeMoves (.map entries) = some moves := by
  have hread : ∀ userId, (entries.lookup userId).bind decodeMove = moves userId := by
    intro userId
    rw [h userId]
    cases moves userId <;> simp [decodeMove]
  have hall : ∀ entry ∈ entries, ((entries.lookup entry.1).bind decodeMove).isSome := by
    intro entry hentry
    have hfound : (entries.lookup entry.1).isSome :=
      List.lookup_isSome_iff.mpr ⟨entry, hentry, by simp⟩
    rw [hread]
    rw [h, Option.isSome_map] at hfound
    exact hfound
  rw [decodeMoves, if_pos hall]
  exact congrArg some (funext hread)

/-- An optional user is decoded from its field, if there is one. -/
theorem decodeIfPresent_user {key : String} {winner : Option User}
    (h : Option.Rel OfUserField (fields.lookup key) winner) :
    decodeIfPresent decodeUser fields key = some winner := by
  rw [decodeIfPresent]
  revert h
  generalize fields.lookup key = field
  intro h
  cases h with
  | none => rfl
  | some huser =>
      obtain ⟨w, rfl, hw⟩ := huser
      simp [hw.decode]

/-- **A game is decoded from its fields.** -/
theorem OfGame.decode (h : OfGame fields game) : Game.decode fields = some game := by
  obtain ⟨entries, hentries, hmoves⟩ := h.moves_eq
  have hplayers : decodeArray decodeUser
      (.array (game.players.map fun user => .map user.fields)) = some game.players := by
    rw [decodeArray_map (f := id) decodeUser_fields, List.map_id]
  have hplayerIds : decodeArray decodeString (.array (game.playerIds.map text)) =
      some game.playerIds := by
    rw [decodeArray_map (f := id) decodeString_text, List.map_id]
  rw [Game.decode, h.id_eq, h.players_eq, hentries, h.playerIds_eq, h.createdAt_eq, h.state_eq,
    decodeIfPresent_user h.winner_eq]
  simp [hplayers, hplayerIds, hmoves.decode, decodeNumber]

/-- The entries of `moves`, in any order of its keys, are those of `moves`. -/
theorem Game.Keys.ofMoves (h : game.Keys userIds) : OfMoves (game.entries userIds) game.moves := by
  have hlookup : ∀ keys : List String, ∀ userId, (game.entries keys).lookup userId =
      if userId ∈ keys then (game.moves userId).map fun move => text move.rawValue else none := by
    intro keys userId
    induction keys with
    | nil => rfl
    | cons key keys ih =>
        rw [Game.entries] at ih ⊢
        by_cases hkey : userId = key
        · subst hkey
          cases hmove : game.moves userId with
          | none => simp [hmove, ih]
          | some move => simp [hmove]
        · cases hmove : game.moves key with
          | none => simp [hmove, ih, hkey]
          | some move => simp [hmove, ih, hkey, FieldValue.lookup_cons]
  intro userId
  rw [hlookup]
  split
  · rfl
  · next hmem =>
      rw [h.mem_iff, Option.not_isSome_iff_eq_none] at hmem
      rw [hmem]
      rfl

/-- The keys of an encoded game are distinct. -/
theorem nodup_encode (game : Game) (userIds : List String) :
    ((game.encode userIds).map Prod.fst).Nodup := by
  cases hwinner : game.winner <;> simp [Game.encode, hwinner]

/-- The field of the winner in an encoded game. -/
theorem lookup_winner_encode (game : Game) (userIds : List String) :
    (game.encode userIds).lookup "winner" = game.winner.map fun user => .map user.fields := by
  cases hwinner : game.winner <;> simp [Game.encode, hwinner, FieldValue.lookup_cons]

/-- **The encoding of a game has the game's fields.** -/
theorem ofGame_encode (h : game.Keys userIds) : OfGame (game.encode userIds) game where
  id_eq := rfl
  players_eq := rfl
  moves_eq := ⟨_, rfl, h.ofMoves⟩
  playerIds_eq := rfl
  winner_eq := by
    rw [lookup_winner_encode]
    cases game.winner with
    | none => exact Option.Rel.none
    | some user => exact Option.Rel.some ⟨_, rfl, ofUser_fields user⟩
  createdAt_eq := by
    cases hwinner : game.winner <;> simp [Game.encode, hwinner, FieldValue.lookup_cons]
  state_eq := by
    cases hwinner : game.winner <;> simp [Game.encode, hwinner, FieldValue.lookup_cons]

/-- **A game is decoded from what it was encoded to**, in any order of `moves`. -/
theorem Game.decode_encode (h : game.Keys userIds) : decode (game.encode userIds) = some game :=
  (ofGame_encode h).decode

end RockPaperScissors
