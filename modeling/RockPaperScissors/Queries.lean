import RockPaperScissors.Filters
import RockPaperScissors.ForcedUnwraps
import RockPaperScissors.GameDocuments

/-!
# The Queries of the Program

What the queries of `DataStore` select among the stored documents, as trees of fields, and
what the program makes of it. The collections are those of any run: the documents that the
writes leave which a client sees, in whatever order the backend returns them. The rest of
the development asks the same of the decoded values (`checkForExtistingGameRequest`,
`checkForOngoingGameWith`, `isStartingGameOf`, `getGameRequestWith`, `getUserWith`); here
these answers are derived from the filters on the fields.

## Main results

* `GameRequest.decode_encode`: a request is decoded from what it was encoded to.
* `requests_answered`, `games_answered`, `users_answered`: the queries on each collection.
* `App.queries_answered`: in every run, every client's queries are answered as the model
  says, and every selected document decodes.
-/

open TransitionSystem

namespace RockPaperScissors

/-- A document of any of the three collections. -/
abbrev StoredDocument := Document String String Scalar

/-- The document under an id; `document(id).getDocument`. -/
def documentWith (docs : List StoredDocument) (id : String) : Option StoredDocument :=
  docs.find? fun d => d.documentID = id

/-- A filter `whereField(key, isEqualTo: value)` on a string. -/
def whereEqual (key value : String) : FieldFilter String Scalar :=
  .isEqualTo key (.string value)

/-! ### Requests -/

namespace GameRequest

/-- The fields `setData(from:)` writes for a request. -/
def encode (request : GameRequest) : Fields :=
  [("id", text request.id), ("from", text request.fromId), ("to", text request.toId)] ++
    (request.createdAt.map fun value => ("createdAt", .scalar (.number value))).toList ++
    (request.fromUsername.map fun value => ("fromUsername", text value)).toList

/-- `data(as: GameRequest.self)`. -/
def decode (fields : Fields) : Option GameRequest := do
  let id ← (fields.lookup "id").bind decodeString
  let fromId ← (fields.lookup "from").bind decodeString
  let toId ← (fields.lookup "to").bind decodeString
  let createdAt ← decodeIfPresent decodeNumber fields "createdAt"
  let fromUsername ← decodeIfPresent decodeString fields "fromUsername"
  return ⟨id, fromId, toId, createdAt, fromUsername⟩

/-- **A request is decoded from what it was encoded to.** -/
@[simp] theorem decode_encode (request : GameRequest) : decode request.encode = some request := by
  obtain ⟨id, fromId, toId, createdAt, fromUsername⟩ := request
  cases createdAt <;> cases fromUsername <;> rfl

/-- The document of a request. -/
def document (request : GameRequest) : StoredDocument :=
  ⟨request.id, request.encode⟩

end GameRequest

namespace RequestWrite

/-- What a write makes of the stored documents. -/
def put (docs : List StoredDocument) : RequestWrite → List StoredDocument
  | start request =>
      docs.filter (fun d => d.documentID ≠ request.id) ++ [request.document]
  | delete id => docs.filter fun d => d.documentID ≠ id

/-- The documents that writes leave. -/
def stored (ws : List RequestWrite) : List StoredDocument :=
  WriteLog.replay put [] ws

variable {ws : List RequestWrite}

/-- **The stored documents** are those of the requests that the writes leave. -/
theorem stored_eq : stored ws = (WriteLog.replay apply [] ws).map GameRequest.document := by
  have hput : ∀ (requests : List GameRequest) (w : RequestWrite),
      put (requests.map GameRequest.document) w =
        (apply requests w).map GameRequest.document := by
    intro requests w
    have hfilter (id : String) : (requests.map GameRequest.document).filter
        (fun d => d.documentID ≠ id) =
          (requests.filter fun r => r.id ≠ id).map GameRequest.document := by
      rw [List.filter_map]
      rfl
    cases w with
    | start request => rw [put, apply, hfilter, List.map_append, List.map_singleton]
    | delete id => rw [put, apply, hfilter]
  exact WriteLog.replay_hom (List.map GameRequest.document) hput [] ws

/-- Stored requests have distinct ids. -/
theorem nodup_replay : ((WriteLog.replay apply [] ws).map GameRequest.id).Nodup := by
  refine WriteLog.replay_invariant
    (I := fun requests : List GameRequest => (requests.map GameRequest.id).Nodup)
    List.nodup_nil fun w _ requests hrequests => ?_
  have hfilter (id : String) :
      ((requests.filter fun r => r.id ≠ id).map GameRequest.id).Nodup :=
    hrequests.sublist (List.filter_sublist.map _)
  cases w with
  | start request =>
      rw [apply, List.map_append, List.map_singleton]
      refine (hfilter request.id).append (List.nodup_singleton _) ?_
      simp
  | delete id => exact hfilter id

end RequestWrite

/-- `checkForExtistingGameRequest`: the requests from one user to another. -/
def requestsBetween (fromUser toUser : String) : List (FieldFilter String Scalar) :=
  [whereEqual "from" fromUser, whereEqual "to" toUser]

/-- `setGameRequestListener`: the requests to the local user. -/
def requestsTo (localUserId : String) : List (FieldFilter String Scalar) :=
  [whereEqual "to" localUserId]

/-- `setGameRequestDeletionListener`: the requests from the local user. -/
def requestsFrom (localUserId : String) : List (FieldFilter String Scalar) :=
  [whereEqual "from" localUserId]

/-- The queries on the documents are answered like those on the requests. -/
structure RequestsAnswered (docs : List StoredDocument) (requests : List GameRequest) :
    Prop where
  existing : ∀ fromUser toUser,
    0 < (FieldFilter.select (requestsBetween fromUser toUser) docs).length ↔
    checkForExtistingGameRequest requests toUser fromUser = true
  received : ∀ localUserId, ((FieldFilter.select (requestsTo localUserId) docs).map
    fun d => GameRequest.decode d.fields).Perm
      ((requests.filter fun r => r.toId = localUserId).map some)
  noneLeft : ∀ localUserId, (FieldFilter.select (requestsFrom localUserId) docs).length = 0 ↔
    ∀ r ∈ requests, r.fromId ≠ localUserId
  found : ∀ id, (documentWith docs id).map (fun d => GameRequest.decode d.fields) =
    (getGameRequestWith requests id).map some

section

variable {docs : List StoredDocument} {requests : List GameRequest} {r : GameRequest}
  {value : String}

/-- A filter on the sender or the receiver of a stored request. -/
theorem passedBy_from :
    (whereEqual "from" value).passedBy r.document = true ↔ r.fromId = value := by
  have hlookup : r.document.fields.lookup "from" = some (text r.fromId) := rfl
  rw [whereEqual, FieldFilter.passedBy_isEqualTo hlookup]
  simp [FieldValue.isScalar, text]

/-- The filter on `to` passes the requests to the user. -/
theorem passedBy_to : (whereEqual "to" value).passedBy r.document = true ↔ r.toId = value := by
  have hlookup : r.document.fields.lookup "to" = some (text r.toId) := rfl
  rw [whereEqual, FieldFilter.passedBy_isEqualTo hlookup]
  simp [FieldValue.isScalar, text]

/-- **The queries on the requests**, in whatever order the documents come. -/
theorem requests_answered (hdocs : docs.Perm (requests.map GameRequest.document))
    (hnodup : (requests.map GameRequest.id).Nodup) : RequestsAnswered docs requests := by
  have hrepresents : List.Forall₂ (fun d r => d = GameRequest.document r)
      (requests.map GameRequest.document) requests :=
    List.forall₂_map_left_iff.mpr (List.forall₂_same.mpr fun _ _ => rfl)
  refine ⟨fun fromUser toUser => ?_, fun localUserId => ?_, fun localUserId => ?_, fun id => ?_⟩
  · refine (FieldFilter.length_select_pos_iff hdocs hrepresents ?_).trans Iff.rfl
    rintro _ r rfl
    simp [requestsBetween, passedBy_from, passedBy_to]
  · refine FieldFilter.decode_select hdocs hrepresents ?_ ?_
    · rintro _ r rfl
      exact GameRequest.decode_encode r
    · rintro _ r rfl
      simp [requestsTo, passedBy_to]
  · have hlength : (FieldFilter.select (requestsFrom localUserId) docs).length =
        (requests.filter fun r => r.fromId = localUserId).length := by
      refine FieldFilter.length_select hdocs hrepresents ?_
      rintro _ r rfl
      simp [requestsFrom, passedBy_from]
    rw [hlength, List.length_eq_zero_iff, List.filter_eq_nil_iff]
    simp
  · have hids : ((requests.map GameRequest.document).map Document.documentID).Nodup := by
      rwa [List.map_map]
    rw [documentWith, Document.find?_eq_of_perm hdocs hids, List.find?_map, Option.map_map,
      getGameRequestWith]
    simp only [Function.comp_def, GameRequest.document, GameRequest.decode_encode]
    rfl

end

/-! ### Games -/

/-- `setGameListener`: the starting games of the local user. -/
def startingGamesOf (localUserId : String) : List (FieldFilter String Scalar) :=
  [.arrayContains "playerIds" (.string localUserId),
    whereEqual "state" GameState.starting.rawValue]

/-- `checkForOngoingGameWith`: the games of a user that are not finished. -/
def ongoingGamesOf (userId : String) : List (FieldFilter String Scalar) :=
  [.arrayContains "playerIds" (.string userId),
    .isNotEqualTo "state" (.string GameState.finished.rawValue)]

/-- The queries on the documents are answered like those on the games. -/
structure GamesAnswered (docs : List StoredDocument) (games : List Game) : Prop where
  ongoing : ∀ userId, 0 < (FieldFilter.select (ongoingGamesOf userId) docs).length ↔
    checkForOngoingGameWith games userId = true
  starting : ∀ localUserId, ((FieldFilter.select (startingGamesOf localUserId) docs).map
    fun d => Game.decode d.fields).Perm
      ((games.filter fun game => isStartingGameOf localUserId game).map some)

section

variable {docs docs' : List StoredDocument} {games : List Game} {d : StoredDocument} {game : Game}
  {userId : String} {st : GameState}

/-- States have different raw values. -/
theorem GameState.rawValue_inj {st st' : GameState} : st.rawValue = st'.rawValue ↔ st = st' := by
  cases st <;> cases st' <;> decide

/-- A filter on the players of a stored game. -/
theorem passedBy_playerIds (h : OfGame d.fields game) :
    FieldFilter.passedBy (.arrayContains "playerIds" (.string userId)) d = true ↔
      userId ∈ game.playerIds := by
  rw [FieldFilter.passedBy_arrayContains h.playerIds_eq]
  exact FieldValue.any_isScalar_map.trans (List.mem_map_of_injective fun _ _ => Scalar.string.inj)

/-- Filters on the state of a stored game. -/
theorem passedBy_state (h : OfGame d.fields game) :
    (whereEqual "state" st.rawValue).passedBy d = true ↔ game.state = st := by
  rw [whereEqual, FieldFilter.passedBy_isEqualTo h.state_eq]
  simp [FieldValue.isScalar, text, GameState.rawValue_inj]

/-- The filter on another state passes the games that are not in the state. -/
theorem passedBy_otherState (h : OfGame d.fields game) :
    FieldFilter.passedBy (.isNotEqualTo "state" (.string st.rawValue)) d = true ↔
      game.state ≠ st := by
  rw [FieldFilter.passedBy_isNotEqualTo h.state_eq]
  simp [FieldValue.isScalar, text, GameState.rawValue_inj]

/-- **The queries on the games**, in whatever order the documents come. -/
theorem games_answered (hdocs : docs'.Perm docs)
    (h : List.Forall₂ (fun d game => OfGame (Document.fields d) game) docs games) :
    GamesAnswered docs' games := by
  refine ⟨fun userId => ?_, fun localUserId => ?_⟩
  · refine (FieldFilter.length_select_pos_iff hdocs h ?_).trans Iff.rfl
    intro d game hd
    simp [ongoingGamesOf, passedBy_playerIds hd, passedBy_otherState hd]
  · refine FieldFilter.decode_select hdocs h (fun d game hd => hd.decode) ?_
    intro d game hd
    rw [decide_eq_true_iff, isStartingGameOf]
    simp [startingGamesOf, passedBy_playerIds hd, passedBy_state hd]

end

/-! ### Users -/

/-- `checkForExistingUsername`: the users with a name. -/
def usersNamed (username : String) : List (FieldFilter String Scalar) :=
  [whereEqual "username" username]

/-- The document of a user. -/
def UserDocument.document (d : UserDocument) : StoredDocument :=
  ⟨d.documentID, d.fields.map fun (key, value) => (key, text value)⟩

/-- The queries on the documents are answered like those on the users. -/
structure UsersAnswered (docs : List StoredDocument) (users : List UserDocument) : Prop where
  taken : ∀ username, 0 < (FieldFilter.select (usersNamed username) docs).length ↔
    checkForExistingUsername (some users) username = true
  found : ∀ id, (documentWith docs id).map (fun d => decodeUser (.map d.fields)) =
    (getUserWith users id).map some
  all : (docs.map fun d => decodeUser (.map d.fields)).Perm
    (users.map fun d => some (User.decode d.fields))

section

variable {docs : List StoredDocument} {users : List UserDocument} {ws : List UserDocument}

/-- A user is decoded from the strings of the document. -/
theorem decodeUser_document (d : UserDocument) :
    decodeUser (.map d.document.fields) = some (User.decode d.fields) := by
  have hfields : OfUser d.document.fields (User.decode d.fields) :=
    ⟨lookup_map_text, lookup_map_text, lookup_map_text, lookup_map_text⟩
  exact hfields.decode

/-- A filter on the name of a stored user. -/
theorem passedBy_username (d : UserDocument) (username : String) :
    (whereEqual "username" username).passedBy d.document = true ↔
      d.fields.lookup "username" = some username := by
  have hlookup : d.document.fields.lookup "username" = (d.fields.lookup "username").map text :=
    lookup_map_text
  cases hname : d.fields.lookup "username" with
  | none =>
      rw [hname] at hlookup
      simp [whereEqual, FieldFilter.passedBy_of_lookup_eq_none, FieldFilter.key, hlookup]
  | some name =>
      rw [hname] at hlookup
      rw [whereEqual, FieldFilter.passedBy_isEqualTo hlookup]
      simp [FieldValue.isScalar, text]

/-- Saved documents have distinct ids. -/
theorem nodup_putUser :
    ((WriteLog.replay putUser [] ws).map UserDocument.documentID).Nodup := by
  refine WriteLog.replay_invariant
    (I := fun docs : List UserDocument => (docs.map UserDocument.documentID).Nodup)
    List.nodup_nil fun document _ docs hdocs => ?_
  rw [putUser, List.map_append, List.map_singleton]
  refine (hdocs.sublist (List.filter_sublist.map _)).append (List.nodup_singleton _) ?_
  simp

/-- **The queries on the users**, in whatever order the documents come. -/
theorem users_answered (hdocs : docs.Perm (users.map UserDocument.document))
    (hnodup : (users.map UserDocument.documentID).Nodup) : UsersAnswered docs users := by
  have hrepresents : List.Forall₂ (fun d user => d = UserDocument.document user)
      (users.map UserDocument.document) users :=
    List.forall₂_map_left_iff.mpr (List.forall₂_same.mpr fun _ _ => rfl)
  refine ⟨fun username => ?_, fun id => ?_, ?_⟩
  · refine (FieldFilter.length_select_pos_iff hdocs hrepresents ?_).trans Iff.rfl
    rintro _ d rfl
    simp [usersNamed, passedBy_username]
  · have hids : ((users.map UserDocument.document).map Document.documentID).Nodup := by
      rwa [List.map_map]
    rw [documentWith, Document.find?_eq_of_perm hdocs hids, List.find?_map, Option.map_map,
      getUserWith, Option.map_map]
    simp only [Function.comp_def, decodeUser_document]
    rfl
  · refine (hdocs.map _).trans ?_
    rw [List.map_map]
    simp only [Function.comp_def, decodeUser_document]
    rfl

end

/-! ### The collections of a run -/

namespace LobbyGame

variable {g : LobbyGame} {userId : String} {es : List Event}

/-- The writes of the game's document that a query of the user sees. -/
def writesSeenBy (g : LobbyGame) (userId : String) : List GameWrite :=
  if g.rejected then []
  else
    match g.playerOf userId with
    | none => g.session.store.log.map Prod.snd
    | some p => g.session.store.visible p g.session.store.log.length

/-- What a client sees of a game is a replay of the writes it sees. -/
theorem seenBy_eq :
    g.seenBy userId = WriteLog.replay GameWrite.apply none (g.writesSeenBy userId) := by
  unfold seenBy writesSeenBy
  split
  · rfl
  · cases g.playerOf userId with
    | none => rfl
    | some p => exact WriteLog.view_eq_replay_visible _ _ _ _ _

/-- What a query sees was issued. -/
theorem exists_issued_of_mem {w : GameWrite} (h : w ∈ g.writesSeenBy userId) :
    ∃ p, w ∈ g.session.store.issuedBy p := by
  unfold writesSeenBy at h
  split at h
  · exact absurd h List.not_mem_nil
  · split at h
    · obtain ⟨⟨p, _⟩, hmem, rfl⟩ := List.mem_map.mp h
      exact ⟨p, WriteLog.mem_issuedBy_of_mem_log hmem⟩
    · exact WriteLog.exists_mem_issuedBy_of_mem_visible h

/-- A document of the game as a query of the user reads it, or none. -/
def IsDocument (g : LobbyGame) (userId : String) (doc : Option StoredDocument) : Prop :=
  GameDocument.Stored (g.writesSeenBy userId) (doc.map Document.fields) ∧
    ∀ d ∈ doc, d.documentID = g.pairing.gameId

variable (hrun : Run (Session.step g.pairing) (Session.init g.pairing) es g.session)
include hrun

/-- What a query sees are writes of copies. -/
theorem copy_of_writesSeenBy : ∀ w ∈ g.writesSeenBy userId, ∀ game, w.game? = some game →
    g.pairing.Copy game := by
  intro w hw game hgame
  obtain ⟨p, hissued⟩ := exists_issued_of_mem hw
  exact Session.copy_of_run hrun game (.write hissued hgame)

/-- **A document has the fields of the game** that a query of the user reads. -/
theorem IsDocument.ofGame {doc : Option StoredDocument} (h : g.IsDocument userId doc) :
    Option.Rel (fun game d => OfGame (Document.fields d) game) (g.seenBy userId) doc := by
  have hfields := GameDocument.of_stored h.1 (copy_of_writesSeenBy hrun)
  rw [← seenBy_eq] at hfields
  revert hfields
  generalize g.seenBy userId = seen
  intro hfields
  cases doc with
  | none => cases hfields with | none => exact Option.Rel.none
  | some d => cases hfields with | some hgame => exact Option.Rel.some hgame

/-- There is such a document, or none is stored. -/
theorem exists_isDocument (userId : String) : ∃ doc, g.IsDocument userId doc := by
  obtain ⟨fields, hfields⟩ := GameDocument.exists_stored (copy_of_writesSeenBy hrun)
  refine ⟨fields.map fun fields => ⟨g.pairing.gameId, fields⟩, ?_, ?_⟩
  · rwa [Option.map_map, Function.comp_def, Option.map_id']
  · simp

end LobbyGame

namespace App

variable {s : App}

/-- What the backend returns for the three collections to the client of a user on a device,
each in some order. -/
structure Collections (s : App) (d : ℕ) (userId : String)
    (users requests games : List StoredDocument) : Prop where
  users : users.Perm ((s.accounts.usersSeenBy d).map UserDocument.document)
  requests : requests.Perm (RequestWrite.stored
    (s.lobby.requests.visible userId s.lobby.requests.log.length))
  games : ∃ found : List (Option StoredDocument),
    List.Forall₂ (fun g doc => LobbyGame.IsDocument g userId doc) s.lobby.games found ∧
      games.Perm (found.filterMap id)

/-- There are such collections in every run. -/
theorem exists_collections {es : List AppEvent} (h : Run step init es s) (d : ℕ)
    (userId : String) : ∃ users requests games, s.Collections d userId users requests games := by
  obtain ⟨es, hlobby⟩ := (sound_of_run h).lobby
  have hdocs : ∀ g ∈ s.lobby.games, ∃ doc, g.IsDocument userId doc := by
    intro g hg
    obtain ⟨es', hrun⟩ := Lobby.session_of_run hlobby g hg
    exact LobbyGame.exists_isDocument hrun userId
  choose! doc hdoc using hdocs
  refine ⟨_, _, _, List.Perm.refl _, List.Perm.refl _, s.lobby.games.map doc, ?_,
    List.Perm.refl _⟩
  exact List.forall₂_map_right_iff.mpr (List.forall₂_same.mpr hdoc)

/-- **The queries of every client are answered as the model says**, in every run: the filters
on the fields of the stored documents select those that decode to what the model's queries
select. -/
theorem queries_answered {es : List AppEvent} (h : Run step init es s) {d : ℕ} {userId : String}
    {users requests games : List StoredDocument}
    (hcollections : s.Collections d userId users requests games) :
    UsersAnswered users (s.accounts.usersSeenBy d) ∧
      RequestsAnswered requests (s.lobby.requestsSeenBy userId) ∧
      GamesAnswered games (s.lobby.gamesSeenBy userId) := by
  obtain ⟨es, hlobby⟩ := (sound_of_run h).lobby
  refine ⟨users_answered hcollections.users ?_, ?_, ?_⟩
  · rw [Accounts.usersSeenBy, WriteLog.view_eq_replay_visible]
    exact nodup_putUser
  · rw [Lobby.requestsSeenBy, WriteLog.view_eq_replay_visible]
    exact requests_answered (RequestWrite.stored_eq ▸ hcollections.requests)
      RequestWrite.nodup_replay
  · obtain ⟨found, hfound, hgames⟩ := hcollections.games
    have hdocs := (List.forall₂_and_left _ _).mpr ⟨Lobby.session_of_run hlobby, hfound⟩
    have hread : List.Forall₂ (fun game d => OfGame (Document.fields d) game)
        (s.lobby.gamesSeenBy userId) (found.filterMap id) := by
      refine List.rel_filterMap ?_ hdocs
      rintro g doc ⟨⟨es', hrun⟩, hdoc⟩
      exact hdoc.ofGame hrun
    exact games_answered hgames hread.flip

/-- The first user's queries after `registeringAndAccepting`. -/
theorem queries_answered_registeringAndAccepting : ∃ s users requests games,
    Run step init registeringAndAccepting s ∧ s.Collections 0 "uid1" users requests games ∧
      UsersAnswered users (s.accounts.usersSeenBy 0) ∧
      RequestsAnswered requests (s.lobby.requestsSeenBy "uid1") ∧
      GamesAnswered games (s.lobby.gamesSeenBy "uid1") := by
  have hrun : Run step init registeringAndAccepting
      ((exec step init registeringAndAccepting).get (by decide)) := runWhere_get _
  obtain ⟨users, requests, games, hcollections⟩ := exists_collections hrun 0 "uid1"
  exact ⟨_, users, requests, games, hrun, hcollections, queries_answered hrun hcollections⟩

end App

end RockPaperScissors
