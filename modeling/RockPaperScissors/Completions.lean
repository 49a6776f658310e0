import RockPaperScissors.GameRequests
import RockPaperScissors.GameStore
import RockPaperScissors.Users

/-!
# Completions

The six operations of `DataStore` that return a value to a completion, with everything the
backend can answer. `setData(from:)` throws when the encoding fails and otherwise calls back
with an error or without one; a read calls back with a document, or a snapshot, or else an
error. `data(as:)` returns nil for a document that does not exist and throws when the
decoding fails. Errors and the contents of documents are arbitrary, and so is the decoding.

An operation is the list of the calls of its completion, oldest first, unless one of its
forced unwraps fails. `Contract` is what a caller relies on: one call, with an error when
anything failed and with a value only when nothing did. Two operations break it: `saveUser`
passes the user together with the backend's error, and `getUserWith` does not call back at
all when there is no document (`contract_broken`).

## Main results

* `completion_contract`: an operation keeps the contract if and only if it is neither a
  `saveUser` nor a `getUserWith` with an error of the backend, and unwraps no nil id.
* `getUserWith_found`, `getGameRequestWith_found`: on stored documents the reads give to
  their completions what `Users` and `GameRequests` say they read.
-/

namespace RockPaperScissors

/-- What comes of `setData(from:)`. -/
inductive WriteOutcome (ε : Type)
  /-- The encoding throws. -/
  | throws (error : ε)
  /-- The backend calls back, with an error or without. -/
  | answers (error : Option ε)
  deriving DecidableEq

/-- What the backend calls back with on a read. -/
inductive ReadOutcome (σ ε : Type)
  | snapshot (value : σ)
  | failure (error : ε)
  deriving DecidableEq

namespace ReadOutcome

variable {σ ε : Type}

/-- The document or the snapshot of the callback. -/
def snapshot? : ReadOutcome σ ε → Option σ
  | snapshot value => some value
  | failure _ => none

/-- The error of the callback. -/
def error? : ReadOutcome σ ε → Option ε
  | snapshot _ => none
  | failure error => some error

end ReadOutcome

/-- `data(as:)` on a document, which has contents if it exists. -/
def dataAs {α δ ε : Type} (decode : δ → Except ε α) (document : Option δ) :
    Except ε (Option α) :=
  match document with
  | none => .ok none
  | some contents => (decode contents).map some

/-- The calls of a completion, oldest first. -/
abbrev Calls (α ε : Type) := List (Option α × Option ε)

namespace Completions

variable {δ ε : Type}

/-! ### Operations -/

/-- The calls of the completion of `saveUser`, unless its unwrap fails. -/
def saveUser (user : User) (outcome : WriteOutcome ε) : Except ForcedUnwrap (Calls User ε) :=
  (RockPaperScissors.saveUser user).map fun _ =>
    match outcome with
    | .throws error => [(none, some error)]
    | .answers error => [(some user, error)]

/-- The calls of the completion of `getAllUsers`. -/
def getAllUsers (decode : δ → Except ε User) (outcome : ReadOutcome (List (Option δ)) ε) :
    Calls (List User) ε :=
  match outcome.error? with
  | some error => [(none, some error)]
  | none =>
      match outcome.snapshot? with
      | some documents =>
          match documents.mapM (dataAs decode) with
          | .ok users => [(some (users.filterMap id), none)]
          | .error error => [(none, some error)]
      | none => []

/-- The calls of the completion of `getUserWith`. -/
def getUserWith (decode : δ → Except ε User) (outcome : ReadOutcome (Option δ) ε) :
    Calls User ε :=
  match outcome.snapshot? with
  | some document =>
      match dataAs decode document with
      | .ok user => [(user, none)]
      | .error error => [(none, some error)]
  | none => []

/-- The calls of the completion of `startGameRequest`. -/
def startGameRequest (localUser : User) (userID documentID : String) (now : TimeInterval)
    (outcome : WriteOutcome ε) : Calls GameRequest ε :=
  let gameRequest := createGameRequest localUser userID documentID now
  match outcome with
  | .throws error => [(none, some error)]
  | .answers (some error) => [(none, some error)]
  | .answers none => [(gameRequest, none)]

/-- The calls of the completion of `getGameRequestWith`. -/
def getGameRequestWith (decode : δ → Except ε GameRequest)
    (outcome : ReadOutcome (Option δ) ε) : Calls GameRequest ε :=
  match outcome.error? with
  | some error => [(none, some error)]
  | none =>
      match outcome.snapshot? with
      | some document =>
          match dataAs decode document with
          | .ok gameRequest => [(gameRequest, none)]
          | .error error => [(none, some error)]
      | none => []

/-- The calls of the completion of `createGame`, unless its unwrap fails. -/
def createGame (players : List User) (documentID : String) (now : TimeInterval)
    (outcome : WriteOutcome ε) : Except ForcedUnwrap (Calls Game ε) :=
  match RockPaperScissors.createGame documentID players now with
  | none => .error .playerId
  | some game => .ok <|
      match outcome with
      | .throws error => [(none, some error)]
      | .answers (some error) => [(none, some error)]
      | .answers none => [(some game, none)]

end Completions

/-- An operation that returns a value, with what comes of its request. -/
inductive Operation (δ ε : Type)
  | saveUser (user : User) (outcome : WriteOutcome ε)
  | getUserWith (decode : δ → Except ε User) (outcome : ReadOutcome (Option δ) ε)
  | getAllUsers (decode : δ → Except ε User) (outcome : ReadOutcome (List (Option δ)) ε)
  /-- `startGameRequest` with a local user. -/
  | startGameRequest (localUser : User) (userID documentID : String) (now : TimeInterval)
      (outcome : WriteOutcome ε)
  | getGameRequestWith (decode : δ → Except ε GameRequest)
      (outcome : ReadOutcome (Option δ) ε)
  | createGame (players : List User) (documentID : String) (now : TimeInterval)
      (outcome : WriteOutcome ε)

namespace Operation

variable {δ ε : Type}

/-- The type of the value an operation returns. -/
def Value : Operation δ ε → Type
  | saveUser _ _ => User
  | getUserWith _ _ => User
  | getAllUsers _ _ => List User
  | startGameRequest _ _ _ _ _ => GameRequest
  | getGameRequestWith _ _ => GameRequest
  | createGame _ _ _ _ => Game

/-- The calls of the completion. -/
def calls : (o : Operation δ ε) → Except ForcedUnwrap (Calls o.Value ε)
  | saveUser user outcome => Completions.saveUser user outcome
  | getUserWith decode outcome => .ok (Completions.getUserWith decode outcome)
  | getAllUsers decode outcome => .ok (Completions.getAllUsers decode outcome)
  | startGameRequest localUser userID documentID now outcome =>
      .ok (Completions.startGameRequest localUser userID documentID now outcome)
  | getGameRequestWith decode outcome => .ok (Completions.getGameRequestWith decode outcome)
  | createGame players documentID now outcome =>
      Completions.createGame players documentID now outcome

end Operation

/-! ### The contract -/

/-- The encoding or the backend fails. -/
def WriteOutcome.Failed {ε : Type} : WriteOutcome ε → Prop
  | throws _ => True
  | answers error => error.isSome

/-- The decoding of the document fails. -/
def DecodingFails {α δ ε : Type} (decode : δ → Except ε α) (document : Option δ) : Prop :=
  ∃ contents error, document = some contents ∧ decode contents = .error error

/-- The backend fails, or the decoding does. -/
def ReadOutcome.Failed {σ ε : Type} (decodingFails : σ → Prop) : ReadOutcome σ ε → Prop
  | snapshot value => decodingFails value
  | failure _ => True

namespace Operation

variable {δ ε : Type}

/-- The backend, the encoding or the decoding fails. -/
def Failed : Operation δ ε → Prop
  | saveUser _ outcome => outcome.Failed
  | getUserWith decode outcome => outcome.Failed (DecodingFails decode)
  | getAllUsers decode outcome =>
      outcome.Failed fun documents => ∃ document ∈ documents, DecodingFails decode document
  | startGameRequest _ _ _ _ outcome => outcome.Failed
  | getGameRequestWith decode outcome => outcome.Failed (DecodingFails decode)
  | createGame _ _ _ outcome => outcome.Failed

end Operation

/-- **The contract of a completion**: it is called exactly once, with an error when the
operation failed and with a value only when it did not. -/
def Contract {α ε : Type} (failed : Prop) (calls : Calls α ε) : Prop :=
  ∃ value error, calls = [(value, error)] ∧ (failed → error.isSome) ∧ (value.isSome → ¬ failed)

/-- **The operation is safe**: `saveUser` and `getUserWith` get no error from the backend, and
the ids that `saveUser` and `createGame` unwrap are there. -/
def Operation.Safe {δ ε : Type} : Operation δ ε → Prop
  | saveUser user outcome => user.id.isSome ∧ ∀ error, outcome ≠ .answers (some error)
  | getUserWith _ outcome => ∀ error, outcome ≠ .failure error
  | createGame players _ _ _ => ∀ player ∈ players, player.id.isSome
  | getAllUsers _ _ => True
  | startGameRequest _ _ _ _ _ => True
  | getGameRequestWith _ _ => True

section Contract

variable {α δ ε : Type} {failed : Prop} {value : Option α} {error : Option ε}

/-- One call keeps the contract if it tells of a failure and gives no value then. -/
theorem contract_singleton :
    Contract failed [(value, error)] ↔ (failed → error.isSome) ∧ (value.isSome → ¬ failed) := by
  constructor
  · rintro ⟨value', error', hcalls, hcontract⟩
    obtain ⟨rfl, rfl⟩ : value = value' ∧ error = error' := by simpa using hcalls
    exact hcontract
  · exact fun hcontract => ⟨value, error, rfl, hcontract⟩

/-- The contract asks for a call. -/
theorem not_contract_nil : ¬ Contract failed ([] : Calls α ε) := by
  rintro ⟨value, error, hcalls, -⟩
  exact absurd hcalls (by simp)

/-- A call with an error and no value keeps the contract. -/
theorem contract_error (error : ε) : Contract failed [((none : Option α), some error)] :=
  contract_singleton.mpr ⟨fun _ => rfl, fun h => absurd h (by simp)⟩

/-- A call without an error keeps the contract of an operation that did not fail. -/
theorem contract_value (value : Option α) (h : ¬ failed) :
    Contract failed [(value, (none : Option ε))] :=
  contract_singleton.mpr ⟨fun hfailed => absurd hfailed h, fun _ => h⟩

end Contract

/-! ### Who keeps the contract -/

section Decoding

variable {α δ ε : Type} (decode : δ → Except ε α)

/-- `data(as:)` succeeds on a missing document too. -/
theorem dataAs_ok_iff (document : Option δ) :
    (∃ value, dataAs decode document = .ok value) ↔ ¬ DecodingFails decode document := by
  cases document with
  | none => simp [dataAs, DecodingFails]
  | some contents =>
      cases hdecode : decode contents <;>
        simp [dataAs, DecodingFails, hdecode, Except.map]

/-- Documents are decoded together when each of them is. -/
theorem mapM_ok_iff (documents : List (Option δ)) :
    (∃ values, documents.mapM (dataAs decode) = .ok values) ↔
      ∀ document ∈ documents, ¬ DecodingFails decode document := by
  induction documents with
  | nil => simp [pure, Except.pure]
  | cons document documents ih =>
      rw [List.forall_mem_cons, ← dataAs_ok_iff, ← ih, List.mapM_cons]
      cases hhead : dataAs decode document with
      | error error => simp [bind, Except.bind]
      | ok value =>
          cases htail : documents.mapM (dataAs decode) <;>
            simp [bind, Except.bind, pure, Except.pure]

end Decoding

namespace Completions

variable {δ ε : Type}

/-- What a save of a user with an id comes to. -/
theorem saveUser_of_id {user : User} {id : String} (h : user.id = some id)
    (outcome : WriteOutcome ε) : saveUser user outcome = .ok
      (match outcome with
      | .throws error => [(none, some error)]
      | .answers error => [(some user, error)]) := by
  have hsave := saveUser_eq_ok_iff.mpr ⟨id, h, rfl⟩
  unfold saveUser
  rw [hsave]
  rfl

/-- `saveUser` keeps the contract unless the backend answers with an error. -/
theorem contract_saveUser (user : User) (outcome : WriteOutcome ε) :
    (∃ calls, saveUser user outcome = .ok calls ∧ Contract outcome.Failed calls) ↔
      user.id.isSome ∧ ∀ error, outcome ≠ .answers (some error) := by
  cases hid : user.id with
  | none =>
      have hnone : saveUser user outcome = .error .userId := by
        simp [saveUser, RockPaperScissors.saveUser, hid, Except.map]
      simp [hnone]
  | some id =>
      rw [saveUser_of_id hid]
      cases outcome with
      | throws error => simpa using contract_error error
      | answers error =>
          cases error with
          | none => simpa using contract_value (some user) (by simp [WriteOutcome.Failed])
          | some error => simp [contract_singleton, WriteOutcome.Failed]

/-- `getUserWith` keeps the contract unless the backend answers with an error. -/
theorem contract_getUserWith (decode : δ → Except ε User)
    (outcome : ReadOutcome (Option δ) ε) :
    Contract (outcome.Failed (DecodingFails decode)) (getUserWith decode outcome) ↔
      ∀ error, outcome ≠ .failure error := by
  cases outcome with
  | failure error => simp [getUserWith, ReadOutcome.snapshot?, not_contract_nil]
  | snapshot document =>
      refine iff_of_true ?_ (by simp)
      have hok := dataAs_ok_iff decode document
      simp only [getUserWith, ReadOutcome.snapshot?, ReadOutcome.Failed]
      cases hdata : dataAs decode document with
      | error error => exact contract_error error
      | ok user => exact contract_value user (hok.mp ⟨user, hdata⟩)

/-- `getGameRequestWith` keeps the contract, whatever fails. -/
theorem contract_getGameRequestWith (decode : δ → Except ε GameRequest)
    (outcome : ReadOutcome (Option δ) ε) :
    Contract (outcome.Failed (DecodingFails decode)) (getGameRequestWith decode outcome) := by
  cases outcome with
  | failure error => exact contract_error error
  | snapshot document =>
      have hok := dataAs_ok_iff decode document
      simp only [getGameRequestWith, ReadOutcome.error?, ReadOutcome.snapshot?,
        ReadOutcome.Failed]
      cases hdata : dataAs decode document with
      | error error => exact contract_error error
      | ok gameRequest => exact contract_value gameRequest (hok.mp ⟨gameRequest, hdata⟩)

/-- `getAllUsers` keeps the contract, whatever fails. -/
theorem contract_getAllUsers (decode : δ → Except ε User)
    (outcome : ReadOutcome (List (Option δ)) ε) :
    Contract (outcome.Failed fun documents => ∃ document ∈ documents,
      DecodingFails decode document) (getAllUsers decode outcome) := by
  cases outcome with
  | failure error => exact contract_error error
  | snapshot documents =>
      have hok := mapM_ok_iff decode documents
      simp only [getAllUsers, ReadOutcome.error?, ReadOutcome.snapshot?, ReadOutcome.Failed]
      cases hdata : documents.mapM (dataAs decode) with
      | error error => exact contract_error error
      | ok users =>
          have hall := hok.mp ⟨users, hdata⟩
          exact contract_value _ fun ⟨document, hmem, hfails⟩ => hall document hmem hfails

/-- An operation that passes on the backend's error without the value. -/
theorem contract_write {α : Type} (value : Option α) (outcome : WriteOutcome ε) :
    Contract outcome.Failed
      (match outcome with
      | .throws error => [(none, some error)]
      | .answers (some error) => [(none, some error)]
      | .answers none => [(value, none)]) := by
  cases outcome with
  | throws error => exact contract_error error
  | answers error =>
      cases error with
      | none => exact contract_value value (by simp [WriteOutcome.Failed])
      | some error => exact contract_error error

/-- A game is created when every player has an id. -/
theorem createGame_isSome_iff (documentID : String) (players : List User) (now : TimeInterval) :
    (RockPaperScissors.createGame documentID players now).isSome ↔
      ∀ player ∈ players, player.id.isSome := by
  have hfold : ∀ moves : String → Option Moves,
      (players.foldlM setIdle moves).isSome ↔ ∀ player ∈ players, player.id.isSome := by
    induction players with
    | nil => simp
    | cons player players ih =>
        intro moves
        rw [List.foldlM_cons, List.forall_mem_cons, setIdle]
        cases hid : player.id <;> simp [ih]
  rw [RockPaperScissors.createGame, Option.isSome_map]
  exact hfold _

/-- `createGame` keeps the contract for players with ids. -/
theorem contract_createGame (players : List User) (documentID : String) (now : TimeInterval)
    (outcome : WriteOutcome ε) :
    (∃ calls, createGame players documentID now outcome = .ok calls ∧
      Contract outcome.Failed calls) ↔ ∀ player ∈ players, player.id.isSome := by
  rw [← createGame_isSome_iff documentID players now]
  cases hgame : RockPaperScissors.createGame documentID players now with
  | none => simp [createGame, hgame]
  | some game =>
      have hcontract := contract_write (some game) outcome
      simpa [createGame, hgame] using hcontract

end Completions

/-- What there is of a success is its value. -/
theorem exists_ok_iff {α ε : Type} {a : α} {p : α → Prop} :
    (∃ b, (Except.ok a : Except ε α) = .ok b ∧ p b) ↔ p a := by
  simp

/-- **An operation keeps the contract** exactly when it is safe. -/
theorem completion_contract {δ ε : Type} (o : Operation δ ε) :
    (∃ calls, o.calls = .ok calls ∧ Contract o.Failed calls) ↔ o.Safe := by
  cases o with
  | saveUser user outcome => exact Completions.contract_saveUser user outcome
  | getUserWith decode outcome =>
      exact exists_ok_iff.trans (Completions.contract_getUserWith decode outcome)
  | getAllUsers decode outcome =>
      exact iff_of_true ⟨_, rfl, Completions.contract_getAllUsers decode outcome⟩ trivial
  | startGameRequest localUser userID documentID now outcome =>
      exact iff_of_true ⟨_, rfl, Completions.contract_write _ outcome⟩ trivial
  | getGameRequestWith decode outcome =>
      exact iff_of_true ⟨_, rfl, Completions.contract_getGameRequestWith decode outcome⟩ trivial
  | createGame players documentID now outcome =>
      exact Completions.contract_createGame players documentID now outcome

/-- **The contract is broken**: a registration whose write the backend rejects is passed to
the completion as a user. -/
theorem contract_broken : ¬ ∀ (δ ε : Type) (o : Operation δ ε),
    ∃ calls, o.calls = .ok calls ∧ Contract o.Failed calls := by
  intro h
  have hsave : (Operation.saveUser (User.createUser "uid1" "player" firstDraw)
      (.answers (some "unavailable")) : Operation String String).calls =
        .ok [(some (User.createUser "uid1" "player" firstDraw), some "unavailable")] := rfl
  obtain ⟨calls, hcalls, hcontract⟩ := h String String
    (.saveUser (User.createUser "uid1" "player" firstDraw) (.answers (some "unavailable")))
  obtain rfl := Except.ok.inj (hsave.symm.trans hcalls)
  exact (contract_singleton.mp hcontract).2 rfl rfl

/-- A fetched user is not passed on, nor is anything else, when the backend fails. -/
example (decode : String → Except String User) :
    Completions.getUserWith decode (.failure "unavailable") = [] := rfl

/-! ### Reads of stored documents -/

/-- What `getUserWith` passes on from stored documents. -/
theorem getUserWith_found (docs : List UserDocument) (id : String) :
    Completions.getUserWith (fun fields => .ok (User.decode fields))
        (.snapshot ((docs.find? fun d => d.documentID = id).map UserDocument.fields)) =
      [(getUserWith docs id, (none : Option Unit))] := by
  cases hfind : docs.find? fun d => d.documentID = id <;>
    simp [Completions.getUserWith, ReadOutcome.snapshot?, dataAs, getUserWith, hfind, Except.map]

/-- What `getGameRequestWith` passes on from stored documents. -/
theorem getGameRequestWith_found (docs : List GameRequest) (id : String) :
    Completions.getGameRequestWith .ok (.snapshot (docs.find? fun r => r.id = id)) =
      [(getGameRequestWith docs id, (none : Option Unit))] := by
  cases hfind : docs.find? fun r => r.id = id <;>
    simp [Completions.getGameRequestWith, ReadOutcome.error?, ReadOutcome.snapshot?, dataAs,
      getGameRequestWith, hfind, Except.map]

end RockPaperScissors
