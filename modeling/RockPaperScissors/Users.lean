import RockPaperScissors.Models
import RockPaperScissors.WriteLog

/-!
# Users in the Store

The collection `users`, the queries of `DataStore` on it, and the property `localUser` with
its observer. A document is the list of the fields that `setData(from:)` encodes: a nil
optional leaves no field. `saveUser` writes without `merge`, so it replaces the document.

The observer `didSet` changes the property it observes; Swift does not run an observer again
for an assignment in its own body. The completion of `setPushToken` and `saveTokenForUser`
assign from outside of it. A draw of `avatars.randomElement()` is a place in `avatars`.

A function is an `Except`: it fails with the forced unwrap that finds `nil`. Otherwise it
returns the new state and the documents it writes, in order.

## Main results

* `User.decode_encode`: a user is decoded from what it was encoded to.
* `getUserWith_putUser`, `getUserWith_replay_concat`: what a save leaves to be read.
* `DataStore.setLocalUser_eq`, `DataStore.setToken_eq`: what an assignment from outside
  leaves and writes, observer included.
-/

namespace RockPaperScissors

section Except

variable {ε α β : Type*} {f : α → β} {x : Except ε α}

/-- A mapped result is a success of a success. -/
theorem map_eq_ok_iff {b : β} : x.map f = .ok b ↔ ∃ a, x = .ok a ∧ f a = b := by
  cases x <;> simp [Except.map]

/-- A mapped result fails where the result does. -/
theorem map_eq_error_iff {e : ε} : x.map f = .error e ↔ x = .error e := by
  cases x <;> simp [Except.map]

end Except

/-- The forced unwraps of optional model values. -/
inductive ForcedUnwrap
  /-- `user.id!` in `saveUser`. -/
  | userId
  /-- `$0.id!` in `createGame`. -/
  | playerId
  /-- `self.localUser!` in the completion of `setPushToken`. -/
  | localUser
  /-- `DataStore.shared.localUser!` in `saveTokenForUser`. -/
  | sharedLocalUser
  /-- `self.game!` in `checkForWinner` and in the closure of `setWinner`. -/
  | game
  deriving DecidableEq, Repr

/-! ### Users -/

/-- The images that a user may be given. -/
def avatars : List String := ["avatarOne", "avatarTwo", "avatarThree"]

/-- There are at least two avatars. -/
theorem one_lt_length_avatars : 1 < avatars.length := by decide

/-- The draw of the first avatar. -/
def firstDraw : Fin avatars.length := ⟨0, Nat.zero_lt_of_lt one_lt_length_avatars⟩

/-- The draw of the second avatar. -/
def secondDraw : Fin avatars.length := ⟨1, one_lt_length_avatars⟩

namespace User

/-- `createUser`, with the image that is drawn. -/
def createUser (id username : String) (draw : Fin avatars.length) : User where
  id := some id
  username := some username
  avatarImage := some (avatars.get draw)
  deviceToken := none

/-- `setRandomImage`, with the image that is drawn. -/
def setRandomImage (user : User) (draw : Fin avatars.length) : User :=
  { user with avatarImage := some (avatars.get draw) }

/-- The fields `setData(from:)` writes for a user. -/
def encode (user : User) : List (String × String) :=
  (user.id.map fun value => ("id", value)).toList ++
    (user.username.map fun value => ("username", value)).toList ++
    (user.avatarImage.map fun value => ("avatarImage", value)).toList ++
    (user.deviceToken.map fun value => ("deviceToken", value)).toList

/-- `data(as: User.self)`. -/
def decode (fields : List (String × String)) : User where
  id := fields.lookup "id"
  username := fields.lookup "username"
  avatarImage := fields.lookup "avatarImage"
  deviceToken := fields.lookup "deviceToken"

/-- **A user is decoded from what it was encoded to.** -/
@[simp] theorem decode_encode (user : User) : decode user.encode = user := by
  obtain ⟨id, username, avatarImage, deviceToken⟩ := user
  cases id <;> cases username <;> cases avatarImage <;> cases deviceToken <;> rfl

end User

/-! ### Documents -/

/-- A document of the collection `users`. -/
structure UserDocument where
  documentID : String
  fields : List (String × String)
  deriving DecidableEq, Repr

/-- `setData(from:)` without `merge` replaces the document. -/
def putUser (docs : List UserDocument) (document : UserDocument) : List UserDocument :=
  docs.filter (fun d => d.documentID ≠ document.documentID) ++ [document]

/-- `saveUser`: the document it writes. -/
def saveUser (user : User) : Except ForcedUnwrap UserDocument :=
  match user.id with
  | none => .error .userId
  | some id => .ok ⟨id, user.encode⟩

/-- The answer of `checkForExistingUsername`; without a snapshot the name counts as used. -/
def checkForExistingUsername (snapshot : Option (List UserDocument)) (username : String) :
    Bool :=
  match snapshot with
  | none => true
  | some docs => docs.any fun d => d.fields.lookup "username" = some username

/-- The user in the document with the id, if there is one. -/
def getUserWith (docs : List UserDocument) (id : String) : Option User :=
  (docs.find? fun d => d.documentID = id).map fun d => User.decode d.fields

section Documents

variable {docs : List UserDocument} {d document : UserDocument} {id : String} {user : User}

/-- A document was there before the write, or has been written. -/
theorem mem_putUser (h : d ∈ putUser docs document) : d ∈ docs ∨ d = document := by
  rcases List.mem_append.mp h with hold | hnew
  · exact Or.inl (List.mem_of_mem_filter hold)
  · exact Or.inr (List.mem_singleton.mp hnew)

/-- The document that `getUserWith` reads. -/
theorem getUserWith_eq_some (h : getUserWith docs id = some user) :
    ∃ d ∈ docs, d.documentID = id ∧ User.decode d.fields = user := by
  obtain ⟨d, hfind, hdecode⟩ := Option.map_eq_some_iff.mp h
  exact ⟨d, List.mem_of_find?_eq_some hfind, by simpa using List.find?_some hfind, hdecode⟩

/-- What saves leave was stored or saved. -/
theorem mem_replay_putUser {saves : List UserDocument}
    (h : d ∈ WriteLog.replay putUser docs saves) : d ∈ docs ∨ d ∈ saves := by
  induction saves generalizing docs with
  | nil => exact Or.inl h
  | cons document saves ih =>
      rcases ih h with hput | hrest
      · rcases mem_putUser hput with hold | rfl
        · exact Or.inl hold
        · exact Or.inr List.mem_cons_self
      · exact Or.inr (List.mem_cons_of_mem _ hrest)

/-- **No document is ever lost**: what has been stored or saved is found. -/
theorem getUserWith_replay_isSome {saves : List UserDocument} (h : d ∈ docs ∨ d ∈ saves) :
    (getUserWith (WriteLog.replay putUser docs saves) d.documentID).isSome := by
  have hfound : ∃ d' ∈ WriteLog.replay putUser docs saves, d'.documentID = d.documentID := by
    induction saves generalizing docs d with
    | nil => exact ⟨d, h.resolve_right List.not_mem_nil, rfl⟩
    | cons document saves ih =>
        have hput : document ∈ putUser docs document :=
          List.mem_append_right _ (List.mem_singleton.mpr rfl)
        rcases h with hold | hsaved
        · by_cases hid : d.documentID = document.documentID
          · rw [hid]
            exact ih (Or.inl hput)
          · refine ih (Or.inl (List.mem_append_left _ (List.mem_filter.mpr ⟨hold, ?_⟩)))
            simpa using hid
        · rcases List.mem_cons.mp hsaved with rfl | hrest
          · exact ih (Or.inl hput)
          · exact ih (Or.inr hrest)
  obtain ⟨d', hd', hid⟩ := hfound
  rw [getUserWith, Option.isSome_map, List.find?_isSome]
  exact ⟨d', hd', by simpa using hid⟩

/-- A save names the document by the user's id. -/
theorem saveUser_eq_ok_iff :
    saveUser user = .ok document ↔ ∃ id, user.id = some id ∧ document = ⟨id, user.encode⟩ := by
  cases hid : user.id with
  | none => simp [saveUser, hid]
  | some id => simp [saveUser, hid, eq_comm]

/-- **A save is read back.** -/
theorem getUserWith_putUser :
    getUserWith (putUser docs document) document.documentID =
      some (User.decode document.fields) := by
  have hnone : (docs.filter fun d => d.documentID ≠ document.documentID).find?
      (fun d => d.documentID = document.documentID) = none := by
    rw [List.find?_eq_none]
    intro d hd
    simpa using (List.mem_filter.mp hd).2
  rw [getUserWith, putUser, List.find?_append, hnone]
  simp

/-- **The last save is read back**, whatever was stored and saved before. -/
theorem getUserWith_replay_concat {saves : List UserDocument} :
    getUserWith (WriteLog.replay putUser docs (saves ++ [document])) document.documentID =
      some (User.decode document.fields) := by
  rw [WriteLog.replay, List.foldl_append]
  exact getUserWith_putUser

end Documents

/-! ### The local user -/

/-- The local user of a device, and the requests for its token. -/
structure DataStore where
  localUser : Option User
  /-- The calls of `setPushToken`. -/
  tokenRequests : ℕ
  /-- The calls whose completion has run or never will. -/
  answered : ℕ

namespace DataStore

/-- `setPushToken` asks for a token. -/
def setPushToken (ds : DataStore) : DataStore :=
  { ds with tokenRequests := ds.tokenRequests + 1 }

/-- The observer of `localUser`. -/
def didSet (ds : DataStore) (draw : Fin avatars.length) :
    Except ForcedUnwrap (DataStore × List UserDocument) :=
  let ds : DataStore :=
    { ds with localUser := ds.localUser.map fun user => user.setRandomImage draw }
  let ds := if (ds.localUser.bind User.deviceToken).isNone then ds.setPushToken else ds
  match ds.localUser with
  | none => .ok (ds, [])
  | some localuser => (saveUser localuser).map fun document => (ds, [document])

/-- `localUser = user`. -/
def setLocalUser (ds : DataStore) (user : User) (draw : Fin avatars.length) :
    Except ForcedUnwrap (DataStore × List UserDocument) :=
  didSet { ds with localUser := some user } draw

/-- `localUser?.deviceToken = token`. -/
def setDeviceToken (ds : DataStore) (token : String) (draw : Fin avatars.length) :
    Except ForcedUnwrap (DataStore × List UserDocument) :=
  match ds.localUser with
  | none => .ok (ds, [])
  | some user => ds.setLocalUser { user with deviceToken := some token } draw

/-- `localUser?.deviceToken = token` and `saveUser(user: localUser!)`. -/
def setToken (ds : DataStore) (token : String) (draw : Fin avatars.length)
    (unwrap : ForcedUnwrap) : Except ForcedUnwrap (DataStore × List UserDocument) :=
  match ds.setDeviceToken token draw with
  | .error e => .error e
  | .ok (ds, documents) =>
      match ds.localUser with
      | none => .error unwrap
      | some user =>
          (saveUser user).map fun document => (ds, documents ++ [document])

/-- One more completion has run. -/
def answer (ds : DataStore) : DataStore :=
  { ds with answered := ds.answered + 1 }

/-- The completion of `setPushToken`, with the token unless there was an error. -/
def didFetchToken (ds : DataStore) (token : Option String) (draw : Fin avatars.length) :
    Except ForcedUnwrap (DataStore × List UserDocument) :=
  match token with
  | none => .ok (ds.answer, [])
  | some token => ds.answer.setToken token draw .localUser

/-- `saveTokenForUser` of `AppDelegate`. -/
def saveTokenForUser (ds : DataStore) (deviceToken : String) (draw : Fin avatars.length) :
    Except ForcedUnwrap (DataStore × List UserDocument) :=
  if ds.localUser.isNone then .ok (ds, []) else ds.setToken deviceToken draw .sharedLocalUser

/-- The data store once the observer has left the user in it. -/
def assigned (ds : DataStore) (user : User) : DataStore where
  localUser := some user
  tokenRequests := ds.tokenRequests + if user.deviceToken.isNone then 1 else 0
  answered := ds.answered

variable (ds : DataStore) (user : User) (draw : Fin avatars.length)

/-- **An assignment from outside** leaves the user with a new image, and saves it. -/
theorem setLocalUser_eq :
    ds.setLocalUser user draw =
      (saveUser (user.setRandomImage draw)).map fun document =>
        (ds.assigned (user.setRandomImage draw), [document]) := by
  have htoken : (user.setRandomImage draw).deviceToken = user.deviceToken := rfl
  cases hnone : user.deviceToken <;>
    simp [setLocalUser, didSet, assigned, setPushToken, htoken, hnone]

/-- **A token** is assigned from outside, so the observer saves the user, and the caller
saves it again. -/
theorem setToken_eq (token : String) (unwrap : ForcedUnwrap) (h : ds.localUser = some user) :
    ds.setToken token draw unwrap =
      let user := { user with deviceToken := some token }.setRandomImage draw
      (saveUser user).map fun document => (ds.assigned user, [document, document]) := by
  rw [setToken, setDeviceToken, h]
  simp only [setLocalUser_eq]
  cases hsave : saveUser ({ user with deviceToken := some token }.setRandomImage draw) with
  | error e => rfl
  | ok document =>
      simp only [Except.map, assigned, hsave]
      rfl

/-- Without a local user the token's unwrap fails. -/
theorem setToken_of_none (token : String) (unwrap : ForcedUnwrap) (h : ds.localUser = none) :
    ds.setToken token draw unwrap = .error unwrap := by
  rw [setToken, setDeviceToken, h]
  simp only [h]

/-- An assignment of a user with an id. -/
theorem setLocalUser_of_id {id : String} (h : user.id = some id) :
    ds.setLocalUser user draw =
      .ok (ds.assigned (user.setRandomImage draw), [⟨id, (user.setRandomImage draw).encode⟩]) := by
  have hsave : saveUser (user.setRandomImage draw) =
      .ok ⟨id, (user.setRandomImage draw).encode⟩ := saveUser_eq_ok_iff.mpr ⟨id, h, rfl⟩
  rw [setLocalUser_eq, hsave]
  rfl

/-- A token on a user with an id. -/
theorem setToken_of_id {id : String} (token : String) (unwrap : ForcedUnwrap)
    (hlocal : ds.localUser = some user) (h : user.id = some id) :
    ds.setToken token draw unwrap =
      let user := { user with deviceToken := some token }.setRandomImage draw
      .ok (ds.assigned user, [⟨id, user.encode⟩, ⟨id, user.encode⟩]) := by
  have hsave : saveUser ({ user with deviceToken := some token }.setRandomImage draw) =
      .ok ⟨id, ({ user with deviceToken := some token }.setRandomImage draw).encode⟩ :=
    saveUser_eq_ok_iff.mpr ⟨id, h, rfl⟩
  rw [ds.setToken_eq user draw token unwrap hlocal]
  simp only [hsave]
  rfl

/-- A token that unwraps no `nil` is set on a user with an id. -/
theorem setToken_eq_ok {ds ds' : DataStore} {token : String} {draw : Fin avatars.length}
    {unwrap : ForcedUnwrap} {documents : List UserDocument}
    (h : ds.setToken token draw unwrap = .ok (ds', documents)) :
    ∃ user id, ds.localUser = some user ∧ user.id = some id ∧
      ds' = ds.assigned ({ user with deviceToken := some token }.setRandomImage draw) ∧
      documents = [⟨id, ({ user with deviceToken := some token }.setRandomImage draw).encode⟩,
        ⟨id, ({ user with deviceToken := some token }.setRandomImage draw).encode⟩] := by
  cases hlocal : ds.localUser with
  | none =>
      rw [ds.setToken_of_none draw token unwrap hlocal] at h
      exact absurd h (by simp)
  | some user =>
      rw [ds.setToken_eq user draw token unwrap hlocal] at h
      obtain ⟨document, hsave, heq⟩ := map_eq_ok_iff.mp h
      obtain ⟨rfl, rfl⟩ := Prod.mk.inj heq
      obtain ⟨id, hid, rfl⟩ := saveUser_eq_ok_iff.mp hsave
      exact ⟨user, id, rfl, hid, rfl, rfl⟩

end DataStore

end RockPaperScissors
