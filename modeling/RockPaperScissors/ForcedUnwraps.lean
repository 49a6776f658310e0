import RockPaperScissors.Accounts
import RockPaperScissors.LocalGames
import RockPaperScissors.Provenance
import RockPaperScissors.RequestTrace

/-!
# Forced Unwraps

The whole program: the accounts and the lobby, with what passes between them. An invitation
is made with the client's local user. `acceptRequest` reads the local user when the request
has been looked up and fetches the other one from the collection of users; `createGame`
unwraps the ids of both. Every step can fail with a forced unwrap of `nil` (`App.handle`).

The processes of a client that has been launched again go on here, which only adds runs. A
device may be given several uids, and is the client of each. Its local user may then be
another one than the user to whom a request was addressed, when an accept of it reads the
local user: what the accept unwraps is followed all the same, the game it would create is not
(a push is assumed to reach the invited user only).

## Main results

* `App.device?_eq_some_iff`: a client is the device that its uid was given to.
* `App.sound_of_run`: in every reachable state the accounts are sound, the local users that
  accepts have read have ids, and the lobby is reached by a run of its own.
* `App.Sound.creates`: a user that is fetched leads to a game.
* `App.no_unwrap_fails`: no forced unwrap fails, in any order of events.
-/

open TransitionSystem

namespace RockPaperScissors

/-- The pairing of `createGame(players: [localUser, user])`. -/
def pairing? (documentID : String) (now : TimeInterval) (localUser user : User) :
    Option Pairing :=
  match hlocal : localUser.id, huser : user.id with
  | some localUserId, some userId =>
      if hne : localUserId ≠ userId then
        some
          { gameId := documentID
            createdAt := now
            user := fun
              | .acceptor => localUser
              | .requester => user
            userId := fun
              | .acceptor => localUserId
              | .requester => userId
            user_id := fun
              | .acceptor => hlocal
              | .requester => huser
            userId_ne := hne }
      else none
  | _, _ => none

/-- The accounts and the lobby. -/
structure App where
  accounts : Accounts
  lobby : Lobby
  /-- The local user that `acceptRequest` has read, for each accept. -/
  localUsers : ℕ → Option User

/-- What can happen in the program. -/
inductive AppEvent
  /-- Something happens to the accounts. -/
  | account (e : AccountEvent)
  /-- `getGameRequestWith` is answered: `acceptRequest` begins. -/
  | lookedUp (j : ℕ) (error : Bool)
  /-- `getUserWith` of `acceptRequest` is answered; a game gets the id at the time. -/
  | userFetched (j : ℕ) (error : Bool) (documentID : String) (now : TimeInterval)
  /-- Something else happens in the lobby. -/
  | lobby (e : LobbyEvent)

namespace App

/-- Nothing has happened. -/
def init : App where
  accounts := Accounts.init
  lobby := Lobby.init
  localUsers := fun _ => none

variable (s : App)

/-- The client of the user: the device that the uid was given to. -/
def device? (userId : String) : Option ℕ :=
  (s.accounts.uids.find? fun given => given.2 = userId).map Prod.fst

/-- `DataStore.shared.localUser` on the client of the user, which may be another user of the
device. -/
def localUser (userId : String) : Option User :=
  (s.device? userId).bind fun d =>
    s.accounts.devices[d]?.bind fun dev => dev.dataStore.localUser

/-- `getUserWith` on the client of the user. -/
def getUserWith (userId id : String) : Option User :=
  (s.device? userId).bind fun d =>
    RockPaperScissors.getUserWith (s.accounts.usersSeenBy d) id

/-- The lobby's event needs nothing of the accounts, or what they have. -/
def allows : LobbyEvent → Bool
  | .invite invitation => s.localUser invitation.localUserId = some invitation.localUser
  | .lookedUp _ _ => false
  | .userFetched _ _ => false
  | _ => true

/-- An event of the lobby. -/
def inLobby (e : LobbyEvent) : Option App :=
  (s.lobby.step e).map fun lobby => { s with lobby }

/-- `acceptRequest` of the accept at the place reads the local user. -/
def readLocalUser (j : ℕ) (accept : Accept) : App :=
  { s with localUsers := Function.update s.localUsers j (s.localUser accept.localUserId) }

/-- What an event does; `none` when it cannot happen, and an error when it unwraps `nil`. -/
def handle (s : App) : AppEvent → Option (Except ForcedUnwrap App)
  | .account e =>
      (s.accounts.handle e).map fun result =>
        result.map fun accounts => { s with accounts }
  | .lookedUp j error =>
      s.lobby.accepts[j]?.bind fun accept =>
        ((s.readLocalUser j accept).inLobby (.lookedUp j error)).map Except.ok
  | .userFetched j error documentID now =>
      s.lobby.accepts[j]?.bind fun accept =>
        (s.localUsers j).bind fun localUser =>
          accept.stage.fetching?.bind fun request =>
            match if error then none else s.getUserWith accept.localUserId request.fromId with
            | none => (s.inLobby (.userFetched j none)).map Except.ok
            | some user =>
                match createGame documentID [localUser, user] now with
                | none => some (.error .playerId)
                | some _ =>
                    (pairing? documentID now localUser user).bind fun pairing =>
                      (s.inLobby (.userFetched j (some pairing))).map Except.ok
  | .lobby e =>
      if s.allows e then
        if s.lobby.unwrapsGame e then some (.error .game)
        else (s.inLobby e).map Except.ok
      else none

/-- The program after an event that unwraps no `nil`. -/
def step (s : App) (e : AppEvent) : Option App :=
  (s.handle e).bind Except.toOption

variable {s} {s' : App} {e : AppEvent}

/-! ### What passes between the accounts and the lobby -/

/-- **The client of a user is the device that the uid was given to.** -/
theorem device?_eq_some_iff (hs : s.accounts.Sound) {userId : String} {d : ℕ} :
    s.device? userId = some d ↔ userId ∈ s.accounts.uidsOf d := by
  rw [Accounts.mem_uidsOf_iff]
  constructor
  · intro h
    obtain ⟨⟨d', uid⟩, hfind, rfl⟩ := Option.map_eq_some_iff.mp h
    obtain rfl : uid = userId := by simpa using List.find?_some hfind
    exact List.mem_of_find?_eq_some hfind
  · intro h
    have hsome : (s.accounts.uids.find? fun given => given.2 = userId).isSome :=
      List.find?_isSome.mpr ⟨_, h, by simp⟩
    obtain ⟨⟨d', uid⟩, hfind⟩ := Option.isSome_iff_exists.mp hsome
    obtain rfl : uid = userId := by simpa using List.find?_some hfind
    have hmem := Accounts.mem_uidsOf_iff.mpr (List.mem_of_find?_eq_some hfind)
    rw [device?, hfind, hs.distinct d d' uid (Accounts.mem_uidsOf_iff.mpr h) hmem]
    rfl

/-- The local user on a client has an id, which is one of the client's uids. -/
theorem exists_id_of_localUser (hs : s.accounts.Sound) {userId : String} {user : User}
    (h : s.localUser userId = some user) :
    ∃ uid, user.id = some uid ∧ s.device? uid = s.device? userId := by
  obtain ⟨d, hd, h⟩ := Option.bind_eq_some_iff.mp h
  obtain ⟨dev, hdev, hlocal⟩ := Option.bind_eq_some_iff.mp h
  obtain ⟨uid, hmem, huser⟩ := (hs.devices d dev hdev).localUser user hlocal
  exact ⟨uid, huser.id, ((device?_eq_some_iff hs).mpr hmem).trans hd.symm⟩

/-- A user is fetched by the id. -/
theorem id_of_getUserWith (hs : s.accounts.Sound) {userId id : String} {user : User}
    (h : s.getUserWith userId id = some user) : user.id = some id := by
  obtain ⟨d, -, h⟩ := Option.bind_eq_some_iff.mp h
  exact (hs.of_getUserWith h).id

/-- Two users with ids make a game. -/
theorem createGame_isSome {documentID : String} {now : TimeInterval} {localUser user : User}
    (hlocal : localUser.id.isSome) (huser : user.id.isSome) :
    (createGame documentID [localUser, user] now).isSome := by
  obtain ⟨localUserId, hlocalId⟩ := Option.isSome_iff_exists.mp hlocal
  obtain ⟨userId, huserId⟩ := Option.isSome_iff_exists.mp huser
  simp [createGame, setIdle, hlocalId, huserId]

/-- Two users with different ids make a pairing, the local user as the acceptor. -/
theorem pairing?_eq (documentID : String) (now : TimeInterval) {localUser user : User}
    {localUserId userId : String} (hlocal : localUser.id = some localUserId)
    (huser : user.id = some userId) (hne : localUserId ≠ userId) :
    ∃ pairing, pairing? documentID now localUser user = some pairing ∧
      pairing.gameId = documentID ∧ pairing.userId .acceptor = localUserId ∧
      pairing.userId .requester = userId := by
  obtain ⟨id, username, avatarImage, deviceToken⟩ := localUser
  obtain ⟨id', username', avatarImage', deviceToken'⟩ := user
  obtain rfl : id = some localUserId := hlocal
  obtain rfl : id' = some userId := huser
  exact ⟨_, dif_pos hne, rfl, rfl, rfl⟩

/-! ### The invariant -/

/-- **The invariant**: the accounts are sound, the local user that an accept has read has an
id, and the lobby is reached by a run of its own. -/
structure Sound (s : App) : Prop where
  accounts : s.accounts.Sound
  localUsers : ∀ j user, s.localUsers j = some user → user.id.isSome
  lobby : ∃ es, Run Lobby.step Lobby.init es s.lobby

/-- The program is sound at the beginning. -/
theorem sound_init : init.Sound where
  accounts := Accounts.sound_init
  localUsers := by simp [init]
  lobby := ⟨[], RunWhere.nil⟩

/-- An event of the lobby changes nothing but the lobby. -/
theorem inLobby_eq_some {e : LobbyEvent} (h : s.inLobby e = some s') :
    ∃ lobby, s.lobby.step e = some lobby ∧ s' = { s with lobby } := by
  obtain ⟨lobby, hstep, rfl⟩ := Option.map_eq_some_iff.mp h
  exact ⟨lobby, hstep, rfl⟩

/-- An event of the lobby keeps the program sound. -/
theorem Sound.inLobby (hs : s.Sound) {e : LobbyEvent} (h : s.inLobby e = some s') :
    s'.Sound := by
  obtain ⟨lobby, hstep, rfl⟩ := inLobby_eq_some h
  obtain ⟨es, hrun⟩ := hs.lobby
  exact ⟨hs.accounts, hs.localUsers, _, RunWhere.snoc hrun trivial hstep⟩

/-- An accept reads the local user of its client. -/
theorem Sound.reads (hs : s.Sound) (j : ℕ) (accept : Accept) :
    (s.readLocalUser j accept).Sound where
  accounts := hs.accounts
  localUsers := by
    intro i user huser
    simp only [readLocalUser] at huser
    by_cases hi : i = j
    · subst hi
      rw [Function.update_self] at huser
      obtain ⟨uid, hid, -⟩ := exists_id_of_localUser hs.accounts huser
      simp [hid]
    · rw [Function.update_of_ne hi] at huser
      exact hs.localUsers i user huser
  lobby := hs.lobby

/-- What an event can do: a step of the accounts, or one of the lobby, before which an accept
may have read its local user. -/
theorem step_cases (h : s.step e = some s') :
    (∃ ae accounts, s.accounts.step ae = some accounts ∧ s' = { s with accounts }) ∨
      (∃ le, s.inLobby le = some s') ∨
      ∃ j accept le, s.lobby.accepts[j]? = some accept ∧
        (s.readLocalUser j accept).inLobby le = some s' := by
  obtain ⟨result, hhandle, h⟩ := Option.bind_eq_some_iff.mp h
  obtain rfl := Accounts.toOption_eq_some_iff.mp h
  have hlobby {t : App} {le : LobbyEvent}
      (h : (t.inLobby le).map Except.ok = some (Except.ok s' : Except ForcedUnwrap App)) :
      t.inLobby le = some s' := by
    obtain ⟨t', ht', heq⟩ := Option.map_eq_some_iff.mp h
    rw [ht', Except.ok.inj heq]
  cases e with
  | account e =>
      obtain ⟨result, hresult, heq⟩ := Option.map_eq_some_iff.mp hhandle
      obtain ⟨accounts, rfl, rfl⟩ := map_eq_ok_iff.mp heq
      refine Or.inl ⟨e, accounts, ?_, rfl⟩
      rw [Accounts.step, hresult]
      rfl
  | lookedUp j error =>
      obtain ⟨accept, haccept, hhandle⟩ := Option.bind_eq_some_iff.mp hhandle
      exact Or.inr (Or.inr ⟨j, accept, _, haccept, hlobby hhandle⟩)
  | userFetched j error documentID now =>
      obtain ⟨accept, -, hhandle⟩ := Option.bind_eq_some_iff.mp hhandle
      obtain ⟨localUser, -, hhandle⟩ := Option.bind_eq_some_iff.mp hhandle
      obtain ⟨request, -, hhandle⟩ := Option.bind_eq_some_iff.mp hhandle
      split at hhandle
      · exact Or.inr (Or.inl ⟨_, hlobby hhandle⟩)
      · split at hhandle
        · exact absurd hhandle (by simp)
        · obtain ⟨pairing, -, hhandle⟩ := Option.bind_eq_some_iff.mp hhandle
          exact Or.inr (Or.inl ⟨_, hlobby hhandle⟩)
  | lobby e =>
      simp only [handle] at hhandle
      split at hhandle
      · split at hhandle
        · exact absurd hhandle (by simp)
        · exact Or.inr (Or.inl ⟨_, hlobby hhandle⟩)
      · exact absurd hhandle (by simp)

/-- **Every event keeps the program sound.** -/
theorem Sound.step (hs : s.Sound) (h : s.step e = some s') : s'.Sound := by
  rcases step_cases h with ⟨ae, accounts, hstep, rfl⟩ | ⟨le, hlobby⟩ |
    ⟨j, accept, le, haccept, hlobby⟩
  · exact { hs with accounts := hs.accounts.step (Accounts.step_of_step_eq hstep) }
  · exact hs.inLobby hlobby
  · exact (hs.reads j accept).inLobby hlobby

/-- **The program is sound in every reachable state.** -/
theorem sound_of_run {es : List AppEvent} (h : Run step init es s) : s.Sound :=
  h.invariant sound_init fun _ _ _ hs _ hstep => hs.step hstep

/-- **No event unwraps `nil`** in a sound state. -/
theorem Sound.handle_ne_error (hs : s.Sound) (e : AppEvent) (unwrap : ForcedUnwrap) :
    s.handle e ≠ some (.error unwrap) := by
  intro h
  cases e with
  | account e =>
      obtain ⟨result, hresult, heq⟩ := Option.map_eq_some_iff.mp h
      rw [map_eq_error_iff] at heq
      rw [heq] at hresult
      exact hs.accounts.handle_ne_error e unwrap hresult
  | lookedUp j error =>
      obtain ⟨accept, -, h⟩ := Option.bind_eq_some_iff.mp h
      simp at h
  | userFetched j error documentID now =>
      obtain ⟨accept, -, h⟩ := Option.bind_eq_some_iff.mp h
      obtain ⟨localUser, hlocal, h⟩ := Option.bind_eq_some_iff.mp h
      obtain ⟨request, -, h⟩ := Option.bind_eq_some_iff.mp h
      have hlocalId := hs.localUsers j localUser hlocal
      split at h
      · simp at h
      · next user huser =>
          have hfetched : s.getUserWith accept.localUserId request.fromId = some user := by
            cases error with
            | true => exact absurd huser (by simp)
            | false => exact huser
          have hgame : (createGame documentID [localUser, user] now).isSome :=
            createGame_isSome hlocalId (by simp [id_of_getUserWith hs.accounts hfetched])
          obtain ⟨game, hgame⟩ := Option.isSome_iff_exists.mp hgame
          simp [hgame, Option.bind_eq_some_iff] at h
  | lobby e =>
      obtain ⟨es, hrun⟩ := hs.lobby
      simp only [handle, Lobby.unwrapsGame_of_run hrun e] at h
      split at h <;> simp at h

/-- **A user that is fetched leads to a game**, whose players are the two users, when the
local user is the one to whom the request was addressed. -/
theorem Sound.creates (hs : s.Sound) {j : ℕ} {accept : Accept} {request : GameRequest}
    {localUser user : User} {documentID : String} (now : TimeInterval)
    (haccept : s.lobby.accepts[j]? = some accept)
    (hstage : accept.stage = .fetchingUser request)
    (hlocal : s.localUsers j = some localUser) (hlocalId : localUser.id = some accept.localUserId)
    (hfetched : s.getUserWith accept.localUserId request.fromId = some user)
    (hfresh : ∀ g ∈ s.lobby.games, g.pairing.gameId ≠ documentID) :
    ∃ s', s.step (.userFetched j false documentID now) = some s' ∧
      s'.lobby.games.length = s.lobby.games.length + 1 := by
  obtain ⟨es, hrun⟩ := hs.lobby
  have htraced := Lobby.traced_of_run hrun
  obtain ⟨r, hr, -, hto, hrequest⟩ := htraced.accepts accept (List.mem_of_getElem? haccept)
  obtain rfl := hrequest request (by rw [hstage, AcceptStage.request?])
  have hne : accept.localUserId ≠ request.fromId := fun heq =>
    htraced.users request hr (heq.symm.trans hto.symm)
  have hid := id_of_getUserWith hs.accounts hfetched
  obtain ⟨pairing, hpairing, hgameId, hacceptor, hrequester⟩ :=
    pairing?_eq documentID now hlocalId hid hne
  obtain ⟨game, hgame⟩ := Option.isSome_iff_exists.mp
    (createGame_isSome (by simp [hlocalId]) (by simp [hid]) :
      (createGame documentID [localUser, user] now).isSome)
  have hstep : ∃ lobby, s.lobby.step (.userFetched j (some pairing)) = some lobby ∧
      lobby.games.length = s.lobby.games.length + 1 := by
    have hids : pairing.userId .acceptor = accept.localUserId ∧
        pairing.userId .requester = request.fromId ∧
        ∀ g ∈ s.lobby.games, g.pairing.gameId ≠ pairing.gameId :=
      ⟨hacceptor, hrequester, fun g hg => hgameId ▸ hfresh g hg⟩
    rw [Lobby.step, haccept, Option.bind_some]
    simp only [hstage]
    rw [if_pos hids]
    exact ⟨_, rfl, by simp⟩
  obtain ⟨lobby, hlobby, hlength⟩ := hstep
  refine ⟨{ s with lobby }, ?_, hlength⟩
  rw [App.step, handle, haccept, Option.bind_some, hlocal, Option.bind_some, hstage]
  simp only [AcceptStage.fetching?, Option.bind_some, Bool.false_eq_true, if_false, hfetched,
    hgame, hpairing, App.inLobby, hlobby, Option.map_some]
  rfl

/-- The ids of the players of a stored game. -/
theorem Sound.players_isSome (hs : s.Sound) {g : LobbyGame} (hg : g ∈ s.lobby.games)
    {game : Game} (hgame : g.session.stored = some game) :
    ∀ user ∈ game.players, user.id.isSome := by
  obtain ⟨es, hlobby⟩ := hs.lobby
  obtain ⟨es', hrun⟩ := Lobby.session_of_run hlobby g hg
  have hcopy : g.pairing.Copy game :=
    Session.stored_of_holds Session.editClosed_copy (Session.copy_of_run hrun) hgame
  intro user huser
  rw [hcopy.players_eq, Pairing.players, List.mem_pair] at huser
  rcases huser with rfl | rfl <;> simp [g.pairing.user_id]

/-- **No forced unwrap fails**, whatever happens next; every stored user document decodes to
a user with its id, and the players of every stored game have ids. -/
theorem no_unwrap_fails {es : List AppEvent} (h : Run step init es s) :
    (∀ e unwrap, s.handle e ≠ some (.error unwrap)) ∧
    (∀ document ∈ s.accounts.stored,
      (User.decode document.fields).id = some document.documentID) ∧
    ∀ g ∈ s.lobby.games, ∀ game, g.session.stored = some game →
      ∀ user ∈ game.players, user.id.isSome := by
  have hs := sound_of_run h
  exact ⟨hs.handle_ne_error, hs.accounts.stored_decodes,
    fun g hg game hgame => hs.players_isSome hg hgame⟩

/-- The steps of a device on which a user registers and gets a token. -/
def registering (d : ℕ) (username uid : String) : List AppEvent :=
  [.account .install, .account (.device d .launch), .account (.device d (.onContinue username)),
    .account (.device d (.usernameChecked 0 false)),
    .account (.device d (.signedIn 0 (some uid) firstDraw)), .account (.commit d),
    .account (.device d (.saved 0 secondDraw)),
    .account (.device d (.tokenFetched (some "token") firstDraw)),
    .account (.commit d), .account (.commit d), .account (.commit d)]

/-- What the second user's table makes of the two users after `registering`. -/
def secondInvitesFirst : Invitation where
  localUser := ⟨some "uid2", some "bob", some "avatarOne", some "token"⟩
  opponent := ⟨some "uid1", some "ann", some "avatarOne", some "token"⟩
  localUserId := "uid2"
  userId := "uid1"
  localUser_id := rfl
  opponent_id := rfl
  userId_ne := Lobby.uid2_ne_uid1

/-- Two users register, and the first accepts an invitation of the second. -/
def registeringAndAccepting : List AppEvent :=
  registering 0 "ann" "uid1" ++ registering 1 "bob" "uid2" ++
    (Lobby.inviting 0 "request" secondInvitesFirst).map AppEvent.lobby ++
    [.lobby (.tapAccept 0), .lookedUp 0 false, .userFetched 0 false "game" 0,
      .lobby (.game 0 (.commit .acceptor)), .lobby (.gameCreated 0),
      .lobby (.game 0 (.snapshot 0 1)), .lobby (.game 0 (.input 0 .deliver))]

/-- The run `registeringAndAccepting` ends with two users and a game, and nothing that can
happen then fails. -/
theorem no_unwrap_fails_registeringAndAccepting : ∃ s, Run step init registeringAndAccepting s ∧
    s.accounts.stored.length = 2 ∧ s.lobby.games.length = 1 ∧
    (∀ e unwrap, s.handle e ≠ some (.error unwrap)) := by
  have hrun : Run step init registeringAndAccepting
      ((exec step init registeringAndAccepting).get (by decide)) := runWhere_get _
  exact ⟨_, hrun, by decide, by decide, (no_unwrap_fails hrun).1⟩

end App

end RockPaperScissors
