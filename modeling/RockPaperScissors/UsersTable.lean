import RockPaperScissors.PendingRequests

/-!
# The Users Table

`HomeViewController` shows the other users in a table. A tap on a start button invites the
user of its cell and hides the button, which is to keep the user from inviting again. But
`setData` shows the button whenever the table asks for the cell: when the users have been
fetched again, when the row is scrolled back, and when a loading view is set up.

`Home` is the lobby with the cells of every client's table, in which invitations come from
taps on buttons that are not hidden. The answer of `getAllUsers` may be any users; a
listener of the collection starts the query at any time.

## Main results

* `Home.lobby_of_run`: the lobby of a run of tables is reached by a run of the lobby.
* `Home.one_pending`: at most one request of each pair is stored, in every run in which
  each request is started alone.
* `Home.two_pending`: a run in which the button comes back and two requests are stored.
-/

open TransitionSystem

namespace RockPaperScissors

/-- A cell of the table of the local user. -/
structure UserTableViewCell (localUserId : String) where
  user : User
  /-- `getUsers` has filtered the local user out. -/
  user_ne : user.id ≠ some localUserId
  /-- `btnStart.isHidden`. -/
  btnStartHidden : Bool

/-- The cell of a user: `setData`. -/
def setData {localUserId : String} (user : User) (h : user.id ≠ some localUserId) :
    UserTableViewCell localUserId where
  user := user
  user_ne := h
  btnStartHidden := false

/-- `reloadData`, with the same users. -/
def reloadData {localUserId : String} (cells : List (UserTableViewCell localUserId)) :
    List (UserTableViewCell localUserId) :=
  cells.map fun cell => setData cell.user cell.user_ne

/-- The lobby, and the tables of the home screens. -/
structure Home where
  lobby : Lobby
  /-- The cells of each client's table. -/
  cells : (localUserId : String) → List (UserTableViewCell localUserId)

/-- What can happen on the home screens. -/
inductive HomeEvent
  /-- `getAllUsers` is answered on a client: `getUsers` reloads its table. -/
  | getUsers (localUserId : String) (users : List User)
  /-- A row comes back on the screen of a client. -/
  | cellForRowAt (localUserId : String) (row : ℕ)
  /-- A tap on the start button of a row. -/
  | onSart (localUser : User) (localUserId : String) (row : ℕ)
  /-- Something else happens in the lobby. -/
  | lobby (e : LobbyEvent)

namespace Home

/-- The tables are empty. -/
def init : Home where
  lobby := Lobby.init
  cells := fun _ => []

/-- The filter of `getUsers` and `reloadData`. -/
def getUsers (localUserId : String) (users : List User) :
    List (UserTableViewCell localUserId) :=
  users.filterMap fun user =>
    if h : user.id ≠ some localUserId then some (setData user h) else none

variable (s : Home)

/-- The table of a client gets other cells. -/
def setCells (localUserId : String) (cells : List (UserTableViewCell localUserId)) : Home :=
  { s with cells := Function.update s.cells localUserId cells }

/-- `requestGameWith`: the invitation of a cell's user, unless its guard fails. -/
def requestGameWith {localUserId : String} (localUser : User)
    (cell : UserTableViewCell localUserId) : Option Invitation :=
  match huser : cell.user.id with
  | none => none
  | some userId =>
      if hlocal : localUser.id = some localUserId then
        some
          { localUser := localUser
            opponent := cell.user
            localUserId := localUserId
            userId := userId
            localUser_id := hlocal
            opponent_id := huser
            userId_ne := fun heq => cell.user_ne (huser.trans (congrArg some heq.symm)) }
      else none

/-- The client whose table is reloaded at the event: `setupLoadingView`. -/
def reloads (s : Lobby) : LobbyEvent → Option String
  | .requestStarted i => s.invites[i]?.map fun invite => invite.localUserId
  | _ => none

/-- The tables after an event; `none` when the event cannot happen. -/
def step (s : Home) : HomeEvent → Option Home
  | .getUsers localUserId users => some (s.setCells localUserId (getUsers localUserId users))
  | .cellForRowAt localUserId row =>
      (s.cells localUserId)[row]?.map fun cell =>
        s.setCells localUserId
          ((s.cells localUserId).set row (setData cell.user cell.user_ne))
  | .onSart localUser localUserId row =>
      (s.cells localUserId)[row]?.bind fun cell =>
        if localUser.id = some localUserId ∧ ¬ cell.btnStartHidden then
          let s := s.setCells localUserId
            ((s.cells localUserId).set row { cell with btnStartHidden := true })
          match requestGameWith localUser cell with
          | none => some s
          | some invitation =>
              (s.lobby.step (.invite invitation)).map fun lobby => { s with lobby }
        else none
  | .lobby (.invite _) => none
  | .lobby e =>
      (s.lobby.step e).map fun lobby =>
        match reloads s.lobby e with
        | none => { s with lobby }
        | some localUserId =>
            { s with lobby }.setCells localUserId (reloadData (s.cells localUserId))

/-- The condition of the lobby, on the tables. -/
def StartsAlone (s : Home) : HomeEvent → Prop
  | .getUsers _ _ => True
  | .cellForRowAt _ _ => True
  | .onSart _ _ _ => True
  | .lobby e => s.lobby.StartsAlone e

instance (s : Home) (e : HomeEvent) : Decidable (s.StartsAlone e) :=
  match e with
  | .getUsers _ _ => inferInstanceAs (Decidable True)
  | .cellForRowAt _ _ => inferInstanceAs (Decidable True)
  | .onSart _ _ _ => inferInstanceAs (Decidable True)
  | .lobby e => inferInstanceAs (Decidable (s.lobby.StartsAlone e))

/-! ### The lobby of the tables -/

variable {s} {s' : Home} {e : HomeEvent}

/-- What an event does to the lobby: nothing, an invitation, or the lobby's own event. -/
theorem lobby_of_step (h : s.step e = some s') :
    s'.lobby = s.lobby ∨
      (∃ invitation, s.lobby.step (.invite invitation) = some s'.lobby) ∨
      ∃ e', e = .lobby e' ∧ s.lobby.step e' = some s'.lobby := by
  cases e with
  | getUsers localUserId users =>
      obtain rfl := Option.some.inj h
      exact Or.inl rfl
  | cellForRowAt localUserId row =>
      obtain ⟨cell, -, rfl⟩ := Option.map_eq_some_iff.mp h
      exact Or.inl rfl
  | onSart localUser localUserId row =>
      obtain ⟨cell, -, h⟩ := Option.bind_eq_some_iff.mp h
      split at h
      · dsimp only at h
        split at h
        · obtain rfl := Option.some.inj h
          exact Or.inl rfl
        · next invitation _ =>
            obtain ⟨lobby, hlobby, rfl⟩ := Option.map_eq_some_iff.mp h
            exact Or.inr (Or.inl ⟨invitation, hlobby⟩)
      · exact absurd h (by simp)
  | lobby e =>
      have hstep : ∃ lobby, s.lobby.step e = some lobby ∧ s'.lobby = lobby := by
        cases e with
        | invite invitation => exact absurd h (by simp [step])
        | _ =>
            obtain ⟨lobby, hlobby, rfl⟩ := Option.map_eq_some_iff.mp h
            refine ⟨lobby, hlobby, ?_⟩
            split <;> rfl
      obtain ⟨lobby, hlobby, rfl⟩ := hstep
      exact Or.inr (Or.inr ⟨e, rfl, hlobby⟩)

/-- **The lobby of a run of tables is reached by a run of the lobby.** -/
theorem lobby_of_run {es : List HomeEvent} (h : RunWhere step StartsAlone init es s) :
    ∃ les, RunWhere Lobby.step Lobby.StartsAlone Lobby.init les s.lobby := by
  refine h.invariant (I := fun s =>
    ∃ les, RunWhere Lobby.step Lobby.StartsAlone Lobby.init les s.lobby)
    ⟨[], RunWhere.nil⟩ ?_
  rintro s e s' ⟨les, hrun⟩ halone hstep
  rcases lobby_of_step hstep with hsame | ⟨invitation, hinvite⟩ | ⟨e', rfl, hlobby⟩
  · exact ⟨les, hsame ▸ hrun⟩
  · have hnone : s.lobby.StartsAlone (.invite invitation) := by
      simp [Lobby.StartsAlone, Lobby.starting]
    exact ⟨_, RunWhere.snoc hrun hnone hinvite⟩
  · exact ⟨_, RunWhere.snoc hrun halone hlobby⟩

/-- **At most one request of each pair is stored**, in every run in which each request is
started alone. -/
theorem one_pending {es : List HomeEvent} (h : RunWhere step StartsAlone init es s)
    (fromId toId : String) : (pending s.lobby.storedRequests fromId toId).length ≤ 1 := by
  obtain ⟨les, hrun⟩ := lobby_of_run h
  exact (Lobby.single_of_run hrun).stored fromId toId

/-- The second user taps the first, and again after its request is stored. -/
def tappedAfterwards : List HomeEvent :=
  [.getUsers "uid2" [Lobby.sampleUser "uid1", Lobby.sampleUser "uid2"],
    .onSart (Lobby.sampleUser "uid2") "uid2" 0, .lobby (.requestChecked 0 false),
    .lobby (.gameChecked 0 false "request" 0), .lobby (.commitRequest "uid2"),
    .lobby (.requestStarted 0), .onSart (Lobby.sampleUser "uid2") "uid2" 0,
    .lobby (.requestChecked 1 false)]

/-- The run `tappedAfterwards` ends with one stored request. -/
theorem one_pending_tappedAfterwards : ∃ s, Run step init tappedAfterwards s ∧
    s.lobby.storedRequests.length = 1 ∧
    (pending s.lobby.storedRequests "uid2" "uid1").length ≤ 1 := by
  have hrun : RunWhere step StartsAlone init tappedAfterwards
      ((execWhere step StartsAlone init tappedAfterwards).get (by decide)) := runWhere_get _
  exact ⟨_, hrun.toRun, by decide, one_pending hrun "uid2" "uid1"⟩

/-- The users are fetched again between two taps, and both checks are answered before
either request is written. -/
def tappedTwice : List HomeEvent :=
  [.getUsers "uid2" [Lobby.sampleUser "uid1", Lobby.sampleUser "uid2"],
    .onSart (Lobby.sampleUser "uid2") "uid2" 0,
    .getUsers "uid2" [Lobby.sampleUser "uid1", Lobby.sampleUser "uid2"],
    .onSart (Lobby.sampleUser "uid2") "uid2" 0, .lobby (.requestChecked 0 false),
    .lobby (.requestChecked 1 false), .lobby (.gameChecked 0 false "request" 0),
    .lobby (.gameChecked 1 false "request2" 0), .lobby (.commitRequest "uid2"),
    .lobby (.commitRequest "uid2")]

/-- **Two requests of one pair are stored.** -/
theorem two_pending : ¬ ∀ (es : List HomeEvent) (s : Home), Run step init es s →
    ∀ fromId toId, (pending s.lobby.storedRequests fromId toId).length ≤ 1 := by
  intro h
  have hrun : Run step init tappedTwice ((exec step init tappedTwice).get (by decide)) :=
    runWhere_get _
  exact absurd (h _ _ hrun "uid2" "uid1") (by decide)

end Home

end RockPaperScissors
