import RockPaperScissors.Models
import RockPaperScissors.Registrations
import RockPaperScissors.TransitionSystem

/-!
# The Listeners of the Data Store

`DataStore` has five properties for the registrations of its listeners, and for each of them
an operation that sets it and one that removes it. The first three set operations remove
what they replace; `setGameListener` and `setGameStateListener` only assign, and a
registration that is still in the property when they are called is live for ever
(`listener_leaks`).

Three set operations do nothing without the id of a local user, two of them after the
removal. Calls come in any order, and the local user is assigned at any time.

## Main results

* `Listeners.exact_call_iff`: a call leaves the live registrations the held ones if and
  only if they were and the call replaces nothing unremoved.
* `Listeners.no_listener_leaks`: there is no leak at the end of exactly the sequences of
  calls of which each replaces nothing unremoved.
* `Listeners.sameAt_call`, `Listeners.holds_call`: what a call does to each property.
-/

open TransitionSystem

namespace RockPaperScissors

/-- The properties of `DataStore` for listeners. -/
inductive Listener
  | usersListener
  | gameRequestListener
  | gameRequestDeletionListener
  | gameListener
  | gameStatusListener
  deriving DecidableEq, Repr

/-- What a snapshot listener is added to. -/
inductive Query
  /-- The collection `users`. -/
  | users
  /-- `gameRequests` with the field `to` of the local user. -/
  | requestsTo (localUserId : String)
  /-- `gameRequests` with the field `from` of the local user. -/
  | requestsFrom (localUserId : String)
  /-- The starting `games` with the local user in `playerIds`. -/
  | startingGamesOf (localUserId : String)
  /-- The document of a game. -/
  | game (gameId : String)
  deriving DecidableEq, Repr

/-- The listeners of `DataStore`, and the local user, whom some of them are for. -/
structure Listeners where
  localUser : Option User
  registrations : Registrations Listener Query

/-- An assignment to `localUser`, or an operation on a listener. -/
inductive ListenerCall
  /-- An assignment to `localUser`. -/
  | localUser (user : Option User)
  | setUsersListener
  | removeUsersListener
  | setGameRequestListener
  | removeGameRequestListener
  | setGameRequestDeletionListener
  | removeGameRequestDeletionListener
  | setGameListener
  | removeGameListener
  | setGameStateListener (game : Game)
  | removeGameStatusListener

/-- The property that the call removes the listener of. -/
def ListenerCall.removes : ListenerCall → Option Listener
  | removeUsersListener => some .usersListener
  | removeGameRequestListener => some .gameRequestListener
  | removeGameRequestDeletionListener => some .gameRequestDeletionListener
  | removeGameListener => some .gameListener
  | removeGameStatusListener => some .gameStatusListener
  | _ => none

/-- The property that the call reads and assigns. -/
def ListenerCall.listener : ListenerCall → Option Listener
  | localUser _ => none
  | setUsersListener | removeUsersListener => some .usersListener
  | setGameRequestListener | removeGameRequestListener => some .gameRequestListener
  | setGameRequestDeletionListener | removeGameRequestDeletionListener =>
      some .gameRequestDeletionListener
  | setGameListener | removeGameListener => some .gameListener
  | setGameStateListener _ | removeGameStatusListener => some .gameStatusListener

namespace Listeners

/-- Nobody is signed in, and nothing is listened to. -/
def init : Listeners where
  localUser := none
  registrations := Registrations.empty

variable (s : Listeners)

/-- `localUser?.id`. -/
def localUserId : Option String :=
  s.localUser.bind User.id

/-- `listener = query.addSnapshotListener`. -/
def addSnapshotListener (k : Listener) (query : Query) : Listeners :=
  { s with registrations := s.registrations.register k query }

/-- `listener?.remove()` and `listener = nil`. -/
def removeListener (k : Listener) : Listeners :=
  { s with registrations := s.registrations.remove k }

/-- The removal of a listener that is not nil. -/
def removeReplaced (k : Listener) : Listeners :=
  if (s.registrations.slot k).isSome then s.removeListener k else s

/-- A listener of a query on the local user, after `guard let localUserId`. -/
def listenAs (k : Listener) (query : String → Query) : Listeners :=
  match s.localUserId with
  | none => s
  | some localUserId => s.addSnapshotListener k (query localUserId)

/-- Listen to the users, instead of what was listened to before. -/
def setUsersListener : Listeners :=
  (s.removeReplaced .usersListener).addSnapshotListener .usersListener .users

/-- Listen to the users no more. -/
def removeUsersListener : Listeners :=
  s.removeListener .usersListener

/-- Listen to the requests to the local user, instead of before. -/
def setGameRequestListener : Listeners :=
  (s.removeReplaced .gameRequestListener).listenAs .gameRequestListener .requestsTo

/-- Listen to the requests no more. -/
def removeGameRequestListener : Listeners :=
  s.removeListener .gameRequestListener

/-- Listen to the requests from the local user, instead of before. -/
def setGameRequestDeletionListener : Listeners :=
  (s.removeReplaced .gameRequestDeletionListener).listenAs .gameRequestDeletionListener
    .requestsFrom

/-- Listen to the deletions no more. -/
def removeGameRequestDeletionListener : Listeners :=
  s.removeListener .gameRequestDeletionListener

/-- Listen to the starting games of the local user. Nothing is removed before. -/
def setGameListener : Listeners :=
  s.listenAs .gameListener .startingGamesOf

/-- Listen to the starting games no more. -/
def removeGameListener : Listeners :=
  s.removeListener .gameListener

/-- Listen to one game. Nothing is removed before. -/
def setGameStateListener (game : Game) : Listeners :=
  s.addSnapshotListener .gameStatusListener (.game game.id)

/-- Listen to the game no more. -/
def removeGameStatusListener : Listeners :=
  s.removeListener .gameStatusListener

/-- What a call does. -/
def call (s : Listeners) : ListenerCall → Listeners
  | .localUser user => { s with localUser := user }
  | .setUsersListener => s.setUsersListener
  | .removeUsersListener => s.removeUsersListener
  | .setGameRequestListener => s.setGameRequestListener
  | .removeGameRequestListener => s.removeGameRequestListener
  | .setGameRequestDeletionListener => s.setGameRequestDeletionListener
  | .removeGameRequestDeletionListener => s.removeGameRequestDeletionListener
  | .setGameListener => s.setGameListener
  | .removeGameListener => s.removeGameListener
  | .setGameStateListener game => s.setGameStateListener game
  | .removeGameStatusListener => s.removeGameStatusListener

/-- Every operation can be called at any time. -/
def step (s : Listeners) (e : ListenerCall) : Option Listeners :=
  some (s.call e)

/-- **The call replaces nothing unremoved**: the two set operations that remove nothing find
their property nil when they assign it. -/
def Releases (s : Listeners) : ListenerCall → Prop
  | .setGameListener => s.localUserId.isSome → s.registrations.slot .gameListener = none
  | .setGameStateListener _ => s.registrations.slot .gameStatusListener = none
  | _ => True

instance (e : ListenerCall) : Decidable (s.Releases e) :=
  match e with
  | .setGameListener => inferInstanceAs (Decidable (_ → _))
  | .setGameStateListener _ => inferInstanceAs (Decidable (_ = _))
  | .localUser _ | .setUsersListener | .removeUsersListener | .setGameRequestListener
  | .removeGameRequestListener | .setGameRequestDeletionListener
  | .removeGameRequestDeletionListener | .removeGameListener | .removeGameStatusListener =>
      inferInstanceAs (Decidable True)

variable {s} {k : Listener} {query : Query} {e : ListenerCall} {es : List ListenerCall}

/-! ### One call -/

/-- To remove what is replaced keeps ids distinct and held registrations live. -/
theorem wellFormed_removeReplaced (hs : s.registrations.WellFormed) :
    (s.removeReplaced k).registrations.WellFormed := by
  unfold removeReplaced
  split
  · exact hs.remove
  · exact hs

/-- So does a listener for the local user. -/
theorem wellFormed_listenAs {query : String → Query} (hs : s.registrations.WellFormed) :
    (s.listenAs k query).registrations.WellFormed := by
  unfold listenAs
  split
  · exact hs
  · exact hs.register

/-- **A call keeps ids unique and held registrations live.** -/
theorem wellFormed_call (hs : s.registrations.WellFormed) (e : ListenerCall) :
    (s.call e).registrations.WellFormed := by
  cases e with
  | localUser _ => exact hs
  | setUsersListener => exact (wellFormed_removeReplaced hs).register
  | setGameRequestListener | setGameRequestDeletionListener =>
      exact wellFormed_listenAs (wellFormed_removeReplaced hs)
  | setGameListener => exact wellFormed_listenAs hs
  | setGameStateListener _ => exact hs.register
  | removeUsersListener | removeGameRequestListener | removeGameRequestDeletionListener
  | removeGameListener | removeGameStatusListener => exact hs.remove

/-- A listener leaks exactly when it overwrites one that is held. -/
theorem exact_addSnapshotListener_iff (hs : s.registrations.WellFormed) :
    (s.addSnapshotListener k query).registrations.Exact ↔
      s.registrations.Exact ∧ s.registrations.slot k = none :=
  Registrations.exact_register_iff hs

/-- So does one for the local user, if there is a local user. -/
theorem exact_listenAs_iff {query : String → Query} (hs : s.registrations.WellFormed) :
    (s.listenAs k query).registrations.Exact ↔
      s.registrations.Exact ∧ (s.localUserId.isSome → s.registrations.slot k = none) := by
  unfold listenAs
  cases hid : s.localUserId with
  | none => simp
  | some localUserId => simpa using exact_addSnapshotListener_iff hs

/-- What is replaced has been removed, which leaks nothing. -/
theorem exact_removeReplaced_iff (hs : s.registrations.WellFormed) :
    (s.removeReplaced k).registrations.Exact ↔ s.registrations.Exact := by
  unfold removeReplaced
  split
  · exact Registrations.exact_remove_iff hs
  · exact Iff.rfl

/-- What is replaced is not held any more. -/
theorem slot_removeReplaced : (s.removeReplaced k).registrations.slot k = none := by
  unfold removeReplaced
  split
  · exact Registrations.slot_remove_self
  · next hnone => exact Option.not_isSome_iff_eq_none.mp hnone

/-- **A call leaks exactly what it replaces unremoved.** -/
theorem exact_call_iff (hs : s.registrations.WellFormed) (e : ListenerCall) :
    (s.call e).registrations.Exact ↔ s.registrations.Exact ∧ s.Releases e := by
  cases e with
  | localUser _ => exact (and_iff_left trivial).symm
  | setUsersListener =>
      have hset : s.setUsersListener.registrations.Exact ↔ _ :=
        exact_addSnapshotListener_iff (wellFormed_removeReplaced hs)
      rw [exact_removeReplaced_iff hs, and_iff_left slot_removeReplaced] at hset
      exact hset.trans (and_iff_left trivial).symm
  | setGameRequestListener =>
      have hset : s.setGameRequestListener.registrations.Exact ↔ _ :=
        exact_listenAs_iff (wellFormed_removeReplaced hs)
      rw [exact_removeReplaced_iff hs, and_iff_left fun _ => slot_removeReplaced] at hset
      exact hset.trans (and_iff_left trivial).symm
  | setGameRequestDeletionListener =>
      have hset : s.setGameRequestDeletionListener.registrations.Exact ↔ _ :=
        exact_listenAs_iff (wellFormed_removeReplaced hs)
      rw [exact_removeReplaced_iff hs, and_iff_left fun _ => slot_removeReplaced] at hset
      exact hset.trans (and_iff_left trivial).symm
  | setGameListener => exact exact_listenAs_iff hs
  | setGameStateListener _ => exact exact_addSnapshotListener_iff hs
  | removeUsersListener | removeGameRequestListener | removeGameRequestDeletionListener
  | removeGameListener | removeGameStatusListener =>
      exact (Registrations.exact_remove_iff hs).trans (and_iff_left trivial).symm

/-- A call that removes a listener is the removal of its property. -/
theorem call_of_removes (h : e.removes = some k) : s.call e = s.removeListener k := by
  cases e with
  | removeUsersListener | removeGameRequestListener | removeGameRequestDeletionListener
  | removeGameListener | removeGameStatusListener =>
      obtain rfl := Option.some.inj h
      rfl
  | localUser _ | setUsersListener | setGameRequestListener | setGameRequestDeletionListener
  | setGameListener | setGameStateListener _ => exact absurd h (by simp [ListenerCall.removes])

/-! ### One property -/

section Property

variable {j : Listener} {queries : String → Query}

/-- To remove what is replaced concerns one property. -/
theorem sameAt_removeReplaced (hs : s.registrations.WellFormed) (h : j ≠ k) :
    Registrations.SameAt j s.registrations (s.removeReplaced k).registrations := by
  unfold removeReplaced
  split
  · exact hs.sameAt_remove h
  · exact Registrations.sameAt_refl

/-- A listener for the local user concerns one property. -/
theorem sameAt_listenAs (h : j ≠ k) :
    Registrations.SameAt j s.registrations (s.listenAs k queries).registrations := by
  unfold listenAs
  split
  · exact Registrations.sameAt_refl
  · exact Registrations.sameAt_register h

/-- To remove what is replaced assigns no local user. -/
theorem localUserId_removeReplaced : (s.removeReplaced k).localUserId = s.localUserId := by
  unfold removeReplaced
  split <;> rfl

/-- The local user is assigned by one call only. -/
theorem localUserId_call (h : e.listener ≠ none) : (s.call e).localUserId = s.localUserId := by
  have hlisten : ∀ (t : Listeners) k queries, (t.listenAs k queries).localUserId =
      t.localUserId := by
    intro t k queries
    unfold listenAs
    split <;> rfl
  cases e with
  | localUser _ => exact absurd rfl h
  | setUsersListener => exact localUserId_removeReplaced
  | setGameRequestListener | setGameRequestDeletionListener =>
      exact (hlisten _ _ _).trans localUserId_removeReplaced
  | setGameListener => exact hlisten _ _ _
  | setGameStateListener _ | removeUsersListener | removeGameRequestListener
  | removeGameRequestDeletionListener | removeGameListener | removeGameStatusListener => rfl

/-- **A call changes one property only.** -/
theorem sameAt_call (hs : s.registrations.WellFormed) (h : e.listener ≠ some j) :
    Registrations.SameAt j s.registrations (s.call e).registrations := by
  have hne : ∀ {k}, e.listener = some k → j ≠ k := fun hk hj => h (hj ▸ hk)
  cases e with
  | localUser _ => exact Registrations.sameAt_refl
  | setUsersListener =>
      exact (sameAt_removeReplaced hs (hne rfl)).trans (Registrations.sameAt_register (hne rfl))
  | setGameRequestListener | setGameRequestDeletionListener =>
      exact (sameAt_removeReplaced hs (hne rfl)).trans (sameAt_listenAs (hne rfl))
  | setGameListener => exact sameAt_listenAs (hne rfl)
  | setGameStateListener _ => exact Registrations.sameAt_register (hne rfl)
  | removeUsersListener | removeGameRequestListener | removeGameRequestDeletionListener
  | removeGameListener | removeGameStatusListener => exact hs.sameAt_remove (hne rfl)

/-- A property from which the replaced listener is removed holds what is live for it. -/
theorem holds_removeReplaced (h : s.registrations.Holds k) :
    (s.removeReplaced k).registrations.Holds k := by
  unfold removeReplaced
  split
  · exact h.remove
  · exact h

/-- A listener assigned to an empty property is all that is live for it. -/
theorem holds_listenAs (h : s.registrations.Holds k)
    (hnone : s.localUserId.isSome → s.registrations.slot k = none) :
    (s.listenAs k queries).registrations.Holds k := by
  unfold listenAs
  cases hid : s.localUserId with
  | none => exact h
  | some localUserId => exact h.register (hnone (by rw [hid]; rfl))

/-- **A call leaks from its property only what it replaces unremoved.** -/
theorem holds_call (hs : s.registrations.WellFormed) (h : s.registrations.Holds j)
    (hreleases : e.listener = some j → s.Releases e) : (s.call e).registrations.Holds j := by
  by_cases hj : e.listener = some j
  · replace hreleases := hreleases hj
    cases e with
    | localUser _ => exact h
    | setUsersListener =>
        obtain rfl := Option.some.inj hj
        exact (holds_removeReplaced h).register slot_removeReplaced
    | setGameRequestListener | setGameRequestDeletionListener =>
        obtain rfl := Option.some.inj hj
        exact holds_listenAs (holds_removeReplaced h) fun _ => slot_removeReplaced
    | setGameListener =>
        obtain rfl := Option.some.inj hj
        exact holds_listenAs h hreleases
    | setGameStateListener _ =>
        obtain rfl := Option.some.inj hj
        exact h.register hreleases
    | removeUsersListener | removeGameRequestListener | removeGameRequestDeletionListener
    | removeGameListener | removeGameStatusListener =>
        obtain rfl := Option.some.inj hj
        exact h.remove
  · exact (sameAt_call hs hj).holds h

end Property

/-! ### Sequences of calls -/

/-- **No listener leaks** by a sequence of calls: exactly the held registrations are live, at
most one for each property, and none for a property that the last call removes. -/
structure NoLeak (es : List ListenerCall) (s : Listeners) : Prop where
  exact : s.registrations.Exact
  atMostOne : ∀ k, (s.registrations.live.filter fun entry => entry.1 = k).length ≤ 1
  removed : ∀ e k, es.getLast? = some e → e.removes = some k →
    ∀ r, (k, r) ∉ s.registrations.live

/-- In every run ids are distinct and held registrations live. -/
theorem wellFormed_of_run (h : Run step init es s) : s.registrations.WellFormed := by
  refine h.invariant (I := fun s => s.registrations.WellFormed)
    Registrations.wellFormed_empty fun s e s' hs _ hstep => ?_
  obtain rfl := Option.some.inj hstep
  exact wellFormed_call hs e

/-- Without a leak all that is said of the live registrations holds. -/
theorem noLeak_of_exact (h : Run step init es s) (hexact : s.registrations.Exact) :
    NoLeak es s := by
  refine ⟨hexact, hexact.length_le (wellFormed_of_run h), ?_⟩
  intro e k hlast hremoves r
  cases h with
  | nil => exact absurd hlast (by simp)
  | @snoc es s _ e' hrun _ hstep =>
      obtain rfl : e' = e := by simpa using hlast
      obtain rfl := Option.some.inj hstep
      have hs := wellFormed_of_run hrun
      rw [call_of_removes hremoves]
      exact ((exact_call_iff hs e').mp hexact).1.notMem_remove hs k r

/-- **No listener leaks** by exactly the sequences of calls of which each replaces nothing
unremoved. -/
theorem no_listener_leaks (h : Run step init es s) :
    NoLeak es s ↔ RunWhere step Releases init es s := by
  constructor
  · intro hleak
    refine h.invariant_events (I := fun es s => s.registrations.Exact →
      RunWhere step Releases init es s) (fun _ => RunWhere.nil) ?_ hleak.exact
    intro es s e s' hrun ih _ hstep hexact
    obtain rfl := Option.some.inj hstep
    obtain ⟨hbefore, hreleases⟩ := (exact_call_iff (wellFormed_of_run hrun) e).mp hexact
    exact (ih hbefore).snoc hreleases hstep
  · intro hwhere
    refine noLeak_of_exact h ?_
    refine hwhere.invariant_events (I := fun _ s => s.registrations.Exact)
      Registrations.exact_empty ?_
    intro es s e s' hrun hexact hC hstep
    obtain rfl := Option.some.inj hstep
    exact (exact_call_iff (wellFormed_of_run hrun.toRun) e).mpr ⟨hexact, hC⟩

/-- A user signs in, waits for a game and enters it; then the users are listened to again. -/
def playing : List ListenerCall :=
  [.localUser (some ⟨some "uid1", some "player", none, none⟩), .setUsersListener,
    .setGameRequestListener, .setGameListener, .removeGameListener, .setUsersListener]

/-- The calls `playing` leave two registrations, and both are held. -/
theorem no_listener_leaks_playing : ∃ s, Run step init playing s ∧
    s.registrations.live.length = 2 ∧ NoLeak playing s := by
  have hrun : RunWhere step Releases init playing
      ((execWhere step Releases init playing).get (by decide)) := runWhere_get _
  exact ⟨_, hrun.toRun, by decide, (no_listener_leaks hrun.toRun).mpr hrun⟩

/-- Two loading views listen for a game, one after the other, and the listener is removed. -/
def waitingTwice : List ListenerCall :=
  [.localUser (some ⟨some "uid1", some "player", none, none⟩), .setGameListener,
    .setGameListener, .removeGameListener]

/-- **A listener leaks**: it is live after the removal. -/
theorem listener_leaks : ¬ ∀ (es : List ListenerCall) (s : Listeners), Run step init es s →
    NoLeak es s := by
  intro h
  have hrun : Run step init waitingTwice
      ((exec step init waitingTwice).get (by decide)) := runWhere_get _
  have hleak := h _ _ hrun
  exact hleak.removed .removeGameListener .gameListener rfl rfl ⟨0, .startingGamesOf "uid1"⟩
    (by decide)

end Listeners

end RockPaperScissors
