import RockPaperScissors.Devices

/-!
# The Local and the Stored Profile

`localUser` is assigned when a guest has signed in, when the splash screen has loaded the
user, and by tokens. Every assignment runs the observer, which draws a new image, may ask
for a token and saves the user. `Profile` is one client under any sequence of these
assignments, with the saves it has issued and the users assigned from outside.

A guest's save is issued before its completion assigns the guest. Until then the stored
profile may be ahead of the local one.

## Main results

* `Profile.Agrees.step`: after an assignment the last save is the local user's.
* `Profile.in_step`: once all saves are applied and completed, the document of the local
  user is the local user; tokens are only asked for by assignments without one.
* `Profile.follows_of_handles`: a device does to its local user what a profile does.
-/

open TransitionSystem

namespace RockPaperScissors

/-- The local user and the saves of one installation of the program. -/
structure Profile where
  dataStore : DataStore
  /-- The user of each call of `continueWithGuest` that waits for its save. -/
  guests : ℕ → Option User
  /-- The issued saves, in order. -/
  saves : List UserDocument
  /-- The users assigned to `localUser` from outside of the observer. -/
  assignments : List User

/-- What can happen to a profile. -/
inductive ProfileEvent
  | launch
  /-- `continueWithGuest` saves the user it has created. -/
  | continueWithGuest (k : ℕ) (user : User)
  /-- The completion of that save: `localUser = user`. -/
  | signedIn (k : ℕ) (draw : Fin avatars.length)
  /-- `checkForUser` assigns the user it has loaded. -/
  | userLoaded (user : User) (draw : Fin avatars.length)
  | tokenFetched (token : Option String) (draw : Fin avatars.length)
  | registrationToken (fcmToken : String) (draw : Fin avatars.length)

namespace Profile

/-- Nobody has signed in. -/
def init : Profile where
  dataStore := ⟨none, 0, 0⟩
  guests := fun _ => none
  saves := []
  assignments := []

/-- What is left of the profile by a function of the data store that is assigned
`assignment`. An unwrapped `nil` ends the run. -/
def after (p : Profile) (assignment : Option User) :
    Except ForcedUnwrap (DataStore × List UserDocument) → Option Profile
  | .error _ => none
  | .ok (dataStore, documents) =>
      some { p with
        dataStore
        saves := p.saves ++ documents
        assignments := p.assignments ++ assignment.toList }

/-- The user that `localUser?.deviceToken = token` assigns. -/
def withToken (p : Profile) (token : String) : Option User :=
  p.dataStore.localUser.map fun user => { user with deviceToken := some token }

/-- The profile after an event; `none` when the event cannot happen. -/
def step (p : Profile) : ProfileEvent → Option Profile
  | .launch =>
      some { p with
        dataStore := ⟨none, p.dataStore.tokenRequests, p.dataStore.tokenRequests⟩
        guests := fun _ => none }
  | .continueWithGuest k user =>
      if p.guests k = none then
        { p with guests := Function.update p.guests k (some user) }.after none
          ((saveUser user).map fun document => (p.dataStore, [document]))
      else none
  | .signedIn k draw =>
      (p.guests k).bind fun user =>
        { p with guests := Function.update p.guests k none }.after (some user)
          (p.dataStore.setLocalUser user draw)
  | .userLoaded user draw => p.after (some user) (p.dataStore.setLocalUser user draw)
  | .tokenFetched token draw =>
      if p.dataStore.answered < p.dataStore.tokenRequests then
        p.after (token.bind p.withToken) (p.dataStore.didFetchToken token draw)
      else none
  | .registrationToken fcmToken draw =>
      p.after (p.withToken fcmToken) (p.dataStore.saveTokenForUser fcmToken draw)

/-- What an event can do to a profile. -/
inductive Step (p : Profile) : Profile → Prop
  /-- Nothing is assigned and nothing saved. -/
  | quiet {p' : Profile} : p'.dataStore.localUser = p.dataStore.localUser →
      p'.dataStore.tokenRequests = p.dataStore.tokenRequests → p'.guests = p.guests →
      p'.saves = p.saves → p'.assignments = p.assignments → Step p p'
  | launched {p' : Profile} : p'.dataStore.localUser = none →
      p'.dataStore.tokenRequests = p.dataStore.tokenRequests →
      p'.assignments = p.assignments → Step p p'
  | continued {p' : Profile} {k : ℕ} {user : User} :
      p'.dataStore = p.dataStore → p'.guests k = some user →
      p'.assignments = p.assignments → Step p p'
  /-- A user is assigned from outside, and the last save is of what the observer leaves. -/
  | assigned {p' : Profile} {user : User} {id : String} {draw : Fin avatars.length}
      {saves : List UserDocument} : user.id = some id →
      p'.dataStore.localUser = some (user.setRandomImage draw) →
      p'.dataStore.tokenRequests =
        p.dataStore.tokenRequests + (if user.deviceToken.isNone then 1 else 0) →
      p'.saves = saves ++ [⟨id, (user.setRandomImage draw).encode⟩] →
      p'.assignments = p.assignments ++ [user] → Step p p'

variable {p p' : Profile} {e : ProfileEvent}

/-- An event that assigns a user adds the saves it issues, and fails at no unwrap. -/
theorem after_eq_some {assignment : Option User}
    {x : Except ForcedUnwrap (DataStore × List UserDocument)}
    (h : p.after assignment x = some p') :
    ∃ dataStore documents, x = .ok (dataStore, documents) ∧
      p' = { p with
        dataStore
        saves := p.saves ++ documents
        assignments := p.assignments ++ assignment.toList } := by
  cases x with
  | error e => exact absurd h (by simp [after])
  | ok result =>
      obtain ⟨dataStore, documents⟩ := result
      exact ⟨dataStore, documents, rfl, (Option.some.inj h).symm⟩

/-- An assignment from outside, of a user who signs in or is loaded. -/
theorem Step.of_setLocalUser {user : User} {draw : Fin avatars.length} {guests : ℕ → Option User}
    (h : { p with guests }.after (some user) (p.dataStore.setLocalUser user draw) = some p') :
    Step p p' := by
  obtain ⟨ds, documents, hset, rfl⟩ := after_eq_some h
  rw [DataStore.setLocalUser_eq, map_eq_ok_iff] at hset
  obtain ⟨document, hsave, heq⟩ := hset
  obtain ⟨rfl, rfl⟩ := Prod.mk.inj heq
  obtain ⟨id, hid, rfl⟩ := saveUser_eq_ok_iff.mp hsave
  have hid' : user.id = some id := hid
  exact Step.assigned hid' rfl rfl rfl rfl

/-- An assignment of a token. -/
theorem Step.of_setToken {ds : DataStore} {token : String} {draw : Fin avatars.length}
    {unwrap : ForcedUnwrap}
    (h : p.after (p.withToken token) (ds.setToken token draw unwrap) = some p')
    (hlocal : ds.localUser = p.dataStore.localUser)
    (htokens : ds.tokenRequests = p.dataStore.tokenRequests) : Step p p' := by
  obtain ⟨_, documents, hset, rfl⟩ := after_eq_some h
  obtain ⟨user, id, huser, hid, rfl, rfl⟩ := DataStore.setToken_eq_ok hset
  have hassigned : p.withToken token = some { user with deviceToken := some token } := by
    rw [withToken, ← hlocal, huser]
    rfl
  have hid' : ({ user with deviceToken := some token } : User).id = some id := hid
  refine Step.assigned hid' rfl ?_ (List.append_assoc _ [_] [_]).symm ?_
  · simp [DataStore.assigned, User.setRandomImage, htokens]
  · simp [hassigned]

/-- **Events do nothing else.** -/
theorem step_of_step_eq (h : p.step e = some p') : Step p p' := by
  cases e with
  | launch =>
      obtain rfl := Option.some.inj h
      exact Step.launched rfl rfl rfl
  | continueWithGuest k user =>
      simp only [step] at h
      split at h
      · obtain ⟨ds, documents, hsave, rfl⟩ := after_eq_some h
        obtain ⟨document, -, heq⟩ := map_eq_ok_iff.mp hsave
        obtain ⟨rfl, rfl⟩ := Prod.mk.inj heq
        exact Step.continued rfl (Function.update_self ..) (by simp)
      · exact absurd h (by simp)
  | signedIn k draw =>
      obtain ⟨user, -, h⟩ := Option.bind_eq_some_iff.mp h
      exact Step.of_setLocalUser h
  | userLoaded user draw => exact Step.of_setLocalUser h
  | tokenFetched token draw =>
      simp only [step] at h
      split at h
      · cases token with
        | none =>
            obtain ⟨_, documents, hfetch, rfl⟩ := after_eq_some h
            obtain ⟨rfl, rfl⟩ := Prod.mk.inj (Except.ok.inj hfetch)
            exact Step.quiet rfl rfl rfl (by simp) (by simp)
        | some token =>
            have hset : p.after (p.withToken token)
                (p.dataStore.answer.setToken token draw .localUser) = some p' := h
            exact Step.of_setToken hset rfl rfl
      · exact absurd h (by simp)
  | registrationToken fcmToken draw =>
      cases hlocal : p.dataStore.localUser with
      | none =>
          obtain ⟨_, documents, hfetch, rfl⟩ := after_eq_some h
          simp only [DataStore.saveTokenForUser, hlocal, Option.isNone_none, if_true] at hfetch
          obtain ⟨rfl, rfl⟩ := Prod.mk.inj (Except.ok.inj hfetch)
          exact Step.quiet rfl rfl rfl (by simp) (by simp [withToken, hlocal])
      | some user =>
          simp only [step, DataStore.saveTokenForUser, hlocal, Option.isNone_some,
            Bool.false_eq_true, if_false] at h
          exact Step.of_setToken h rfl rfl

/-! ### The invariant -/

/-- The completions of all issued saves have run. Only a guest's does anything: it assigns
the guest. -/
def Completed (p : Profile) : Prop :=
  ∀ k, p.guests k = none

/-- **The invariant**: unless a guest waits, the last save is the local user's, and tokens
have only been asked for by assignments of users without one. -/
structure Agrees (p : Profile) : Prop where
  saved : ∀ user, p.dataStore.localUser = some user → p.Completed →
    ∃ id saves, user.id = some id ∧ p.saves = saves ++ [⟨id, user.encode⟩]
  tokens : p.dataStore.tokenRequests ≤
    p.assignments.countP fun user => user.deviceToken.isNone

/-- There is no user at first. -/
theorem agrees_init : init.Agrees where
  saved := by simp [init]
  tokens := Nat.le_refl 0

/-- Every event keeps the local user and the documents in agreement. -/
theorem Agrees.step (hp : p.Agrees) (h : Step p p') : p'.Agrees := by
  cases h with
  | quiet hlocal htokens hguests hsaves hassignments =>
      refine ⟨fun user huser hnone => ?_, ?_⟩
      · rw [hlocal] at huser
        rw [Completed, hguests] at hnone
        rw [hsaves]
        exact hp.saved user huser hnone
      · rw [htokens, hassignments]
        exact hp.tokens
  | launched hlocal htokens hassignments =>
      refine ⟨fun user huser _ => ?_, ?_⟩
      · rw [hlocal] at huser
        exact absurd huser (by simp)
      · rw [htokens, hassignments]
        exact hp.tokens
  | continued hstore hguest hassignments =>
      refine ⟨fun user _ hnone => ?_, ?_⟩
      · rw [hnone _] at hguest
        exact absurd hguest (by simp)
      · rw [hstore, hassignments]
        exact hp.tokens
  | @assigned user id draw saves hid hlocal htokens hsaves hassignments =>
      refine ⟨fun user' huser' _ => ?_, ?_⟩
      · obtain rfl := Option.some.inj (hlocal.symm.trans huser')
        exact ⟨id, saves, hid, hsaves⟩
      · rw [htokens, hassignments, List.countP_append, List.countP_singleton]
        exact Nat.add_le_add_right hp.tokens _

/-- They agree in every run. -/
theorem agrees_of_run {es : List ProfileEvent} (h : Run step init es p) : p.Agrees :=
  h.invariant agrees_init fun _ _ _ hp _ hstep => hp.step (step_of_step_eq hstep)

/-- **The local and the stored profile stay in step.** When all issued saves have been
applied, to whatever was stored, and their completions have run, the document of the local
user decodes to the local user; and a token has been asked for at most once for each
assignment of a user without one. -/
theorem in_step {es : List ProfileEvent} (h : Run step init es p) :
    (∀ user docs, p.dataStore.localUser = some user → p.Completed →
      ∃ id, user.id = some id ∧
        getUserWith (WriteLog.replay putUser docs p.saves) id = some user) ∧
    p.dataStore.tokenRequests ≤
      (p.assignments.filter fun user => user.deviceToken.isNone).length := by
  have hp := agrees_of_run h
  refine ⟨fun user docs huser hnone => ?_, ?_⟩
  · obtain ⟨id, saves, hid, hsaves⟩ := hp.saved user huser hnone
    refine ⟨id, hid, ?_⟩
    rw [hsaves, getUserWith_replay_concat, User.decode_encode]
  · rw [← List.countP_eq_length_filter]
    exact hp.tokens

/-- A guest signs in, and two tokens arrive. -/
def signingIn : List ProfileEvent :=
  [.continueWithGuest 0 (User.createUser "uid1" "player" firstDraw), .signedIn 0 secondDraw,
    .tokenFetched (some "token") secondDraw, .registrationToken "token2" firstDraw]

/-- The user at the end of `signingIn` is what the saves leave. -/
theorem in_step_signingIn : ∃ p user, Run step init signingIn p ∧
    p.dataStore.localUser = some user ∧ user.avatarImage = some "avatarOne" ∧
    user.deviceToken = some "token2" ∧
    getUserWith (WriteLog.replay putUser [] p.saves) "uid1" = some user ∧
    p.dataStore.tokenRequests ≤ 1 := by
  have hrun : Run step init signingIn ((exec step init signingIn).get (by decide)) :=
    runWhere_get _
  obtain ⟨hstored, htokens⟩ := in_step hrun
  have hguests : ((exec step init signingIn).get (by decide)).guests =
      Function.update (Function.update (fun _ => none) 0
        (some (User.createUser "uid1" "player" firstDraw))) 0 none := rfl
  have hnone : ((exec step init signingIn).get (by decide)).Completed := by
    intro k
    rw [hguests, Function.update_idem]
    simp
  obtain ⟨id, hid, hget⟩ := hstored _ [] rfl hnone
  obtain rfl : "uid1" = id := Option.some.inj hid
  exact ⟨_, _, hrun, rfl, rfl, rfl, hget, htokens⟩

/-! ### Devices -/

/-- The profile has the local user and the waiting guests of the device. -/
structure Follows (p : Profile) (dev : Device) : Prop where
  dataStore : p.dataStore = dev.dataStore
  guests : ∀ k, p.guests k = dev.registrations[k]?.bind fun r => r.stage.user?

variable {dev dev' : Device} {de : DeviceEvent} {documents : List UserDocument}

/-- A new profile follows a new device. -/
theorem follows_init : init.Follows Device.new where
  dataStore := rfl
  guests := fun _ => rfl

/-- A registration takes a step, and the guest who waits is the one its stage holds. -/
theorem Follows.setStage (hp : p.Follows dev) {k : ℕ} {r : Registration}
    (hr : dev.registrations[k]? = some r) (stage : RegistrationStage) :
    Follows { p with guests := Function.update p.guests k stage.user? }
      (dev.setStage k r stage) where
  dataStore := hp.dataStore
  guests := by
    intro j
    rw [Device.setStage, getElem?_set_eq hr]
    by_cases hj : j = k
    · subst hj
      simp
    · simp [hj, hp.guests]

/-- A registration takes a step in which nobody begins or stops to wait. -/
theorem Follows.setStage_of_none (hp : p.Follows dev) {k : ℕ} {r : Registration}
    {stage : RegistrationStage} (hr : dev.registrations[k]? = some r)
    (h : r.stage.user? = none) (h' : stage.user? = none) :
    p.Follows (dev.setStage k r stage) := by
  have hnobody : p.guests k = none := by
    rw [hp.guests, hr]
    exact h
  have hfollows := hp.setStage hr stage
  rwa [h', Function.update_eq_self_iff.mpr hnobody.symm] at hfollows

/-- **A device does to its local user what a profile does.** -/
theorem follows_of_handles (hp : p.Follows dev) (h : dev.Handles de dev' documents) :
    ∃ es p', Run step p es p' ∧ p'.Follows dev' ∧ p'.saves = p.saves ++ documents := by
  have hone {e : ProfileEvent} {p' : Profile} (hstep : p.step e = some p')
      (hfollows : p'.Follows dev') (hsaves : p'.saves = p.saves ++ documents) :
      ∃ es p', Run step p es p' ∧ p'.Follows dev' ∧ p'.saves = p.saves ++ documents :=
    ⟨_, p', RunWhere.single trivial hstep, hfollows, hsaves⟩
  have hstay (hfollows : p.Follows dev') (hnone : documents = []) :
      ∃ es p', Run step p es p' ∧ p'.Follows dev' ∧ p'.saves = p.saves ++ documents :=
    ⟨[], p, RunWhere.nil, hfollows, by simp [hnone]⟩
  cases h with
  | launched =>
      have hstep : p.step .launch = some _ := rfl
      refine hone hstep ⟨?_, fun _ => rfl⟩ (by simp)
      simp only [Device.launched, hp.dataStore]
  | @loaded user id draw hsplash hid =>
      have hstep : p.step (.userLoaded user draw) =
          p.after (some user) (p.dataStore.setLocalUser user draw) := rfl
      rw [DataStore.setLocalUser_of_id _ _ _ hid] at hstep
      exact hone hstep ⟨by simp only [Device.assigned, hp.dataStore], hp.guests⟩ rfl
  | signedOut _ => exact hstay ⟨hp.dataStore, hp.guests⟩ rfl
  | @continued username _ =>
      refine hstay ⟨hp.dataStore, fun k => ?_⟩ rfl
      rw [hp.guests]
      rcases Nat.lt_trichotomy k dev.registrations.length with hlt | rfl | hgt
      · rw [List.getElem?_append_left hlt]
      · simp [RegistrationStage.user?]
      · rw [List.getElem?_eq_none hgt.le, List.getElem?_eq_none (by simp; omega)]
  | @checked k r exist hr hstage =>
      refine hstay (hp.setStage_of_none hr (by rw [hstage]; rfl) ?_) rfl
      cases exist <;> rfl
  | signInFailed hr hstage =>
      exact hstay (hp.setStage_of_none hr (by rw [hstage]; rfl) rfl) rfl
  | @signedIn k r anonymous uid draw hr hstage huid =>
      have hfree : p.guests k = none := by
        rw [hp.guests, hr, Option.bind_some, hstage]
        rfl
      have hstep : p.step (.continueWithGuest k (User.createUser uid r.username draw)) =
          after { p with
            guests := Function.update p.guests k (some (User.createUser uid r.username draw)) }
            none (.ok (p.dataStore, [⟨uid, (User.createUser uid r.username draw).encode⟩])) := by
        rw [step, if_pos hfree]
        rfl
      have hsaving := hp.setStage hr (.saving (User.createUser uid r.username draw))
      exact hone hstep ⟨hsaving.dataStore, hsaving.guests⟩ rfl
  | @saved k r user id draw hr hstage hid =>
      have hguest : p.guests k = some user := by
        rw [hp.guests, hr, Option.bind_some, hstage]
        rfl
      have hstep : p.step (.signedIn k draw) =
          after { p with guests := Function.update p.guests k none } (some user)
            (p.dataStore.setLocalUser user draw) := by
        rw [step, hguest, Option.bind_some]
      rw [DataStore.setLocalUser_of_id _ _ _ hid] at hstep
      have hended := hp.setStage hr .ended
      exact hone hstep ⟨by simp only [Device.setStage, Device.assigned, hp.dataStore],
        hended.guests⟩ rfl
  | @tokenFailed draw hwaiting =>
      rw [← hp.dataStore] at hwaiting
      have hstep : p.step (.tokenFetched none draw) = p.after none
          (.ok (p.dataStore.answer, [])) := by
        rw [step, if_pos hwaiting]
        rfl
      exact hone hstep ⟨by simp only [Device.answered, hp.dataStore], hp.guests⟩ rfl
  | @tokenFetched token id user user' draw hwaiting hlocal hid heq =>
      subst heq
      rw [← hp.dataStore] at hwaiting hlocal
      have hstep : p.step (.tokenFetched (some token) draw) =
          p.after (p.withToken token)
            (p.dataStore.answer.setToken token draw .localUser) := by
        rw [step, if_pos hwaiting]
        rfl
      have hanswer : p.dataStore.answer.localUser = some user := hlocal
      rw [DataStore.setToken_of_id _ user _ _ _ hanswer hid] at hstep
      exact hone hstep
        ⟨by simp only [Device.assigned, Device.answered, hp.dataStore], hp.guests⟩ rfl
  | @tokenIgnored fcmToken draw hlocal =>
      exact hstay hp rfl
  | @registrationToken fcmToken id user user' draw hlocal hid heq =>
      subst heq
      rw [← hp.dataStore] at hlocal
      have hstep : p.step (.registrationToken fcmToken draw) =
          p.after (p.withToken fcmToken)
            (p.dataStore.setToken fcmToken draw .sharedLocalUser) := by
        rw [step, DataStore.saveTokenForUser, hlocal]
        rfl
      rw [DataStore.setToken_of_id _ user _ _ _ hlocal hid] at hstep
      exact hone hstep ⟨by simp only [Device.assigned, hp.dataStore], hp.guests⟩ rfl

end Profile

end RockPaperScissors
