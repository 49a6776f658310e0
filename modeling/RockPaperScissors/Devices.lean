import RockPaperScissors.TransitionSystem
import RockPaperScissors.Users

/-!
# Devices: Splash, Registration and Tokens

What happens to `localUser` on one device: `checkForUser` on the splash screen loads the user
who is signed in; `onContinue` on the welcome screen checks the name, signs in and saves a new
user, whom its completion assigns; and tokens arrive. Each of these is a sequence of
asynchronous calls, and the answers come with the events. Any number of registrations can
be under way, since the button stays enabled.

`signInAnonymously` returns the user who is signed in already. It looks for one only when it
is called, so two calls that nobody was signed in at give the device two uids, one after the
other; `uid` is the last one. A relaunch ends what the process was doing; the user stays
signed in. When `getUserWith` fails its completion is not called, and the splash screen
stays.

## Main results

* `Device.handles_of_handle`: `Device.Handles` lists what an event can do on a device.
* `Device.Sound.step`, `Device.Sound.saves`: the users on a device, and those it saves, have
  uids that the device was given.
* `Device.Sound.handle_ne_error`: no event unwraps `nil`.
-/

open TransitionSystem

namespace RockPaperScissors

/-- How far a registration has got. -/
inductive RegistrationStage
  /-- `checkForExistingUsername` is not answered. -/
  | checking
  /-- `signInAnonymously` is not answered. Somebody was signed in when it was called, or
  not. -/
  | signingIn (anonymous : Bool)
  /-- The completion of `saveUser` has not run. -/
  | saving (user : User)
  | ended
  deriving DecidableEq

/-- The user a registration is going to assign. -/
def RegistrationStage.user? : RegistrationStage → Option User
  | checking => none
  | signingIn _ => none
  | saving user => some user
  | ended => none

/-- Somebody was signed in when a registration that waits for its sign-in asked for it. -/
def RegistrationStage.anonymous? : RegistrationStage → Option Bool
  | checking => none
  | signingIn anonymous => some anonymous
  | saving _ => none
  | ended => none

/-- Only a registration that saves has a user to assign. -/
theorem RegistrationStage.eq_saving_of_user? {stage : RegistrationStage} {user : User}
    (h : stage.user? = some user) : stage = .saving user := by
  cases stage with
  | saving user' => rw [Option.some.inj h]
  | checking | signingIn | ended => exact absurd h (by simp [user?])

/-- Only a registration that signs in waits for its sign-in. -/
theorem RegistrationStage.eq_signingIn_of_anonymous? {stage : RegistrationStage}
    {anonymous : Bool} (h : stage.anonymous? = some anonymous) :
    stage = .signingIn anonymous := by
  cases stage with
  | signingIn anonymous' => rw [Option.some.inj h]
  | checking | saving | ended => exact absurd h (by simp [anonymous?])

/-- A tap on Continue. -/
structure Registration where
  username : String
  stage : RegistrationStage
  deriving DecidableEq

/-- The state of the program on one device. -/
structure Device where
  /-- `Auth.auth().currentUser?.uid`. -/
  uid : Option String
  dataStore : DataStore
  /-- `checkForUser` waits for `getUserWith`. -/
  splash : Bool
  /-- The welcome screen has come up in this launch. -/
  welcome : Bool
  registrations : List Registration

/-- What can happen on a device. -/
inductive DeviceEvent
  /-- The program is launched, or launched again. -/
  | launch
  /-- `getUserWith` of `checkForUser` is answered. -/
  | userLoaded (answer : Option User) (draw : Fin avatars.length)
  /-- `onContinue`, with the text of the field lowercased. -/
  | onContinue (username : String)
  /-- `checkForExistingUsername` is answered. -/
  | usernameChecked (k : ℕ) (exist : Bool)
  /-- `signInAnonymously` is answered, without a uid when there is an error. -/
  | signedIn (k : ℕ) (uid : Option String) (draw : Fin avatars.length)
  /-- The completion of `saveUser` in `continueWithGuest` runs. It is passed the user also
  when the save has failed. -/
  | saved (k : ℕ) (draw : Fin avatars.length)
  /-- The completion of `setPushToken` runs, without a token when there is an error. -/
  | tokenFetched (token : Option String) (draw : Fin avatars.length)
  /-- `messaging(_:didReceiveRegistrationToken:)`. -/
  | registrationToken (fcmToken : String) (draw : Fin avatars.length)

/-- The uid that comes with an event. -/
def DeviceEvent.uid? : DeviceEvent → Option String
  | .signedIn _ uid _ => uid
  | _ => none

namespace Device

/-- A device on which the program has not been launched. -/
def new : Device where
  uid := none
  dataStore := ⟨none, 0, 0⟩
  splash := false
  welcome := false
  registrations := []

variable (dev : Device)

/-- The device after a launch. The completions of earlier token requests are lost. -/
def launched : Device where
  uid := dev.uid
  dataStore := ⟨none, dev.dataStore.tokenRequests, dev.dataStore.tokenRequests⟩
  splash := dev.uid.isSome
  welcome := dev.uid.isNone
  registrations := []

/-- The registration at the place has got to a stage. -/
def setStage (k : ℕ) (r : Registration) (stage : RegistrationStage) : Device :=
  { dev with registrations := dev.registrations.set k { r with stage } }

/-- What an event does on the device, with the documents it writes; `none` when it cannot
happen, and an error when it unwraps `nil`. -/
def handle (dev : Device) :
    DeviceEvent → Option (Except ForcedUnwrap (Device × List UserDocument))
  | .launch => some (.ok (dev.launched, []))
  | .userLoaded answer draw =>
      if dev.splash then
        match answer with
        | none => some (.ok ({ dev with uid := none, splash := false }, []))
        | some user =>
            some ((dev.dataStore.setLocalUser user draw).map fun (dataStore, documents) =>
              ({ dev with dataStore, splash := false }, documents))
      else none
  | .onContinue username =>
      if dev.welcome then
        some (.ok ({ dev with
          registrations := dev.registrations ++ [⟨username, .checking⟩] }, []))
      else none
  | .usernameChecked k exist =>
      dev.registrations[k]?.bind fun r =>
        if r.stage = .checking then
          some (.ok
            (dev.setStage k r (if exist then .ended else .signingIn dev.uid.isSome), []))
        else none
  | .signedIn k uid draw =>
      dev.registrations[k]?.bind fun r =>
        r.stage.anonymous?.bind fun anonymous =>
          match uid with
          | none => some (.ok (dev.setStage k r .ended, []))
          | some uid =>
              if anonymous = false ∨ dev.uid = some uid then
                let user := User.createUser uid r.username draw
                some ((saveUser user).map fun document =>
                  ({ dev with uid := some uid }.setStage k r (.saving user), [document]))
              else none
  | .saved k draw =>
      dev.registrations[k]?.bind fun r =>
        r.stage.user?.map fun user =>
          (dev.dataStore.setLocalUser user draw).map fun (dataStore, documents) =>
            ({ dev with dataStore }.setStage k r .ended, documents)
  | .tokenFetched token draw =>
      if dev.dataStore.answered < dev.dataStore.tokenRequests then
        some ((dev.dataStore.didFetchToken token draw).map fun (dataStore, documents) =>
          ({ dev with dataStore }, documents))
      else none
  | .registrationToken fcmToken draw =>
      some ((dev.dataStore.saveTokenForUser fcmToken draw).map fun (dataStore, documents) =>
        ({ dev with dataStore }, documents))

/-- The device once a user has been assigned from outside. -/
def assigned (user : User) : Device :=
  { dev with dataStore := dev.dataStore.assigned user }

/-- The device whose last token request is answered. -/
def answered : Device :=
  { dev with dataStore := dev.dataStore.answer }

/-- What an event can do on a device. -/
inductive Handles (dev : Device) : DeviceEvent → Device → List UserDocument → Prop
  | launched : Handles dev .launch dev.launched []
  | loaded {user : User} {id : String} {draw : Fin avatars.length} : dev.splash = true →
      user.id = some id →
      Handles dev (.userLoaded (some user) draw)
        { dev.assigned (user.setRandomImage draw) with splash := false }
        [⟨id, (user.setRandomImage draw).encode⟩]
  | signedOut {draw : Fin avatars.length} : dev.splash = true →
      Handles dev (.userLoaded none draw) { dev with uid := none, splash := false } []
  | continued {username : String} : dev.welcome = true →
      Handles dev (.onContinue username)
        { dev with registrations := dev.registrations ++ [⟨username, .checking⟩] } []
  | checked {k : ℕ} {r : Registration} {exist : Bool} : dev.registrations[k]? = some r →
      r.stage = .checking →
      Handles dev (.usernameChecked k exist)
        (dev.setStage k r (if exist then .ended else .signingIn dev.uid.isSome)) []
  | signInFailed {k : ℕ} {r : Registration} {anonymous : Bool} {draw : Fin avatars.length} :
      dev.registrations[k]? = some r → r.stage = .signingIn anonymous →
      Handles dev (.signedIn k none draw) (dev.setStage k r .ended) []
  | signedIn {k : ℕ} {r : Registration} {anonymous : Bool} {uid : String}
      {draw : Fin avatars.length} :
      dev.registrations[k]? = some r → r.stage = .signingIn anonymous →
      anonymous = false ∨ dev.uid = some uid →
      Handles dev (.signedIn k (some uid) draw)
        ({ dev with uid := some uid }.setStage k r
          (.saving (User.createUser uid r.username draw)))
        [⟨uid, (User.createUser uid r.username draw).encode⟩]
  | saved {k : ℕ} {r : Registration} {user : User} {id : String}
      {draw : Fin avatars.length} : dev.registrations[k]? = some r →
      r.stage = .saving user → user.id = some id →
      Handles dev (.saved k draw)
        ((dev.assigned (user.setRandomImage draw)).setStage k r .ended)
        [⟨id, (user.setRandomImage draw).encode⟩]
  | tokenFailed {draw : Fin avatars.length} :
      dev.dataStore.answered < dev.dataStore.tokenRequests →
      Handles dev (.tokenFetched none draw) dev.answered []
  | tokenFetched {token id : String} {user user' : User} {draw : Fin avatars.length} :
      dev.dataStore.answered < dev.dataStore.tokenRequests →
      dev.dataStore.localUser = some user → user.id = some id →
      user' = { user with deviceToken := some token }.setRandomImage draw →
      Handles dev (.tokenFetched (some token) draw) (dev.answered.assigned user')
        [⟨id, user'.encode⟩, ⟨id, user'.encode⟩]
  | tokenIgnored {fcmToken : String} {draw : Fin avatars.length} :
      dev.dataStore.localUser = none →
      Handles dev (.registrationToken fcmToken draw) dev []
  | registrationToken {fcmToken id : String} {user user' : User}
      {draw : Fin avatars.length} : dev.dataStore.localUser = some user →
      user.id = some id →
      user' = { user with deviceToken := some fcmToken }.setRandomImage draw →
      Handles dev (.registrationToken fcmToken draw) (dev.assigned user')
        [⟨id, user'.encode⟩, ⟨id, user'.encode⟩]

variable {dev} {dev' : Device} {e : DeviceEvent} {documents : List UserDocument}

/-- `checkForUser` loads the user, or signs out. -/
theorem handles_of_userLoaded {answer : Option User} {draw : Fin avatars.length}
    (h : dev.handle (.userLoaded answer draw) = some (.ok (dev', documents))) :
    dev.Handles (.userLoaded answer draw) dev' documents := by
  simp only [handle] at h
  split at h
  · next hsplash =>
      cases answer with
      | none =>
          obtain ⟨rfl, rfl⟩ := Prod.mk.inj (Except.ok.inj (Option.some.inj h))
          exact Handles.signedOut hsplash
      | some user =>
          simp only [Option.some.injEq, DataStore.setLocalUser_eq, map_eq_ok_iff] at h
          obtain ⟨⟨_, _⟩, ⟨document, hsave, heq⟩, h⟩ := h
          obtain ⟨rfl, rfl⟩ := Prod.mk.inj heq
          obtain ⟨rfl, rfl⟩ := Prod.mk.inj h
          obtain ⟨id, hid, rfl⟩ := saveUser_eq_ok_iff.mp hsave
          exact Handles.loaded hsplash hid
  · exact absurd h (by simp)

/-- `continueWithGuest` saves the user it creates, or the sign-in has failed. -/
theorem handles_of_signedIn {k : ℕ} {uid : Option String} {draw : Fin avatars.length}
    (h : dev.handle (.signedIn k uid draw) = some (.ok (dev', documents))) :
    dev.Handles (.signedIn k uid draw) dev' documents := by
  obtain ⟨r, hr, h⟩ := Option.bind_eq_some_iff.mp h
  obtain ⟨anonymous, hanonymous, h⟩ := Option.bind_eq_some_iff.mp h
  have hstage := RegistrationStage.eq_signingIn_of_anonymous? hanonymous
  cases uid with
  | none =>
      obtain ⟨rfl, rfl⟩ := Prod.mk.inj (Except.ok.inj (Option.some.inj h))
      exact Handles.signInFailed hr hstage
  | some uid =>
      simp only at h
      split at h
      · next huid =>
          simp only [Option.some.injEq, map_eq_ok_iff] at h
          obtain ⟨document, hsave, h⟩ := h
          obtain ⟨rfl, rfl⟩ := Prod.mk.inj h
          obtain ⟨id, hid, rfl⟩ := saveUser_eq_ok_iff.mp hsave
          obtain rfl : uid = id := Option.some.inj hid
          exact Handles.signedIn hr hstage huid
      · exact absurd h (by simp)

/-- The completion of a registration assigns the user it has saved. -/
theorem handles_of_saved {k : ℕ} {draw : Fin avatars.length}
    (h : dev.handle (.saved k draw) = some (.ok (dev', documents))) :
    dev.Handles (.saved k draw) dev' documents := by
  obtain ⟨r, hr, h⟩ := Option.bind_eq_some_iff.mp h
  obtain ⟨user, huser, h⟩ := Option.map_eq_some_iff.mp h
  have hstage := RegistrationStage.eq_saving_of_user? huser
  simp only [DataStore.setLocalUser_eq, map_eq_ok_iff] at h
  obtain ⟨⟨_, _⟩, ⟨document, hsave, heq⟩, h⟩ := h
  obtain ⟨rfl, rfl⟩ := Prod.mk.inj heq
  obtain ⟨rfl, rfl⟩ := Prod.mk.inj h
  obtain ⟨id, hid, rfl⟩ := saveUser_eq_ok_iff.mp hsave
  exact Handles.saved hr hstage hid

/-- The completion of `setPushToken` leaves the token to the local user. -/
theorem handles_of_tokenFetched {token : Option String} {draw : Fin avatars.length}
    (h : dev.handle (.tokenFetched token draw) = some (.ok (dev', documents))) :
    dev.Handles (.tokenFetched token draw) dev' documents := by
  simp only [handle] at h
  split at h
  · next hwaiting =>
      obtain ⟨⟨ds, _⟩, hfetch, heq⟩ := map_eq_ok_iff.mp (Option.some.inj h)
      obtain ⟨rfl, rfl⟩ := Prod.mk.inj heq
      cases token with
      | none =>
          obtain ⟨rfl, rfl⟩ := Prod.mk.inj (Except.ok.inj hfetch)
          exact Handles.tokenFailed hwaiting
      | some token =>
          obtain ⟨user, id, hlocal, hid, rfl, rfl⟩ := DataStore.setToken_eq_ok hfetch
          exact Handles.tokenFetched hwaiting hlocal hid rfl
  · exact absurd h (by simp)

/-- `saveTokenForUser` leaves the token to the local user, if there is one. -/
theorem handles_of_registrationToken {fcmToken : String} {draw : Fin avatars.length}
    (h : dev.handle (.registrationToken fcmToken draw) = some (.ok (dev', documents))) :
    dev.Handles (.registrationToken fcmToken draw) dev' documents := by
  obtain ⟨⟨ds, _⟩, htoken, heq⟩ := map_eq_ok_iff.mp (Option.some.inj h)
  obtain ⟨rfl, rfl⟩ := Prod.mk.inj heq
  rw [DataStore.saveTokenForUser] at htoken
  split at htoken
  · next hnone =>
      obtain ⟨rfl, rfl⟩ := Prod.mk.inj (Except.ok.inj htoken)
      exact Handles.tokenIgnored (Option.isNone_iff_eq_none.mp hnone)
  · obtain ⟨user, id, hlocal, hid, rfl, rfl⟩ := DataStore.setToken_eq_ok htoken
    exact Handles.registrationToken hlocal hid rfl

/-- **Events do nothing else.** -/
theorem handles_of_handle (h : dev.handle e = some (.ok (dev', documents))) :
    dev.Handles e dev' documents := by
  cases e with
  | launch =>
      obtain ⟨rfl, rfl⟩ := Prod.mk.inj (Except.ok.inj (Option.some.inj h))
      exact Handles.launched
  | userLoaded answer draw => exact handles_of_userLoaded h
  | onContinue username =>
      simp only [handle] at h
      split at h
      · next hwelcome =>
          obtain ⟨rfl, rfl⟩ := Prod.mk.inj (Except.ok.inj (Option.some.inj h))
          exact Handles.continued hwelcome
      · exact absurd h (by simp)
  | usernameChecked k exist =>
      obtain ⟨r, hr, h⟩ := Option.bind_eq_some_iff.mp h
      split at h
      · next hstage =>
          obtain ⟨rfl, rfl⟩ := Prod.mk.inj (Except.ok.inj (Option.some.inj h))
          exact Handles.checked hr hstage
      · exact absurd h (by simp)
  | signedIn k uid draw => exact handles_of_signedIn h
  | saved k draw => exact handles_of_saved h
  | tokenFetched token draw => exact handles_of_tokenFetched h
  | registrationToken fcmToken draw => exact handles_of_registrationToken h

end Device

/-! ### What a device holds -/

/-- A user that belongs to a uid. -/
structure User.Of (user : User) (uid : String) : Prop where
  id : user.id = some uid
  username : user.username.isSome

/-- A save of such a user. -/
def UserDocument.Of (document : UserDocument) (uid : String) : Prop :=
  ∃ user : User, user.Of uid ∧ document = ⟨uid, user.encode⟩

/-- **The invariant of a device** that was given the uids: its users belong to them, and it
waits for tokens only with a local user. -/
structure Device.Sound (dev : Device) (uids : List String) : Prop where
  uid : ∀ uid, dev.uid = some uid → uid ∈ uids
  localUser : ∀ user, dev.dataStore.localUser = some user → ∃ uid ∈ uids, user.Of uid
  saving : ∀ r ∈ dev.registrations, ∀ user, r.stage = .saving user →
    ∃ uid ∈ uids, user.Of uid
  tokens : dev.dataStore.answered < dev.dataStore.tokenRequests →
    dev.dataStore.localUser.isSome

namespace Device

variable {dev dev' : Device} {e : DeviceEvent} {documents : List UserDocument}
  {user : User} {uid : String} {uids uids' : List String}

/-- A device that has not been launched holds no users. -/
theorem sound_new : Device.new.Sound uids where
  uid := by simp [Device.new]
  localUser := by simp [Device.new]
  saving := by simp [Device.new]
  tokens := by simp [Device.new]

/-- Another uid given to the device keeps it sound. -/
theorem Sound.mono (hdev : dev.Sound uids) (h : uids ⊆ uids') : dev.Sound uids' where
  uid := fun uid huid => h (hdev.uid uid huid)
  localUser := fun user huser => by
    obtain ⟨uid, huid, hof⟩ := hdev.localUser user huser
    exact ⟨uid, h huid, hof⟩
  saving := fun r hr user huser => by
    obtain ⟨uid, huid, hof⟩ := hdev.saving r hr user huser
    exact ⟨uid, h huid, hof⟩
  tokens := hdev.tokens

/-- The assignment of a user who belongs to a uid of the device. -/
theorem Sound.assigned (hdev : dev.Sound uids) (huid : uid ∈ uids) (huser : user.Of uid) :
    (dev.assigned user).Sound uids where
  uid := hdev.uid
  localUser := by
    intro user' huser'
    obtain rfl := Option.some.inj huser'
    exact ⟨uid, huid, huser⟩
  saving := hdev.saving
  tokens := fun _ => rfl

/-- One token request less waits. -/
theorem Sound.answered (hdev : dev.Sound uids) : dev.answered.Sound uids where
  uid := hdev.uid
  localUser := hdev.localUser
  saving := hdev.saving
  tokens := fun h => hdev.tokens (Nat.lt_of_succ_lt h)

/-- A registration takes a step, and the user it holds belongs to a uid of the device. -/
theorem Sound.setStage (hdev : dev.Sound uids) {k : ℕ} {r : Registration}
    {stage : RegistrationStage}
    (hstage : ∀ user, stage = .saving user → ∃ uid ∈ uids, user.Of uid) :
    (dev.setStage k r stage).Sound uids where
  uid := hdev.uid
  localUser := hdev.localUser
  saving := by
    intro r' hr' user huser
    rcases List.mem_or_eq_of_mem_set hr' with hold | rfl
    · exact hdev.saving r' hold user huser
    · exact hstage user huser
  tokens := hdev.tokens

/-- A user who is created for a uid belongs to it. -/
theorem of_createUser {username : String} {draw : Fin avatars.length} :
    (User.createUser uid username draw).Of uid :=
  ⟨rfl, rfl⟩

/-- A new image leaves a user its uid. -/
theorem of_setRandomImage {draw : Fin avatars.length} (h : user.Of uid) :
    (user.setRandomImage draw).Of uid :=
  ⟨h.id, h.username⟩

/-- A token leaves a user its uid. -/
theorem of_token {token : String} {draw : Fin avatars.length} (h : user.Of uid) :
    ({ user with deviceToken := some token }.setRandomImage draw).Of uid :=
  ⟨h.id, h.username⟩

/-- **A device stays sound**, when the splash screen loads a user of one of its uids and a
uid that it signs in with counts as given. -/
theorem Sound.step (hdev : dev.Sound uids) (h : dev.Handles e dev' documents)
    (hloaded : ∀ user draw, e = .userLoaded (some user) draw → ∃ uid ∈ uids, user.Of uid) :
    dev'.Sound (uids ++ e.uid?.toList) := by
  have hold : dev.Sound (uids ++ e.uid?.toList) := hdev.mono (List.subset_append_left _ _)
  have hmem {user : User} (huser : ∃ uid ∈ uids, user.Of uid) :
      ∃ uid ∈ uids ++ e.uid?.toList, user.Of uid := by
    obtain ⟨uid, huid, hof⟩ := huser
    exact ⟨uid, List.mem_append_left _ huid, hof⟩
  cases h with
  | launched =>
      exact ⟨hold.uid, by simp [Device.launched], by simp [Device.launched],
        fun hlt => absurd hlt (Nat.lt_irrefl _)⟩
  | @loaded user id draw hsplash hid =>
      obtain ⟨uid, huid, huser⟩ := hmem (hloaded user draw rfl)
      have hassigned := hold.assigned huid (@of_setRandomImage user uid draw huser)
      exact ⟨hassigned.uid, hassigned.localUser, hassigned.saving, hassigned.tokens⟩
  | signedOut hsplash => exact ⟨by simp, hold.localUser, hold.saving, hold.tokens⟩
  | continued hwelcome =>
      refine ⟨hold.uid, hold.localUser, ?_, hold.tokens⟩
      intro r hr user huser
      rcases List.mem_append.mp hr with hr | hnew
      · exact hold.saving r hr user huser
      · obtain rfl := List.mem_singleton.mp hnew
        exact absurd huser (by simp)
  | @checked k r exist hr hstage =>
      refine hold.setStage fun user huser => ?_
      cases exist <;> exact absurd huser (by simp)
  | signInFailed hr hstage => exact hold.setStage fun user huser => absurd huser (by simp)
  | @signedIn k r anonymous uid draw hr hstage huid =>
      have hgiven : uid ∈ uids ++ (DeviceEvent.signedIn k (some uid) draw).uid?.toList := by
        simp [DeviceEvent.uid?]
      have hsigned : Sound { dev with uid := some uid }
          (uids ++ (DeviceEvent.signedIn k (some uid) draw).uid?.toList) := by
        refine ⟨fun uid' huid' => ?_, hold.localUser, hold.saving, hold.tokens⟩
        obtain rfl := Option.some.inj huid'
        exact hgiven
      refine hsigned.setStage fun user huser => ?_
      obtain rfl := RegistrationStage.saving.inj huser
      exact ⟨_, hgiven, of_createUser⟩
  | saved hr hstage hid =>
      obtain ⟨uid, huid, huser⟩ := hold.saving _ (List.mem_of_getElem? hr) _ hstage
      exact (hold.assigned huid (of_setRandomImage huser)).setStage
        fun user huser => absurd huser (by simp)
  | tokenFailed _ => exact hold.answered
  | tokenFetched hwaiting hlocal hid heq =>
      obtain ⟨uid, huid, huser⟩ := hold.localUser _ hlocal
      subst heq
      exact hold.answered.assigned huid (of_token huser)
  | tokenIgnored _ => exact hold
  | registrationToken hlocal hid heq =>
      obtain ⟨uid, huid, huser⟩ := hold.localUser _ hlocal
      subst heq
      exact hold.assigned huid (of_token huser)

/-- **A sound device saves users of its uids only.** -/
theorem Sound.saves (hdev : dev.Sound uids) (h : dev.Handles e dev' documents)
    (hloaded : ∀ user draw, e = .userLoaded (some user) draw → ∃ uid ∈ uids, user.Of uid) :
    ∀ document ∈ documents, ∃ uid ∈ uids ++ e.uid?.toList, document.Of uid := by
  have hone {id : String} {user : User} (hid : user.id = some id)
      (huser : ∃ uid ∈ uids, user.Of uid) :
      ∃ uid ∈ uids ++ e.uid?.toList, UserDocument.Of ⟨id, user.encode⟩ uid := by
    obtain ⟨uid, huid, hof⟩ := huser
    obtain rfl := Option.some.inj (hid.symm.trans hof.id)
    exact ⟨id, List.mem_append_left _ huid, user, hof, rfl⟩
  intro document hdocument
  cases h with
  | launched | signedOut _ | continued _ | checked _ _ | signInFailed _ _ | tokenFailed _
  | tokenIgnored _ => exact absurd hdocument List.not_mem_nil
  | loaded hsplash hid =>
      obtain ⟨uid, huid, huser⟩ := hloaded _ _ rfl
      obtain rfl := List.mem_singleton.mp hdocument
      exact hone hid ⟨uid, huid, of_setRandomImage huser⟩
  | signedIn hr hstage huid =>
      obtain rfl := List.mem_singleton.mp hdocument
      exact ⟨_, by simp [DeviceEvent.uid?], _, of_createUser, rfl⟩
  | saved hr hstage hid =>
      obtain ⟨uid, huid, huser⟩ := hdev.saving _ (List.mem_of_getElem? hr) _ hstage
      obtain rfl := List.mem_singleton.mp hdocument
      exact hone hid ⟨uid, huid, of_setRandomImage huser⟩
  | tokenFetched _ hlocal hid heq | registrationToken hlocal hid heq =>
      obtain ⟨uid, huid, huser⟩ := hdev.localUser _ hlocal
      subst heq
      have hdoc := List.eq_of_mem_replicate (n := 2) hdocument
      subst hdoc
      exact hone hid ⟨uid, huid, of_token huser⟩

/-- **A sound device unwraps no `nil`.** -/
theorem Sound.handle_ne_error (hdev : dev.Sound uids)
    (hloaded : ∀ user draw, e = .userLoaded (some user) draw → ∃ uid ∈ uids, user.Of uid)
    (unwrap : ForcedUnwrap) : dev.handle e ≠ some (.error unwrap) := by
  intro h
  cases e with
  | launch => simp [handle] at h
  | userLoaded answer draw =>
      simp only [handle] at h
      split at h
      · cases answer with
        | none => simp at h
        | some user =>
            obtain ⟨uid, -, huser⟩ := hloaded _ _ rfl
            simp [DataStore.setLocalUser_of_id _ _ _ huser.id, Except.map] at h
      · exact absurd h (by simp)
  | onContinue username =>
      simp only [handle] at h
      split at h <;> simp at h
  | usernameChecked k exist =>
      obtain ⟨r, -, h⟩ := Option.bind_eq_some_iff.mp h
      split at h <;> simp at h
  | signedIn k uid draw =>
      obtain ⟨r, -, h⟩ := Option.bind_eq_some_iff.mp h
      obtain ⟨anonymous, -, h⟩ := Option.bind_eq_some_iff.mp h
      cases uid with
      | none => simp at h
      | some uid =>
          simp only at h
          split at h
          · simp [saveUser, User.createUser, Except.map] at h
          · exact absurd h (by simp)
  | saved k draw =>
      obtain ⟨r, hr, h⟩ := Option.bind_eq_some_iff.mp h
      obtain ⟨user, huser, h⟩ := Option.map_eq_some_iff.mp h
      obtain ⟨uid, -, huser⟩ := hdev.saving r (List.mem_of_getElem? hr) user
        (RegistrationStage.eq_saving_of_user? huser)
      simp [DataStore.setLocalUser_of_id _ _ _ huser.id, Except.map] at h
  | tokenFetched token draw =>
      simp only [handle] at h
      split at h
      · next hwaiting =>
          cases token with
          | none => simp [DataStore.didFetchToken, Except.map] at h
          | some token =>
              obtain ⟨user, hlocal⟩ := Option.isSome_iff_exists.mp (hdev.tokens hwaiting)
              obtain ⟨uid, -, huser⟩ := hdev.localUser user hlocal
              have hanswer : dev.dataStore.answer.localUser = some user := hlocal
              simp [DataStore.didFetchToken,
                DataStore.setToken_of_id _ user _ _ _ hanswer huser.id, Except.map] at h
      · exact absurd h (by simp)
  | registrationToken fcmToken draw =>
      cases hlocal : dev.dataStore.localUser with
      | none => simp [handle, DataStore.saveTokenForUser, hlocal, Except.map] at h
      | some user =>
          obtain ⟨uid, -, huser⟩ := hdev.localUser user hlocal
          simp [handle, DataStore.saveTokenForUser, hlocal,
            DataStore.setToken_of_id _ user _ _ _ hlocal huser.id, Except.map] at h

end Device

end RockPaperScissors
