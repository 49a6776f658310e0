import RockPaperScissors.Accounts

/-!
# Usernames

`onContinue` asks whether the name is used before it signs in and saves the new user. Nothing
is reserved in between, so two registrations can both be told that a name is free, and both
save it: on two devices, or on one, which two sign-ins give two uids.

A name is **held** from the answer that lets a registration go on (`Accounts.held`): first
for the sign-in that the registration waits for, and then for the user who is created, in
the registration, as the local user, in the saves that wait, and in the stored document. Only
a check brings in a name (`Sound.held_of_step`). So each name has one holder (`Exclusive`) as
long as a check only succeeds when nobody holds the name.

## Main results

* `Accounts.Sound.held_of_step`: how a name comes to be held.
* `Accounts.usernames_unique`: stored users with different ids have different names, in every
  run in which no check passes a name that is held.
* `Accounts.username_twice`: two devices register one name.
-/

open TransitionSystem

namespace RockPaperScissors

/-- Whoever a name is held for: the user with an id, or the user whom the sign-in of a
registration is going to bring. -/
inductive Holder
  | user (id : String)
  | signIn (d k : ℕ)
  deriving DecidableEq

/-- The user holds its name. -/
def User.held (user : User) : Option (String × Holder) :=
  user.username.bind fun x => user.id.map fun id => (x, .user id)

/-- The registration at the place `k` of the device `d` holds its name once its check is
answered. -/
def Registration.held (r : Registration) (d k : ℕ) : Option (String × Holder) :=
  match r.stage with
  | .checking => none
  | .signingIn _ => some (r.username, .signIn d k)
  | .saving user => user.held
  | .ended => none

/-- The name in a document. -/
def UserDocument.username (document : UserDocument) : Option String :=
  (User.decode document.fields).username

/-- The document holds its name for its id. -/
def UserDocument.held (document : UserDocument) : Option (String × Holder) :=
  document.username.map fun x => (x, .user document.documentID)

/-- A save holds what its user holds. -/
theorem UserDocument.held_encode {user : User} {id : String} (h : user.id = some id) :
    UserDocument.held ⟨id, user.encode⟩ = user.held := by
  rw [UserDocument.held, UserDocument.username, User.decode_encode, User.held, h]
  cases user.username <;> rfl

/-- The holder after an event of the device `d`: a sign-in that is answered brings the
user. -/
def DeviceEvent.settle (d : ℕ) : DeviceEvent → Holder → Holder
  | .signedIn k (some uid) _, holder => if holder = .signIn d k then .user uid else holder
  | _, holder => holder

/-- A user stays the holder. -/
@[simp] theorem DeviceEvent.settle_user (d : ℕ) (e : DeviceEvent) (id : String) :
    e.settle d (.user id) = .user id := by
  unfold settle
  split <;> simp

/-- A name that a user holds is held for the user, and stays so. -/
theorem DeviceEvent.settle_held {user : User} {x : String} {holder : Holder} (d : ℕ)
    (e : DeviceEvent) (h : user.held = some (x, holder)) : e.settle d holder = holder := by
  obtain ⟨_, -, hid⟩ := Option.bind_eq_some_iff.mp h
  obtain ⟨id, -, heq⟩ := Option.map_eq_some_iff.mp hid
  obtain ⟨-, rfl⟩ := Prod.mk.inj heq
  exact settle_user d e id

/-- What holds a name for no sign-in of the event's device is left alone. -/
theorem DeviceEvent.settle_of_ne {d d' k : ℕ} {e : DeviceEvent} (h : d' ≠ d) :
    e.settle d (.signIn d' k) = .signIn d' k := by
  unfold settle
  split <;> simp [h]

namespace Device

/-- The names that the device `d` holds. -/
def held (dev : Device) (d : ℕ) : List (String × Holder) :=
  (dev.registrations.zipIdx.filterMap fun entry => Registration.held entry.1 d entry.2) ++
    (dev.dataStore.localUser.bind User.held).toList

variable {dev dev' : Device} {e : DeviceEvent} {documents : List UserDocument} {x : String}
  {user : User} {d k : ℕ} {r : Registration} {holder : Holder} {h : String × Holder}

/-- A device holds the names of its registrations and of its local user. -/
theorem mem_held_iff : h ∈ dev.held d ↔
    (∃ (k : ℕ) (r : Registration), dev.registrations[k]? = some r ∧ r.held d k = some h) ∨
      ∃ user, dev.dataStore.localUser = some user ∧ user.held = some h := by
  rw [held, List.mem_append, List.mem_filterMap, Option.mem_toList, Option.bind_eq_some_iff]
  refine or_congr ⟨?_, ?_⟩ Iff.rfl
  · rintro ⟨⟨r, k⟩, hmem, hr⟩
    exact ⟨k, r, List.mem_zipIdx_iff_getElem?.mp hmem, hr⟩
  · rintro ⟨k, r, hmem, hr⟩
    exact ⟨(r, k), List.mem_zipIdx_iff_getElem?.mpr hmem, hr⟩

/-- The local user's name is held. -/
theorem mem_held_of_localUser (hlocal : dev.dataStore.localUser = some user)
    (hheld : user.held = some h) : h ∈ dev.held d :=
  mem_held_iff.mpr (Or.inr ⟨user, hlocal, hheld⟩)

/-- A registration's name is held. -/
theorem mem_held_of_registration (hr : dev.registrations[k]? = some r)
    (hheld : r.held d k = some h) : h ∈ dev.held d :=
  mem_held_iff.mpr (Or.inl ⟨k, r, hr, hheld⟩)

/-- What is held after a registration has taken a step: by itself, by another one, or by
the local user. -/
theorem mem_held_setStage {stage : RegistrationStage} (hr : dev.registrations[k]? = some r)
    (hheld : h ∈ (dev.setStage k r stage).held d) :
    Registration.held { r with stage } d k = some h ∨
      (∃ j r', j ≠ k ∧ dev.registrations[j]? = some r' ∧ r'.held d j = some h) ∨
        ∃ user, dev.dataStore.localUser = some user ∧ user.held = some h := by
  rcases mem_held_iff.mp hheld with ⟨j, r', hr', hname⟩ | hlocal
  · rcases getElem?_set_cases hr' with ⟨rfl, rfl⟩ | ⟨hne, hold⟩
    · exact Or.inl hname
    · exact Or.inr (Or.inl ⟨j, r', hne, hold, hname⟩)
  · exact Or.inr (Or.inr hlocal)

/-- A registration that holds nothing more takes a step. -/
theorem mem_held_of_setStage {stage : RegistrationStage} (hr : dev.registrations[k]? = some r)
    (hnone : Registration.held { r with stage } d k = none)
    (hheld : h ∈ (dev.setStage k r stage).held d) : h ∈ dev.held d := by
  rcases mem_held_setStage hr hheld with hnew | ⟨j, r', -, hr', hname⟩ | ⟨user, hlocal, hname⟩
  · exact absurd (hnone.symm.trans hnew) (by simp)
  · exact mem_held_of_registration hr' hname
  · exact mem_held_of_localUser hlocal hname

/-- What is held after a user has been assigned. -/
theorem mem_held_assigned (hheld : h ∈ (dev.assigned user).held d) :
    h ∈ dev.held d ∨ user.held = some h := by
  rcases mem_held_iff.mp hheld with hold | ⟨user', huser', hname⟩
  · exact Or.inl (mem_held_iff.mpr (Or.inl hold))
  · obtain rfl := Option.some.inj huser'
    exact Or.inr hname

/-- A sign-in that is answered changes one holder: what the registration held for it is now
held for the user. -/
theorem held_signedIn {uid : String} {anonymous : Bool} {draw : Fin avatars.length}
    (hr : dev.registrations[k]? = some r) (hstage : r.stage = .signingIn anonymous)
    (hheld : (x, holder) ∈ (setStage { dev with uid := some uid } k r
      (.saving (User.createUser uid r.username draw))).held d) :
    ∃ old, (x, old) ∈ dev.held d ∧
      holder = (DeviceEvent.signedIn k (some uid) draw).settle d old := by
  have hr' : ({ dev with uid := some uid } : Device).registrations[k]? = some r := hr
  rcases mem_held_setStage hr' hheld with hnew | ⟨j, r', hne, hr', hname⟩ | ⟨user, hlocal, hname⟩
  · obtain ⟨rfl, rfl⟩ := Prod.mk.inj (Option.some.inj hnew)
    exact ⟨.signIn d k, mem_held_of_registration hr (by rw [Registration.held, hstage]),
      by simp [DeviceEvent.settle]⟩
  · refine ⟨holder, mem_held_of_registration hr' hname, ?_⟩
    rw [Registration.held] at hname
    split at hname
    · exact absurd hname (by simp)
    · obtain ⟨-, rfl⟩ := Prod.mk.inj (Option.some.inj hname)
      simp [DeviceEvent.settle, hne]
    · exact (DeviceEvent.settle_held d _ hname).symm
    · exact absurd hname (by simp)
  · exact ⟨holder, mem_held_of_localUser hlocal hname, (DeviceEvent.settle_held d _ hname).symm⟩

/-- **How a device comes to hold a name**: it held it before, perhaps for a sign-in, the
splash screen loads it, or a check passes it. -/
theorem Handles.held (hhandles : dev.Handles e dev' documents)
    (hheld : (x, holder) ∈ dev'.held d) :
    (∃ old, (x, old) ∈ dev.held d ∧ holder = e.settle d old) ∨
      (∃ user draw, e = .userLoaded (some user) draw ∧ user.held = some (x, holder)) ∨
      ∃ k r, e = .usernameChecked k false ∧ dev.registrations[k]? = some r ∧
        (x, holder) = (r.username, .signIn d k) := by
  have hsame (hold : (x, holder) ∈ dev.held d) (he : e.settle d holder = holder) :
      ∃ old, (x, old) ∈ dev.held d ∧ holder = e.settle d old := ⟨holder, hold, he.symm⟩
  cases hhandles with
  | launched => exact absurd hheld (by simp [mem_held_iff, Device.launched])
  | @loaded user id draw _ _ =>
      have hcases : (x, holder) ∈ (dev.assigned (user.setRandomImage draw)).held d := hheld
      rcases mem_held_assigned hcases with hold | hname
      · exact Or.inl (hsame hold rfl)
      · exact Or.inr (Or.inl ⟨user, draw, rfl, hname⟩)
  | signedOut _ => exact Or.inl (hsame hheld rfl)
  | continued _ =>
      rcases mem_held_iff.mp hheld with ⟨k, r, hr, hname⟩ | ⟨user, hlocal, hname⟩
      · rcases getElem?_concat_cases hr with hold | ⟨-, rfl⟩
        · exact Or.inl (hsame (mem_held_of_registration hold hname) rfl)
        · exact absurd hname (by simp [Registration.held])
      · exact Or.inl (hsame (mem_held_of_localUser hlocal hname) rfl)
  | @checked k r exist hr _ =>
      cases exist with
      | true => exact Or.inl (hsame (mem_held_of_setStage hr rfl hheld) rfl)
      | false =>
          rcases mem_held_setStage hr hheld with
            hnew | ⟨j, r', -, hr', hname⟩ | ⟨user, hlocal, hname⟩
          · exact Or.inr (Or.inr ⟨k, r, rfl, hr, (Option.some.inj hnew).symm⟩)
          · exact Or.inl (hsame (mem_held_of_registration hr' hname) rfl)
          · exact Or.inl (hsame (mem_held_of_localUser hlocal hname) rfl)
  | signInFailed hr _ => exact Or.inl (hsame (mem_held_of_setStage hr rfl hheld) rfl)
  | signedIn hr hstage _ => exact Or.inl (held_signedIn hr hstage hheld)
  | @saved k r user id draw hr hstage _ =>
      have hr' : (dev.assigned (user.setRandomImage draw)).registrations[k]? = some r := hr
      rcases mem_held_assigned (mem_held_of_setStage hr' rfl hheld) with hold | hname
      · exact Or.inl (hsame hold rfl)
      · refine Or.inl (hsame (mem_held_of_registration hr ?_) rfl)
        rw [Registration.held, hstage]
        exact hname
  | tokenFailed _ => exact Or.inl (hsame hheld rfl)
  | tokenIgnored _ => exact Or.inl (hsame hheld rfl)
  | tokenFetched _ hlocal _ heq | registrationToken hlocal _ heq =>
      subst heq
      rcases mem_held_assigned hheld with hold | hname
      · exact Or.inl (hsame hold rfl)
      · exact Or.inl (hsame (mem_held_of_localUser hlocal hname) rfl)

/-- What a device saves it holds the name of. -/
theorem Handles.held_saved (hhandles : dev.Handles e dev' documents) {document : UserDocument}
    (hdocument : document ∈ documents) (hheld : document.held = some h) :
    h ∈ dev'.held d := by
  cases hhandles with
  | launched | signedOut _ | continued _ | checked _ _ | signInFailed _ _ | tokenFailed _
  | tokenIgnored _ => exact absurd hdocument List.not_mem_nil
  | loaded _ hid | saved _ _ hid =>
      obtain rfl := List.mem_singleton.mp hdocument
      rw [UserDocument.held_encode (by exact hid)] at hheld
      exact mem_held_of_localUser rfl hheld
  | signedIn hr _ _ =>
      obtain rfl := List.mem_singleton.mp hdocument
      rw [UserDocument.held_encode rfl] at hheld
      exact mem_held_of_registration ((getElem?_set_eq hr).trans (if_pos rfl)) hheld
  | tokenFetched _ _ hid heq | registrationToken _ hid heq =>
      subst heq
      have hdoc := List.eq_of_mem_replicate (n := 2) hdocument
      subst hdoc
      rw [UserDocument.held_encode (by exact hid)] at hheld
      exact mem_held_of_localUser rfl hheld

end Device

/-- The holder after an event. -/
def AccountEvent.settle : AccountEvent → Holder → Holder
  | .device d e, holder => e.settle d holder
  | _, holder => holder

namespace Accounts

/-- **The names that are held**: on a device, in its waiting saves, and in a stored
document. -/
def held (s : Accounts) : List (String × Holder) :=
  (s.devices.zipIdx.flatMap fun (dev, d) =>
    dev.held d ++ (s.users.outbox d).filterMap UserDocument.held) ++
      s.stored.filterMap UserDocument.held

/-- The name whose check an event passes, and whom the name is held for from then on. -/
def passes (s : Accounts) : AccountEvent → Option (String × Holder)
  | .device d (.usernameChecked k false) =>
      (s.devices[d]?.bind fun dev => dev.registrations[k]?).map fun r =>
        (r.username, .signIn d k)
  | _ => none

/-- **No check passes a name that is held.** -/
def NameFree (s : Accounts) (e : AccountEvent) : Prop :=
  ∀ p ∈ s.passes e, ∀ h ∈ s.held, h.1 ≠ p.1

instance (s : Accounts) (e : AccountEvent) : Decidable (s.NameFree e) :=
  inferInstanceAs (Decidable (∀ p ∈ s.passes e, _))

variable {s s' : Accounts} {e : AccountEvent} {x : String} {holder : Holder}
  {h : String × Holder}

/-- Where a name can be held. -/
theorem mem_held_iff : h ∈ s.held ↔
    (∃ d dev, s.devices[d]? = some dev ∧
      (h ∈ dev.held d ∨ ∃ document ∈ s.users.outbox d, document.held = some h)) ∨
    ∃ document ∈ s.stored, document.held = some h := by
  rw [held, List.mem_append, List.mem_flatMap, List.mem_filterMap]
  refine or_congr ⟨?_, ?_⟩ Iff.rfl
  · rintro ⟨⟨dev, d⟩, hmem, hheld⟩
    refine ⟨d, dev, List.mem_zipIdx_iff_getElem?.mp hmem, ?_⟩
    exact (List.mem_append.mp hheld).imp_right List.mem_filterMap.mp
  · rintro ⟨d, dev, hmem, hheld⟩
    refine ⟨(dev, d), List.mem_zipIdx_iff_getElem?.mpr hmem, ?_⟩
    exact List.mem_append.mpr (hheld.imp_right List.mem_filterMap.mpr)

/-- The user the splash screen loads has a name that is held for it. -/
theorem Sound.held_of_loaded (hs : s.Sound) {d : ℕ} {dev : Device} {user : User}
    {draw : Fin avatars.length} (hdev : s.devices[d]? = some dev)
    (hanswers : s.Answers d dev (.userLoaded (some user) draw))
    (hheld : user.held = some h) : h ∈ s.held := by
  obtain ⟨uid, huid, hanswer⟩ := Option.map_eq_some_iff.mp hanswers
  have hid := (hs.of_getUserWith hanswer).id
  obtain ⟨document, hseen, rfl, rfl⟩ := getUserWith_eq_some hanswer
  have hdocument : document.held = some h := by
    rw [← hheld, UserDocument.held, UserDocument.username, User.held, hid]
    cases (User.decode document.fields).username <;> rfl
  rcases mem_usersSeenBy hseen with hstored | hwaiting
  · exact mem_held_iff.mpr (Or.inr ⟨document, hstored, hdocument⟩)
  · exact mem_held_iff.mpr (Or.inl ⟨d, dev, hdev, Or.inr ⟨document, hwaiting, hdocument⟩⟩)

/-- A document is held for a user. -/
theorem settle_document {document : UserDocument} (hheld : document.held = some (x, holder)) :
    e.settle holder = holder := by
  obtain ⟨_, -, heq⟩ := Option.map_eq_some_iff.mp hheld
  obtain ⟨-, rfl⟩ := Prod.mk.inj heq
  cases e with
  | device d e => exact DeviceEvent.settle_user d e _
  | install | commit _ | reject _ => rfl

/-- What another device holds is left alone. -/
theorem settle_device {d d' : ℕ} {dev : Device} {de : DeviceEvent} (hne : d' ≠ d)
    (hheld : (x, holder) ∈ dev.held d') : de.settle d holder = holder := by
  rcases Device.mem_held_iff.mp hheld with ⟨k, r, -, hname⟩ | ⟨user, -, hname⟩
  · rw [Registration.held] at hname
    split at hname
    · exact absurd hname (by simp)
    · obtain ⟨-, rfl⟩ := Prod.mk.inj (Option.some.inj hname)
      exact DeviceEvent.settle_of_ne hne
    · exact DeviceEvent.settle_held d de hname
    · exact absurd hname (by simp)
  · exact DeviceEvent.settle_held d de hname

/-- A step of a device brings in a name only through a check. -/
theorem Sound.held_handled (hs : s.Sound) {d : ℕ} {de : DeviceEvent} {dev dev' : Device}
    {documents : List UserDocument} (hdev : s.devices[d]? = some dev)
    (hanswers : s.Answers d dev de) (hhandles : dev.Handles de dev' documents)
    (hheld : (x, holder) ∈ (s.after d de dev' documents).held) :
    (∃ old, (x, old) ∈ s.held ∧ holder = de.settle d old) ∨
      s.passes (.device d de) = some (x, holder) := by
  have hown (hheld : (x, holder) ∈ dev'.held d) :
      (∃ old, (x, old) ∈ s.held ∧ holder = de.settle d old) ∨
        s.passes (.device d de) = some (x, holder) := by
    rcases hhandles.held hheld with ⟨old, hold, rfl⟩ | ⟨user, draw, rfl, hname⟩ |
      ⟨k, r, rfl, hr, heq⟩
    · exact Or.inl ⟨old, mem_held_iff.mpr (Or.inl ⟨d, dev, hdev, Or.inl hold⟩), rfl⟩
    · exact Or.inl ⟨holder, hs.held_of_loaded hdev hanswers hname, rfl⟩
    · exact Or.inr (by simp [passes, hdev, hr, heq])
  have hkept (hold : (x, holder) ∈ s.held) (he : de.settle d holder = holder) :
      ∃ old, (x, old) ∈ s.held ∧ holder = de.settle d old := ⟨holder, hold, he.symm⟩
  have hsaved {document : UserDocument} (hname : document.held = some (x, holder)) :
      de.settle d holder = holder := settle_document (e := .device d de) hname
  rcases mem_held_iff.mp hheld with ⟨j, devj, hdevj, hnames | ⟨document, hwaiting, hname⟩⟩ |
    ⟨document, hstored, hname⟩
  · rcases getElem?_set_cases hdevj with ⟨rfl, rfl⟩ | ⟨hne, hold⟩
    · exact hown hnames
    · exact Or.inl (hkept (mem_held_iff.mpr (Or.inl ⟨j, devj, hold, Or.inl hnames⟩))
        (settle_device hne hnames))
  · rcases WriteLog.mem_outbox_issue hwaiting with hwaits | ⟨rfl, hissued⟩
    · rcases getElem?_set_cases hdevj with ⟨rfl, rfl⟩ | ⟨-, hold⟩
      · exact Or.inl (hkept (mem_held_iff.mpr
          (Or.inl ⟨j, dev, hdev, Or.inr ⟨document, hwaits, hname⟩⟩)) (hsaved hname))
      · exact Or.inl (hkept (mem_held_iff.mpr
          (Or.inl ⟨j, devj, hold, Or.inr ⟨document, hwaits, hname⟩⟩)) (hsaved hname))
    · exact hown (hhandles.held_saved hissued hname)
  · exact Or.inl (hkept (mem_held_iff.mpr (Or.inr ⟨document, hstored, hname⟩)) (hsaved hname))

/-- A commit moves a name from a save to the document. -/
theorem Sound.held_committed (hs : s.Sound) {d : ℕ} {users : WriteLog ℕ UserDocument}
    (hcommit : s.users.commit d = some users)
    (hheld : h ∈ ({ s with users } : Accounts).held) : h ∈ s.held := by
  rcases mem_held_iff.mp hheld with ⟨j, devj, hdevj, hnames | ⟨document, hwaiting, hname⟩⟩ |
    ⟨document, hstored, hname⟩
  · exact mem_held_iff.mpr (Or.inl ⟨j, devj, hdevj, Or.inl hnames⟩)
  · exact mem_held_iff.mpr (Or.inl ⟨j, devj, hdevj,
      Or.inr ⟨document, WriteLog.mem_outbox_commit hcommit hwaiting, hname⟩⟩)
  · obtain ⟨w, ws, hout, -, hcurrent⟩ := WriteLog.current_commit putUser [] hcommit
    rw [stored, hcurrent] at hstored
    rcases mem_putUser hstored with hold | rfl
    · exact mem_held_iff.mpr (Or.inr ⟨document, hold, hname⟩)
    · have hmem : document ∈ s.users.outbox d := hout ▸ List.mem_cons_self
      have hlt := (hs.saves d document (WriteLog.mem_issuedBy_of_mem_outbox hmem)).1
      exact mem_held_iff.mpr (Or.inl ⟨d, _, List.getElem?_eq_getElem hlt,
        Or.inr ⟨document, hmem, hname⟩⟩)

/-- **How a name comes to be held**: it was held before, perhaps for a sign-in that has
brought the user now, or a check passes it. -/
theorem Sound.held_of_step (hs : s.Sound) (hstep : Step s e s')
    (hheld : (x, holder) ∈ s'.held) :
    (∃ old, (x, old) ∈ s.held ∧ holder = e.settle old) ∨ s.passes e = some (x, holder) := by
  cases hstep with
  | installed =>
      refine Or.inl ⟨holder, ?_, rfl⟩
      rcases mem_held_iff.mp hheld with ⟨j, devj, hdevj, hnames⟩ | hstored
      · rcases getElem?_concat_cases hdevj with hold | ⟨rfl, rfl⟩
        · exact mem_held_iff.mpr (Or.inl ⟨j, devj, hold, hnames⟩)
        · rcases hnames with hnames | ⟨document, hwaiting, -⟩
          · exact absurd hnames (by simp [Device.mem_held_iff, Device.new])
          · exact absurd (hs.saves _ document (WriteLog.mem_issuedBy_of_mem_outbox hwaiting)).1
              (Nat.lt_irrefl _)
      · exact mem_held_iff.mpr (Or.inr hstored)
  | handled hdev hanswers hhandles => exact hs.held_handled hdev hanswers hhandles hheld
  | committed hcommit => exact Or.inl ⟨holder, hs.held_committed hcommit hheld, rfl⟩
  | rejected hreject =>
      refine Or.inl ⟨holder, ?_, rfl⟩
      rcases mem_held_iff.mp hheld with
        ⟨j, devj, hdevj, hnames | ⟨document, hwaiting, hname⟩⟩ | ⟨document, hstored, hname⟩
      · exact mem_held_iff.mpr (Or.inl ⟨j, devj, hdevj, Or.inl hnames⟩)
      · exact mem_held_iff.mpr (Or.inl ⟨j, devj, hdevj,
          Or.inr ⟨document, WriteLog.mem_outbox_reject hreject hwaiting, hname⟩⟩)
      · refine mem_held_iff.mpr (Or.inr ⟨document, ?_, hname⟩)
        rwa [stored, WriteLog.current, WriteLog.reject_log hreject] at hstored

/-- **The invariant**: no name has two holders. -/
def Exclusive (s : Accounts) : Prop :=
  ∀ x holder holder', (x, holder) ∈ s.held → (x, holder') ∈ s.held → holder = holder'

/-- No name is held at the beginning. -/
theorem exclusive_init : init.Exclusive := by
  intro x holder holder' hheld
  rcases mem_held_iff.mp hheld with ⟨d, dev, hdev, -⟩ | ⟨document, hstored, -⟩
  · exact absurd hdev (by simp [init])
  · exact absurd hstored List.not_mem_nil

/-- **Names keep one holder**, when a check that passes one finds it free. -/
theorem Exclusive.step (hexclusive : s.Exclusive) (hs : s.Sound) (hfree : s.NameFree e)
    (hstep : Step s e s') : s'.Exclusive := by
  intro x holder holder' hheld hheld'
  rcases hs.held_of_step hstep hheld with ⟨old, hold, rfl⟩ | hpass
  · rcases hs.held_of_step hstep hheld' with ⟨old', hold', rfl⟩ | hpass'
    · rw [hexclusive x old old' hold hold']
    · exact absurd rfl (hfree _ hpass' (x, old) hold)
  · rcases hs.held_of_step hstep hheld' with ⟨old', hold', -⟩ | hpass'
    · exact absurd rfl (hfree _ hpass (x, old') hold')
    · exact congrArg Prod.snd (Option.some.inj (hpass.symm.trans hpass'))

/-- **No name has two holders**, in every run in which no check passes a name that is
held. -/
theorem exclusive_of_run {es : List AccountEvent} (hrun : RunWhere step NameFree init es s) :
    s.Exclusive := by
  refine hrun.invariant_events (I := fun _ s => s.Exclusive) exclusive_init ?_
  intro es s e s' hrun hexclusive hfree hstep
  exact hexclusive.step (sound_of_run hrun) hfree (step_of_step_eq hstep)

/-- A stored user has a name, which is held for it. -/
theorem Sound.exists_held_of_stored (hs : s.Sound) {document : UserDocument}
    (hstored : document ∈ s.stored) :
    ∃ x, document.username = some x ∧ (x, Holder.user document.documentID) ∈ s.held := by
  obtain ⟨d, hsaved⟩ := exists_saved_of_stored hstored
  obtain ⟨-, uid, -, user, huser, rfl⟩ := hs.saves d document hsaved
  obtain ⟨x, hx⟩ := Option.isSome_iff_exists.mp huser.username
  have hname : UserDocument.username ⟨uid, user.encode⟩ = some x := by
    rw [UserDocument.username, User.decode_encode, hx]
  exact ⟨x, hname, mem_held_iff.mpr (Or.inr ⟨_, hstored, by rw [UserDocument.held, hname]; rfl⟩)⟩

/-- **Usernames are unique** among stored users with different ids, in every run in which no
check passes a name that is held. -/
theorem usernames_unique {es : List AccountEvent} (h : RunWhere step NameFree init es s) :
    ∀ a ∈ s.stored, ∀ b ∈ s.stored, a.documentID ≠ b.documentID →
      a.username ≠ b.username := by
  intro a ha b hb hne heq
  have hs := sound_of_run h
  obtain ⟨x, hx, hheld⟩ := hs.exists_held_of_stored ha
  obtain ⟨x', hx', hheld'⟩ := hs.exists_held_of_stored hb
  obtain rfl : x = x' := Option.some.inj (hx.symm.trans (heq.trans hx'))
  exact hne (Holder.user.inj (exclusive_of_run h x _ _ hheld hheld'))

/-- One device registers, and another is refused its name and takes a second one. -/
def registeredInTurn : List AccountEvent :=
  [.install, .install, .device 0 .launch, .device 1 .launch, .device 0 (.onContinue "ann"),
    .device 0 (.usernameChecked 0 false), .device 0 (.signedIn 0 (some "uid1") firstDraw),
    .commit 0, .device 0 (.saved 0 secondDraw), .commit 0, .device 1 (.onContinue "ann"),
    .device 1 (.usernameChecked 0 true), .device 1 (.onContinue "bob"),
    .device 1 (.usernameChecked 1 false), .device 1 (.signedIn 1 (some "uid2") firstDraw),
    .commit 1]

/-- The users at the end of `registeredInTurn` have different names. -/
theorem usernames_unique_registeredInTurn : ∃ s, Run step init registeredInTurn s ∧
    s.stored.map UserDocument.documentID = ["uid1", "uid2"] ∧
    ∀ a ∈ s.stored, ∀ b ∈ s.stored, a.documentID ≠ b.documentID →
      a.username ≠ b.username := by
  have hrun : RunWhere step NameFree init registeredInTurn
      ((execWhere step NameFree init registeredInTurn).get (by decide)) := runWhere_get _
  exact ⟨_, hrun.toRun, by decide, usernames_unique hrun⟩

/-- Two devices check the same name before either has saved it. -/
def registeredTogether : List AccountEvent :=
  [.install, .install, .device 0 .launch, .device 1 .launch, .device 0 (.onContinue "ann"),
    .device 1 (.onContinue "ann"), .device 0 (.usernameChecked 0 false),
    .device 1 (.usernameChecked 0 false), .device 0 (.signedIn 0 (some "uid1") firstDraw),
    .device 1 (.signedIn 0 (some "uid2") firstDraw), .commit 0, .commit 1]

/-- **Two users have one name.** -/
theorem username_twice : ¬ ∀ (es : List AccountEvent) (s : Accounts), Run step init es s →
    ∀ a ∈ s.stored, ∀ b ∈ s.stored, a.documentID ≠ b.documentID →
      a.username ≠ b.username := by
  intro h
  have hrun : Run step init registeredTogether
      ((exec step init registeredTogether).get (by decide)) := runWhere_get _
  exact absurd (h _ _ hrun) (by decide)

end Accounts

end RockPaperScissors
