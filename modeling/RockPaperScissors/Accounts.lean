import RockPaperScissors.Profile

/-!
# Accounts: Devices and the Collection of Users

The state machine of the collection `users` and of any number of devices. What a device is
answered comes from the store: a query reads what is stored, with the device's own waiting
saves laid over it, and a name counts as used when the query fails. A device that signs in
with nobody signed in gets a uid that nobody has had. It can be given several: sign-ins may
be under way together, and a user whose document is missing is signed out.

The backend commits the saves of a device in order, or rejects them. Saves that are kept for
a user when another one signs in are not sent any more, which is a rejection here. The
completion of a save may run at any time after it was issued.

## Main results

* `Accounts.step_of_step_eq`: `Accounts.Step` lists what an event can do.
* `Accounts.Sound`, `Accounts.sound_of_run`: every reachable device has users of its own uids
  only, which no other device is given, and every save is of a user whose id names the
  document.
* `Accounts.Sound.stored_decodes`: every stored document decodes to a user with its id.
-/

open TransitionSystem

namespace RockPaperScissors

/-- The collection `users` and the devices. -/
structure Accounts where
  /-- The saves of the devices. -/
  users : WriteLog ℕ UserDocument
  devices : List Device
  /-- The uids that have been given away, each with the device it went to. -/
  uids : List (ℕ × String)

/-- What can happen to the accounts. -/
inductive AccountEvent
  /-- The program is installed on another device. -/
  | install
  /-- Something happens on a device. -/
  | device (d : ℕ) (e : DeviceEvent)
  /-- The backend commits the oldest save of the device. -/
  | commit (d : ℕ)
  /-- The backend rejects the oldest save of the device. -/
  | reject (d : ℕ)

namespace Accounts

/-- Nothing is stored, and there are no devices. -/
def init : Accounts where
  users := WriteLog.empty
  devices := []
  uids := []

variable (s : Accounts)

/-- The stored documents. -/
def stored : List UserDocument :=
  s.users.current putUser []

/-- The documents as a query of the device reads them. -/
def usersSeenBy (d : ℕ) : List UserDocument :=
  s.users.view putUser [] d s.users.log.length

/-- The uids that the device was given. -/
def uidsOf (d : ℕ) : List String :=
  (s.uids.filter fun given => given.1 = d).map Prod.snd

/-- The answer that comes with an event is one that the device can get. -/
def Answers (d : ℕ) (dev : Device) : DeviceEvent → Prop
  | .userLoaded answer _ => dev.uid.map (getUserWith (s.usersSeenBy d)) = some answer
  | .usernameChecked k exist => ∃ r ∈ dev.registrations[k]?,
      exist = checkForExistingUsername none r.username ∨
        exist = checkForExistingUsername (some (s.usersSeenBy d)) r.username
  | .signedIn _ uid _ => ∀ id ∈ uid, dev.uid = some id ∨ id ∉ s.uids.map Prod.snd
  | _ => True

instance (d : ℕ) (dev : Device) (e : DeviceEvent) : Decidable (s.Answers d dev e) :=
  match e with
  | .userLoaded answer _ => inferInstanceAs (Decidable (_ = some answer))
  | .usernameChecked _ _ => inferInstanceAs (Decidable (∃ r ∈ _, _))
  | .signedIn _ uid _ => inferInstanceAs (Decidable (∀ id ∈ uid, _))
  | .launch => inferInstanceAs (Decidable True)
  | .onContinue _ => inferInstanceAs (Decidable True)
  | .saved _ _ => inferInstanceAs (Decidable True)
  | .tokenFetched _ _ => inferInstanceAs (Decidable True)
  | .registrationToken _ _ => inferInstanceAs (Decidable True)

/-- The accounts after a device has taken a step. -/
def after (d : ℕ) (e : DeviceEvent) (dev' : Device) (documents : List UserDocument) :
    Accounts where
  users := s.users.issue d documents
  devices := s.devices.set d dev'
  uids := s.uids ++ (e.uid?.map fun uid => (d, uid)).toList

/-- What an event does; `none` when it cannot happen, and an error when it unwraps `nil`. -/
def handle (s : Accounts) : AccountEvent → Option (Except ForcedUnwrap Accounts)
  | .install => some (.ok { s with devices := s.devices ++ [Device.new] })
  | .device d e =>
      s.devices[d]?.bind fun dev =>
        if s.Answers d dev e then
          (dev.handle e).map fun result =>
            result.map fun (dev', documents) => s.after d e dev' documents
        else none
  | .commit d => (s.users.commit d).map fun users => .ok { s with users }
  | .reject d => (s.users.reject d).map fun users => .ok { s with users }

/-- The accounts after an event that unwraps no `nil`. -/
def step (s : Accounts) (e : AccountEvent) : Option Accounts :=
  (s.handle e).bind Except.toOption

/-- What an event can do. -/
inductive Step (s : Accounts) : AccountEvent → Accounts → Prop
  | installed : Step s .install { s with devices := s.devices ++ [Device.new] }
  | handled {d : ℕ} {e : DeviceEvent} {dev dev' : Device} {documents : List UserDocument} :
      s.devices[d]? = some dev → s.Answers d dev e → dev.Handles e dev' documents →
      Step s (.device d e) (s.after d e dev' documents)
  | committed {d : ℕ} {users : WriteLog ℕ UserDocument} : s.users.commit d = some users →
      Step s (.commit d) { s with users }
  | rejected {d : ℕ} {users : WriteLog ℕ UserDocument} : s.users.reject d = some users →
      Step s (.reject d) { s with users }

variable {s} {s' : Accounts} {e : AccountEvent}

/-- An `Except` that is left as an option was no error. -/
theorem toOption_eq_some_iff {ε α : Type*} {x : Except ε α} {a : α} :
    x.toOption = some a ↔ x = .ok a := by
  cases x <;> simp [Except.toOption]

/-- **Events do nothing else.** -/
theorem step_of_step_eq (h : s.step e = some s') : Step s e s' := by
  obtain ⟨result, hhandle, h⟩ := Option.bind_eq_some_iff.mp h
  obtain rfl := toOption_eq_some_iff.mp h
  cases e with
  | install =>
      obtain rfl := Except.ok.inj (Option.some.inj hhandle)
      exact Step.installed
  | device d e =>
      obtain ⟨dev, hdev, hhandle⟩ := Option.bind_eq_some_iff.mp hhandle
      split at hhandle
      · next hanswers =>
          obtain ⟨result, hresult, heq⟩ := Option.map_eq_some_iff.mp hhandle
          obtain ⟨⟨dev', documents⟩, rfl, rfl⟩ := map_eq_ok_iff.mp heq
          exact Step.handled hdev hanswers (Device.handles_of_handle hresult)
      · exact absurd hhandle (by simp)
  | commit d =>
      obtain ⟨users, hcommit, heq⟩ := Option.map_eq_some_iff.mp hhandle
      obtain rfl := Except.ok.inj heq
      exact Step.committed hcommit
  | reject d =>
      obtain ⟨users, hreject, heq⟩ := Option.map_eq_some_iff.mp hhandle
      obtain rfl := Except.ok.inj heq
      exact Step.rejected hreject

/-! ### The invariant -/

/-- A uid of a device is one that has been given to it. -/
theorem mem_uidsOf_iff {d : ℕ} {uid : String} : uid ∈ s.uidsOf d ↔ (d, uid) ∈ s.uids := by
  simp [uidsOf]

/-- The uids of a device after another one, or itself, has taken a step. -/
theorem uidsOf_after {d j : ℕ} {de : DeviceEvent} {dev' : Device}
    {documents : List UserDocument} :
    (s.after d de dev' documents).uidsOf j =
      s.uidsOf j ++ if j = d then de.uid?.toList else [] := by
  rw [uidsOf, after, List.filter_append, List.map_append]
  congr 1
  cases de.uid? with
  | none => simp
  | some uid => by_cases hj : d = j <;> simp [hj, eq_comm]

/-- **The invariant**: devices are sound, no uid is given to two devices, and a device saves
users of its own uids only. -/
structure Sound (s : Accounts) : Prop where
  devices : ∀ (d : ℕ) (dev : Device), s.devices[d]? = some dev → dev.Sound (s.uidsOf d)
  distinct : ∀ (d d' : ℕ) (uid : String), uid ∈ s.uidsOf d → uid ∈ s.uidsOf d' → d = d'
  saves : ∀ d, ∀ document ∈ s.users.issuedBy d, d < s.devices.length ∧
    ∃ uid ∈ s.uidsOf d, document.Of uid

/-- Nobody has a uid, and nothing is saved, at the beginning. -/
theorem sound_init : init.Sound where
  devices := by simp [init]
  distinct := by simp [init, uidsOf]
  saves := by simp [init]

/-- What is stored some device has saved. -/
theorem exists_saved_of_stored {document : UserDocument} (h : document ∈ s.stored) :
    ∃ d, document ∈ s.users.issuedBy d := by
  have hlog := (mem_replay_putUser h).resolve_left List.not_mem_nil
  obtain ⟨⟨d, _⟩, hmem, rfl⟩ := List.mem_map.mp hlog
  exact ⟨d, WriteLog.mem_issuedBy_of_mem_log hmem⟩

/-- What a device reads is stored or its own. -/
theorem mem_usersSeenBy {d : ℕ} {document : UserDocument} (h : document ∈ s.usersSeenBy d) :
    document ∈ s.stored ∨ document ∈ s.users.outbox d := by
  rw [usersSeenBy, WriteLog.view_length] at h
  exact mem_replay_putUser h

/-- What a device reads some device has saved. -/
theorem exists_saved_of_seen {d : ℕ} {document : UserDocument}
    (h : document ∈ s.usersSeenBy d) : ∃ d', document ∈ s.users.issuedBy d' := by
  rcases mem_usersSeenBy h with hstored | hown
  · exact exists_saved_of_stored hstored
  · exact ⟨d, WriteLog.mem_issuedBy_of_mem_outbox hown⟩

/-- What a device has saved it reads back, in this version or a later one. -/
theorem getUserWith_usersSeenBy_isSome {d : ℕ} {document : UserDocument}
    (h : document ∈ s.users.issuedBy d) :
    (getUserWith (s.usersSeenBy d) document.documentID).isSome := by
  rw [usersSeenBy, WriteLog.view_length]
  rcases List.mem_append.mp h with hlog | hout
  · obtain ⟨⟨d', w⟩, hmem, rfl⟩ := List.mem_map.mp hlog
    have hstored : (getUserWith s.stored w.documentID).isSome :=
      getUserWith_replay_isSome
        (Or.inr (List.mem_map.mpr ⟨(d', w), (List.mem_filter.mp hmem).1, rfl⟩))
    obtain ⟨user, huser⟩ := Option.isSome_iff_exists.mp hstored
    obtain ⟨document, hdocument, hid, -⟩ := getUserWith_eq_some huser
    rw [← hid]
    exact getUserWith_replay_isSome (Or.inl hdocument)
  · exact getUserWith_replay_isSome (Or.inr hout)

/-- **A query by id finds a user with that id.** -/
theorem Sound.of_getUserWith (hs : s.Sound) {d : ℕ} {id : String} {user : User}
    (h : getUserWith (s.usersSeenBy d) id = some user) : user.Of id := by
  obtain ⟨document, hmem, rfl, rfl⟩ := getUserWith_eq_some h
  obtain ⟨d', hsaved⟩ := exists_saved_of_seen hmem
  obtain ⟨-, uid, -, user, huser, rfl⟩ := hs.saves d' document hsaved
  rw [User.decode_encode]
  exact huser

/-- The splash screen loads a user of one of the device's uids. -/
theorem Sound.of_answer (hs : s.Sound) {d : ℕ} {dev : Device} {e : DeviceEvent}
    (hdev : s.devices[d]? = some dev) (h : s.Answers d dev e) :
    ∀ user draw, e = .userLoaded (some user) draw → ∃ uid ∈ s.uidsOf d, user.Of uid := by
  rintro user draw rfl
  obtain ⟨uid, huid, hanswer⟩ := Option.map_eq_some_iff.mp h
  exact ⟨uid, (hs.devices d dev hdev).uid uid huid, hs.of_getUserWith hanswer⟩

/-- A uid that a device is given in a step is its own already, or nobody's. -/
theorem Sound.given_alone (hs : s.Sound) {d j : ℕ} {de : DeviceEvent} {dev : Device}
    {uid : String} (hdev : s.devices[d]? = some dev) (hanswers : s.Answers d dev de)
    (hgiven : de.uid? = some uid) (hj : uid ∈ s.uidsOf j) : j = d := by
  cases de with
  | signedIn k id draw =>
      rcases hanswers uid hgiven with hold | hfresh
      · exact hs.distinct j d uid hj ((hs.devices d dev hdev).uid uid hold)
      · exact absurd (List.mem_map.mpr ⟨(j, uid), mem_uidsOf_iff.mp hj, rfl⟩) hfresh
  | _ => exact absurd hgiven (by simp [DeviceEvent.uid?])

/-- **A step of a device keeps the invariant.** -/
theorem Sound.handled (hs : s.Sound) {d : ℕ} {de : DeviceEvent} {dev dev' : Device}
    {documents : List UserDocument} (hdev : s.devices[d]? = some dev)
    (hanswers : s.Answers d dev de) (hhandles : dev.Handles de dev' documents) :
    (s.after d de dev' documents).Sound where
  devices := by
    intro j devj hj
    rw [uidsOf_after]
    rcases getElem?_set_cases hj with ⟨rfl, rfl⟩ | ⟨-, hold⟩
    · rw [if_pos rfl]
      exact (hs.devices j dev hdev).step hhandles (hs.of_answer hdev hanswers)
    · exact (hs.devices j devj hold).mono (List.subset_append_left _ _)
  distinct := by
    intro i j uid hi hj
    rw [uidsOf_after] at hi hj
    have hcases {k : ℕ} (hk : uid ∈ s.uidsOf k ++ if k = d then de.uid?.toList else []) :
        uid ∈ s.uidsOf k ∨ k = d ∧ de.uid? = some uid := by
      rcases List.mem_append.mp hk with hold | hnew
      · exact Or.inl hold
      · split at hnew
        · next hkd => exact Or.inr ⟨hkd, Option.mem_toList.mp hnew⟩
        · exact absurd hnew List.not_mem_nil
    rcases hcases hi with holdi | ⟨rfl, hgiven⟩
    · rcases hcases hj with holdj | ⟨rfl, hgiven⟩
      · exact hs.distinct i j uid holdi holdj
      · exact hs.given_alone hdev hanswers hgiven holdi
    · rcases hcases hj with holdj | ⟨rfl, -⟩
      · exact (hs.given_alone hdev hanswers hgiven holdj).symm
      · rfl
  saves := by
    intro j document hissued
    rw [uidsOf_after]
    rw [after, WriteLog.issuedBy_issue] at hissued
    rw [after, List.length_set]
    rcases List.mem_append.mp hissued with hold | hnew
    · obtain ⟨hlt, uid, huid, hof⟩ := hs.saves j document hold
      exact ⟨hlt, uid, List.mem_append_left _ huid, hof⟩
    · split at hnew
      · next hj =>
          subst hj
          rw [if_pos rfl]
          exact ⟨(List.getElem?_eq_some_iff.mp hdev).1, (hs.devices j dev hdev).saves hhandles
            (hs.of_answer hdev hanswers) document hnew⟩
      · exact absurd hnew List.not_mem_nil

/-- **The invariant is kept.** -/
theorem Sound.step (hs : s.Sound) (h : Step s e s') : s'.Sound := by
  cases h with
  | installed =>
      refine ⟨fun d dev hdev => ?_, hs.distinct, fun d document hissued => ?_⟩
      · rcases getElem?_concat_cases hdev with hold | ⟨-, rfl⟩
        · exact hs.devices d dev hold
        · exact Device.sound_new
      · obtain ⟨hlt, hof⟩ := hs.saves d document hissued
        exact ⟨by rw [List.length_append]; omega, hof⟩
  | handled hdev hanswers hhandles => exact hs.handled hdev hanswers hhandles
  | committed hcommit =>
      refine { hs with saves := fun d document hissued => ?_ }
      rw [WriteLog.issuedBy_commit hcommit] at hissued
      exact hs.saves d document hissued
  | rejected hreject =>
      refine { hs with saves := fun d document hissued => ?_ }
      exact hs.saves d document (WriteLog.mem_issuedBy_reject hreject hissued)

/-- Every reachable state of the accounts is sound. -/
theorem sound_of_run {C : Accounts → AccountEvent → Prop} {es : List AccountEvent}
    (h : RunWhere step C init es s) : s.Sound :=
  h.invariant sound_init fun _ _ _ hs _ hstep => hs.step (step_of_step_eq hstep)

/-- **Every stored document decodes to a user with its id.** -/
theorem Sound.stored_decodes (hs : s.Sound) :
    ∀ document ∈ s.stored, (User.decode document.fields).id = some document.documentID := by
  intro document hdocument
  obtain ⟨d, hsaved⟩ := exists_saved_of_stored hdocument
  obtain ⟨-, uid, -, user, huser, rfl⟩ := hs.saves d document hsaved
  rw [User.decode_encode]
  exact huser.id

/-- **Nothing unwraps `nil`.** -/
theorem Sound.handle_ne_error (hs : s.Sound) (e : AccountEvent) (unwrap : ForcedUnwrap) :
    s.handle e ≠ some (.error unwrap) := by
  intro h
  cases e with
  | install => simp [handle] at h
  | device d de =>
      obtain ⟨dev, hdev, h⟩ := Option.bind_eq_some_iff.mp h
      split at h
      · next hanswers =>
          obtain ⟨result, hresult, heq⟩ := Option.map_eq_some_iff.mp h
          rw [map_eq_error_iff] at heq
          rw [heq] at hresult
          exact (hs.devices d dev hdev).handle_ne_error (hs.of_answer hdev hanswers) unwrap
            hresult
      · exact absurd h (by simp)
  | commit d => simp [handle] at h
  | reject d => simp [handle] at h

/-! ### Profiles -/

/-- The event is not a rejection. -/
def NotRejected (_ : Accounts) : AccountEvent → Prop
  | .reject _ => False
  | _ => True

/-- The device's local user and saves are those of a run of a profile. -/
def HasProfile (s : Accounts) (d : ℕ) (dev : Device) : Prop :=
  ∃ es p, Run Profile.step Profile.init es p ∧ p.Follows dev ∧ p.saves = s.users.issuedBy d

/-- **Every device has a profile**: what is proved of the local and the stored profile holds
of every device whose saves are not rejected. -/
theorem profile_of_run {es : List AccountEvent} (h : RunWhere step NotRejected init es s) :
    ∀ (d : ℕ) (dev : Device), s.devices[d]? = some dev → s.HasProfile d dev := by
  refine h.invariant_events (I := fun _ s => ∀ (d : ℕ) (dev : Device),
    s.devices[d]? = some dev → s.HasProfile d dev) (by simp [init]) ?_
  intro es s e s' hrun hprofile hC hstep d dev hdev
  have hs := sound_of_run hrun
  cases step_of_step_eq hstep with
  | installed =>
      rcases getElem?_concat_cases hdev with hold | ⟨rfl, rfl⟩
      · exact hprofile d dev hold
      · have hnone : s.users.issuedBy s.devices.length = [] := by
          rw [List.eq_nil_iff_forall_not_mem]
          intro document hissued
          exact absurd (hs.saves _ document hissued).1 (Nat.lt_irrefl _)
        exact ⟨[], Profile.init, RunWhere.nil, Profile.follows_init, hnone.symm⟩
  | @handled k de old dev' documents hold hanswers hhandles =>
      rcases getElem?_set_cases hdev with ⟨rfl, rfl⟩ | ⟨hne, hsame⟩
      · obtain ⟨pes, p, hp, hfollows, hsaves⟩ := hprofile d old hold
        obtain ⟨pes', p', hp', hfollows', hsaves'⟩ :=
          Profile.follows_of_handles hfollows hhandles
        refine ⟨_, p', hp.append hp', hfollows', ?_⟩
        rw [after, WriteLog.issuedBy_issue, if_pos rfl, hsaves', hsaves]
      · obtain ⟨pes, p, hp, hfollows, hsaves⟩ := hprofile d dev hsame
        refine ⟨pes, p, hp, hfollows, ?_⟩
        rw [after, WriteLog.issuedBy_issue, if_neg hne, List.append_nil, hsaves]
  | committed hcommit =>
      obtain ⟨pes, p, hp, hfollows, hsaves⟩ := hprofile d dev hdev
      exact ⟨pes, p, hp, hfollows, hsaves.trans (WriteLog.issuedBy_commit hcommit).symm⟩
  | rejected _ => exact absurd hC id

end Accounts

end RockPaperScissors
