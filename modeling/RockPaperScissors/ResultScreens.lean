import RockPaperScissors.ForcedUnwraps
import RockPaperScissors.GameIdentity
import RockPaperScissors.Results

/-!
# What the Results Screens Show

`showWinnerLooserInfo` returns without setting a label when the winner has no image or no
name, when no other player is found, or when the other player has no name, and in a draw
when a player has no image. Users are created with a name and an image, and all that the
program assigns, saves and loads later keeps them. So the users of every game have both, and
no results screen stays blank.

A finished game is merged field by field, so a stored winner can be put together from two
users. What the screen shows of it is one of them all the same.

## Main results

* `Accounts.shown_of_run`: every local user and every saved user has a name and an image.
* `Session.looks_of_run`: the winner of every copy looks like one of the two players.
* `App.results_shown`: every results screen shows the two players.
-/

open TransitionSystem

namespace RockPaperScissors

/-! ### Users with a name and an image -/

namespace User

/-- The user has what the results screen shows of it. -/
structure Shown (user : User) : Prop where
  username : user.username.isSome
  avatarImage : user.avatarImage.isSome

/-- The first user is the second one but for the token. -/
structure Looks (user player : User) : Prop where
  id : user.id = player.id
  username : user.username = player.username
  avatarImage : user.avatarImage = player.avatarImage

/-- A user looks like itself. -/
theorem Looks.refl (user : User) : user.Looks user := ⟨rfl, rfl, rfl⟩

variable {old new user : User}

/-- A user that `createUser` makes has a name and an avatar. -/
theorem shown_createUser (id username : String) (draw : Fin avatars.length) :
    (createUser id username draw).Shown := ⟨rfl, rfl⟩

/-- Another avatar is an avatar. -/
theorem Shown.setRandomImage (h : user.Shown) (draw : Fin avatars.length) :
    (user.setRandomImage draw).Shown := ⟨h.username, rfl⟩

/-- A token changes nothing that is shown, but the image is drawn again. -/
theorem Shown.withToken (h : user.Shown) (token : String) (draw : Fin avatars.length) :
    ({ user with deviceToken := some token }.setRandomImage draw).Shown := ⟨h.username, rfl⟩

/-- **A merged user looks like the written one**, which has an id, a name and an image. -/
theorem Looks.merge {player : User} (hnew : new.Looks player) (hid : player.id.isSome)
    (hshown : player.Shown) : (old.merge new).Looks player := by
  rw [← hnew.id] at hid
  obtain ⟨husername, havatarImage⟩ := hshown
  rw [← hnew.username] at husername
  rw [← hnew.avatarImage] at havatarImage
  rw [User.merge]
  split
  · exact hnew
  · exact ⟨(Option.or_of_isSome hid).trans hnew.id,
      (Option.or_of_isSome husername).trans hnew.username,
      (Option.or_of_isSome havatarImage).trans hnew.avatarImage⟩

end User

/-- The document is that of a user with a name and an image. -/
def UserDocument.Shown (document : UserDocument) : Prop :=
  (User.decode document.fields).Shown

namespace UserDocument

/-- The document of a user with a name and an avatar stores both. -/
theorem shown_encode {id : String} {user : User} (h : user.Shown) :
    Shown ⟨id, user.encode⟩ := by
  rw [Shown, User.decode_encode]
  exact h

end UserDocument

namespace Device

/-- The users a device has, or is going to assign, have a name and an image. -/
structure Shown (dev : Device) : Prop where
  localUser : ∀ user, dev.dataStore.localUser = some user → user.Shown
  saving : ∀ r ∈ dev.registrations, ∀ user, r.stage = .saving user → user.Shown

variable {dev dev' : Device} {e : DeviceEvent} {documents : List UserDocument} {user : User}
  {k : ℕ} {r : Registration}

/-- A registration saves no user but one with a name and an avatar. -/
theorem Shown.setStage {stage : RegistrationStage} (hdev : dev.Shown)
    (hstage : ∀ user, stage = .saving user → user.Shown) : (dev.setStage k r stage).Shown := by
  refine ⟨hdev.localUser, fun r' hr' user huser => ?_⟩
  rcases List.mem_or_eq_of_mem_set hr' with hold | rfl
  · exact hdev.saving r' hold user huser
  · exact hstage user huser

/-- The local user that is assigned has a name and an avatar. -/
theorem Shown.assigned (hdev : dev.Shown) (huser : user.Shown) : (dev.assigned user).Shown := by
  refine ⟨fun user' huser' => ?_, hdev.saving⟩
  obtain rfl := Option.some.inj huser'
  exact huser

/-- **A step of a device** keeps names and images, and saves users that have both. -/
theorem Shown.step (hdev : dev.Shown) (h : dev.Handles e dev' documents)
    (hloaded : ∀ user draw, e = .userLoaded (some user) draw → user.Shown) :
    dev'.Shown ∧ ∀ document ∈ documents, document.Shown := by
  have hsaves {id : String} {user : User} (huser : user.Shown) :
      ∀ document ∈ [(⟨id, user.encode⟩ : UserDocument)], document.Shown := by
    simpa using UserDocument.shown_encode huser
  have hsavesTwice {id : String} {user : User} (huser : user.Shown) :
      ∀ document ∈ [(⟨id, user.encode⟩ : UserDocument), ⟨id, user.encode⟩],
        document.Shown := by
    simpa using UserDocument.shown_encode huser
  cases h with
  | launched => exact ⟨⟨by simp [Device.launched], by simp [Device.launched]⟩, by simp⟩
  | @loaded user id draw _ _ =>
      have huser := (hloaded user draw rfl).setRandomImage draw
      have hassigned := hdev.assigned huser
      exact ⟨⟨hassigned.localUser, hassigned.saving⟩, hsaves huser⟩
  | signedOut _ => exact ⟨⟨hdev.localUser, hdev.saving⟩, by simp⟩
  | continued _ =>
      refine ⟨⟨hdev.localUser, fun r hr user huser => ?_⟩, by simp⟩
      rcases List.mem_append.mp hr with hold | hnew
      · exact hdev.saving r hold user huser
      · obtain rfl := List.mem_singleton.mp hnew
        exact absurd huser (by simp)
  | @checked k r exist _ _ =>
      exact ⟨hdev.setStage (by cases exist <;> simp), by simp⟩
  | signInFailed _ _ => exact ⟨hdev.setStage (by simp), by simp⟩
  | @signedIn k r anonymous uid draw _ _ _ =>
      have huser := User.shown_createUser uid r.username draw
      have hdev' : Shown { dev with uid := some uid } := ⟨hdev.localUser, hdev.saving⟩
      refine ⟨hdev'.setStage fun user hsaving => ?_, hsaves huser⟩
      obtain rfl := RegistrationStage.saving.inj hsaving
      exact huser
  | @saved k r user id draw hr hstage _ =>
      have huser := (hdev.saving r (List.mem_of_getElem? hr) user hstage).setRandomImage draw
      exact ⟨(hdev.assigned huser).setStage (by simp), hsaves huser⟩
  | tokenFailed _ => exact ⟨⟨hdev.localUser, hdev.saving⟩, by simp⟩
  | @tokenFetched token id user user' draw _ hlocal _ heq =>
      obtain rfl := heq
      have huser := (hdev.localUser user hlocal).withToken token draw
      have hanswered : dev.answered.Shown := ⟨hdev.localUser, hdev.saving⟩
      exact ⟨hanswered.assigned huser, hsavesTwice huser⟩
  | tokenIgnored _ => exact ⟨hdev, by simp⟩
  | @registrationToken fcmToken id user user' draw hlocal _ heq =>
      obtain rfl := heq
      have huser := (hdev.localUser user hlocal).withToken fcmToken draw
      exact ⟨hdev.assigned huser, hsavesTwice huser⟩

end Device

namespace Accounts

variable {s s' : Accounts} {e : AccountEvent}

/-- **The invariant**: local users and saves have names and images. -/
structure Shown (s : Accounts) : Prop where
  devices : ∀ dev ∈ s.devices, dev.Shown
  saves : ∀ d, ∀ document ∈ s.users.issuedBy d, document.Shown

/-- There are no users at first. -/
theorem shown_init : init.Shown where
  devices := by simp [init]
  saves := by simp [init]

/-- A query by id finds a user with a name and an image. -/
theorem Shown.of_getUserWith (hs : s.Shown) {d : ℕ} {id : String} {user : User}
    (h : getUserWith (s.usersSeenBy d) id = some user) : user.Shown := by
  obtain ⟨document, hmem, -, rfl⟩ := getUserWith_eq_some h
  obtain ⟨d', hsaved⟩ := exists_saved_of_seen hmem
  exact hs.saves d' document hsaved

/-- A user that the collection answers with has a name and an avatar. -/
theorem Shown.of_answer (hs : s.Shown) {d : ℕ} {dev : Device} {e : DeviceEvent}
    (h : s.Answers d dev e) : ∀ user draw, e = .userLoaded (some user) draw → user.Shown := by
  rintro user draw rfl
  obtain ⟨uid, -, hanswer⟩ := Option.map_eq_some_iff.mp h
  exact hs.of_getUserWith hanswer

/-- No step of the accounts makes a user without a name or an avatar. -/
theorem Shown.step (hs : s.Shown) (h : Step s e s') : s'.Shown := by
  cases h with
  | installed =>
      refine ⟨fun dev hdev => ?_, hs.saves⟩
      rcases List.mem_append.mp hdev with hold | hnew
      · exact hs.devices dev hold
      · obtain rfl := List.mem_singleton.mp hnew
        exact ⟨by simp [Device.new], by simp [Device.new]⟩
  | @handled d de dev dev' documents hdev hanswers hhandles =>
      obtain ⟨hdev', hdocuments⟩ :=
        (hs.devices dev (List.mem_of_getElem? hdev)).step hhandles (hs.of_answer hanswers)
      refine ⟨fun other hother => ?_, fun j document hissued => ?_⟩
      · rcases List.mem_or_eq_of_mem_set hother with hold | rfl
        · exact hs.devices other hold
        · exact hdev'
      · rw [after, WriteLog.issuedBy_issue] at hissued
        rcases List.mem_append.mp hissued with hold | hnew
        · exact hs.saves j document hold
        · split at hnew
          · exact hdocuments document hnew
          · exact absurd hnew List.not_mem_nil
  | committed hcommit =>
      refine { hs with saves := fun d document hissued => ?_ }
      rw [WriteLog.issuedBy_commit hcommit] at hissued
      exact hs.saves d document hissued
  | rejected hreject =>
      refine { hs with saves := fun d document hissued => ?_ }
      exact hs.saves d document (WriteLog.mem_issuedBy_reject hreject hissued)

/-- **Every user has a name and an image**, on every device and in every save. -/
theorem shown_of_run {es : List AccountEvent} (h : Run step init es s) : s.Shown :=
  h.invariant shown_init fun _ _ _ hs _ hstep => hs.step (step_of_step_eq hstep)

end Accounts

/-! ### The winner of a copy -/

/-- What a results screen shows of the two players: a win of one of them, with the winner's
image, or a draw with the images of both. -/
inductive Pairing.ShownAs (P : Pairing) : ResultInfo → Prop
  | wins {p : Player} {winnerPlayer looserPlayer winnerImage : String} :
      (P.user p).username = some winnerPlayer →
      (P.user p.other).username = some looserPlayer →
      (P.user p).avatarImage = some winnerImage →
      P.ShownAs (.wins winnerPlayer looserPlayer winnerImage)
  | draw {imageOne imageTwo : String} :
      (P.user .acceptor).avatarImage = some imageOne →
      (P.user .requester).avatarImage = some imageTwo →
      P.ShownAs (.draw imageOne imageTwo)

/-- A copy whose winner, if there is one, looks like one of the two players. -/
structure Pairing.LooksRight (P : Pairing) (g : Game) : Prop where
  copy : P.Copy g
  winner : ∀ w, g.winner = some w → ∃ p, w.Looks (P.user p)

namespace Session

variable {P : Pairing} {s : Session} {g : Game}

/-- The users in a copy look like the users of the pairing, whatever is written of them. -/
theorem editClosed_looksRight (hP : ∀ p, (P.user p).Shown) : EditClosed P.LooksRight where
  merge := by
    intro d g hd hg
    refine ⟨hd.copy.merge hg.copy, fun w hw => ?_⟩
    cases hwritten : g.winner with
    | none =>
        rw [Game.merge_winner_of_none hwritten] at hw
        exact hd.winner w hw
    | some new =>
        obtain ⟨p, hnew⟩ := hg.winner new hwritten
        refine ⟨p, ?_⟩
        rw [Game.merge, hwritten] at hw
        cases hstored : d.winner with
        | none =>
            obtain rfl : new = w := by simpa [hstored, Game.mergeWinner] using hw
            exact hnew
        | some old =>
            obtain rfl : old.merge new = w := by simpa [hstored, Game.mergeWinner] using hw
            exact hnew.merge (by simp [P.user_id]) (hP p)
  state := fun _ st hg => ⟨hg.copy.withState st, hg.winner⟩
  noWinner := fun _ hg => ⟨hg.copy.withoutWinner, by simp⟩
  winner := by
    intro g captured hg hcaptured userId
    refine ⟨editClosed_copy.winner g captured hg.copy hcaptured.copy userId, fun w hw => ?_⟩
    have hmem : w ∈ P.players := by
      rw [← hcaptured.copy.players_eq]
      exact List.mem_of_mem_filter (List.mem_of_head? hw)
    rcases List.mem_pair.mp hmem with rfl | rfl
    · exact ⟨.acceptor, User.Looks.refl _⟩
    · exact ⟨.requester, User.Looks.refl _⟩

/-- **The winner of every copy looks like one of the two players.** -/
theorem looks_of_run {es : List Event} (h : Run (step P) (init P) es s)
    (hP : ∀ p, (P.user p).Shown) : ∀ g, s.Holds g → P.LooksRight g := by
  refine h.invariant (I := fun s => ∀ g, s.Holds g → P.LooksRight g) ?_ ?_
  · intro g hg
    rw [eq_createdGame_of_holds_init hg]
    exact ⟨Pairing.copy_createdGame, by simp [Pairing.createdGame, Game.new]⟩
  · intro t e t' ht _ hstep
    exact (step_of_step_eq hstep).holds (editClosed_looksRight hP) (fun _ hg => hg)
      ⟨Pairing.copy_createdGame, by simp [Pairing.createdGame, Game.new]⟩
      (fun _ m sc _ _ _ _ _ hg => ⟨hg.copy.setMove sc.owner m, hg.winner⟩) ht

/-- Every presented game is there. -/
theorem presented_of_run {es : List Event} (h : Run (step P) (init P) es s) :
    ∀ sc ∈ s.screens, ∀ r ∈ sc.controller.results, r.isSome := by
  refine h.invariant_events (I := fun _ s => ∀ sc ∈ s.screens,
    ∀ r ∈ sc.controller.results, r.isSome) (by simp [init]) ?_
  intro es t e t' hrun ht _ hstep sc' hsc' r hr
  obtain ⟨place, hplace⟩ := List.getElem?_of_mem hsc'
  rcases (step_of_step_eq hstep).screens hplace with ⟨sc, hsc, hturns⟩ | ⟨-, p, game, -, rfl⟩
  · have hmem := List.mem_of_getElem? hsc
    cases hturns with
    | stays => exact ht _ hmem r hr
    | receives _ => exact ht _ hmem r hr
    | handles hhandles =>
        rcases hhandles.results hr with hold | ⟨rfl, -⟩
        · exact ht _ hmem r hold
        · exact games_of_run hrun _ hmem
  · exact absurd hr (by simp [GameViewController.viewDidLoad])

end Session

/-- **The results screen shows the two players** of a copy whose winner is one of them. -/
theorem Pairing.LooksRight.exists_shownAs {P : Pairing} {g : Game} (hg : P.LooksRight g)
    (hP : ∀ p, (P.user p).Shown) :
    ∃ info, showWinnerLooserInfo (some g) = some info ∧ P.ShownAs info := by
  have hname p := Option.isSome_iff_exists.mp (hP p).username
  have himage p := Option.isSome_iff_exists.mp (hP p).avatarImage
  cases hwinner : g.winner with
  | none =>
      obtain ⟨imageOne, hone⟩ := himage .acceptor
      obtain ⟨imageTwo, htwo⟩ := himage .requester
      refine ⟨_, ?_, ShownAs.draw hone htwo⟩
      simp [showWinnerLooserInfo, hwinner, hg.copy.players_eq, Pairing.players, hone, htwo]
  | some w =>
      obtain ⟨p, hw⟩ := hg.winner w hwinner
      obtain ⟨winnerPlayer, hwinnerPlayer⟩ := hname p
      obtain ⟨looserPlayer, hlooserPlayer⟩ := hname p.other
      obtain ⟨winnerImage, hwinnerImage⟩ := himage p
      refine ⟨_, ?_, ShownAs.wins hwinnerPlayer hlooserPlayer hwinnerImage⟩
      have hlooser : (g.players.filter fun user => user.id ≠ w.id).head? =
          some (P.user p.other) := by
        rw [hw.id, P.user_id]
        exact hg.copy.opponentUser p
      simp only [showWinnerLooserInfo, Option.bind_some, hwinner, hw.avatarImage, hw.username,
        hwinnerImage, hwinnerPlayer, hlooser, hlooserPlayer, Option.map_some]

/-! ### The whole program -/

/-- The pairing of an accept is of the two users it has read. -/
theorem user_of_pairing? {documentID : String} {now : TimeInterval} {localUser user : User}
    {pairing : Pairing} (h : pairing? documentID now localUser user = some pairing) :
    pairing.user .acceptor = localUser ∧ pairing.user .requester = user := by
  unfold pairing? at h
  split at h
  · split at h
    · obtain rfl := Option.some.inj h
      exact ⟨rfl, rfl⟩
    · exact absurd h (by simp)
  · exact absurd h (by simp)

namespace App

variable {s s' : App} {e : AppEvent}

/-- **The invariant**: the users in the accounts, those that accepts have read and those of
the games have names and images. -/
structure Shown (s : App) : Prop where
  accounts : s.accounts.Shown
  localUsers : ∀ j user, s.localUsers j = some user → user.Shown
  games : ∀ g ∈ s.lobby.games, ∀ p, (g.pairing.user p).Shown

/-- No user has been read at first. -/
theorem shown_init : init.Shown where
  accounts := Accounts.shown_init
  localUsers := by simp [init]
  games := by simp [init, Lobby.init]

/-- The local user of a client has a name and an avatar. -/
theorem Shown.of_localUser (hs : s.Shown) {userId : String} {user : User}
    (h : s.localUser userId = some user) : user.Shown := by
  obtain ⟨d, -, h⟩ := Option.bind_eq_some_iff.mp h
  obtain ⟨dev, hdev, hlocal⟩ := Option.bind_eq_some_iff.mp h
  exact (hs.accounts.devices dev (List.mem_of_getElem? hdev)).localUser user hlocal

/-- A user that a client fetches has a name and an avatar. -/
theorem Shown.of_getUserWith (hs : s.Shown) {userId id : String} {user : User}
    (h : s.getUserWith userId id = some user) : user.Shown := by
  obtain ⟨d, -, h⟩ := Option.bind_eq_some_iff.mp h
  exact hs.accounts.of_getUserWith h

/-- What an accept reads of the local user has a name and an avatar. -/
theorem Shown.reads (hs : s.Shown) (j : ℕ) (accept : Accept) :
    (s.readLocalUser j accept).Shown := by
  refine ⟨hs.accounts, fun i user huser => ?_, hs.games⟩
  simp only [readLocalUser] at huser
  by_cases hi : i = j
  · subst hi
    rw [Function.update_self] at huser
    exact hs.of_localUser huser
  · rw [Function.update_of_ne hi] at huser
    exact hs.localUsers i user huser

/-- An event of the lobby keeps the users of the games, and a game it creates has those of
the pairing. -/
theorem Shown.inLobby (hs : s.Shown) {le : LobbyEvent} (h : s.inLobby le = some s')
    (hpairing : ∀ j pairing, le = .userFetched j (some pairing) →
      ∀ p, (pairing.user p).Shown) : s'.Shown := by
  obtain ⟨lobby, hstep, rfl⟩ := inLobby_eq_some h
  refine ⟨hs.accounts, hs.localUsers, fun g' hg' => ?_⟩
  obtain ⟨place, hplace⟩ := List.getElem?_of_mem hg'
  rcases (Lobby.step_of_step_eq hstep).games hplace with
    ⟨g, hg, hadvances⟩ | ⟨j, -, -, pairing, rfl, -, -, -, -, -, -, rfl⟩
  · rw [hadvances.pairing]
    exact hs.games g (List.mem_of_getElem? hg)
  · exact hpairing j pairing rfl

/-- No step of the application lets a user lose the name or the avatar. -/
theorem Shown.step (hs : s.Shown) (h : s.step e = some s') : s'.Shown := by
  obtain ⟨result, hhandle, h⟩ := Option.bind_eq_some_iff.mp h
  obtain rfl := Accounts.toOption_eq_some_iff.mp h
  have hlobby {t : App} {le : LobbyEvent}
      (h : (t.inLobby le).map Except.ok = some (Except.ok s' : Except ForcedUnwrap App)) :
      t.inLobby le = some s' := by
    obtain ⟨t', ht', heq⟩ := Option.map_eq_some_iff.mp h
    rw [ht', Except.ok.inj heq]
  cases e with
  | account e =>
      obtain ⟨result, hresult, heq⟩ := Option.map_eq_some_iff.mp hhandle
      obtain ⟨accounts, rfl, rfl⟩ := map_eq_ok_iff.mp heq
      have hstep : s.accounts.step e = some accounts := by
        rw [Accounts.step, hresult]
        rfl
      exact { hs with accounts := hs.accounts.step (Accounts.step_of_step_eq hstep) }
  | lookedUp j error =>
      obtain ⟨accept, -, hhandle⟩ := Option.bind_eq_some_iff.mp hhandle
      exact (hs.reads j accept).inLobby (hlobby hhandle) (by simp)
  | userFetched j error documentID now =>
      obtain ⟨accept, -, hhandle⟩ := Option.bind_eq_some_iff.mp hhandle
      obtain ⟨localUser, hlocal, hhandle⟩ := Option.bind_eq_some_iff.mp hhandle
      obtain ⟨request, -, hhandle⟩ := Option.bind_eq_some_iff.mp hhandle
      split at hhandle
      · exact hs.inLobby (hlobby hhandle) (by simp)
      · next user hfetched =>
          have huser : user.Shown := by
            split at hfetched
            · exact absurd hfetched (by simp)
            · exact hs.of_getUserWith hfetched
          split at hhandle
          · exact absurd hhandle (by simp)
          · obtain ⟨pairing, hpairing, hhandle⟩ := Option.bind_eq_some_iff.mp hhandle
            refine hs.inLobby (hlobby hhandle) ?_
            intro j' pairing' heq p
            obtain ⟨-, hsame⟩ := LobbyEvent.userFetched.inj heq
            obtain rfl := Option.some.inj hsame
            obtain ⟨hacceptor, hrequester⟩ := user_of_pairing? hpairing
            cases p with
            | acceptor => exact hacceptor ▸ hs.localUsers j localUser hlocal
            | requester => exact hrequester ▸ huser
  | lobby e =>
      simp only [handle] at hhandle
      split at hhandle
      · next hallows =>
          split at hhandle
          · exact absurd hhandle (by simp)
          · refine hs.inLobby (hlobby hhandle) ?_
            rintro j pairing rfl
            exact absurd hallows (by simp [allows])
      · exact absurd hhandle (by simp)

/-- **Every results screen shows the two players of its game**, on every client and in any
order of events: the winner's name and image with the other's name, or the two images. -/
theorem results_shown {es : List AppEvent} (h : Run step init es s) :
    ∀ g ∈ s.lobby.games, ∀ sc ∈ g.session.screens, ∀ r ∈ sc.controller.results,
      ∃ info, showWinnerLooserInfo r = some info ∧ g.pairing.ShownAs info := by
  have hshown : s.Shown := h.invariant shown_init fun _ _ _ hs _ hstep => hs.step hstep
  obtain ⟨es, hlobby⟩ := (sound_of_run h).lobby
  intro g hg sc hsc r hr
  obtain ⟨es', hrun⟩ := Lobby.session_of_run hlobby g hg
  have hP := hshown.games g hg
  obtain ⟨copy, rfl⟩ := Option.isSome_iff_exists.mp (Session.presented_of_run hrun sc hsc r hr)
  have hlooks : g.pairing.LooksRight copy :=
    Session.looks_of_run hrun hP copy (.screen hsc (.controller (.result hr)))
  exact hlooks.exists_shownAs hP

/-- After `registeringAndAccepting` the second user enters the game and exits, and the first
one's client presents the walkover. -/
def exitingAndPresenting : List AppEvent :=
  registeringAndAccepting ++
    [.lobby (.find 0 0 1), .lobby (.gameAccepted 0), .lobby (.game 0 (.commit .requester)),
      .lobby (.game 0 (.input 1 .exit)), .lobby (.game 0 (.commit .requester)),
      .lobby (.game 0 (.snapshot 0 3)), .lobby (.game 0 (.input 0 .deliver)),
      .lobby (.game 0 (.input 0 (.fire 0 true)))]

/-- The results screen of `exitingAndPresenting` shows the two players. -/
theorem results_shown_exitingAndPresenting : ∃ s, Run step init exitingAndPresenting s ∧
    ∃ g ∈ s.lobby.games, ∃ sc ∈ g.session.screens, ∃ r ∈ sc.controller.results,
      ∃ info, showWinnerLooserInfo r = some info ∧ g.pairing.ShownAs info := by
  have hrun : Run step init exitingAndPresenting
      ((exec step init exitingAndPresenting).get (by decide)) := runWhere_get _
  have hpresented : ∃ g ∈ ((exec step init exitingAndPresenting).get (by decide)).lobby.games,
      ∃ sc ∈ g.session.screens, ∃ r, r ∈ sc.controller.results :=
    ⟨_, List.mem_cons_self, _, List.mem_cons_self, _, List.mem_cons_self⟩
  obtain ⟨g, hg, sc, hsc, r, hr⟩ := hpresented
  exact ⟨_, hrun, g, hg, sc, hsc, r, hr, results_shown hrun g hg sc hsc r hr⟩

end App

end RockPaperScissors
