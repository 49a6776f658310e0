import RockPaperScissors.MatchRefinement
import RockPaperScissors.Progress

/-!
# A Game Ends by Itself

Nobody has to do anything for a game to end once both players have picked, if no stale entry
is written and each client has a game screen up on which no kick of the opponent's hand was
interrupted: the backend commits what waits, the listeners deliver what is new to them, and
the closures fire. None of this can come to a halt on the way, whatever waits in the queues
already: snapshots that are out of date, the closures they leave, and writes that repeat or
contradict each other.

A listener is told of a document only when it has changed. Here it is told when the moves or
the state are not those of the local copy (`Screen.News`). The copy has those of the last
snapshot or those the screen has written since (`Handles.copy_cases`), so the document has
changed for the client after that. When there are no news and both moves are stored, the copy
is decided and the screen on its way to the results already; an interrupted kick is the one
way to fall off it.

A screen that has been dismissed may be gone, so nothing here relies on one.

## Main results

* `Handles.copy_cases`: where the moves and the state of a local copy come from.
* `Ripe.deliver`, `Ripe.fire`: as long as both moves are stored, what waits finishes the game.
* `exists_atRest`, `exists_delivered`, `exists_decided`, `exists_results`: what the backend, a
  listener and a main queue can do without anybody.
* `ends_unattended`: the game is finished and both clients come to the results, in the end.
-/

open TransitionSystem

namespace RockPaperScissors

/-- Neither move of the game is missing. -/
def Pairing.BothMoves (P : Pairing) (g : Game) : Prop :=
  ∀ p, g.moves (P.userId p) ≠ some .idle

/-- A copy with both moves is one that `checkForWinner` decides. -/
theorem Pairing.Copy.verdict_ne_waiting_iff {P : Pairing} {g : Game} (h : P.Copy g)
    (p : Player) : g.verdict (P.userId p) ≠ .waiting ↔ P.BothMoves g := by
  rw [h.verdict]
  constructor
  · intro hverdict q
    obtain ⟨m, o, hm, ho, hmi, hoi, -⟩ := Verdict.ofMoves_cases hverdict
    rcases p.eq_or_eq_other q with rfl | rfl
    · simpa [hm] using hmi
    · simpa [ho] using hoi
  · intro hmoves
    obtain ⟨m, hm⟩ := h.exists_move p
    obtain ⟨o, ho⟩ := h.exists_move p.other
    have hmi : m ≠ .idle := fun hidle => hmoves p (hidle ▸ hm)
    have hoi : o ≠ .idle := fun hidle => hmoves p.other (hidle ▸ ho)
    rw [hm, ho, Verdict.ofMoves_some hmi hoi]
    split
    · simp
    · split <;> simp

/-- The write finishes the game, and takes back no move. -/
def GameWrite.Final (P : Pairing) (w : GameWrite) : Prop :=
  w.state = .finished ∧ ∀ g, w.game? = some g → P.BothMoves g

/-- A final write on a document with both moves leaves one that is finished. -/
theorem GameWrite.Final.apply {P : Pairing} {w : GameWrite} {d : Game} (hw : w.Final P)
    (hcopy : ∀ g, w.game? = some g → P.Copy g) (hd : P.BothMoves d) :
    ∃ d', w.apply (some d) = some d' ∧ P.BothMoves d' ∧ d'.state = .finished := by
  have hsome : (w.apply (some d)).isSome := isSome_apply rfl w
  obtain ⟨d', hd'⟩ := Option.isSome_iff_exists.mp hsome
  refine ⟨d', hd', fun p hidle => ?_, (state_of_apply hd').trans hw.1⟩
  cases hgame : w.game? with
  | some g =>
      obtain ⟨m, hm⟩ := (hcopy g hgame).exists_move p
      obtain ⟨d'', hd'', hmoves⟩ := moves_apply hgame hm (some d)
      obtain rfl := Option.some.inj (hd'.symm.trans hd'')
      exact hw.2 g hgame p (hm.trans (hmoves.symm.trans hidle))
  | none =>
      obtain ⟨d'', hd'', hmoves⟩ := moves_apply_of_game?_eq_none hgame d
      obtain rfl := Option.some.inj (hd'.symm.trans hd'')
      exact hd p (hmoves ▸ hidle)

/-! ### What a screen writes -/

namespace GameViewController

variable {vc vc' : GameViewController} {localUserId : String} {game : Game}
  {writes : List GameWrite}

/-- A client that has not lost writes, when it decides. -/
theorem Checked.writes_ne_nil (h : vc.Checked localUserId game vc' writes)
    (hverdict : (game.verdict localUserId).finishes = true) : writes ≠ [] := by
  cases h with
  | waiting hwaiting => exact absurd hverdict (by simp [hwaiting, Verdict.finishes])
  | lost hlost => exact absurd hverdict (by simp [hlost, Verdict.finishes])
  | won _ _ | drawn _ _ => exact List.cons_ne_nil _ _

/-- **A client that has not lost writes that the game is finished**, when it sees it. -/
theorem Updated.writes_ne_nil (h : vc.Updated localUserId game vc' writes)
    (hverdict : (game.verdict localUserId).finishes = true) : writes ≠ [] := by
  cases h with
  | plain hcheck _ => exact hcheck.writes_ne_nil hverdict
  | walkover hcheck _ _ => exact hcheck.writes_ne_nil hverdict

end GameViewController

namespace Screen

variable {P : Pairing} {sc sc' : Screen} {i : Input} {writes : List GameWrite} {w : GameWrite}
  {localUserId : String} {game : Game} {place : ℕ} {finished : Bool}

/-- What `updateGame` writes of a copy is final. -/
theorem final_of_updated {vc vc' : GameViewController} {p : Player}
    (h : vc.Updated (P.userId p) game vc' writes) (hcopy : P.Copy game) (hw : w ∈ writes) :
    w.Final P := by
  rcases h.writes_cases with rfl | ⟨hfinishes, rfl⟩
  · exact absurd hw (by simp)
  · obtain rfl := List.mem_singleton.mp hw
    refine ⟨rfl, fun g hg => ?_⟩
    obtain rfl := Option.some.inj hg
    refine (hcopy.verdict_ne_waiting_iff p).mp fun hwaiting => ?_
    exact absurd hfinishes (by simp [hwaiting, Verdict.finishes])

/-- What a closure writes is final, when the local copy has both moves. -/
theorem final_of_fire (h : sc.Handles localUserId (.fire place finished) sc' writes)
    (hgame : ∀ g, sc.controller.game = some g → P.BothMoves g) (hw : w ∈ writes) :
    w.Final P := by
  have hdecided : ∀ copy g, sc.controller.game = some copy → g.state = .finished →
      g.moves = copy.moves → GameWrite.Final P (.decided g) := by
    intro copy g hcopy hstate hmoves
    refine ⟨hstate, fun g' hg' p => ?_⟩
    obtain rfl := Option.some.inj hg'
    rw [hmoves]
    exact hgame copy hcopy p
  cases h with
  | animatedMoves _ hcheck =>
      rcases hcheck.writes_cases with rfl | ⟨-, copy, hcopy, rfl⟩
      · exact absurd hw (by simp)
      · obtain rfl := List.mem_singleton.mp hw
        exact hdecided copy _ hcopy rfl rfl
  | declaredWinner _ hcopy =>
      obtain rfl := List.mem_singleton.mp hw
      exact hdecided _ _ hcopy rfl rfl
  | interrupted _ | kicked _ | wasKicked _ _ | wasKickedAlone _ _ | continuedToResults _ =>
      exact absurd hw (by simp)

/-- No input changes what the listener has received. -/
theorem Handles.seen (h : sc.Handles localUserId i sc' writes) : sc'.seen = sc.seen := by
  cases h <;> rfl

/-- **Where the moves and the state of a local copy come from**: a delivery, the copy before
the input, or a write that the input issues. -/
theorem Handles.copy_cases (h : sc.Handles localUserId i sc' writes) {g' : Game}
    (hg' : sc'.controller.game = some g') :
    i = .deliver ∨
      (∃ g, sc.controller.game = some g ∧ g'.moves = g.moves ∧ g'.state = g.state) ∨
      ∃ w ∈ writes, ∃ g, w.game? = some g ∧ g'.moves = g.moves ∧ g'.state = g.state := by
  cases h with
  | deliver _ _ => exact Or.inl rfl
  | @animatedMoves place game vc writes _ hcheck =>
      refine Or.inr ?_
      cases hcheck with
      | waiting _ | lost _ => exact Or.inl ⟨g', hg', rfl, rfl⟩
      | won _ _ | drawn _ _ =>
          obtain rfl := Option.some.inj hg'
          exact Or.inr ⟨_, List.mem_singleton.mpr rfl, _, rfl, rfl, rfl⟩
  | declaredWinner _ _ =>
      obtain rfl := Option.some.inj hg'
      exact Or.inr (Or.inr ⟨_, List.mem_singleton.mpr rfl, _, rfl, rfl, rfl⟩)
  | interrupted _ | kicked _ | wasKicked _ _ | wasKickedAlone _ _ | continuedToResults _
  | pick _ _ _ _ | pickNothing _ | exit _ _ | exitNothing _ _ | home =>
      exact Or.inr (Or.inl ⟨g', hg', rfl, rfl⟩)

/-- The document is new to the screen's listener: nothing waits for delivery, and its moves or
its state are not those of the local copy. -/
def News (P : Pairing) (sc : Screen) (game : Game) : Prop :=
  sc.inbox = [] ∧ ∀ g, sc.controller.game = some g →
    (∃ p, game.moves (P.userId p) ≠ g.moves (P.userId p)) ∨ game.state ≠ g.state

/-- A delivery and a closure leave the screen up. -/
theorem dismissed_of_handles (h : sc.Handles localUserId i sc' writes)
    (hi : i = .deliver ∨ ∃ k finished, i = .fire k finished) :
    sc'.controller.dismissed = sc.controller.dismissed := by
  rcases hi with rfl | ⟨k, finished, rfl⟩
  · cases h with
    | deliver _ hupdate => exact hupdate.dismissed
  · cases h with
    | animatedMoves _ hcheck => exact hcheck.dismissed
    | interrupted _ | kicked _ | wasKicked _ _ | wasKickedAlone _ _ | declaredWinner _ _
    | continuedToResults _ => rfl

/-- A snapshot that waits can be delivered. -/
theorem exists_handle_deliver {rest : List Game} (localUserId : String)
    (hinbox : sc.inbox = game :: rest) :
    ∃ vc writes, sc.handle localUserId .deliver =
      some ({ sc with controller := vc, inbox := rest }, writes) := by
  obtain ⟨⟨vc, writes⟩, hupdate⟩ := Option.isSome_iff_exists.mp
    (sc.controller.updateGame_isSome localUserId game)
  exact ⟨vc, writes, by simp [handle, hinbox, hupdate]⟩

end Screen

/-! ### What comes by itself -/

/-- The input comes without the user, and interrupts no animation. -/
def Input.unattended : Input → Bool
  | .deliver => true
  | .fire _ finished => finished
  | .pick _ => false
  | .exit => false
  | .home => false

namespace Session

/-- **The event needs nobody**: no user acts, no animation is interrupted, nothing happens on
a screen that has been dismissed, and a listener is told of news only. -/
def Unattended (P : Pairing) (s : Session) : Event → Prop
  | .commit _ => True
  | .snapshot place version => ∀ sc ∈ s.screens[place]?, sc.controller.dismissed = false ∧
      ∀ game ∈ s.view sc.owner version, sc.News P game
  | .input place i => i.unattended = true ∧
      ∀ sc ∈ s.screens[place]?, sc.controller.dismissed = false
  | .completeCreate => False
  | .find _ _ => False
  | .gameAccepted _ => False

/-- The second session can follow the first without anybody. -/
def ByItself (P : Pairing) (s t : Session) : Prop :=
  ∃ es, RunWhere (Session.step P) (Unattended P) s es t

/-- A screen of the client is up, and has a property. -/
def Up (s : Session) (p : Player) (Q : Screen → Prop) : Prop :=
  ∃ (place : ℕ) (sc : Screen), s.screens[place]? = some sc ∧ sc.owner = p ∧
    sc.controller.dismissed = false ∧ Q sc

/-- **Both moves are there**: in the stored document, and in what is written to it. -/
structure Ripe (P : Pairing) (s : Session) : Prop where
  reached : ∃ es, Run (Session.step P) (init P) es s
  stored : ∃ d, s.stored = some d ∧ P.BothMoves d
  waiting : ∀ p, ∀ w ∈ s.store.outbox p, w.Final P

/-- The stored game is finished, or a write waits. -/
def Closing (s : Session) : Prop :=
  (∃ d, s.stored = some d ∧ d.state = .finished) ∨ ∃ p, s.store.outbox p ≠ []

variable {P : Pairing} {s s' t u : Session} {e : Event} {p : Player} {place : ℕ}
  {sc sc' : Screen} {ws : List GameWrite} {g d : Game} {Q : Screen → Prop}

/-- A session can stay as it is. -/
theorem ByItself.refl (s : Session) : s.ByItself P s :=
  ⟨[], RunWhere.nil⟩

/-- What can follow can be followed. -/
theorem ByItself.trans (h : s.ByItself P t) (h' : t.ByItself P u) : s.ByItself P u := by
  obtain ⟨es, hes⟩ := h
  obtain ⟨es', hes'⟩ := h'
  exact ⟨es ++ es', hes.append hes'⟩

/-- One step needs nobody. -/
theorem ByItself.single (hC : s.Unattended P e) (h : s.step P e = some t) : s.ByItself P t :=
  ⟨[e], RunWhere.single hC h⟩

/-- The screens decide what is up. -/
theorem Up.of_screens (h : s.Up p Q) (hscreens : t.screens = s.screens) : t.Up p Q := by
  rwa [Up, hscreens]

/-- A screen of another client stays as it is. -/
theorem Up.of_set {q : Player} (h : s.Up q Q) (hq : q ≠ p) (hsc : s.screens[place]? = some sc)
    (howner : sc.owner = p) (hscreens : t.screens = s.screens.set place sc') : t.Up q Q := by
  obtain ⟨place', sc'', hsc'', howner', hup, hQ⟩ := h
  have hne : place' ≠ place := by
    rintro rfl
    obtain rfl := Option.some.inj (hsc.symm.trans hsc'')
    exact hq (howner'.symm.trans howner)
  refine ⟨place', sc'', ?_, howner', hup, hQ⟩
  rw [hscreens, getElem?_set_eq hsc, if_neg hne]
  exact hsc''

/-- The copies of a ripe session. -/
theorem Ripe.copy (hs : s.Ripe P) (hg : s.Holds g) : P.Copy g := by
  obtain ⟨es, hrun⟩ := hs.reached
  exact copy_of_run hrun g hg

/-- What is stored of the game is a copy of it. -/
theorem Ripe.copy_stored (hs : s.Ripe P) (hd : s.stored = some d) : P.Copy d := by
  obtain ⟨es, hrun⟩ := hs.reached
  exact stored_of_holds editClosed_copy (copy_of_run hrun) hd

/-- A ripe session is reachable, and so is what follows it. -/
theorem Ripe.reached_step (hs : s.Ripe P) (h : s.step P e = some t) :
    ∃ es, Run (Session.step P) (init P) es t := by
  obtain ⟨es, hrun⟩ := hs.reached
  exact ⟨es ++ [e], RunWhere.snoc hrun trivial h⟩

/-- **A commit keeps both moves**, and finishes the game. -/
theorem Ripe.commit (hs : s.Ripe P) (h : s.step P (.commit p) = some t) :
    t.Ripe P ∧ t.Closing := by
  cases step_of_step_eq h with
  | @commit _ store hcommit =>
      have hcommit' : s.store.commit p = some ({ s with store } : Session).store := hcommit
      obtain ⟨w, ws, hout, -, hstored⟩ := stored_commit hcommit'
      obtain ⟨d, hd, hmoves⟩ := hs.stored
      have hw : w ∈ s.store.outbox p := hout ▸ List.mem_cons_self
      have hissued := WriteLog.mem_issuedBy_of_mem_outbox hw
      obtain ⟨d', hd', hmoves', hfin⟩ :=
        (hs.waiting p w hw).apply (fun g hg => hs.copy (.write hissued hg)) hmoves
      rw [hd, hd'] at hstored
      exact ⟨⟨hs.reached_step h, ⟨d', hstored, hmoves'⟩,
        fun q v hv => hs.waiting q v (WriteLog.mem_outbox_commit hcommit hv)⟩,
        Or.inl ⟨d', hstored, hfin⟩⟩

/-- Final writes keep both moves. -/
theorem Ripe.issue (hs : s.Ripe P) (h : s.step P e = some t)
    (hstore : t.store = s.store.issue p ws) (hws : ∀ w ∈ ws, w.Final P) : t.Ripe P := by
  refine ⟨hs.reached_step h, ?_, fun q w hw => ?_⟩
  · rw [stored_issue hstore]
    exact hs.stored
  · rw [hstore] at hw
    rcases WriteLog.mem_outbox_issue hw with hold | ⟨-, hnew⟩
    · exact hs.waiting q w hold
    · exact hws w hnew

/-- A session that is closing goes on closing when something is written. -/
theorem Closing.issue (hs : s.Closing) (hstore : t.store = s.store.issue p ws) : t.Closing := by
  rcases hs with hfin | ⟨q, hq⟩
  · rw [← stored_issue hstore] at hfin
    exact Or.inl hfin
  · refine Or.inr ⟨q, fun hnil => hq ?_⟩
    rw [hstore] at hnil
    exact List.eq_nil_of_subset_nil (hnil ▸ WriteLog.outbox_subset_issue)

/-- A session that is closing is over when no write waits. -/
theorem Closing.finished (hs : s.Closing) (hrest : s.AtRest) :
    ∃ d, s.stored = some d ∧ d.state = .finished := by
  rcases hs with hfin | ⟨p, hp⟩
  · exact hfin
  · exact absurd (hrest p) hp

/-- A snapshot waits for its delivery. -/
theorem Ripe.snapshot {version : ℕ} (hs : s.Ripe P)
    (h : s.step P (.snapshot place version) = some t) : t.Ripe P := by
  have hstore : t.store = s.store.issue .acceptor [] := by
    cases step_of_step_eq h with
    | snapshot _ _ _ => exact WriteLog.issue_nil.symm
  exact hs.issue h hstore (by simp)

/-- **A delivery keeps both moves.** -/
theorem Ripe.deliver (hs : s.Ripe P) (hsc : s.screens[place]? = some sc)
    (hhandle : sc.handle (P.userId sc.owner) .deliver = some (sc', ws))
    (h : s.step P (.input place .deliver) = some t)
    (hstore : t.store = s.store.issue sc.owner ws) : t.Ripe P := by
  refine hs.issue h hstore fun w hw => ?_
  cases Screen.handles_of_handle hhandle with
  | deliver hinbox hupdate =>
      have hcopy : P.Copy _ := hs.copy (.screen (List.mem_of_getElem? hsc)
        (.inbox (hinbox ▸ List.mem_cons_self)))
      exact Screen.final_of_updated hupdate hcopy hw

/-- **A closure keeps both moves**, when the local copy has them. -/
theorem Ripe.fire {k : ℕ} {finished : Bool} (hs : s.Ripe P)
    (hmoves : ∀ g, sc.controller.game = some g → P.BothMoves g)
    (hhandle : sc.handle (P.userId sc.owner) (.fire k finished) = some (sc', ws))
    (h : s.step P (.input place (.fire k finished)) = some t)
    (hstore : t.store = s.store.issue sc.owner ws) : t.Ripe P :=
  hs.issue h hstore fun _ hw =>
    Screen.final_of_fire (Screen.handles_of_handle hhandle) hmoves hw

/-! ### Draining the queues -/

/-- **The backend commits what waits.** What commits keep holds when no write waits. -/
theorem exists_atRest {J : Session → Prop} (hs : J s)
    (hcommit : ∀ t p t', J t → t.step P (.commit p) = some t' → J t') :
    ∃ t, s.ByItself P t ∧ J t ∧ t.AtRest ∧ t.screens = s.screens := by
  obtain ⟨es, t, hrun, hJ, hscreens, hzero⟩ : ∃ es t,
      RunWhere (Session.step P) (Unattended P) s es t ∧ J t ∧ t.screens = s.screens ∧
        (t.store.outbox .acceptor).length + (t.store.outbox .requester).length = 0 := by
    refine exists_run_of_measure (I := fun n t => J t ∧ t.screens = s.screens ∧
      (t.store.outbox .acceptor).length + (t.store.outbox .requester).length = n)
      ⟨hs, rfl, rfl⟩ ?_
    rintro n t ⟨hJ, hscreens, hlength⟩
    obtain ⟨p, hp⟩ : ∃ p, t.store.outbox p ≠ [] := by
      by_contra hnone
      push Not at hnone
      simp [hnone] at hlength
    obtain ⟨w, ws, hout⟩ := List.exists_cons_of_ne_nil hp
    have hstep : t.step P (.commit p) = some { t with store :=
        ⟨t.store.log ++ [(p, w)], Function.update t.store.outbox p ws⟩ } := by
      rw [step, WriteLog.commit_eq_some_iff.mpr ⟨w, ws, hout, rfl⟩]
      rfl
    refine ⟨.commit p, _, n, trivial, hstep, le_rfl, hcommit t p _ hJ hstep, hscreens, ?_⟩
    cases p <;> simp only [hout, List.length_cons] at hlength <;> simp <;> omega
  refine ⟨t, ⟨es, hrun⟩, hJ, fun p => ?_, hscreens⟩
  refine List.eq_nil_of_length_eq_zero ?_
  cases p <;> omega

/-- What the client of `p` leaves, when it goes on from a ripe session. -/
structure GoesOn (P : Pairing) (p : Player) (s t : Session) : Prop where
  ripe : t.Ripe P
  closing : s.Closing → t.Closing
  other : ∀ q, q ≠ p → ∀ Q, s.Up q Q → t.Up q Q

/-- A ripe session that stays as it is. -/
theorem GoesOn.refl (hs : s.Ripe P) : GoesOn P p s s :=
  ⟨hs, id, fun _ _ _ h => h⟩

/-- An input on a screen of the client. -/
theorem GoesOn.input (hst : GoesOn P p s t) (hripe : u.Ripe P) (hsc : t.screens[place]? = some sc)
    (howner : sc.owner = p) (hstore : u.store = t.store.issue sc.owner ws)
    (hscreens : u.screens = t.screens.set place sc') : GoesOn P p s u where
  ripe := hripe
  closing := fun hs => (hst.closing hs).issue hstore
  other := fun q hq Q h => (hst.other q hq Q h).of_set hq hsc howner hscreens

/-- An input that a screen can handle is a step. -/
theorem step_input {i : Input} (hsc : s.screens[place]? = some sc)
    (hhandle : sc.handle (P.userId sc.owner) i = some (sc', ws)) :
    s.step P (.input place i) = some { s with
      store := s.store.issue sc.owner ws
      screens := s.screens.set place sc' } := by
  simp [step, hsc, hhandle]

/-- The screen that an input leaves is up. -/
theorem up_of_set (hsc : s.screens[place]? = some sc) (howner : sc'.owner = p)
    (hup : sc'.controller.dismissed = false) (hscreens : t.screens = s.screens.set place sc')
    (hQ : Q sc') : t.Up p Q := by
  refine ⟨place, sc', ?_, howner, hup, hQ⟩
  rw [hscreens, getElem?_set_eq hsc, if_pos rfl]

/-- The delivery of a snapshot that waits on a screen of the client. -/
theorem exists_delivery {rest : List Game} (hst : GoesOn P p s t)
    (hsc : t.screens[place]? = some sc) (howner : sc.owner = p)
    (hup : sc.controller.dismissed = false) (hinbox : sc.inbox = g :: rest) :
    ∃ u vc ws, t.Unattended P (.input place .deliver) ∧
      t.step P (.input place .deliver) = some u ∧ GoesOn P p s u ∧
      u.store = t.store.issue p ws ∧ sc.controller.Updated (P.userId p) g vc ws ∧
      u.screens[place]? = some { sc with controller := vc, inbox := rest } ∧
      vc.dismissed = false := by
  subst howner
  obtain ⟨vc, ws, hhandle⟩ := Screen.exists_handle_deliver (P.userId sc.owner) hinbox
  have hstep := step_input hsc hhandle
  have hhandles := Screen.handles_of_handle hhandle
  refine ⟨_, vc, ws, ⟨rfl, ?_⟩, hstep, ?_, rfl, ?_, ?_, ?_⟩
  · intro sc' hsc'
    obtain rfl := Option.some.inj (hsc.symm.trans hsc')
    exact hup
  · exact hst.input (hst.ripe.deliver hsc hhandle hstep rfl) hsc rfl rfl rfl
  · cases hhandles with
    | deliver hinbox' hupdate =>
        obtain ⟨rfl, -⟩ := List.cons.inj (hinbox.symm.trans hinbox')
        exact hupdate
  · rw [getElem?_set_eq hsc, if_pos rfl]
  · exact (Screen.dismissed_of_handles hhandles (Or.inl rfl)).trans hup

/-- **A listener delivers what waits**, and the screen stays on its way. -/
theorem exists_delivered (hs : s.Ripe P) (hup : s.Up p fun sc => sc.LeadsOn (P.userId p)) :
    ∃ t, s.ByItself P t ∧ GoesOn P p s t ∧
      t.Up p fun sc => sc.inbox = [] ∧ sc.LeadsOn (P.userId p) := by
  obtain ⟨place, sc, hsc, howner, hup, hleads⟩ := hup
  obtain ⟨es, t, hrun, hst, hinbox⟩ : ∃ es t, RunWhere (Session.step P) (Unattended P) s es t ∧
      GoesOn P p s t ∧ t.Up p fun sc => sc.inbox.length = 0 ∧ sc.LeadsOn (P.userId p) := by
    refine exists_run_of_measure (I := fun n t => GoesOn P p s t ∧
        t.Up p fun sc => sc.inbox.length = n ∧ sc.LeadsOn (P.userId p))
      ⟨GoesOn.refl hs, place, sc, hsc, howner, hup, rfl, hleads⟩ ?_
    rintro n t ⟨hst, place, sc, hsc, howner, hup, hlength, -⟩
    obtain ⟨game, rest, hinbox⟩ := List.exists_cons_of_length_eq_add_one hlength
    obtain ⟨u, vc, ws, hC, hstep, hsu, -, hupdate, hsc', hup'⟩ :=
      exists_delivery hst hsc howner hup hinbox
    refine ⟨.input place .deliver, u, n, hC, hstep, le_rfl, hsu, place, _, hsc', howner, hup', ?_,
      Screen.LeadsOn.delivered hupdate⟩
    rw [hinbox] at hlength
    exact Nat.succ.inj hlength
  obtain ⟨place, sc, hsc, howner, hup, hlength, hleads⟩ := hinbox
  exact ⟨t, ⟨es, hrun⟩, hst, place, sc, hsc, howner, hup,
    List.eq_nil_of_length_eq_zero hlength, hleads⟩

/-- The version a screen has received is one that exists. -/
theorem seen_of_run {es : List Event} (h : Run (Session.step P) (init P) es s) :
    ∀ sc ∈ s.screens, sc.seen ≤ s.store.log.length := by
  refine h.invariant (I := fun s => ∀ sc ∈ s.screens, sc.seen ≤ s.store.log.length)
    (by simp [init]) ?_
  intro t e t' ht _ hstep sc hsc
  cases step_of_step_eq hstep with
  | commit hcommit =>
      obtain ⟨w, ws, -, rfl⟩ := WriteLog.commit_eq_some_iff.mp hcommit
      have hseen := ht sc hsc
      rw [List.length_append]
      omega
  | completeCreate _ _ | gameAccepted _ =>
      rw [performSegue_store]
      rcases mem_performSegue hsc with hold | ⟨-, rfl⟩
      · exact ht sc hold
      · exact Nat.zero_le _
  | find _ _ _ => exact ht sc hsc
  | snapshot hold hsee _ =>
      rcases List.mem_or_eq_of_mem_set hsc with hmem | rfl
      · exact ht sc hmem
      · exact hsee.2
  | input hold hhandle =>
      rcases List.mem_or_eq_of_mem_set hsc with hmem | rfl
      · exact ht sc hmem
      · rw [(Screen.handles_of_handle hhandle).seen]
        exact ht _ (List.mem_of_getElem? hold)

/-- Everybody sees the stored game when no write waits. -/
theorem view_of_rest (hrest : s.AtRest) (p : Player) :
    s.view p s.store.log.length = s.stored := by
  rw [view, WriteLog.view_length, hrest p]
  rfl

/-- A screen without news of a stored game that has both moves is decided, and has finished the
game unless it has lost. -/
theorem decided_of_not_news (hs : s.Ripe P) (hd : s.stored = some d) (hsc : sc ∈ s.screens)
    (hinbox : sc.inbox = []) (hleads : sc.LeadsOn (P.userId sc.owner)) (hnews : ¬ sc.News P d) :
    sc.Decided (P.userId sc.owner) ∧
      ((d.verdict (P.userId sc.owner)).finishes = true → d.state = .finished) := by
  obtain ⟨es, hrun⟩ := hs.reached
  obtain ⟨d', hd', hmoves⟩ := hs.stored
  obtain rfl := Option.some.inj (hd.symm.trans hd')
  obtain ⟨g, hg, hsame, hstate⟩ : ∃ g, sc.controller.game = some g ∧
      (∀ p, d.moves (P.userId p) = g.moves (P.userId p)) ∧ d.state = g.state := by
    by_contra hnone
    refine hnews ⟨hinbox, fun g hg => ?_⟩
    by_contra hboth
    push Not at hboth
    exact hnone ⟨g, hg, hboth.1, hboth.2⟩
  have hcopy : P.Copy g := hs.copy (.screen hsc (.controller (.localCopy hg)))
  have hverdict : g.verdict (P.userId sc.owner) = d.verdict (P.userId sc.owner) := by
    rw [hcopy.verdict, (hs.copy_stored hd).verdict, hsame, hsame]
  refine ⟨⟨⟨g, hg, ?_⟩, hleads⟩, fun hfinishes => ?_⟩
  · rw [hverdict]
    exact ((hs.copy_stored hd).verdict_ne_waiting_iff sc.owner).mpr hmoves
  · rw [hstate]
    exact finishes_of_run hrun sc hsc g hg (hverdict ▸ hfinishes)

/-- **A listener delivers the stored game**, which has both moves, if it is new to it. -/
theorem exists_decided (hs : s.Ripe P) (hrest : s.AtRest) (hd : s.stored = some d)
    (hup : s.Up p fun sc => sc.inbox = [] ∧ sc.LeadsOn (P.userId p)) :
    ∃ t, s.ByItself P t ∧ GoesOn P p s t ∧ (t.Up p fun sc => sc.Decided (P.userId p)) ∧
      ((d.verdict (P.userId p)).finishes = true → t.Closing) := by
  obtain ⟨place, sc, hsc, rfl, hup, hinbox, hleads⟩ := hup
  by_cases hnews : sc.News P d
  swap
  · obtain ⟨hdecided, hfinished⟩ :=
      decided_of_not_news hs hd (List.mem_of_getElem? hsc) hinbox hleads hnews
    exact ⟨s, ByItself.refl s, GoesOn.refl hs, ⟨place, sc, hsc, rfl, hup, hdecided⟩,
      fun hfinishes => Or.inl ⟨d, hd, hfinished hfinishes⟩⟩
  obtain ⟨es, hrun⟩ := hs.reached
  have hseen := seen_of_run hrun sc (List.mem_of_getElem? hsc)
  have hview : s.view sc.owner s.store.log.length = some d := (view_of_rest hrest _).trans hd
  have hsnapshot : s.step P (.snapshot place s.store.log.length) = some { s with
      screens := s.screens.set place
        { sc with seen := s.store.log.length, inbox := [d] } } := by
    simp [step, hsc, canSee, hseen, hview, hinbox]
  have htold : s.Unattended P (.snapshot place s.store.log.length) := by
    intro sc' hsc'
    obtain rfl := Option.some.inj (hsc.symm.trans hsc')
    refine ⟨hup, fun game hgame => ?_⟩
    obtain rfl := Option.some.inj (hview.symm.trans hgame)
    exact hnews
  have hst : GoesOn P sc.owner s _ :=
    (GoesOn.refl hs).input (hs.snapshot hsnapshot) hsc rfl WriteLog.issue_nil.symm rfl
  have hsc' := getElem?_set_eq (a := { sc with seen := s.store.log.length, inbox := [d] })
    (j := place) hsc
  rw [if_pos rfl] at hsc'
  obtain ⟨u, vc, ws, hC, hdeliver, hsu, hstore, hupdate, hvc, hup'⟩ :=
    exists_delivery hst hsc' rfl hup rfl
  have hmoves : P.BothMoves d := by
    obtain ⟨d', hd', hmoves⟩ := hs.stored
    obtain rfl := Option.some.inj (hd.symm.trans hd')
    exact hmoves
  have hverdict := ((hs.copy_stored hd).verdict_ne_waiting_iff sc.owner).mpr hmoves
  refine ⟨u, (ByItself.single htold hsnapshot).trans (ByItself.single hC hdeliver), hsu,
    ⟨place, _, hvc, rfl, hup', Screen.Decided.delivered hupdate hverdict⟩, fun hfinishes => ?_⟩
  refine Or.inr ⟨sc.owner, ?_⟩
  rw [hstore, WriteLog.issue_outbox_self]
  exact List.append_ne_nil_of_right_ne_nil _ (hupdate.writes_ne_nil hfinishes)

/-- **A main queue drains**, and `present` has been called for the results by then. -/
theorem exists_results (hs : s.Ripe P) (hup : s.Up p fun sc => sc.Decided (P.userId p)) :
    ∃ t, s.ByItself P t ∧ GoesOn P p s t ∧ t.Up p fun sc => sc.controller.results ≠ [] := by
  obtain ⟨place, sc, hsc, howner, hup, hdecided⟩ := hup
  obtain ⟨es, t, hrun, hst, place, sc, hsc, howner, hup, hdecided, hwork⟩ :
      ∃ es t, RunWhere (Session.step P) (Unattended P) s es t ∧ GoesOn P p s t ∧
        t.Up p fun sc => sc.Decided (P.userId p) ∧ sc.controller.work = 0 := by
    refine exists_run_of_measure (I := fun n t => GoesOn P p s t ∧
        t.Up p fun sc => sc.Decided (P.userId p) ∧ sc.controller.work = n)
      ⟨GoesOn.refl hs, place, sc, hsc, howner, hup, hdecided, rfl⟩ ?_
    rintro n t ⟨hst, place, sc, hsc, rfl, hup, hdecided, hwork⟩
    have hdelayed : sc.controller.delayed ≠ [] := by
      intro hnil
      simp [GameViewController.work, hnil] at hwork
    obtain ⟨sc', hfires⟩ := Option.isSome_iff_exists.mp (hdecided.fires hdelayed)
    have hcompletes : sc.KickCompletes (.fire 0 true) := trivial
    have hdecided' := hdecided.fireClosure hcompletes hfires
    obtain ⟨⟨sc', ws⟩, hhandle, rfl⟩ := Option.map_eq_some_iff.mp hfires
    have hlower := Screen.work_fire hhandle
    have hstep := step_input hsc hhandle
    have hhandles := Screen.handles_of_handle hhandle
    obtain ⟨copy, hcopy, hverdict⟩ := hdecided.copy
    have hmoves : ∀ g, sc.controller.game = some g → P.BothMoves g := by
      intro g hg
      obtain rfl := Option.some.inj (hcopy.symm.trans hg)
      have hP : P.Copy copy :=
        hst.ripe.copy (.screen (List.mem_of_getElem? hsc) (.controller (.localCopy hg)))
      exact (hP.verdict_ne_waiting_iff sc.owner).mp hverdict
    refine ⟨.input place (.fire 0 true), _, sc'.controller.work, ⟨rfl, ?_⟩, hstep, by omega,
      hst.input (hst.ripe.fire hmoves hhandle hstep rfl) hsc rfl rfl rfl, ?_⟩
    · intro sc'' hsc''
      obtain rfl := Option.some.inj (hsc.symm.trans hsc'')
      exact hup
    · exact up_of_set hsc hhandles.owner
        ((Screen.dismissed_of_handles hhandles (Or.inr ⟨0, true, rfl⟩)).trans hup) rfl
        ⟨hdecided', rfl⟩
  refine ⟨t, ⟨es, hrun⟩, hst, place, sc, hsc, howner, hup, ?_⟩
  have hdelayed : sc.controller.delayed = [] := by
    by_contra hne
    obtain ⟨sc', hfires⟩ := Option.isSome_iff_exists.mp (hdecided.fires hne)
    have hlower := Screen.work_fireClosure hfires
    omega
  rcases hdecided.leads with hresults | ⟨d, hd, -⟩
  · exact hresults
  · exact absurd hd (by simp [hdelayed])

/-! ### The end -/

/-- Commits keep a session ripe, and closing. -/
theorem Ripe.exists_atRest (hs : s.Ripe P) :
    ∃ t, s.ByItself P t ∧ t.Ripe P ∧ (s.Closing → t.Closing) ∧ t.AtRest ∧
      t.screens = s.screens := by
  obtain ⟨t, hst, ⟨hripe, hclosing⟩, hrest, hscreens⟩ :=
    Session.exists_atRest (P := P) (J := fun t => t.Ripe P ∧ (s.Closing → t.Closing))
      ⟨hs, id⟩ fun t p t' ht hstep => ⟨(ht.1.commit hstep).1, fun _ => (ht.1.commit hstep).2⟩
  exact ⟨t, hst, hripe, hclosing, hrest, hscreens⟩

/-- **Once both have picked both moves get stored**, in a run without stale entries. -/
theorem exists_ripe {es : List Event} (h : RunWhere (Session.step P) (Fresh P) (init P) es s)
    (hpicked : ∀ p, s.issuedPicks P p ≠ []) :
    ∃ t, s.ByItself P t ∧ t.Ripe P ∧ t.screens = s.screens := by
  have hkept : s.Kept P := h.invariant kept_init fun _ _ _ ht hC hstep =>
    ht.step hC (step_of_step_eq hstep)
  obtain ⟨t, hst, ⟨⟨es', hrun⟩, hkept, hpicks⟩, hrest, hscreens⟩ :=
    Session.exists_atRest (P := P) (J := fun t => (∃ es, Run (Session.step P) (init P) es t) ∧
      t.Kept P ∧ ∀ p, t.issuedPicks P p = s.issuedPicks P p) ⟨⟨es, h.toRun⟩, hkept, fun _ => rfl⟩
      (by
        rintro t p t' ⟨⟨es', hrun⟩, hkept, hpicks⟩ hstep
        have hrun' := RunWhere.snoc hrun trivial hstep
        cases step_of_step_eq hstep with
        | @commit _ store hcommit =>
            refine ⟨⟨_, hrun'⟩, hkept.commit hcommit, fun q => ?_⟩
            rw [← hpicks q, issuedPicks, issuedPicks, WriteLog.issuedBy_commit hcommit])
  have hmove : ∀ p, ∃ d m, t.stored = some d ∧ d.moves (P.userId p) = some m ∧ m ≠ .idle := by
    intro p
    have happlied : t.appliedPicks P p = s.issuedPicks P p := by
      rw [← hpicks p, appliedPicks, issuedPicks, WriteLog.issuedBy, hrest p, List.append_nil]
    obtain ⟨m, hm⟩ : ∃ m, (t.appliedPicks P p).getLast? = some m :=
      ⟨_, List.getLast?_eq_some_getLast (happlied ▸ hpicked p)⟩
    obtain ⟨d, hd, hdm⟩ := hkept.stored p m hm
    have hissued : m ∈ t.issuedPicks P p := by
      rw [hpicks p, ← happlied]
      exact List.mem_of_getLast? hm
    exact ⟨d, m, hd, hdm, ne_idle_of_issued hrun hissued⟩
  obtain ⟨d, -, hd, -, -⟩ := hmove .acceptor
  refine ⟨t, hst, ⟨⟨es', hrun⟩, ⟨d, hd, fun p => ?_⟩, by simp [hrest _]⟩, hscreens⟩
  obtain ⟨d', m, hd', hm, hidle⟩ := hmove p
  obtain rfl := Option.some.inj (hd.symm.trans hd')
  rw [hm]
  exact fun heq => hidle (Option.some.inj heq)

/-- What each client can do by itself both can. -/
theorem exists_both {Q Q' : Player → Screen → Prop} (hs : s.Ripe P) (hup : ∀ p, s.Up p (Q p))
    (hone : ∀ p t, t.Ripe P → t.Up p (Q p) →
      ∃ u, t.ByItself P u ∧ GoesOn P p t u ∧ u.Up p (Q' p)) :
    ∃ t, s.ByItself P t ∧ t.Ripe P ∧ (s.Closing → t.Closing) ∧ ∀ p, t.Up p (Q' p) := by
  obtain ⟨t, hst, hgoes, ht⟩ := hone .acceptor s hs (hup .acceptor)
  obtain ⟨u, htu, hgoes', hu⟩ := hone .requester t hgoes.ripe
    (hgoes.other .requester (by decide) _ (hup .requester))
  refine ⟨u, hst.trans htu, hgoes'.ripe, hgoes'.closing ∘ hgoes.closing, fun p => ?_⟩
  cases p with
  | acceptor => exact hgoes'.other .acceptor (by decide) _ ht
  | requester => exact hu

/-- **The stored game reaches both clients**, and one of them finishes it. -/
theorem exists_both_decided (hs : s.Ripe P)
    (hup : ∀ p, s.Up p fun sc => sc.inbox = [] ∧ sc.LeadsOn (P.userId p)) :
    ∃ t, s.ByItself P t ∧ t.Ripe P ∧ t.Closing ∧
      ∀ p, t.Up p fun sc => sc.Decided (P.userId p) := by
  obtain ⟨s₁, h₁, hripe₁, -, hrest₁, hscreens₁⟩ := hs.exists_atRest
  obtain ⟨d, hd, hmoves⟩ := hripe₁.stored
  -- A client that has not lost comes first.
  obtain ⟨p, hfinishes⟩ := exists_finishes (hripe₁.copy_stored hd) hmoves
  obtain ⟨s₂, h₂, hgoes₂, hp, hclosing⟩ :=
    exists_decided hripe₁ hrest₁ hd ((hup p).of_screens hscreens₁)
  have hother := hgoes₂.other p.other p.other_ne _ ((hup p.other).of_screens hscreens₁)
  obtain ⟨s₃, h₃, hripe₃, hclosing₃, hrest₃, hscreens₃⟩ := hgoes₂.ripe.exists_atRest
  obtain ⟨d', hd', -⟩ := hripe₃.stored
  obtain ⟨t, h₄, hgoes₄, hother, -⟩ :=
    exists_decided hripe₃ hrest₃ hd' (hother.of_screens hscreens₃)
  refine ⟨t, ((h₁.trans h₂).trans h₃).trans h₄, hgoes₄.ripe,
    hgoes₄.closing (hclosing₃ (hclosing hfinishes)), fun q => ?_⟩
  rcases p.eq_or_eq_other q with rfl | rfl
  · exact hgoes₄.other q q.other_ne.symm _ (hp.of_screens hscreens₃)
  · exact hother

/-- At the end of the run a game screen of the client is up on which no kick of the opponent's
hand was interrupted. -/
def Watches (P : Pairing) (es : List Event) (s : Session) (p : Player) : Prop :=
  ∃ (place : ℕ) (sc : Screen), s.screens[place]? = some sc ∧ sc.owner = p ∧
    sc.controller.dismissed = false ∧
      RunWhere (Session.step P) (KicksComplete place) (init P) es s

/-- **A game ends by itself.** In every run that writes no stale entry, once both players have
picked and while each client has a game screen on which no kick was interrupted, the program
can go on without anybody until no write waits, the stored game is finished with both moves,
and both clients have called `present` for the results. -/
theorem ends_unattended {es : List Event}
    (h : RunWhere (Session.step P) (Fresh P) (init P) es s)
    (hpicked : ∀ p, s.issuedPicks P p ≠ []) (hup : ∀ p, s.Watches P es p) :
    ∃ t, s.ByItself P t ∧ t.AtRest ∧
      (∃ d, t.stored = some d ∧ d.state = .finished ∧ P.BothMoves d) ∧
      ∀ p, t.Up p fun sc => sc.controller.results ≠ [] := by
  obtain ⟨s₁, h₁, hripe₁, hscreens₁⟩ := exists_ripe h hpicked
  have hup₁ p : s₁.Up p fun sc => sc.LeadsOn (P.userId p) := by
    obtain ⟨place, sc, hsc, rfl, hup, hkicks⟩ := hup p
    exact Up.of_screens ⟨place, sc, hsc, rfl, hup, leadsOn_of_run hkicks hsc⟩ hscreens₁
  obtain ⟨s₂, h₂, hripe₂, -, hinbox⟩ := exists_both hripe₁ hup₁ fun _ _ => exists_delivered
  obtain ⟨s₃, h₃, hripe₃, hclosing₃, hdecided⟩ := exists_both_decided hripe₂ hinbox
  obtain ⟨s₄, h₄, hripe₄, hclosing₄, hresults⟩ :=
    exists_both hripe₃ hdecided fun _ _ => exists_results
  obtain ⟨t, h₅, hripe, hclosing, hrest, hscreens⟩ := hripe₄.exists_atRest
  refine ⟨t, (((h₁.trans h₂).trans h₃).trans h₄).trans h₅, hrest, ?_,
    fun p => (hresults p).of_screens hscreens⟩
  obtain ⟨d, hd, hfinished⟩ := (hclosing (hclosing₄ hclosing₃)).finished hrest
  obtain ⟨d', hd', hmoves⟩ := hripe.stored
  obtain rfl := Option.some.inj (hd.symm.trans hd')
  exact ⟨d, hd, hfinished, hmoves⟩

/-- After `takingTurns` nothing has been delivered of the acceptor's pick, and the game ends. -/
theorem ends_unattended_takingTurns :
    ∃ s t, Run (Session.step sample) (init sample) takingTurns s ∧ s.ByItself sample t ∧
      (∃ d, t.stored = some d ∧ d.state = .finished) ∧
      ∀ p, t.Up p fun sc => sc.controller.results ≠ [] := by
  have hrun : RunWhere (Session.step sample)
      (fun s e => Fresh sample s e ∧ KicksComplete 0 s e ∧ KicksComplete 1 s e) (init sample)
      takingTurns ((execWhere (Session.step sample)
        (fun s e => Fresh sample s e ∧ KicksComplete 0 s e ∧ KicksComplete 1 s e) (init sample)
        takingTurns).get (by decide)) := runWhere_get _
  obtain ⟨t, hst, -, ⟨d, hd, hfinished, -⟩, hresults⟩ := ends_unattended
    (hrun.mono fun _ _ h => h.1) (fun p => by cases p <;> decide) fun p => by
      cases p with
      | acceptor => exact ⟨0, _, rfl, rfl, rfl, hrun.mono fun _ _ h => h.2.1⟩
      | requester => exact ⟨1, _, rfl, rfl, rfl, hrun.mono fun _ _ h => h.2.2⟩
  exact ⟨_, t, hrun.toRun, hst, ⟨d, hd, hfinished⟩, hresults⟩

end Session

end RockPaperScissors
