import RockPaperScissors.BeforeStart
import RockPaperScissors.Endings
import RockPaperScissors.GameStates
import RockPaperScissors.LostMove
import RockPaperScissors.WinnerOnce

/-!
# Orderly Runs

A run is orderly when its events meet the conditions under which the single parts of a game
behave: states are written forward, no stale entry is written, no client changes its pick,
and no draw is found on a copy with a winner. What has been issued in such a run stays
true, whatever is committed when: the game has been entered, a client has picked, somebody
has ended the game, and a winner has been named.

Until somebody has issued the end of the game, nothing in the session is finished or names
a winner (`ended_of_run`), and what has been issued and does not wait any more has reached
the stored document (`reaches_of_run`, `named_of_run`).

## Main results

* `ended_of_run`: only an issued end finishes anything.
* `entered_of_picks`: whoever picks has seen the game started.
* `picked_of_finished`: the buttons over a finished copy are enabled only for a client that
  has picked.
* `reaches_of_run`, `named_of_run`: issued states and winners are stored or wait.
-/

open TransitionSystem

namespace RockPaperScissors

/-! ### Until the end -/

/-- Neither a snapshot nor the local copy of the screen is finished or names a winner. -/
structure Screen.Unended (sc : Screen) : Prop where
  inbox : ∀ g ∈ sc.inbox, g.Open False
  localCopy : ∀ g, sc.controller.game = some g → g.Open False

namespace Screen

variable {sc sc' : Screen} {localUserId : String} {i : Input} {writes : List GameWrite}

/-- `checkForWinner` ends the game, or leaves the local copy and writes nothing. -/
theorem ends_or_keeps_of_checked {vc vc' : GameViewController} {game : Game}
    (h : vc.Checked localUserId game vc' writes) :
    (∃ w ∈ writes, w.state = .finished) ∨ vc'.game = vc.game ∧ writes = [] := by
  cases h with
  | waiting _ | lost _ => exact Or.inr ⟨rfl, rfl⟩
  | won _ _ | drawn _ _ => exact Or.inl ⟨_, List.mem_singleton.mpr rfl, rfl⟩

/-- **An input ends the game, or leaves nothing ended.** -/
theorem Unended.handles (hs : sc.Unended) (h : sc.Handles localUserId i sc' writes) :
    (∃ w ∈ writes, w.state = .finished) ∨ sc'.Unended ∧ ∀ w ∈ writes, w.Open False := by
  cases h with
  | @deliver game rest vc _ hinbox hupdate =>
      have hgame : game.Open False := hs.inbox game (hinbox ▸ List.mem_cons_self)
      have hrest : ∀ c ∈ rest, c.Open False :=
        fun c hc => hs.inbox c (hinbox ▸ List.mem_cons_of_mem _ hc)
      cases hupdate with
      | plain hcheck _ =>
          refine (ends_or_keeps_of_checked hcheck).imp_right ?_
          rintro ⟨hcopy, rfl⟩
          refine ⟨⟨hrest, fun c hc => ?_⟩, by simp⟩
          obtain rfl := Option.some.inj ((hcopy.trans
            GameViewController.receive_game).symm.trans hc)
          exact hgame
      | walkover _ hfin _ => exact (hgame.state hfin).elim
  | animatedMoves _ hcheck =>
      refine (ends_or_keeps_of_checked hcheck).imp_right ?_
      rintro ⟨hcopy, rfl⟩
      exact ⟨⟨hs.inbox, fun c hc => hs.localCopy c (hcopy.symm.trans hc)⟩, by simp⟩
  | declaredWinner _ _ | exit _ _ => exact Or.inl ⟨_, List.mem_singleton.mpr rfl, rfl⟩
  | @pick move copy _ _ _ hgame =>
      refine Or.inr ⟨⟨hs.inbox, hs.localCopy⟩, fun w hw => ?_⟩
      obtain rfl := List.mem_singleton.mp hw
      have hcopy := hs.localCopy copy hgame
      refine ⟨hcopy.state, fun c hc => ?_⟩
      obtain rfl := Option.some.inj hc
      exact hcopy.winner
  | interrupted _ | kicked _ | wasKicked _ _ | wasKickedAlone _ _ | continuedToResults _
  | pickNothing _ | exitNothing _ _ | home =>
      exact Or.inr ⟨⟨hs.inbox, hs.localCopy⟩, by simp⟩

end Screen

namespace Session

/-- A client has issued the end of the game. -/
def Ended (s : Session) : Prop :=
  ∃ p, ∃ w ∈ s.store.issuedBy p, w.state = .finished

/-- A client has issued the user of `p` as the winner. -/
def Named (P : Pairing) (s : Session) (p : Player) : Prop :=
  ∃ q, ∃ w ∈ s.store.issuedBy q, ∃ g, w.game? = some g ∧ g.winner = some (P.user p)

/-- **The event keeps order**: it writes a state forward and no stale entry, and settles
the result once. -/
def Orderly (P : Pairing) (s : Session) (e : Event) : Prop :=
  s.Forward P e ∧ s.Fresh P e ∧ s.OneResult P e

instance (P : Pairing) (s : Session) (e : Event) : Decidable (s.Orderly P e) :=
  inferInstanceAs (Decidable (_ ∧ _ ∧ _))

/-- **The invariant**, until somebody has ended the game. -/
abbrev Unended (s : Session) : Prop :=
  s.Shares (GameWrite.Open False) (Game.Open False) Screen.Unended

variable {P : Pairing} {s s' : Session} {e : Event} {es : List Event} {p q : Player}
  {g : Game} {w : GameWrite}

/-- What a client can see before the end. -/
theorem Unended.view (hs : s.Unended) {version : ℕ} (hg : s.view p version = some g) :
    g.Open False := by
  have hundecided : Undecided False { s with screens := [] } :=
    ⟨hs.written, hs.found, by simp⟩
  exact hundecided.view hg

/-- The stored document before the end. -/
theorem Unended.stored (hs : s.Unended) (hg : s.stored = some g) : g.Open False := by
  have hundecided : Undecided False { s with screens := [] } :=
    ⟨hs.written, hs.found, by simp⟩
  exact hundecided.stored hg

/-- A new screen of a game that has not ended. -/
theorem unended_viewDidLoad (hstate : g.state ≠ .finished) (hwinner : g.winner = none)
    (p : Player) : Screen.Unended ⟨p, .viewDidLoad g, 0, []⟩ := by
  refine ⟨by simp, fun c hc => ?_⟩
  obtain rfl : g = c := Option.some.inj hc
  exact ⟨hstate, hwinner⟩

/-- **Only an event that issues an end ends anything.** -/
theorem Unended.step (hs : s.Unended) (h : Step P s e s') : s'.Ended ∨ s'.Unended := by
  by_cases hinput : ∃ place i, e = .input place i
  · obtain ⟨place, i, rfl⟩ := hinput
    cases h with
    | @input _ _ sc sc' ws hsc hhandle =>
        have hscreen := hs.screens sc (List.mem_of_getElem? hsc)
        rcases hscreen.handles (Screen.handles_of_handle hhandle) with
          ⟨w, hw, hfin⟩ | ⟨hsc', hws⟩
        · refine Or.inl ⟨sc.owner, w, ?_, hfin⟩
          rw [WriteLog.issuedBy_issue, if_pos rfl]
          exact List.mem_append_right _ hw
        · exact Or.inr ((hs.issue hws).set hsc')
  right
  refine hs.step_of_event h (fun p version g hg => Unended.view hs hg)
    (fun _ _ => ⟨by simp [GameWrite.state], by simp [GameWrite.game?]⟩)
    (unended_viewDidLoad (by simp) rfl)
    (fun p g _ hg => unended_viewDidLoad (g := { g with state := .inprogress }) (by simp)
      hg.winner p) ?_ ?_
  · intro sc version g hsc hg
    exact ⟨List.forall_mem_append.mpr ⟨hsc.inbox, List.forall_mem_singleton.mpr hg⟩,
      hsc.localCopy⟩
  · exact fun place i _ _ _ he => absurd ⟨place, i, he⟩ hinput

/-- The game has not ended at first. -/
theorem unended_init : (init P).Unended := by
  refine shares_init ⟨by simp [GameWrite.state], fun g hg => ?_⟩
  obtain rfl := Option.some.inj hg
  rfl

/-- A game that has ended has ended for good. -/
theorem Ended.step (hs : s.Ended) (h : Step P s e s') : s'.Ended := by
  obtain ⟨p, w, hw, hfin⟩ := hs
  exact ⟨p, w, h.mem_issuedBy hw, hfin⟩

/-- **Nothing is finished or named before somebody has ended the game.** -/
theorem ended_of_run (h : Run (Session.step P) (init P) es s) : s.Ended ∨ s.Unended := by
  refine h.invariant (I := fun s => s.Ended ∨ s.Unended) (Or.inr unended_init) ?_
  intro t e t' ht _ hstep
  have hstep' := step_of_step_eq hstep
  exact ht.elim (fun hended => Or.inl (hended.step hstep')) fun hs => hs.step hstep'

/-! ### Picks -/

/-- A game that does not wait for a pick has issued picks of both players. -/
theorem picks_of_verdict (hcopy : P.Copy g) (hpicked : s.EntriesPicked P g)
    (h : g.verdict (P.userId p) ≠ .waiting) (q : Player) : s.issuedPicks P q ≠ [] := by
  rw [hcopy.verdict] at h
  obtain ⟨m, o, hm, ho, hmi, hoi, -⟩ := Verdict.ofMoves_cases h
  rcases p.eq_or_eq_other q with rfl | rfl
  · exact List.ne_nil_of_mem (hpicked q m hm hmi)
  · exact List.ne_nil_of_mem (hpicked p.other o ho hoi)

/-- A player who wins and the opponent have picked. -/
theorem Beats.picks (h : s.Beats P p) (q : Player) : s.issuedPicks P q ≠ [] := by
  obtain ⟨m, hm, o, ho, -⟩ := h
  rcases p.eq_or_eq_other q with rfl | rfl
  · exact List.ne_nil_of_mem hm
  · exact List.ne_nil_of_mem ho

/-- **Whoever picks has seen the game started.** -/
theorem entered_of_picks (h : Run (Session.step P) (init P) es s)
    (hpicks : s.issuedPicks P p ≠ []) : s.Entered := by
  suffices hI : ∀ p, s.issuedPicks P p ≠ [] → s.Entered from hI p hpicks
  refine h.invariant_events (I := fun _ s => ∀ p, s.issuedPicks P p ≠ [] → s.Entered) ?_ ?_
  · exact fun p hp => absurd (picks_init p) hp
  intro es t e t' hrun ht _ hstep p hp
  have hstep' := step_of_step_eq hstep
  have hmono : t.Entered → t'.Entered := fun ⟨q, hq⟩ => ⟨q, hstep'.mem_issuedBy hq⟩
  rcases hstep'.issuedPicks with hsame | ⟨place, move, sc, -, hsc, -, henabled, -, -, -⟩
  · exact hmono (ht p (hsame p ▸ hp))
  · rcases waiting_of_run hrun with hentered | hwaiting
    · exact hmono hentered
    · have hoff := (hwaiting.screens sc (List.mem_of_getElem? hsc)).buttons
      exact absurd (hoff.symm.trans henabled) (by simp)

/-- The buttons over a finished copy are enabled only for a client that has picked. -/
def Picked (P : Pairing) (s : Session) (sc : Screen) : Prop :=
  sc.controller.buttonsEnabled = true → ∀ g, sc.controller.game = some g →
    g.state = .finished → s.issuedPicks P sc.owner ≠ []

/-- The buttons are enabled over an input's finished copy by a pick of the client only. -/
theorem Picked.handles {place : ℕ} {i : Input} {sc sc' : Screen} {ws : List GameWrite}
    (hs : s.Picked P sc) (hsc : s.screens[place]? = some sc)
    (h : sc.Handles (P.userId sc.owner) i sc' ws)
    (hheld : ∀ g, s.Holds g → P.Copy g ∧ s.EntriesPicked P g)
    (hkicking : ∀ d ∈ sc.controller.delayed, d.kicks = true → s.Beats P sc.owner) :
    s.Picked P sc' := by
  have hscreen : ∀ g, sc.Holds g → s.Holds g := fun g => .screen (List.mem_of_getElem? hsc)
  have hverdict : ∀ g, sc.Holds g → (g.verdict (P.userId sc.owner)).finishes = true →
      s.issuedPicks P sc.owner ≠ [] := by
    intro g hg hfinishes
    obtain ⟨hcopy, hpicked⟩ := hheld g (hscreen g hg)
    refine picks_of_verdict (p := sc.owner) hcopy hpicked (fun hwaiting => ?_) sc.owner
    rw [hwaiting] at hfinishes
    exact absurd hfinishes (by decide)
  intro henabled g hg hfin
  cases h with
  | @deliver game rest vc _ hinbox hupdate =>
      have hstate : game.state = .inprogress := by
        rw [hupdate.buttonsEnabled] at henabled
        exact of_decide_eq_true henabled
      cases hupdate with
      | plain hcheck _ =>
          rcases checked_game_cases hcheck with ⟨-, hsame⟩ | ⟨hfinishes, -⟩
          · obtain rfl := Option.some.inj ((hsame.trans
              GameViewController.receive_game).symm.trans hg)
            exact absurd (hstate.symm.trans hfin) (by decide)
          · exact hverdict game (.inbox (hinbox ▸ List.mem_cons_self)) hfinishes
      | walkover _ hwalk _ => exact absurd (hstate.symm.trans hwalk) (by decide)
  | animatedMoves hclosure hcheck =>
      rcases checked_game_cases hcheck with ⟨-, hsame⟩ | ⟨hfinishes, -⟩
      · exact hs (hcheck.buttonsEnabled.symm.trans henabled) g (hsame.symm.trans hg) hfin
      · exact hverdict _ (Screen.holds_closure hclosure rfl) hfinishes
  | declaredWinner hclosure _ =>
      exact (hkicking _ (List.mem_of_getElem? hclosure) rfl).picks sc.owner
  | pick _ _ _ _ => exact absurd henabled (by simp [GameViewController.shouldEnableButtons])
  | interrupted _ | kicked _ | wasKicked _ _ | wasKickedAlone _ _ | continuedToResults _
  | pickNothing _ | exit _ _ | exitNothing _ _ | home => exact hs henabled g hg hfin

/-- **The buttons over a finished copy are enabled only for a client that has picked**, in
every run that settles the result once. -/
theorem picked_of_finished (h : RunWhere (Session.step P) (OneResult P) (init P) es s) :
    ∀ sc ∈ s.screens, s.Picked P sc := by
  refine h.invariant_events (I := fun _ s => ∀ sc ∈ s.screens, s.Picked P sc)
    (by simp [init]) ?_
  intro es t e t' hrun ht _ hstep sc' hsc'
  have hstep' := step_of_step_eq hstep
  have hgrow : ∀ p, t.issuedPicks P p ≠ [] → t'.issuedPicks P p ≠ [] := fun p hp hnil =>
    hp (List.eq_nil_of_subset_nil (hnil ▸ hstep'.issuedPicks_subset p))
  have hmono : ∀ sc, t.Picked P sc → t'.Picked P sc :=
    fun sc hsc henabled g hg hfin => hgrow _ (hsc henabled g hg hfin)
  obtain ⟨place, hplace⟩ := List.getElem?_of_mem hsc'
  rcases hstep'.screens hplace with ⟨sc, hsc, hturns⟩ | ⟨-, p, game, -, rfl⟩
  · have hmem := List.mem_of_getElem? hsc
    cases hturns with
    | stays => exact hmono _ (ht _ hmem)
    | receives _ =>
        have hsame := ht sc hmem
        exact hmono _ hsame
    | handles hhandles =>
        refine hmono _ ((ht sc hmem).handles hsc hhandles (fun g hg => ?_) ?_)
        · exact ⟨copy_of_run hrun.toRun g hg, entriesPicked_of_run hrun.toRun g hg⟩
        · exact ((winners_of_run hrun).shares.screens _ hmem).kicking
  · intro henabled g hg hfin
    obtain rfl : game = g := Option.some.inj hg
    have hstate := of_decide_eq_true henabled
    exact absurd (hstate.symm.trans hfin) (by decide)

/-! ### What has been issued is stored or waits -/

/-- The state has reached the stored document, or a write with it or a later one waits. -/
def Reaches (s : Session) (st : GameState) : Prop :=
  (∃ d, s.stored = some d ∧ st ≤ d.state) ∨ ∃ q, ∃ w ∈ s.store.outbox q, st ≤ w.state

/-- The creation leaves a document. -/
theorem Stored.isSome_stored (hs : s.Stored P) : s.stored.isSome := by
  obtain ⟨cws, hlog, -⟩ := hs.log
  rw [Session.stored, WriteLog.current, hlog]
  change (WriteLog.replay GameWrite.apply (some P.createdGame) (cws.map Prod.snd)).isSome
  exact WriteLog.replay_invariant (I := fun doc : Option Game => doc.isSome) rfl
    fun w _ doc hdoc => GameWrite.isSome_apply hdoc w

/-- A commit leaves a document: the first one is the creation. -/
theorem Created.commit_isSome (hs : s.Created P) (h : s.store.commit p = some s'.store) :
    s'.stored.isSome := by
  obtain ⟨w, ws, hout, -, hstored⟩ := stored_commit h
  rw [hstored]
  rcases hs with hcreating | hstored'
  · obtain ⟨us, hacceptor, -⟩ := hcreating.acceptor
    cases p with
    | acceptor =>
        obtain ⟨rfl, rfl⟩ := List.cons.inj (hout.symm.trans hacceptor)
        rfl
    | requester => exact absurd (hout.symm.trans hcreating.requester) (by simp)
  · exact GameWrite.isSome_apply hstored'.isSome_stored w

/-- A state that has reached the document, or waits, does so after a step. -/
theorem Reaches.step {st : GameState} (hs : s.Reaches st) (hrising : s.Rising)
    (hcreated : s.Created P) (hC : s.Forward P e) (h : Step P s e s') : s'.Reaches st := by
  rcases hs with ⟨d, hd, hle⟩ | ⟨q, w, hw, hle⟩
  · obtain ⟨d', hd', hle'⟩ := (hrising.step hC h).2 d hd
    exact Or.inl ⟨d', hd', hle.trans hle'⟩
  · rcases h.store with ⟨p, -, hcommit⟩ | ⟨p, ws, -, hstore⟩
    · by_cases hwaits : w ∈ s'.store.outbox q
      · exact Or.inr ⟨q, w, hwaits, hle⟩
      · obtain ⟨vs, hout⟩ := WriteLog.outbox_of_not_mem_commit hcommit hw hwaits
        obtain ⟨v, vs', hout', -, hstored⟩ := stored_commit hcommit
        obtain ⟨rfl, -⟩ := List.cons.inj (hout.symm.trans hout')
        obtain ⟨d', hd'⟩ := Option.isSome_iff_exists.mp (hcreated.commit_isSome hcommit)
        refine Or.inl ⟨d', hd', ?_⟩
        rw [hstored] at hd'
        rwa [GameWrite.state_of_apply hd']
    · right
      refine ⟨q, w, ?_, hle⟩
      rw [hstore]
      exact WriteLog.outbox_subset_issue hw

/-- **Every state that has been issued is stored or waits, or a later one does**, in every
run whose events write forward. -/
theorem reaches_of_run (h : RunWhere (Session.step P) (Forward P) (init P) es s) (p : Player)
    (w : GameWrite) (hw : w ∈ s.store.issuedBy p) : s.Reaches w.state := by
  suffices hI : ∀ p, ∀ w ∈ s.store.issuedBy p, s.Reaches w.state from hI p w hw
  refine h.invariant_events (I := fun _ s => ∀ p, ∀ w ∈ s.store.issuedBy p,
    s.Reaches w.state) ?_ ?_
  · intro p w hw
    obtain rfl := eq_create_of_mem_issuedBy_init hw
    exact Or.inr ⟨.acceptor, _, List.mem_singleton.mpr rfl, le_refl _⟩
  intro es t e t' hrun ht hC hstep p w hw
  have hstep' := step_of_step_eq hstep
  have hold : w ∈ t.store.issuedBy p → t'.Reaches w.state := fun hold =>
    (ht p w hold).step (rising_init.run hrun) (created_of_run hrun.toRun) hC hstep'
  rcases hstep'.store with ⟨q, -, hcommit⟩ | ⟨q, ws, -, hstore⟩
  · exact hold (WriteLog.issuedBy_commit hcommit ▸ hw)
  · rw [hstore, WriteLog.issuedBy_issue] at hw
    rcases List.mem_append.mp hw with hw | hnew
    · exact hold hw
    · split at hnew
      · next hp =>
          refine Or.inr ⟨p, w, ?_, le_refl _⟩
          rw [hstore, hp, WriteLog.issue_outbox_self]
          exact List.mem_append_right _ hnew
      · exact absurd hnew (by simp)

/-- A winner is stored, or a write with one waits. -/
def NamesWinner (s : Session) : Prop :=
  s.HasWinner ∨ ∃ q, ∃ w ∈ s.store.outbox q, ∃ g, w.game? = some g ∧ g.winner.isSome

/-- A commit of a write with a winner stores one. -/
theorem hasWinner_of_commit {ws : List GameWrite} (hout : s.store.outbox p = w :: ws)
    (h : s.store.commit p = some s'.store) (hg : w.game? = some g) (hwinner : g.winner.isSome) :
    s'.HasWinner := by
  obtain ⟨v, vs, hout', -, hstored⟩ := stored_commit h
  obtain ⟨rfl, -⟩ := List.cons.inj (hout.symm.trans hout')
  obtain ⟨u, hu⟩ := Option.isSome_iff_exists.mp hwinner
  rw [HasWinner, hstored]
  cases w with
  | status _ => exact absurd hg (by simp [GameWrite.game?])
  | create game =>
      obtain rfl : game = g := Option.some.inj hg
      exact hwinner
  | picked game | decided game =>
      obtain rfl : game = g := Option.some.inj hg
      cases s.stored with
      | none => exact hwinner
      | some d => cases hd : d.winner <;>
          simp [GameWrite.apply, GameWrite.mergeInto, Game.merge, Game.mergeWinner, hu, hd]

/-- A winner that is stored, or waits to be, is or does so after every step. -/
theorem NamesWinner.step (hs : s.NamesWinner) (hcreated : s.Created P) (h : Step P s e s') :
    s'.NamesWinner := by
  rcases hs with hwinner | ⟨q, w, hw, g, hg, hwinner⟩
  · exact Or.inl (hwinner.step hcreated h)
  · rcases h.store with ⟨p, -, hcommit⟩ | ⟨p, ws, -, hstore⟩
    · by_cases hwaits : w ∈ s'.store.outbox q
      · exact Or.inr ⟨q, w, hwaits, g, hg, hwinner⟩
      · obtain ⟨vs, hout⟩ := WriteLog.outbox_of_not_mem_commit hcommit hw hwaits
        exact Or.inl (hasWinner_of_commit hout hcommit hg hwinner)
    · right
      refine ⟨q, w, ?_, g, hg, hwinner⟩
      rw [hstore]
      exact WriteLog.outbox_subset_issue hw

/-- **A winner that has been issued is stored or waits.** -/
theorem named_of_run (h : Run (Session.step P) (init P) es s) (hnamed : s.Named P p) :
    s.NamesWinner := by
  suffices hI : ∀ q, ∀ w ∈ s.store.issuedBy q, ∀ g, w.game? = some g → g.winner.isSome →
      s.NamesWinner by
    obtain ⟨q, w, hw, g, hg, hwinner⟩ := hnamed
    exact hI q w hw g hg (by simp [hwinner])
  refine h.invariant_events (I := fun _ s => ∀ q, ∀ w ∈ s.store.issuedBy q, ∀ g,
    w.game? = some g → g.winner.isSome → s.NamesWinner) ?_ ?_
  · intro q w hw g hg hwinner
    obtain rfl := eq_create_of_mem_issuedBy_init hw
    obtain rfl := Option.some.inj hg
    exact absurd hwinner (by simp [Pairing.createdGame, Game.new])
  intro es t e t' hrun ht _ hstep q w hw g hg hwinner
  have hstep' := step_of_step_eq hstep
  have hold : w ∈ t.store.issuedBy q → t'.NamesWinner := fun hold =>
    (ht q w hold g hg hwinner).step (created_of_run hrun) hstep'
  rcases hstep'.store with ⟨p, -, hcommit⟩ | ⟨p, ws, -, hstore⟩
  · exact hold (WriteLog.issuedBy_commit hcommit ▸ hw)
  · rw [hstore, WriteLog.issuedBy_issue] at hw
    rcases List.mem_append.mp hw with hw | hnew
    · exact hold hw
    · split at hnew
      · next hq =>
          refine Or.inr ⟨q, w, ?_, g, hg, hwinner⟩
          rw [hstore, hq, WriteLog.issue_outbox_self]
          exact List.mem_append_right _ hnew
      · exact absurd hnew (by simp)

end Session

end RockPaperScissors
