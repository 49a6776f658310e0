import RockPaperScissors.Match
import RockPaperScissors.OrderlyRuns
import RockPaperScissors.Simulation

/-!
# A Session Is a Match

An orderly run of a session is a run of a match: every tap that picks, every start and
every end is one atomic action, taken when its write is issued, and commits, snapshots and
closures are none. What the match knows the stored document may know late. It is never
ahead of the match, and when no write waits it is the match.

The rule of the match is the one of the game: the player wins whose pick beats the pick of
the opponent.

## Main results

* `plays_step`, `reflects_of_plays`: what one event is in the match.
* `match_refined`: every orderly run is a run of a match, and the document follows it.
* `settled_extends`: what is stored when no write waits stays stored.
-/

open TransitionSystem

namespace RockPaperScissors

namespace GameState

/-- The state of the document in a phase of the match. -/
def ofPhase : Match.Phase → GameState
  | .waiting => starting
  | .playing => inprogress
  | .ended => finished

/-- Only an ended match is `finished`. -/
theorem ofPhase_eq_finished {phase : Match.Phase} (h : ofPhase phase = finished) :
    phase = .ended := by
  revert h
  cases phase <;> decide

/-- `starting` comes first. -/
theorem starting_le (st : GameState) : starting ≤ st := by
  cases st <;> decide

/-- `finished` comes last. -/
theorem le_finished (st : GameState) : st ≤ finished := by
  cases st <;> decide

/-- What is not finished is `inprogress` at most. -/
theorem le_inprogress {st : GameState} (h : st ≠ finished) : st ≤ inprogress := by
  revert h
  cases st <;> decide

/-- There are three states. -/
theorem eq_starting {st : GameState} (h : st ≠ inprogress) (h' : st ≠ finished) :
    st = starting := by
  revert h h'
  cases st <;> decide

end GameState

namespace Session

/-- The player's pick beats the pick of the opponent. -/
def Wins (picks : Player → Option Moves) (p : Player) : Prop :=
  ∃ m o, picks p = some m ∧ picks p.other = some o ∧ o < m

/-- The match has the phase and the picks that have been issued. -/
structure Plays (P : Pairing) (s : Session) (a : Match Player Moves) : Prop where
  ended : a.phase = .ended ↔ s.Ended
  waiting : a.phase = .waiting ↔ ¬ s.Ended ∧ ¬ s.Entered
  picks : ∀ p, a.picks p = (s.issuedPicks P p).head?

/-- **The session reflects the match**: everything that has happened in it has been issued,
and nothing else. -/
structure Reflects (P : Pairing) (s : Session) (a : Match Player Moves) : Prop
    extends s.Plays P a where
  winner : ∀ p, a.winner = some p ↔ s.Named P p

variable {P : Pairing} {s s' : Session} {e : Event} {es : List Event} {p q : Player}
  {a a' : Match Player Moves} {w : GameWrite} {ws : List GameWrite} {d : Game}

/-! ### What is issued -/

/-- The game ends by a write with the state `finished`. -/
theorem ended_issue (h : s'.store = s.store.issue p ws) :
    s'.Ended ↔ s.Ended ∨ ∃ w ∈ ws, w.state = .finished := by
  rw [Ended, h]
  exact WriteLog.exists_mem_issuedBy_issue

/-- The game is entered by a write of the state `inprogress`. -/
theorem entered_issue (h : s'.store = s.store.issue p ws) :
    s'.Entered ↔ s.Entered ∨ .status .inprogress ∈ ws := by
  have hissue : (∃ q, ∃ w ∈ (s.store.issue p ws).issuedBy q, w = .status .inprogress) ↔ _ :=
    WriteLog.exists_mem_issuedBy_issue
  simpa [Entered, h] using hissue

/-- The picks that are issued are those of the writes. -/
theorem issuedPicks_issue (h : s'.store = s.store.issue p ws) (q : Player) :
    s'.issuedPicks P q = s.issuedPicks P q ++ if q = p then GameWrite.picks P p ws else [] := by
  rw [issuedPicks, h, WriteLog.issuedBy_issue, GameWrite.picks_append, issuedPicks]
  by_cases hq : q = p
  · rw [if_pos hq, if_pos hq, hq]
  · rw [if_neg hq, if_neg hq]
    rfl

/-- A match plays on unchanged while nothing new is issued. -/
theorem Plays.same (hs : s.Plays P a) (hended : s'.Ended ↔ s.Ended)
    (hentered : s'.Entered ↔ s.Entered)
    (hpicks : ∀ q, (s'.issuedPicks P q).head? = (s.issuedPicks P q).head?) : s'.Plays P a where
  ended := by rw [hs.ended, hended]
  waiting := by rw [hs.waiting, hended, hentered]
  picks := fun q => by rw [hs.picks, hpicks]

/-- A match goes on unchanged while nothing is issued. -/
theorem Plays.of_issuedBy (hs : s.Plays P a)
    (h : ∀ q, s'.store.issuedBy q = s.store.issuedBy q) : s'.Plays P a := by
  refine hs.same (by simp [Ended, h]) (by simp [Entered, h]) fun q => ?_
  rw [issuedPicks, h, issuedPicks]

/-! ### One event -/

/-- Until now nobody has ended the game, when an event writes another state forward. -/
theorem not_ended_of_forward {st : GameState} (hC : s.Forward P e)
    (hwritten : s.stateWritten P e = some (p, st)) (hst : st ≠ .finished)
    (hreaches : s.Ended → s.Reaches .finished) : ¬ s.Ended := by
  intro hended
  obtain ⟨hstored, hown, hother⟩ := hC (p, st) hwritten
  rcases hreaches hended with ⟨d, hd, hle⟩ | ⟨q, w, hw, hle⟩
  · exact hst (GameState.eq_finished_of_le (hle.trans (hstored d hd)))
  · rcases p.eq_or_eq_other q with rfl | rfl
    · exact hst (GameState.eq_finished_of_le (hle.trans (hown w hw)))
    · have hsame : w.state = st := hother w hw
      exact hst (GameState.eq_finished_of_le (hsame ▸ hle))

/-- A match in which somebody has entered and nobody has ended the game. -/
theorem Plays.playing (hs : s.Plays P a) (hentered : s.Entered) (hended : ¬ s.Ended) :
    a.phase = .playing := by
  cases hphase : a.phase with
  | playing => rfl
  | waiting => exact absurd hentered (hs.waiting.mp hphase).2
  | ended => exact absurd (hs.ended.mp hphase) hended

/-- An event is some actions of the match. -/
def ActsAs (P : Pairing) (s' : Session) (a : Match Player Moves) (exits : Prop) : Prop :=
  ∃ bs a', Run (Match.step Wins) a bs a' ∧ s'.Plays P a' ∧ a'.winner = a.winner ∧
    (.abandon ∈ bs → exits)

/-- The event is no action of the match. -/
theorem Plays.actsAs {x : Prop} (hs : s'.Plays P a) : s'.ActsAs P a x :=
  ⟨[], a, RunWhere.nil, hs, rfl, by simp⟩

/-- `enterGame` is the start of the match, or the match has started. -/
theorem Plays.entered {x : Prop} (hs : s.Plays P a)
    (h : s'.store = s.store.issue p [.status .inprogress]) (hended : ¬ s.Ended) :
    s'.ActsAs P a x := by
  have hended' : ¬ s'.Ended := by
    rw [ended_issue h]
    simpa [GameWrite.state] using hended
  have hentered' : s'.Entered := (entered_issue h).mpr (Or.inr (by simp))
  have hpicks : ∀ q, (s'.issuedPicks P q).head? = (s.issuedPicks P q).head? := by
    intro q
    rw [issuedPicks_issue h, GameWrite.picks_singleton_of_game?_eq_none rfl, ite_self,
      List.append_nil]
  by_cases hentered : s.Entered
  · exact (hs.same (iff_of_false hended' hended) (iff_of_true hentered' hentered) hpicks).actsAs
  · have hphase : a.phase = .waiting := hs.waiting.mpr ⟨hended, hentered⟩
    refine ⟨_, _, Match.run_act (b := .start) hphase, ⟨?_, ?_, fun q => ?_⟩, rfl, by simp⟩
    · exact iff_of_false (by simp [Match.act]) hended'
    · exact iff_of_false (by simp [Match.act]) fun hnot => hnot.2 hentered'
    · exact (hs.picks q).trans (hpicks q).symm

/-- `pickedMove` is the pick of the match, or the client has picked. -/
theorem Plays.picked {x : Prop} {copy : Game} {move : Moves} (hs : s.Plays P a)
    (h : s'.store = s.store.issue p [.picked (copy.setMove (P.userId p) move)])
    (hentered : s.Entered) (hfirst : s.issuedPicks P p = [] → ¬ s.Ended ∧ copy.state ≠ .finished)
    (hagain : copy.state = .finished → s.Ended) : s'.ActsAs P a x := by
  have hentered' : s'.Entered := (entered_issue h).mpr (Or.inl hentered)
  have hpicks : ∀ q, s'.issuedPicks P q = s.issuedPicks P q ++ if q = p then [move] else [] := by
    intro q
    rw [issuedPicks_issue h]
    simp [GameWrite.picks, GameWrite.pick?]
  have hended : s'.Ended ↔ s.Ended ∨ copy.state = .finished := by
    rw [ended_issue h]
    simp [GameWrite.state]
  by_cases hnone : s.issuedPicks P p = []
  · obtain ⟨hnot, hstate⟩ := hfirst hnone
    have hended' : ¬ s'.Ended := by
      rw [hended]
      exact not_or.mpr ⟨hnot, hstate⟩
    have hphase := hs.playing hentered hnot
    have henabled : a.Enabled Wins (.pick p move) :=
      ⟨hphase, by rw [hs.picks, hnone]; rfl⟩
    refine ⟨_, _, Match.run_act henabled, ⟨?_, ?_, fun q => ?_⟩, rfl, by simp⟩
    · exact iff_of_false (by simp [Match.act, hphase]) hended'
    · exact iff_of_false (by simp [Match.act, hphase]) fun hnot => hnot.2 hentered'
    · by_cases hq : q = p
      · subst hq
        simp [Match.act, hpicks, hnone]
      · simp [Match.act, hpicks, hq, hs.picks]
  · refine (hs.same ?_ (iff_of_true hentered' hentered) fun q => ?_).actsAs
    · rw [hended]
      exact or_iff_left_of_imp hagain
    · by_cases hq : q = p
      · subst hq
        rw [hpicks, List.head?_append_of_ne_nil _ hnone]
      · rw [hpicks, if_neg hq, List.append_nil]

/-- An end is the end of the match that `b` is, or the match was over. -/
theorem Plays.ending {x : Prop} {b : Match.Action Player Moves} (hs : s.Plays P a)
    (h : s'.store = s.store.issue p [w]) (hfin : w.state = .finished)
    (hpick : GameWrite.picks P p [w] = []) (hact : a.act b = { a with phase := .ended })
    (henabled : ¬ s.Ended → a.Enabled Wins b) (hb : b = .abandon → x)
    (hentered : s'.Entered ↔ s.Entered) : s'.ActsAs P a x := by
  have hended : s'.Ended := (ended_issue h).mpr (Or.inr ⟨w, by simp, hfin⟩)
  have hpicks : ∀ q, (s'.issuedPicks P q).head? = (s.issuedPicks P q).head? := by
    intro q
    rw [issuedPicks_issue h, hpick, ite_self, List.append_nil]
  by_cases hover : s.Ended
  · exact (hs.same (iff_of_true hended hover) hentered hpicks).actsAs
  · refine ⟨[b], _, Match.run_act (henabled hover), ?_, by rw [hact], ?_⟩
    · rw [hact]
      refine ⟨iff_of_true rfl hended, iff_of_false (by simp) fun hnot => hnot.1 hended, ?_⟩
      exact fun q => (hs.picks q).trans (hpicks q).symm
    · intro hmem
      exact hb (List.mem_singleton.mp hmem).symm

/-- **What an event is in the match**, up to the winner. -/
theorem plays_step (hrun : RunWhere (Session.step P) (Orderly P) (init P) es s)
    (hC : s.Orderly P e) (h : Step P s e s') (hs : s.Plays P a) :
    s'.ActsAs P a (e.exits = true) := by
  have hreaches : s.Ended → s.Reaches .finished := fun ⟨p, w, hw, hfin⟩ =>
    hfin ▸ reaches_of_run (hrun.mono fun _ _ hC => hC.1) p w hw
  have hone := hrun.mono fun _ _ (hC : Orderly P _ _) => hC.2.2
  have hentered : ∀ p, s.issuedPicks P p ≠ [] → s.Entered :=
    fun p => entered_of_picks hrun.toRun
  have hverdict : ∀ g, s.Holds g → ∀ p, (g.verdict (P.userId p)).finishes = true →
      ∀ q, s.issuedPicks P q ≠ [] := by
    intro g hg p hfinishes
    refine picks_of_verdict (p := p) (copy_of_run hrun.toRun g hg)
      (entriesPicked_of_run hrun.toRun g hg) fun hwaiting => ?_
    rw [hwaiting] at hfinishes
    exact absurd hfinishes (by decide)
  -- a decided write ends a match in which both players have picked
  have hdecided : ∀ {p : Player} {g : Game}, s'.store = s.store.issue p [.decided g] →
      g.state = .finished → (∀ q, s.issuedPicks P q ≠ []) → s'.ActsAs P a (e.exits = true) := by
    intro p g hstore hfin hpicks
    refine hs.ending (b := .finish) hstore hfin rfl rfl (fun hended => ?_) (by simp) ?_
    · refine ⟨hs.playing (hentered p (hpicks p)) hended, fun q hnone => hpicks q ?_⟩
      rwa [hs.picks, List.head?_eq_none_iff] at hnone
    · rw [entered_issue hstore]
      simp
  rcases h.store with ⟨p, -, hcommit⟩ | ⟨p, ws, hissues, hstore⟩
  · exact (hs.of_issuedBy fun q => WriteLog.issuedBy_commit hcommit).actsAs
  cases hissues with
  | nothing => exact (hs.of_issuedBy fun q => by rw [hstore, WriteLog.issue_nil]).actsAs
  | entered => exact hs.entered hstore (not_ended_of_forward hC.1 rfl (by decide) hreaches)
  | @picked place move sc copy hsc _ henabled _ hcopy =>
      have hmem := List.mem_of_getElem? hsc
      have hbuttons : s.Entered := by
        rcases waiting_of_run hrun.toRun with hentered | hwaiting
        · exact hentered
        · exact absurd ((hwaiting.screens sc hmem).buttons.symm.trans henabled) (by simp)
      refine hs.picked hstore hbuttons (fun hnone => ?_) fun hfin => ?_
      · have hstate : copy.state ≠ .finished := fun hfin =>
          picked_of_finished hone sc hmem henabled copy hcopy hfin hnone
        have hwritten : s.stateWritten P (.input place (.pick move)) =
            some (sc.owner, copy.state) := by
          simp [Session.stateWritten, hsc, Screen.stateWritten, hcopy]
        exact ⟨not_ended_of_forward hC.1 hwritten hstate hreaches, hstate⟩
      · rcases ended_of_run hrun.toRun with hended | hnot
        · exact hended
        · exact (((hnot.screens sc hmem).localCopy copy hcopy).state hfin).elim
  | exited hsc =>
      refine hs.ending (b := .abandon) hstore rfl rfl rfl (fun hended => ?_) (fun _ => rfl) ?_
      · exact fun hphase => hended (hs.ended.mp hphase)
      · rw [entered_issue hstore]
        simp
  | delivered hsc hinbox hfinishes =>
      exact hdecided hstore rfl (hverdict _ (.screen (List.mem_of_getElem? hsc)
        (.inbox (hinbox ▸ List.mem_cons_self))) _ hfinishes)
  | animated hsc hclosure hfinishes _ =>
      exact hdecided hstore rfl (hverdict _ (.screen (List.mem_of_getElem? hsc)
        (Screen.holds_closure hclosure rfl)) _ hfinishes)
  | declared hsc hclosure _ =>
      have hkicking := ((winners_of_run hone).shares.screens _ (List.mem_of_getElem? hsc)).kicking
      exact hdecided hstore rfl (hkicking _ (List.mem_of_getElem? hclosure) rfl).picks

/-! ### Winners -/

/-- An issued pick is the pick of the match. -/
theorem Plays.picks_of_mem (hs : s.Plays P a) (hone : s.OneMove P) {m : Moves}
    (hm : m ∈ s.issuedPicks P p) : a.picks p = some m := by
  obtain ⟨m', ms, heq⟩ := List.exists_cons_of_ne_nil (List.ne_nil_of_mem hm)
  have hfirst : m' ∈ s.issuedPicks P p := heq ▸ List.mem_cons_self
  rw [hs.picks, heq, List.head?_cons, hone p m' hfirst m hm]

/-- The winning player wins the match. -/
theorem Plays.wins (hs : s.Plays P a) (hone : s.OneMove P) (h : s.Beats P p) :
    Wins a.picks p := by
  obtain ⟨m, hm, o, ho, hlt⟩ := h
  exact ⟨m, o, hs.picks_of_mem hone hm, hs.picks_of_mem hone ho, hlt⟩

/-- An issued winner has won. -/
theorem Winners.named {walkovers : Bool} (hs : s.Winners P walkovers) (h : s.Named P p) :
    s.Beats P p := by
  obtain ⟨q, w, hw, g, hg, hwinner⟩ := h
  obtain ⟨r, hr, hu⟩ := hs.shares.written q w hw g hg _ hwinner
  have hid : some (P.userId p) = some (P.userId r) := by rw [← P.user_id, ← P.user_id, hu]
  rwa [P.userId_injective (Option.some.inj hid)]

/-- **The winner is named when it is issued first.** -/
theorem reflects_of_plays (hs : s'.Plays P a) (hold : ∀ p, a.winner = some p ↔ s.Named P p)
    (hgrow : ∀ p, s.Named P p → s'.Named P p) (hwinners : s'.Winners P true)
    (hended : ∀ p, s'.Named P p → s'.Ended) :
    ∃ bs a', Run (Match.step Wins) a bs a' ∧ s'.Reflects P a' ∧ .abandon ∉ bs := by
  by_cases hnew : ∃ p, s'.Named P p ∧ a.winner ≠ some p
  · obtain ⟨p, hp, hne⟩ := hnew
    have hbeats := hwinners.named hp
    have hunique : ∀ q, s'.Named P q → q = p := fun q hq =>
      (hwinners.named hq).unique hwinners.one hbeats
    have hnone : a.winner = none := by
      by_contra hsome
      obtain ⟨q, hq⟩ := Option.ne_none_iff_exists'.mp hsome
      obtain rfl := hunique q (hgrow q ((hold q).mp hq))
      exact hne hq
    have henabled : a.Enabled Wins (.name p) :=
      ⟨hs.ended.mpr (hended p hp), hnone, hs.wins hwinners.one hbeats⟩
    refine ⟨_, _, Match.run_act henabled, ⟨⟨hs.ended, hs.waiting, hs.picks⟩, fun q => ?_⟩,
      by simp⟩
    constructor
    · intro hq
      obtain rfl := Option.some.inj hq
      exact hp
    · exact fun hq => congrArg some (hunique q hq).symm
  · refine ⟨[], a, RunWhere.nil, ⟨hs, fun p => ⟨fun hp => hgrow p ((hold p).mp hp), fun hp => ?_⟩⟩,
      by simp⟩
    by_contra hne
    exact hnew ⟨p, hp, hne⟩

/-- An issued winner ends the game. -/
theorem ended_of_named (h : Run (Session.step P) (init P) es s) (hnamed : s.Named P p) :
    s.Ended := by
  rcases ended_of_run h with hended | hnot
  · exact hended
  · obtain ⟨q, w, hw, g, hg, hwinner⟩ := hnamed
    exact absurd ((hnot.written q w hw).winner g hg) (by simp [hwinner])

/-! ### Runs -/

/-- A session that has not begun reflects a new match. -/
theorem reflects_init : (init P).Reflects P Match.new := by
  have hissued : ∀ q, ∀ w ∈ (init P).store.issuedBy q, w = .create P.createdGame :=
    fun q w => eq_create_of_mem_issuedBy_init
  have hnot : ¬ (init P).Ended := by
    rintro ⟨q, w, hw, hfin⟩
    obtain rfl := hissued q w hw
    exact absurd hfin (by simp [GameWrite.state])
  refine ⟨⟨iff_of_false (by simp [Match.new]) hnot, iff_of_true rfl ⟨hnot, ?_⟩, fun q => ?_⟩,
    fun q => iff_of_false (by simp [Match.new]) ?_⟩
  · rintro ⟨q, hq⟩
    exact absurd (hissued q _ hq) (by simp)
  · rw [issuedPicks, picks_init]
    rfl
  · rintro ⟨r, w, hw, g, hg, hwinner⟩
    obtain rfl := hissued r w hw
    obtain rfl := Option.some.inj hg
    exact absurd hwinner (by simp [Pairing.createdGame, Game.new])

/-- **An orderly event is some actions of the match.** -/
theorem reflects_step (hrun : RunWhere (Session.step P) (Orderly P) (init P) es s)
    (hC : s.Orderly P e) (h : s.step P e = some s') (hs : s.Reflects P a) :
    ∃ bs a', Run (Match.step Wins) a bs a' ∧ s'.Reflects P a' ∧
      (.abandon ∈ bs → e.exits = true) := by
  have hrun' := hrun.snoc hC h
  have hone' := hrun'.mono fun _ _ (hC : Orderly P _ _) => hC.2.2
  obtain ⟨bs, a', hbs, hplays, hwinner, hexits⟩ :=
    plays_step hrun hC (step_of_step_eq h) hs.toPlays
  have hold : ∀ p, a'.winner = some p ↔ s.Named P p := fun p => hwinner ▸ hs.winner p
  have hgrow : ∀ p, s.Named P p → s'.Named P p := fun p ⟨q, w, hw, hg⟩ =>
    ⟨q, w, (step_of_step_eq h).mem_issuedBy hw, hg⟩
  obtain ⟨bs', a'', hbs', hreflects, hnot⟩ := reflects_of_plays hplays hold hgrow
    (winners_of_run hone') fun p => ended_of_named hrun'.toRun
  refine ⟨bs ++ bs', a'', hbs.append hbs', hreflects, fun hmem => ?_⟩
  exact hexits ((List.mem_append.mp hmem).resolve_right hnot)

/-- **An orderly run is a run of the match**, from any state that reflects one. -/
theorem reflects_run {t : Session} {es' : List Event}
    (h : RunWhere (Session.step P) (Orderly P) (init P) es s) (hs : s.Reflects P a)
    (h' : RunWhere (Session.step P) (Orderly P) s es' t) :
    ∃ bs a', Run (Match.step Wins) a bs a' ∧ t.Reflects P a' ∧ (.abandon ∈ bs → Exited es') := by
  refine h'.simulates (R := fun es' t (bs : List (Match.Action Player Moves)) a =>
    t.Reflects P a ∧ (.abandon ∈ bs → Exited es'))
    ⟨hs, by simp⟩ ?_
  rintro es' t e t' bs b hrun ⟨hreflects, hexited⟩ hC hstep
  obtain ⟨bs', b', hbs', hreflects', hexits⟩ :=
    reflects_step (h.append hrun) hC hstep hreflects
  refine ⟨bs', b', hbs', hreflects', fun hmem => ?_⟩
  rcases List.mem_append.mp hmem with hold | hnew
  · obtain ⟨e', he', hexits'⟩ := hexited hold
    exact ⟨e', List.mem_append_left _ he', hexits'⟩
  · exact ⟨e, by simp, hexits hnew⟩

/-! ### The stored document -/

/-- The document is not ahead of the match. -/
structure Behind (P : Pairing) (d : Game) (a : Match Player Moves) : Prop where
  moves : ∀ p m, d.moves (P.userId p) = some m → m = .idle ∨ a.picks p = some m
  state : d.state ≤ .ofPhase a.phase
  winner : ∀ u, d.winner = some u → ∃ p, a.winner = some p ∧ u = P.user p

/-- The document is the match. -/
structure Settled (P : Pairing) (d : Game) (a : Match Player Moves) : Prop where
  moves : ∀ p, d.moves (P.userId p) = some ((a.picks p).getD .idle)
  state : d.state = .ofPhase a.phase
  winner : d.winner = a.winner.map P.user

/-- The state of the document was issued. -/
theorem exists_issued_of_stored (hd : s.stored = some d) :
    ∃ p, ∃ w ∈ s.store.issuedBy p, w.state = d.state := by
  refine WriteLog.current_invariant (I := fun doc : Option Game => ∀ g, doc = some g →
    ∃ p, ∃ w ∈ s.store.issuedBy p, w.state = g.state) (by simp) (fun p w hw doc _ g hg => ?_) d hd
  exact ⟨p, w, hw, (GameWrite.state_of_apply hg).symm⟩

/-- The winner of the document was issued. -/
theorem named_of_stored (hs : s.Winners P true) (hd : s.stored = some d)
    (hwinner : d.winner.isSome) : ∃ p, s.Named P p := by
  refine WriteLog.current_invariant (I := fun doc : Option Game => ∀ g, doc = some g →
    g.winner.isSome → ∃ p, s.Named P p) (by simp) (fun q w hw doc hdoc => ?_) d hd hwinner
  refine GameWrite.apply_invariant (fun g hg hsome => ?_) (fun d g hd hg hsome => ?_)
    (fun _ _ _ hd => hd) hdoc
  · obtain ⟨u, hu⟩ := Option.isSome_iff_exists.mp hsome
    obtain ⟨p, -, rfl⟩ := hs.shares.written q w hw g hg u hu
    exact ⟨p, q, w, hw, g, hg, hu⟩
  · cases hwritten : g.winner with
    | none => exact hd (Game.merge_winner_of_none hwritten ▸ hsome)
    | some u => exact hg (by simp [hwritten])

/-- **The document is never ahead of the match.** -/
theorem Reflects.behind (hs : s.Reflects P a)
    (h : RunWhere (Session.step P) (Orderly P) (init P) es s) (hd : s.stored = some d) :
    Behind P d a := by
  have hwinners := winners_of_run (h.mono fun _ _ (hC : Orderly P _ _) => hC.2.2)
  refine ⟨fun p m hm => ?_, ?_, fun u hu => ?_⟩
  · have hentries : s.EntriesPicked P d :=
      stored_of_holds editClosed_entriesPicked (entriesPicked_of_run h.toRun) hd
    by_cases hidle : m = .idle
    · exact Or.inl hidle
    · exact Or.inr (hs.picks_of_mem hwinners.one (hentries p m hm hidle))
  · obtain ⟨p, w, hw, hstate⟩ := exists_issued_of_stored hd
    cases hphase : a.phase with
    | ended => exact (GameState.le_finished d.state)
    | playing =>
        refine GameState.le_inprogress fun hfin => ?_
        have hended : s.Ended := ⟨p, w, hw, hstate.trans hfin⟩
        exact absurd ((hs.ended.mpr hended).symm.trans hphase) (by simp)
    | waiting =>
        obtain ⟨hnot, hentered⟩ := hs.waiting.mp hphase
        have hwaiting := (waiting_of_run h.toRun).resolve_left hentered
        refine le_of_eq (GameState.eq_starting (fun hgoing => ?_) fun hfin => ?_)
        · exact hwaiting.written p w hw (hstate.trans hgoing)
        · exact hnot ⟨p, w, hw, hstate.trans hfin⟩
  · obtain ⟨p, hp, rfl⟩ := hwinners.stored hd u hu
    obtain ⟨q, hq⟩ := named_of_stored hwinners hd (by simp [hu])
    obtain rfl := (hwinners.named hq).unique hwinners.one hp
    exact ⟨q, (hs.winner q).mpr hq, rfl⟩

/-- No write waits. -/
def AtRest (s : Session) : Prop :=
  ∀ p, s.store.outbox p = []

/-- What has been issued is stored, when no write waits. -/
theorem Reaches.of_rest {st : GameState} (hs : s.Reaches st) (hrest : s.AtRest)
    (hd : s.stored = some d) : st ≤ d.state := by
  rcases hs with ⟨d', hd', hle⟩ | ⟨q, w, hw, -⟩
  · obtain rfl := Option.some.inj (hd.symm.trans hd')
    exact hle
  · exact absurd hw (by simp [hrest q])

/-- The document exists when no write waits. -/
theorem Created.exists_stored (hs : s.Created P) (hrest : s.AtRest) :
    ∃ d, s.stored = some d := by
  rcases hs with hcreating | hstored
  · obtain ⟨ws, hout, -⟩ := hcreating.acceptor
    exact absurd (hout.symm.trans (hrest .acceptor)) (by simp)
  · exact Option.isSome_iff_exists.mp hstored.isSome_stored

/-- **When no write waits the document is the match.** -/
theorem Reflects.settled (hs : s.Reflects P a)
    (h : RunWhere (Session.step P) (Orderly P) (init P) es s)
    (hrest : s.AtRest) (hd : s.stored = some d) : Settled P d a := by
  have hbehind := hs.behind h hd
  have hforward := h.mono fun _ _ (hC : Orderly P _ _) => hC.1
  have hwinners := winners_of_run (h.mono fun _ _ (hC : Orderly P _ _) => hC.2.2)
  have hkept : s.Kept P := h.invariant kept_init fun _ _ _ ht hC hstep =>
    ht.step hC.2.1 (step_of_step_eq hstep)
  have hcopy : P.Copy d := stored_of_holds editClosed_copy (copy_of_run h.toRun) hd
  refine ⟨fun p => ?_, le_antisymm hbehind.state ?_, ?_⟩
  · have happlied : s.appliedPicks P p = s.issuedPicks P p := by
      rw [appliedPicks, issuedPicks, WriteLog.issuedBy, hrest p, List.append_nil]
    cases hpick : a.picks p with
    | none =>
        obtain ⟨m, hm⟩ := hcopy.exists_move p
        rcases hbehind.moves p m hm with rfl | hsome
        · exact hm
        · exact absurd (hpick.symm.trans hsome) (by simp)
    | some m =>
        have hhead := (hs.picks p).symm.trans hpick
        obtain ⟨m', hlast⟩ := List.getLast?_isSome.mpr (List.ne_nil_of_mem
          (List.mem_of_head? hhead)) |> Option.isSome_iff_exists.mp
        obtain rfl := hwinners.one p m' (List.mem_of_getLast? hlast) m (List.mem_of_head? hhead)
        obtain ⟨g, hg, hgm⟩ := hkept.stored p m' (by rw [happlied]; exact hlast)
        obtain rfl := Option.some.inj (hd.symm.trans hg)
        exact hgm
  · cases hphase : a.phase with
    | waiting => exact GameState.starting_le d.state
    | playing =>
        obtain ⟨p, hp⟩ : s.Entered := by
          by_contra hentered
          by_cases hended : s.Ended
          · exact absurd (hphase.symm.trans (hs.ended.mpr hended)) (by simp)
          · exact absurd (hphase.symm.trans (hs.waiting.mpr ⟨hended, hentered⟩)) (by simp)
        exact (reaches_of_run hforward p _ hp).of_rest hrest hd
    | ended =>
        obtain ⟨p, w, hw, hfin⟩ := hs.ended.mp hphase
        have hle := (reaches_of_run hforward p w hw).of_rest hrest hd
        rwa [hfin] at hle
  · cases hwinner : a.winner with
    | none =>
        by_contra hsome
        obtain ⟨u, hu⟩ := Option.ne_none_iff_exists'.mp hsome
        obtain ⟨p, hp, -⟩ := hbehind.winner u hu
        exact absurd (hwinner.symm.trans hp) (by simp)
    | some p =>
        have hnames := named_of_run h.toRun ((hs.winner p).mp hwinner)
        rcases hnames with hstored | ⟨q, w, hw, -⟩
        · obtain ⟨u, hu⟩ := Option.isSome_iff_exists.mp hstored
          rw [hd] at hu
          obtain ⟨q, hq, rfl⟩ := hbehind.winner u hu
          obtain rfl := Option.some.inj (hwinner.symm.trans hq)
          exact hu
        · exact absurd hw (by simp [hrest q])

/-! ### The refinement -/

/-- **An orderly session is a match.** Every orderly run is a run of the match, which is
abandoned only by an Exit; the stored document is never ahead of the match, and when no write
waits it is the match. -/
theorem match_refined (h : RunWhere (Session.step P) (Orderly P) (init P) es s) :
    ∃ bs a, Run (Match.step Wins) Match.new bs a ∧ (.abandon ∈ bs → Exited es) ∧
      s.Reflects P a ∧ (∀ d, s.stored = some d → Behind P d a) ∧
      (s.AtRest → ∃ d, s.stored = some d ∧ Settled P d a) := by
  obtain ⟨bs, a, hbs, hs, hexited⟩ := reflects_run RunWhere.nil reflects_init h
  refine ⟨bs, a, hbs, hexited, hs, fun d hd => hs.behind h hd, fun hrest => ?_⟩
  obtain ⟨d, hd⟩ := (created_of_run h.toRun).exists_stored hrest
  exact ⟨d, hd, hs.settled h hrest hd⟩

/-- The match of `decided`, which the requester wins. -/
theorem match_refined_decided : ∃ s bs a, Run (Session.step sample) (init sample) decided s ∧
    Run (Match.step Wins) Match.new bs a ∧ a.winner = some .requester := by
  have hrun : RunWhere (Session.step sample) (Orderly sample) (init sample) decided
      ((execWhere (Session.step sample) (Orderly sample) (init sample) decided).get
        (by decide)) := runWhere_get _
  obtain ⟨bs, a, hbs, -, -, -, hsettled⟩ := match_refined hrun
  obtain ⟨d, hd, hmatch⟩ := hsettled fun p => by cases p <;> decide
  have hwinner : ((execWhere (Session.step sample) (Orderly sample) (init sample) decided).get
      (by decide)).stored.bind Game.winner = some (sample.user .requester) := by decide
  rw [hd] at hwinner
  obtain ⟨p, hp, huser⟩ := Option.map_eq_some_iff.mp (hmatch.winner.symm.trans hwinner)
  refine ⟨_, bs, a, hrun.toRun, hbs, ?_⟩
  cases p with
  | requester => exact hp
  | acceptor => exact absurd huser (by decide)

/-- Nobody picks `idle`. -/
theorem ne_idle_of_issued (h : Run (Session.step P) (init P) es s) {m : Moves}
    (hm : m ∈ s.issuedPicks P p) : m ≠ .idle := by
  suffices hI : ∀ p, ∀ m ∈ s.issuedPicks P p, m ≠ .idle from hI p m hm
  refine h.invariant (I := fun s => ∀ p, ∀ m ∈ s.issuedPicks P p, m ≠ .idle) ?_ ?_
  · intro p m hm
    rw [issuedPicks, picks_init] at hm
    exact absurd hm (by simp)
  intro t e t' ht _ hstep p m hm
  rcases (step_of_step_eq hstep).issuedPicks with
    hsame | ⟨place, move, sc, -, -, hmove, -, -, hself, hother⟩
  · exact ht p m (hsame p ▸ hm)
  · by_cases hp : p = sc.owner
    · rw [hp, hself] at hm
      rcases List.mem_append.mp hm with hold | hnew
      · exact ht sc.owner m hold
      · rwa [List.mem_singleton.mp hnew]
    · exact ht p m (hother p hp ▸ hm)

/-- **What is stored at rest stays stored.** Between two states of an orderly run in which no
write waits, picks, the end and the winner stay; after the end no move changes; the winner's
move beats the other; and a game that was finished without an Exit was picked in by both. -/
theorem settled_extends {t : Session} {es' : List Event} {d' : Game}
    (h : RunWhere (Session.step P) (Orderly P) (init P) es s)
    (h' : RunWhere (Session.step P) (Orderly P) s es' t) (hs : s.AtRest) (ht : t.AtRest)
    (hd : s.stored = some d) (hd' : t.stored = some d') :
    (∀ p m, d.moves (P.userId p) = some m → m ≠ .idle → d'.moves (P.userId p) = some m) ∧
      (d.state = .finished →
        d'.state = .finished ∧ ∀ p, d'.moves (P.userId p) = d.moves (P.userId p)) ∧
      (∀ u, d.winner = some u → d'.winner = some u ∧ ∃ p m o, u = P.user p ∧
        d.moves (P.userId p) = some m ∧ d.moves (P.userId p.other) = some o ∧ o < m) ∧
      (d'.state = .finished → ¬ Exited (es ++ es') →
        ∀ p, d'.moves (P.userId p) ≠ some .idle) := by
  obtain ⟨bs, a, hbs, hreflects, hexited⟩ := reflects_run RunWhere.nil reflects_init h
  obtain ⟨bs', a', hbs', hreflects', hexited'⟩ := reflects_run h hreflects h'
  have hsettled := hreflects.settled h hs hd
  have hsettled' := hreflects'.settled (h.append h') ht hd'
  have hextends := Match.extends_of_run hbs'
  refine ⟨fun p m hm hidle => ?_, fun hfin => ?_, fun u hu => ?_, fun hfin hnot p hp => ?_⟩
  · rw [hsettled.moves] at hm
    cases hpick : a.picks p with
    | none => exact absurd (by simpa [hpick] using hm.symm) hidle
    | some m' =>
        rw [hsettled'.moves, hextends.picks p m' hpick]
        simpa [hpick] using hm
  · have hended : a.phase = .ended := GameState.ofPhase_eq_finished (hsettled.state ▸ hfin)
    obtain ⟨hended', hpicks⟩ := hextends.ended hended
    refine ⟨by rw [hsettled'.state, hended']; rfl, fun p => ?_⟩
    rw [hsettled'.moves, hpicks, hsettled.moves]
  · obtain ⟨p, hp, rfl⟩ := Option.map_eq_some_iff.mp (hsettled.winner.symm.trans hu)
    refine ⟨by rw [hsettled'.winner, hextends.winner p hp]; rfl, p, ?_⟩
    obtain ⟨-, m, o, hm, ho, hlt⟩ := (Match.sound_of_run hbs).winner p hp
    exact ⟨m, o, rfl, by rw [hsettled.moves, hm]; rfl, by rw [hsettled.moves, ho]; rfl, hlt⟩
  · have hended : a'.phase = .ended := GameState.ofPhase_eq_finished (hsettled'.state ▸ hfin)
    rcases Match.picks_of_ended (hbs.append hbs') hended with hpicks | habandon
    · obtain ⟨m, hm⟩ := Option.ne_none_iff_exists'.mp (hpicks p)
      have hissued : m ∈ t.issuedPicks P p :=
        List.mem_of_head? ((hreflects'.picks p).symm.trans hm)
      rw [hsettled'.moves, hm] at hp
      exact ne_idle_of_issued (h.append h').toRun hissued (Option.some.inj hp)
    · refine hnot ?_
      rcases List.mem_append.mp habandon with hfirst | hsecond
      · obtain ⟨e, he, hexits⟩ := hexited hfirst
        exact ⟨e, List.mem_append_left _ he, hexits⟩
      · obtain ⟨e, he, hexits⟩ := hexited' hsecond
        exact ⟨e, List.mem_append_right _ he, hexits⟩

/-- The echo of the decided game leaves the requester's rock and the winner. -/
theorem settled_extends_decided : ∃ s t d, Run (Session.step sample) (init sample) decided s ∧
    Run (Session.step sample) s decidedEcho t ∧ t.stored = some d ∧
      d.moves "uid2" = some .rock ∧ d.winner = some (sample.user .requester) := by
  have hrun : RunWhere (Session.step sample) (Orderly sample) (init sample) decided
      ((execWhere (Session.step sample) (Orderly sample) (init sample) decided).get
        (by decide)) := runWhere_get _
  have hrun' : RunWhere (Session.step sample) (Orderly sample) _ decidedEcho
      ((execWhere (Session.step sample) (Orderly sample) ((execWhere (Session.step sample)
        (Orderly sample) (init sample) decided).get (by decide)) decidedEcho).get
          (by decide)) := runWhere_get _
  have hextends := settled_extends hrun hrun' (fun p => by cases p <;> decide)
    (fun p => by cases p <;> decide) rfl rfl
  exact ⟨_, _, _, hrun.toRun, hrun'.toRun, rfl,
    hextends.1 .requester .rock (by decide) (by decide), (hextends.2.2.1 _ (by decide)).1⟩

end Session

end RockPaperScissors
