import RockPaperScissors.Writes

/-!
# Lost Moves

`pickedMove` and the finishing functions write the whole local game, the entry of the
opponent included, as the client saw it last. A write that waits while the opponent
picks puts the old entry back when it is committed: two clients that pick at the same
time lose one of the moves (`lost_move`).

No move is lost as long as no client writes a **stale entry**. `Fresh` says so of the
copy an event is about to write, before it is written: its entry for the opponent is
every pick of the opponent that counts or is going to, its own entry is the client's
last pick, and a pick finds no other entry for the picker waiting at the opponent's
client.

## Main results

* `Kept.step`: the invariant, over the store and the writes that wait to be applied.
* `no_lost_move`: in every run whose events write no stale entry, the stored entry of a
  player is the player's most recently applied pick.
* `lost_move`: without the condition it is not.
-/

open TransitionSystem

namespace RockPaperScissors

namespace Session

variable (P : Pairing) (s : Session)

/-- The picks of `p` that have been applied to the stored document, in order. -/
def appliedPicks (p : Player) : List Moves :=
  GameWrite.picks P p (s.store.committedBy p)

/-- The picks of `p` the stored document holds or is going to hold: the last one applied
and all that wait. -/
def openPicks (p : Player) : List Moves :=
  (s.appliedPicks P p).getLast?.toList ++ GameWrite.picks P p (s.store.outbox p)

/-- The copy that the client of `p` is about to write has the entry of the opponent as
the opponent picked it. -/
def OpponentFresh (p : Player) (copy : Game) : Prop :=
  ∀ m ∈ s.openPicks P p.other, copy.moves (P.userId p.other) = some m

/-- The same of the client's own entry, which a pick replaces by a move that no write of
the opponent's client may undo. -/
def OwnFresh (p : Player) (copy : Game) (move : Option Moves) : Prop :=
  match move with
  | some m => ∀ w ∈ s.store.outbox p.other, ∀ g ∈ w.game?, g.moves (P.userId p) = some m
  | none => ∀ m ∈ (s.issuedPicks P p).getLast?, copy.moves (P.userId p) = some m

/-- **The event writes no stale entry.** -/
def Fresh (e : Event) : Prop :=
  ∀ c ∈ s.copyWritten P e, s.OpponentFresh P c.1 c.2 ∧ s.OwnFresh P c.1 c.2 e.move?

instance (p : Player) (copy : Game) (move : Option Moves) :
    Decidable (s.OwnFresh P p copy move) :=
  match move with
  | some _ => inferInstanceAs (Decidable (∀ w ∈ _, _))
  | none => inferInstanceAs (Decidable (∀ m ∈ _, _))

instance (p : Player) (copy : Game) : Decidable (s.OpponentFresh P p copy) :=
  inferInstanceAs (Decidable (∀ m ∈ _, _))

instance (e : Event) : Decidable (s.Fresh P e) :=
  inferInstanceAs (Decidable (∀ c ∈ _, _))

/-- The invariant: what waits at a client carries the open picks of the other player and
the client's own pick of the time, and the stored document has the applied picks. -/
structure Kept : Prop where
  waiting : ∀ p, ∀ w ∈ s.store.outbox p.other, ∀ g, w.game? = some g →
    ∀ m ∈ s.openPicks P p, g.moves (P.userId p) = some m
  own : ∀ p ws w ws' g, s.store.issuedBy p = ws ++ w :: ws' → w.game? = some g →
    ∀ m, (GameWrite.picks P p (ws ++ [w])).getLast? = some m →
      g.moves (P.userId p) = some m
  stored : ∀ p m, (s.appliedPicks P p).getLast? = some m →
    ∃ g, s.stored = some g ∧ g.moves (P.userId p) = some m

variable {P s} {s' : Session} {e : Event} {p : Player}

/-- A new session has no picks. -/
theorem picks_init (p : Player) :
    GameWrite.picks P p ((init P).store.issuedBy p) = [] := by
  cases p <;> rfl

/-- There is no move to keep at first. -/
theorem kept_init : (init P).Kept P := by
  have happlied : ∀ p, (init P).appliedPicks P p = [] := fun p => by cases p <;> rfl
  have hopen : ∀ p, (init P).openPicks P p = [] := fun p => by cases p <;> rfl
  refine ⟨?_, ?_, ?_⟩
  · intro p w _ g _ m hm
    exact absurd hm (by simp [hopen])
  · intro p ws w ws' g hissued _ m hm
    have hnone : GameWrite.picks P p ((ws ++ [w]) ++ ws') = [] := by
      rw [List.append_assoc, List.singleton_append, ← hissued]
      exact picks_init p
    rw [GameWrite.picks_append, List.append_eq_nil_iff] at hnone
    exact absurd hm (by simp [hnone.1])
  · intro p m hm
    exact absurd hm (by simp [happlied])

/-! ### Commits -/

/-- A commit of the client of `p` leaves `p` the open picks it had, or fewer. -/
theorem openPicks_commit {q : Player} (h : s.store.commit p = some s'.store) {m : Moves}
    (hm : m ∈ s'.openPicks P q) : m ∈ s.openPicks P q := by
  obtain ⟨w, ws, hout, hstore⟩ := WriteLog.commit_eq_some_iff.mp h
  by_cases hq : q = p
  · subst hq
    simp only [openPicks, appliedPicks, hstore, WriteLog.committedBy_snoc,
      Function.update_self, GameWrite.picks_append] at hm
    have hwaiting : GameWrite.picks P q (s.store.outbox q) =
        GameWrite.picks P q [w] ++ GameWrite.picks P q ws := by
      rw [hout, ← GameWrite.picks_append, List.singleton_append]
    rw [openPicks, hwaiting]
    rcases List.mem_append.mp hm with hlast | hrest
    · rw [Option.mem_toList, List.getLast?_append] at hlast
      rcases Option.or_eq_some_iff.mp hlast with hnew | ⟨-, hold⟩
      · have hmem := List.mem_of_getLast? hnew
        exact List.mem_append_right _ (List.mem_append_left _ hmem)
      · exact List.mem_append_left _ (Option.mem_toList.mpr hold)
    · exact List.mem_append_right _ (List.mem_append_right _ hrest)
  · simpa only [openPicks, appliedPicks, hstore, WriteLog.committedBy_snoc_of_ne hq,
      Function.update_of_ne hq] using hm

/-- **A commit keeps the invariant**: it applies a write that carries the picks. -/
theorem Kept.commit (hs : s.Kept P) (h : s.store.commit p = some s'.store) :
    s'.Kept P := by
  refine ⟨?_, ?_, ?_⟩
  · intro q w hw g hg m hm
    exact hs.waiting q w (WriteLog.mem_outbox_commit h hw) g hg m (openPicks_commit h hm)
  · intro q ws w ws' g hissued hg m hm
    rw [WriteLog.issuedBy_commit h] at hissued
    exact hs.own q ws w ws' g hissued hg m hm
  · intro q m hm
    obtain ⟨w, ws, hout, hstore, happly⟩ := stored_commit h
    rw [happly]
    cases hgame : w.game? with
    | some g =>
        refine GameWrite.moves_apply hgame ?_ _
        rcases p.eq_or_eq_other q with rfl | rfl
        · have hissued : s.store.issuedBy q = s.store.committedBy q ++ w :: ws := by
            rw [WriteLog.issuedBy, hout]
          refine hs.own q _ w ws g hissued hgame m ?_
          rw [appliedPicks, hstore, WriteLog.committedBy_snoc] at hm
          exact hm
        · have hmem : w ∈ s.store.outbox p.other.other := by
            rw [Player.other_other, hout]
            exact List.mem_cons_self
          refine hs.waiting p.other w hmem g hgame m (openPicks_commit h ?_)
          exact List.mem_append_left _ (by simpa using hm)
    | none =>
        have happlied : (s.appliedPicks P q).getLast? = some m := by
          by_cases hq : q = p
          · subst hq
            rw [appliedPicks, hstore, WriteLog.committedBy_snoc, GameWrite.picks_append,
              GameWrite.picks_singleton_of_game?_eq_none hgame, List.append_nil] at hm
            exact hm
          · rw [appliedPicks, hstore, WriteLog.committedBy_snoc_of_ne hq] at hm
            exact hm
        obtain ⟨g, hg, hgm⟩ := hs.stored q m happlied
        obtain ⟨d, hd, hmoves⟩ := GameWrite.moves_apply_of_game?_eq_none hgame g
        rw [hg]
        exact ⟨d, hd, by rw [hmoves, hgm]⟩

/-! ### Issues -/

/-- An issue adds the new pick to the open ones. -/
theorem openPicks_issue {q : Player} {ws : List GameWrite}
    (h : s'.store = s.store.issue p ws) : s'.openPicks P q =
      s.openPicks P q ++ if q = p then GameWrite.picks P p ws else [] := by
  by_cases hq : q = p
  · subst hq
    simp [openPicks, appliedPicks, h, GameWrite.picks_append]
  · simp [openPicks, appliedPicks, h, WriteLog.issue_outbox_of_ne hq, hq]

/-- A fresh write carries the open picks of the opponent. -/
theorem Issues.opponent_fresh {ws : List GameWrite} {w : GameWrite} {g : Game}
    (h : Issues P s e p ws) (hC : s.Fresh P e) (hw : w ∈ ws) (hg : w.game? = some g) :
    ∀ m ∈ s.openPicks P p.other, g.moves (P.userId p.other) = some m := by
  obtain ⟨copy, hcopy, hcases⟩ := h.copyWritten hw hg
  obtain ⟨hopp, -⟩ := hC (p, copy) hcopy
  intro m hm
  rcases hcases with ⟨move, -, -, rfl⟩ | ⟨-, -, hmoves⟩
  · rw [Game.setMove_of_ne copy move (P.userId_other_ne p)]
    exact hopp m hm
  · rw [hmoves]
    exact hopp m hm

/-- A fresh pick agrees with what waits at the opponent's client. -/
theorem Issues.pick_fresh {ws : List GameWrite} {m : Moves} (h : Issues P s e p ws)
    (hC : s.Fresh P e) (hm : m ∈ GameWrite.picks P p ws) :
    ∀ w ∈ s.store.outbox p.other, ∀ g, w.game? = some g →
      g.moves (P.userId p) = some m := by
  obtain ⟨w, hw, hpick⟩ := List.mem_filterMap.mp hm
  cases w with
  | picked game =>
      obtain ⟨copy, hcopy, hcases⟩ := h.copyWritten hw rfl
      obtain ⟨-, hown⟩ := hC (p, copy) hcopy
      rcases hcases with ⟨move, hmove, -, rfl⟩ | ⟨-, hdecided, -⟩
      · have hmm : move = m := by simpa [GameWrite.pick?] using hpick
        subst hmm
        simp only [OwnFresh, hmove] at hown
        exact hown
      · exact absurd hdecided (by simp)
  | create _ | decided _ | status _ => exact absurd hpick (by simp [GameWrite.pick?])

/-- A fresh write carries the client's last pick, its own included. -/
theorem Issues.own_fresh {ws : List GameWrite} {w : GameWrite} {g : Game} {m : Moves}
    (h : Issues P s e p ws) (hC : s.Fresh P e) (hw : w ∈ ws) (hg : w.game? = some g)
    (hm : (GameWrite.picks P p (s.store.issuedBy p ++ [w])).getLast? = some m) :
    g.moves (P.userId p) = some m := by
  obtain ⟨copy, hcopy, hcases⟩ := h.copyWritten hw hg
  obtain ⟨-, hown⟩ := hC (p, copy) hcopy
  rw [GameWrite.picks_append, List.getLast?_append] at hm
  rcases hcases with ⟨move, -, rfl, rfl⟩ | ⟨hmove, rfl, hmoves⟩
  · simpa [GameWrite.picks, GameWrite.pick?] using hm
  · simp only [OwnFresh, hmove] at hown
    rw [hmoves]
    exact hown m (by simpa [issuedPicks, GameWrite.picks, GameWrite.pick?] using hm)

/-- **An issue of a fresh write keeps the invariant.** -/
theorem Kept.issue {ws : List GameWrite} (hs : s.Kept P) (hC : s.Fresh P e)
    (hissues : Issues P s e p ws) (h : s'.store = s.store.issue p ws) : s'.Kept P := by
  refine ⟨?_, ?_, ?_⟩
  · intro q w hw g hg m hm
    rw [openPicks_issue h] at hm
    rcases p.eq_or_eq_other q with rfl | rfl
    · rw [h, WriteLog.issue_outbox_of_ne (Player.other_ne q)] at hw
      rcases List.mem_append.mp hm with hold | hnew
      · exact hs.waiting q w hw g hg m hold
      · exact hissues.pick_fresh hC (by simpa using hnew) w hw g hg
    · rw [if_neg (Player.other_ne p), List.append_nil] at hm
      rw [h, Player.other_other, WriteLog.issue_outbox_self] at hw
      rcases List.mem_append.mp hw with hold | hnew
      · exact hs.waiting p.other w (by rwa [Player.other_other]) g hg m hm
      · exact hissues.opponent_fresh hC hnew hg m hm
  · intro q us w us' g hissued hg m hm
    rw [h, WriteLog.issuedBy_issue] at hissued
    by_cases hq : q = p
    · subst hq
      rw [if_pos rfl] at hissued
      rcases hissues.eq_nil_or_singleton with rfl | ⟨w', rfl⟩
      · exact hs.own q us w us' g (by simpa using hissued) hg m hm
      · rcases List.eq_nil_or_concat us' with rfl | ⟨vs, v, rfl⟩
        · obtain ⟨rfl, hlast⟩ := List.append_inj' hissued rfl
          obtain rfl : w' = w := by simpa using hlast
          exact hissues.own_fresh hC List.mem_cons_self hg hm
        · have hsplit : s.store.issuedBy q ++ [w'] = (us ++ w :: vs) ++ [v] := by
            simpa using hissued
          obtain ⟨hinit, -⟩ := List.append_inj' hsplit rfl
          exact hs.own q us w vs g hinit hg m hm
    · rw [if_neg hq, List.append_nil] at hissued
      exact hs.own q us w us' g hissued hg m hm
  · intro q m hm
    have happlied : s'.appliedPicks P q = s.appliedPicks P q := by
      simp [appliedPicks, h]
    rw [happlied] at hm
    rw [stored_issue h]
    exact hs.stored q m hm

/-- **A fresh step keeps the invariant.** -/
theorem Kept.step (hs : s.Kept P) (hC : s.Fresh P e) (h : Step P s e s') : s'.Kept P := by
  rcases h.store with ⟨p, -, hcommit⟩ | ⟨p, ws, hissues, hstore⟩
  · exact hs.commit hcommit
  · exact hs.issue hC hissues hstore

/-! ### The run -/

/-- **No lost move.** In every run whose events write no stale entry, the stored entry
of a player is the player's most recently applied pick. -/
theorem no_lost_move {es : List Event} (h : RunWhere (step P) (Fresh P) (init P) es s)
    {m : Moves} (hm : (s.appliedPicks P p).getLast? = some m) :
    ∃ g, s.stored = some g ∧ g.moves (P.userId p) = some m := by
  have hkept : s.Kept P := h.invariant kept_init fun t e t' ht hC hstep =>
    ht.step hC (step_of_step_eq hstep)
  exact hkept.stored p m hm

/-- The acceptor picks after it has seen the pick of the requester. -/
def takingTurns : List Event :=
  opening ++ [.input 1 (.pick .rock), .commit .requester, .snapshot 0 3,
    .input 0 .deliver, .input 0 (.pick .scissors), .commit .acceptor]

/-- Taking turns keeps the requester's rock. -/
theorem no_lost_move_takingTurns : ∃ s g, Run (step sample) (init sample) takingTurns s ∧
    s.stored = some g ∧ g.moves "uid2" = some .rock := by
  have hrun : RunWhere (step sample) (Fresh sample) (init sample) takingTurns
      ((execWhere (step sample) (Fresh sample) (init sample) takingTurns).get
        (by decide)) := runWhere_get _
  obtain ⟨g, hg, hm⟩ := no_lost_move (p := .requester) (m := .rock) hrun (by decide)
  exact ⟨_, g, hrun.toRun, hg, hm⟩

/-- Both pick at the same time, and the acceptor's write is committed last. -/
def atOnce : List Event :=
  opening ++ [.input 1 (.pick .rock), .input 0 (.pick .paper), .commit .requester,
    .commit .acceptor]

/-- **A lost move.** The write of the acceptor's paper puts the requester's entry back
to `idle` after the rock was applied. -/
theorem lost_move : ¬ ∀ (P : Pairing) (es : List Event) (s : Session),
    Run (step P) (init P) es s → ∀ p m, (s.appliedPicks P p).getLast? = some m →
      ∃ g, s.stored = some g ∧ g.moves (P.userId p) = some m := by
  intro h
  have hrun : Run (step sample) (init sample) atOnce
      ((exec (step sample) (init sample) atOnce).get (by decide)) := runWhere_get _
  obtain ⟨g, hg, hm⟩ := h sample atOnce _ hrun .requester .rock (by decide)
  have hidle : ((exec (step sample) (init sample) atOnce).get (by decide)).stored.map
      (fun g => g.moves "uid2") = some (some .idle) := by decide
  rw [hg] at hidle
  exact absurd (hm.symm.trans (Option.some.inj hidle)) (by decide)

end Session

end RockPaperScissors
