import RockPaperScissors.Writes

/-!
# The State of the Game

Four places of the source write `state`: `enterGame` and `showAlertForExit` write it
alone, the first without a look at the stored one, `pickedMove` writes it with the rest
of a local copy, and the finishing functions write `finished`. A write that waits while
the other client writes a later state takes the game back, `finished` included
(`state_back`), and `checkForOngoingGameWith` reports the game again.

The state only rises as long as every event that writes one writes it **forward**:
no earlier state than the stored one and those the client has waiting, and the one
state the other client has waiting, since either may be committed first.

## Main results

* `Rising.commit`, `Rising.issue`: the invariant over the store and the waiting writes.
* `state_forward`: in every run whose events write forward the stored state never falls,
  and a finished game is not reported as ongoing again.
* `state_back`: without the condition it falls.
-/

open TransitionSystem

namespace RockPaperScissors

namespace Session

variable (P : Pairing) (s t : Session)

/-- **The event writes a state forward.** -/
def Forward (e : Event) : Prop :=
  ∀ c ∈ s.stateWritten P e, (∀ g ∈ s.stored, g.state ≤ c.2) ∧
    (∀ w ∈ s.store.outbox c.1, w.state ≤ c.2) ∧
    ∀ w ∈ s.store.outbox c.1.other, w.state = c.2

instance (e : Event) : Decidable (s.Forward P e) :=
  inferInstanceAs (Decidable (∀ c ∈ _, _))

/-- The invariant: no waiting write has an earlier state than the stored document or a
write of the same client before it, and the two clients' waiting writes agree. -/
structure Rising : Prop where
  stored : ∀ p, ∀ w ∈ s.store.outbox p, ∀ g, s.stored = some g → g.state ≤ w.state
  sorted : ∀ p, (s.store.outbox p).Pairwise fun w w' => w.state ≤ w'.state
  agree : ∀ p, ∀ w ∈ s.store.outbox p, ∀ w' ∈ s.store.outbox p.other, w.state = w'.state

/-- The game is not reported as ongoing: neither by a query that reads the stored
document nor by one of a player, who sees its own waiting writes over it. -/
def NotOngoing : Prop :=
  ∀ userId, checkForOngoingGameWith s.stored.toList userId = false ∧
    ∀ p, checkForOngoingGameWith (s.view p s.store.log.length).toList userId = false

/-- Between two states of a session the game has only moved forward. -/
def MovesForward : Prop :=
  ∀ d, s.stored = some d → ∃ d', t.stored = some d' ∧ d.state ≤ d'.state ∧
    (d.state = .finished → t.NotOngoing)

variable {P s t} {s' : Session} {e : Event} {p : Player}

/-- There is no state to fall back from at first. -/
theorem rising_init : (init P).Rising := by
  refine ⟨?_, ?_, ?_⟩
  · intro p w _ g hg
    exact absurd hg (by simp [Session.stored, init, WriteLog.current, WriteLog.issue,
      WriteLog.empty, WriteLog.replay])
  · intro p
    cases p <;> simp [init, WriteLog.issue, WriteLog.empty]
  · intro p
    cases p <;> simp [init, WriteLog.issue, WriteLog.empty, Player.other]

/-- A document that finished games and finishing writes make is not ongoing. -/
theorem checkForOngoingGameWith_toList {doc : Option Game}
    (h : ∀ g, doc = some g → g.state = .finished) (userId : String) :
    checkForOngoingGameWith doc.toList userId = false := by
  cases doc with
  | none => rfl
  | some g => simp [checkForOngoingGameWith, h g rfl]

/-- A finished game, over which nothing earlier waits, is not ongoing. -/
theorem Rising.notOngoing (hs : s.Rising) {d : Game} (hd : s.stored = some d)
    (hfin : d.state = .finished) : s.NotOngoing := by
  intro userId
  have hstored : ∀ g, s.stored = some g → g.state = .finished := by
    intro g hg
    obtain rfl : d = g := Option.some.inj (hd.symm.trans hg)
    exact hfin
  refine ⟨checkForOngoingGameWith_toList hstored userId, fun p => ?_⟩
  refine checkForOngoingGameWith_toList ?_ userId
  refine WriteLog.replay_invariant (I := fun doc : Option Game => ∀ g, doc = some g →
    g.state = .finished) ?_ fun w hw doc _ g hg => ?_
  · rw [WriteLog.atVersion_length]
    exact hstored
  · have hwaits : w ∈ s.store.outbox p := by simpa [WriteLog.unseen] using hw
    rw [GameWrite.state_of_apply hg]
    exact GameState.eq_finished_of_le (hfin ▸ hs.stored p w hwaits d hd)

/-- **A commit keeps the invariant and moves forward**: it applies a state that no
waiting write is behind. -/
theorem Rising.commit (hs : s.Rising) (h : s.store.commit p = some s'.store) :
    s'.Rising ∧ ∀ d, s.stored = some d → ∃ d', s'.stored = some d' ∧ d.state ≤ d'.state := by
  obtain ⟨w, ws, hout, hstore, hstored⟩ := stored_commit h
  have hw : w ∈ s.store.outbox p := hout ▸ List.mem_cons_self
  have hsorted := hs.sorted p
  rw [hout, List.pairwise_cons] at hsorted
  have hself : s'.store.outbox p = ws := by
    rw [hstore]
    exact Function.update_self ..
  have hother : s'.store.outbox p.other = s.store.outbox p.other := by
    rw [hstore]
    exact Function.update_of_ne (Player.other_ne p) ..
  refine ⟨⟨?_, ?_, ?_⟩, ?_⟩
  · intro q w' hw' g hg
    rw [hstored] at hg
    rw [GameWrite.state_of_apply hg]
    rcases p.eq_or_eq_other q with rfl | rfl
    · rw [hself] at hw'
      exact hsorted.1 w' hw'
    · rw [hother] at hw'
      exact le_of_eq (hs.agree p w hw w' hw')
  · intro q
    rcases p.eq_or_eq_other q with rfl | rfl
    · rw [hself]
      exact hsorted.2
    · rw [hother]
      exact hs.sorted _
  · intro q v hv v' hv'
    rcases p.eq_or_eq_other q with rfl | rfl
    · rw [hself] at hv
      rw [hother] at hv'
      exact hs.agree q v (hout ▸ List.mem_cons_of_mem _ hv) v' hv'
    · rw [hother] at hv
      rw [Player.other_other, hself] at hv'
      refine hs.agree p.other v hv v' ?_
      rw [Player.other_other, hout]
      exact List.mem_cons_of_mem _ hv'
  · intro d hd
    have hsome : (GameWrite.apply s.stored w).isSome :=
      GameWrite.isSome_apply (by rw [hd]; rfl) w
    obtain ⟨d', hd'⟩ := Option.isSome_iff_exists.mp hsome
    refine ⟨d', by rw [hstored, hd'], ?_⟩
    rw [GameWrite.state_of_apply hd']
    exact hs.stored p w hw d hd

/-- **An issue of a forward write keeps the invariant.** -/
theorem Rising.issue {ws : List GameWrite} (hs : s.Rising) (hC : s.Forward P e)
    (hissues : Issues P s e p ws) (h : s'.store = s.store.issue p ws) : s'.Rising := by
  have hself : s'.store.outbox p = s.store.outbox p ++ ws := by
    rw [h, WriteLog.issue_outbox_self]
  have hother : s'.store.outbox p.other = s.store.outbox p.other := by
    rw [h, WriteLog.issue_outbox_of_ne (Player.other_ne p)]
  have hnew : ∀ w ∈ ws, (∀ g ∈ s.stored, g.state ≤ w.state) ∧
      (∀ v ∈ s.store.outbox p, v.state ≤ w.state) ∧
      ∀ v ∈ s.store.outbox p.other, v.state = w.state :=
    fun w hw => hC (p, w.state) (hissues.stateWritten hw)
  refine ⟨?_, ?_, ?_⟩
  · intro q w hw g hg
    rw [stored_issue h] at hg
    rcases p.eq_or_eq_other q with rfl | rfl
    · rw [hself] at hw
      rcases List.mem_append.mp hw with hold | hw
      · exact hs.stored q w hold g hg
      · exact (hnew w hw).1 g hg
    · rw [hother] at hw
      exact hs.stored _ w hw g hg
  · intro q
    rcases p.eq_or_eq_other q with rfl | rfl
    · rw [hself, List.pairwise_append]
      refine ⟨hs.sorted q, ?_, fun v hv w hw => (hnew w hw).2.1 v hv⟩
      rcases hissues.eq_nil_or_singleton with rfl | ⟨w, rfl⟩
      · exact List.Pairwise.nil
      · exact List.pairwise_singleton _ w
    · rw [hother]
      exact hs.sorted _
  · intro q v hv v' hv'
    rcases p.eq_or_eq_other q with rfl | rfl
    · rw [hself] at hv
      rw [hother] at hv'
      rcases List.mem_append.mp hv with hold | hv
      · exact hs.agree q v hold v' hv'
      · exact ((hnew v hv).2.2 v' hv').symm
    · rw [hother] at hv
      rw [Player.other_other, hself] at hv'
      rcases List.mem_append.mp hv' with hold | hv'
      · exact (hs.agree p v' hold v hv).symm
      · exact (hnew v' hv').2.2 v hv

/-- **A forward step keeps the invariant and moves forward.** -/
theorem Rising.step (hs : s.Rising) (hC : s.Forward P e) (h : Step P s e s') :
    s'.Rising ∧ ∀ d, s.stored = some d → ∃ d', s'.stored = some d' ∧ d.state ≤ d'.state := by
  rcases h.store with ⟨p, -, hcommit⟩ | ⟨p, ws, hissues, hstore⟩
  · exact hs.commit hcommit
  · refine ⟨hs.issue hC hissues hstore, fun d hd => ⟨d, ?_, le_refl _⟩⟩
    rw [stored_issue hstore, hd]

/-- The invariant holds after every run whose events write forward. -/
theorem Rising.run {es : List Event} (hs : s.Rising)
    (h : RunWhere (Session.step P) (Forward P) s es t) : t.Rising :=
  h.invariant hs fun _ _ _ hu hC hstep => (hu.step hC (step_of_step_eq hstep)).1

/-- **The game state only moves forward.** In every run whose events write forward, the
stored state never falls, and a finished game is not reported as ongoing again. -/
theorem state_forward {es es' : List Event}
    (h : RunWhere (step P) (Forward P) (init P) es s)
    (h' : RunWhere (step P) (Forward P) s es' t) : MovesForward s t := by
  have hs : s.Rising := rising_init.run h
  have hmono : ∀ d, s.stored = some d → ∃ d', t.stored = some d' ∧ d.state ≤ d'.state := by
    refine h'.monotone (I := Rising)
      (R := fun s t => ∀ d, s.stored = some d → ∃ d', t.stored = some d' ∧ d.state ≤ d'.state)
      ?_ ?_ hs ?_ ?_
    · exact fun u d hd => ⟨d, hd, le_refl _⟩
    · intro u v w huv hvw d hd
      obtain ⟨d', hd', hle⟩ := huv d hd
      obtain ⟨d'', hd'', hle'⟩ := hvw d' hd'
      exact ⟨d'', hd'', le_trans hle hle'⟩
    · exact fun u e v hu hC hstep => (hu.step hC (step_of_step_eq hstep)).1
    · exact fun u e v hu hC hstep => (hu.step hC (step_of_step_eq hstep)).2
  intro d hd
  obtain ⟨d', hd', hle⟩ := hmono d hd
  refine ⟨d', hd', hle, fun hfin => ?_⟩
  exact (hs.run h').notOngoing hd' (GameState.eq_finished_of_le (hfin ▸ hle))

/-- The acceptor exits the started game. -/
theorem state_forward_exit : ∃ s t, Run (step sample) (init sample) opening s ∧
    Run (step sample) s [.input 0 .exit, .commit .acceptor] t ∧ MovesForward s t := by
  have hrun : RunWhere (step sample) (Forward sample) (init sample) opening
      ((execWhere (step sample) (Forward sample) (init sample) opening).get (by decide)) :=
    runWhere_get _
  have hrun' : RunWhere (step sample) (Forward sample) _ [.input 0 .exit, .commit .acceptor]
      ((execWhere (step sample) (Forward sample) ((execWhere (step sample) (Forward sample)
        (init sample) opening).get (by decide)) [.input 0 .exit, .commit .acceptor]).get
          (by decide)) := runWhere_get _
  exact ⟨_, _, hrun.toRun, hrun'.toRun, state_forward hrun hrun'⟩

/-- The acceptor exits, and the requester, who has not received that, picks. -/
def exitAndPick : List Event :=
  [.input 0 .exit, .commit .acceptor, .input 1 (.pick .rock), .commit .requester]

/-- **A finished game goes on.** The requester's pick carries `inprogress` from its local
copy and is committed after the Exit. -/
theorem state_back : ¬ ∀ (P : Pairing) (es es' : List Event) (s t : Session),
    Run (step P) (init P) es s → Run (step P) s es' t → MovesForward s t := by
  intro h
  have hrun : Run (step sample) (init sample) (opening ++ exitAndPick.take 2)
      ((exec (step sample) (init sample) (opening ++ exitAndPick.take 2)).get
        (by decide)) := runWhere_get _
  have hrun' : Run (step sample) _ (exitAndPick.drop 2)
      ((exec (step sample) ((exec (step sample) (init sample)
        (opening ++ exitAndPick.take 2)).get (by decide)) (exitAndPick.drop 2)).get
          (by decide)) := runWhere_get _
  have hfin : ((exec (step sample) (init sample) (opening ++ exitAndPick.take 2)).get
      (by decide)).stored.map Game.state = some .finished := by decide
  obtain ⟨d, hd, hstate⟩ := Option.map_eq_some_iff.mp hfin
  obtain ⟨-, -, -, hnot⟩ := h sample _ _ _ _ hrun hrun' d hd
  exact absurd (hnot hstate "uid1").1 (by decide)

end Session

end RockPaperScissors
