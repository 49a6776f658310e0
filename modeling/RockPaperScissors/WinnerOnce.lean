import RockPaperScissors.Creation
import RockPaperScissors.Winners

/-!
# The Stored Winner

Each snapshot of a finished game runs `animateMoves` and `checkForWinner` again. In a
drawn game that writes the local copy, and the walkover branch has put the local user
into it by the time the completion of `animateMoves` fires: each client writes itself as
the winner, which sends the other client another snapshot (`winner_changed`).

The stored winner is written once when no client changes its pick and no draw is found
on a screen whose local copy has a winner.

## Main results

* `winner_written_once`: in every run that meets `OneResult`, a stored winner stays, with
  its id.
* `winner_changed`: without the condition it changes, and no user does anything for it.
-/

open TransitionSystem

namespace RockPaperScissors

/-- The event is an action of a user. -/
def Event.userAction : Event → Bool
  | .input _ (.pick _) => true
  | .input _ .exit => true
  | .input _ .home => true
  | _ => false

namespace Session

/-- **The event settles the result once**: it picks no second move of a client, and finds
no draw on a screen whose local copy has a winner. -/
def OneResult (P : Pairing) (s : Session) (e : Event) : Prop :=
  s.PicksOneMove P e ∧ s.DrawsUnnamed P e

instance (P : Pairing) (s : Session) (e : Event) : Decidable (s.OneResult P e) :=
  inferInstanceAs (Decidable (_ ∧ _))

/-- The id of the stored winner. -/
def winnerId (s : Session) : Option String :=
  (s.stored.bind Game.winner).bind User.id

variable {P : Pairing} {s s' t : Session} {e : Event} {p : Player}

/-- The winners that are named in runs that settle the result once. -/
theorem winners_of_run {es : List Event}
    (h : RunWhere (Session.step P) (OneResult P) (init P) es s) : s.Winners P true := by
  refine h.invariant_events (I := fun _ s => s.Winners P true) winners_init ?_
  intro es t e t' hrun ht hC hstep
  have hheld : ∀ g, t.Holds g → P.Copy g ∧ t.EntriesPicked P g := fun g hg =>
    ⟨copy_of_run hrun.toRun g hg, entriesPicked_of_run hrun.toRun g hg⟩
  exact ht.step (step_of_step_eq hstep) hheld hC.1 (fun _ => hC.2) (by simp)

/-- The stored document has a winner. -/
def HasWinner (s : Session) : Prop :=
  (s.stored.bind Game.winner).isSome

/-- No write but a creation removes a stored winner. -/
theorem HasWinner.commit (hs : s.HasWinner) (hcreated : s.Created P)
    (h : s.store.commit p = some s'.store) : s'.HasWinner := by
  obtain ⟨u, hu⟩ := Option.isSome_iff_exists.mp hs
  obtain ⟨g, hg, hgu⟩ := Option.bind_eq_some_iff.mp hu
  obtain ⟨w, ws, hout, -, hstored⟩ := stored_commit h
  have hw : w.creates = false := hcreated.not_create hg p w (hout ▸ List.mem_cons_self)
  rw [hg] at hstored
  rw [HasWinner, hstored]
  cases w with
  | create _ => exact absurd hw (by simp [GameWrite.creates])
  | status _ => simp [GameWrite.apply, hgu]
  | picked game | decided game =>
      cases hgame : game.winner with
      | none => simp [GameWrite.apply, GameWrite.mergeInto, Game.merge_winner_of_none hgame, hgu]
      | some v =>
          simp [GameWrite.apply, GameWrite.mergeInto, Game.merge, Game.mergeWinner, hgame, hgu]

/-- A stored winner stays, at every step. -/
theorem HasWinner.step (hs : s.HasWinner) (hcreated : s.Created P) (h : Step P s e s') :
    s'.HasWinner := by
  rcases h.store with ⟨p, -, hcommit⟩ | ⟨p, ws, -, hstore⟩
  · exact hs.commit hcreated hcommit
  · rw [HasWinner, stored_issue hstore]
    exact hs

/-- A stored winner is the winning player, with its id. -/
theorem Winners.winnerId {walkovers : Bool} (hs : s.Winners P walkovers) (h : s.HasWinner) :
    ∃ p, s.Beats P p ∧ s.winnerId = some (P.userId p) := by
  obtain ⟨u, hu⟩ := Option.isSome_iff_exists.mp h
  obtain ⟨g, hg, hgu⟩ := Option.bind_eq_some_iff.mp hu
  obtain ⟨p, hp, rfl⟩ := hs.stored hg u hgu
  exact ⟨p, hp, by rw [Session.winnerId, hu]; exact P.user_id p⟩

/-- **The stored winner is written once.** In every run that settles the result once, a
stored winner stays, with its id. -/
theorem winner_written_once {es es' : List Event}
    (h : RunWhere (Session.step P) (OneResult P) (init P) es s)
    (h' : RunWhere (Session.step P) (OneResult P) s es' t) {i : String}
    (hi : s.winnerId = some i) : t.winnerId = some i := by
  have hkeep : (∀ q, s.issuedPicks P q ⊆ t.issuedPicks P q) ∧ (s.HasWinner → t.HasWinner) := by
    refine h'.monotone (I := fun u => ∃ es, RunWhere (Session.step P) (OneResult P) (init P) es u)
      (R := fun s t => (∀ q, s.issuedPicks P q ⊆ t.issuedPicks P q) ∧
        (s.HasWinner → t.HasWinner)) ?_ ?_ ⟨es, h⟩ ?_ ?_
    · exact fun u => ⟨fun q => List.Subset.refl _, id⟩
    · exact fun u v w huv hvw => ⟨fun q => List.Subset.trans (huv.1 q) (hvw.1 q), hvw.2 ∘ huv.2⟩
    · rintro u e v ⟨us, hu⟩ hC hstep
      exact ⟨us ++ [e], hu.snoc hC hstep⟩
    · rintro u e v ⟨us, hu⟩ _ hstep
      have hstep := step_of_step_eq hstep
      exact ⟨hstep.issuedPicks_subset, fun hw => hw.step (created_of_run hu.toRun) hstep⟩
  have hwinner : s.HasWinner := by
    obtain ⟨u, hu, -⟩ := Option.bind_eq_some_iff.mp hi
    exact Option.isSome_iff_exists.mpr ⟨u, hu⟩
  obtain ⟨p, hp, hpi⟩ := (winners_of_run h).winnerId hwinner
  have ht : t.Winners P true := winners_of_run (h.append h')
  obtain ⟨q, hq, hqi⟩ := ht.winnerId (hkeep.2 hwinner)
  obtain rfl := (hp.mono hkeep.1).unique ht.one hq
  rw [hqi, ← hpi, hi]

/-- The requester's rock beats the acceptor's scissors, and the requester's client writes
the winner. -/
def decided : List Event :=
  opening ++ [.input 1 (.pick .rock), .commit .requester, .snapshot 0 3,
    .input 0 .deliver, .input 0 (.pick .scissors), .commit .acceptor, .snapshot 1 4,
    .input 1 .deliver, .commit .requester, .input 1 (.fire 1 true), .input 1 (.fire 2 true),
    .commit .requester]

/-- The acceptor's client receives the decided game, and the echo reaches the requester's,
which writes the winner again. -/
def decidedEcho : List Event :=
  [.snapshot 0 6, .input 0 .deliver, .snapshot 1 6, .input 1 .deliver, .commit .requester]

/-- The requester stays the winner. -/
theorem winner_written_once_decided : ∃ s t, Run (Session.step sample) (init sample) decided s ∧
    Run (Session.step sample) s decidedEcho t ∧ t.winnerId = some "uid2" := by
  have hrun : RunWhere (Session.step sample) (OneResult sample) (init sample) decided
      ((execWhere (Session.step sample) (OneResult sample) (init sample) decided).get
        (by decide)) := runWhere_get _
  have hrun' : RunWhere (Session.step sample) (OneResult sample) _ decidedEcho
      ((execWhere (Session.step sample) (OneResult sample)
        ((execWhere (Session.step sample) (OneResult sample) (init sample) decided).get
          (by decide)) decidedEcho).get (by decide)) := runWhere_get _
  exact ⟨_, _, hrun.toRun, hrun'.toRun, winner_written_once hrun hrun' (by decide)⟩

/-- Both play rock. The requester's client receives the finished game, names its own user
by a walkover, and the completion of `animateMoves` writes that. -/
def drawnOnce : List Event :=
  opening ++ [.input 1 (.pick .rock), .commit .requester, .snapshot 0 3,
    .input 0 .deliver, .input 0 (.pick .rock), .commit .acceptor, .snapshot 0 4,
    .input 0 .deliver, .commit .acceptor, .snapshot 1 5, .input 1 .deliver,
    .input 1 (.fire 0 true), .commit .requester, .commit .requester]

/-- The acceptor's client receives the finished game and does the same. -/
def drawnAgain : List Event :=
  [.snapshot 0 5, .input 0 .deliver, .input 0 (.fire 0 true), .commit .acceptor,
    .commit .acceptor]

/-- **The stored winner changes**: in a drawn game the clients overwrite each other's
result, without any user action. -/
theorem winner_changed : ¬ ∀ (P : Pairing) (es es' : List Event) (s t : Session),
    Run (Session.step P) (init P) es s →
    RunWhere (Session.step P) (fun _ e => e.userAction = false) s es' t →
    ∀ i, s.winnerId = some i → t.winnerId = some i := by
  intro h
  have hrun : Run (Session.step sample) (init sample) drawnOnce
      ((exec (Session.step sample) (init sample) drawnOnce).get (by decide)) :=
    runWhere_get _
  have hrun' : RunWhere (Session.step sample) (fun _ e => e.userAction = false) _ drawnAgain
      ((execWhere (Session.step sample) (fun _ e => e.userAction = false)
        ((exec (Session.step sample) (init sample) drawnOnce).get (by decide))
          drawnAgain).get (by decide)) := runWhere_get _
  exact absurd (h sample _ _ _ _ hrun hrun' "uid2" (by decide)) (by decide)

end Session

end RockPaperScissors
