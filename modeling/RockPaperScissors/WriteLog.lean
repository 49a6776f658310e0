import Mathlib.Data.List.Basic
import Mathlib.Logic.Function.Basic
import Mathlib.Tactic.TypeStar

/-!
# A Shared Document Written Through Per-Client Queues

The store of a document database with latency compensation, for any type of clients,
of documents and of writes. A client **issues** a write into its own outbox; the
backend **commits** the oldest write of some outbox, one at a time, at the end of a
common log, or **rejects** it. The stored document is the replay of the log, and a
version of it the replay of a prefix.

What a client sees is not the stored document: a listener that has received version
`n` shows that version with the client's own writes that are not part of it laid over
it in issue order (`view`). These are the client's later entries of the log, committed
but not received yet, and then its outbox.

## Main results

* `issuedBy_commit`, `issuedBy_issue`: the writes of a client, in issue order, are
  changed by no commit and extended by an issue of that client only.
* `current_commit`, `current_issue`: the stored document changes by commits only.
* `visible_subset_of_le`, `visible_subset_commit`, `visible_subset_issue`: what a client has
  seen it goes on seeing.
* `current_invariant`, `atVersion_invariant`, `view_invariant`: what holds of the
  initial document and is preserved by every issued write holds of the stored document,
  of every version and of every view.
-/

/-- The committed writes of a document, oldest first, and each client's issued writes
that are not committed yet. -/
structure WriteLog (Client Write : Type*) where
  log : List (Client × Write)
  outbox : Client → List Write

namespace WriteLog

variable {Client Write Doc : Type*}

/-- Lay writes over a document, the first one first. -/
def replay (app : Doc → Write → Doc) (d : Doc) (ws : List Write) : Doc :=
  ws.foldl app d

/-- Nothing has been issued. -/
def empty : WriteLog Client Write where
  log := []
  outbox := fun _ => []

/-- The document after the first `n` commits. -/
def atVersion (app : Doc → Write → Doc) (d₀ : Doc) (s : WriteLog Client Write) (n : ℕ) :
    Doc :=
  replay app d₀ ((s.log.take n).map Prod.snd)

/-- The stored document: every committed write has been applied. -/
def current (app : Doc → Write → Doc) (d₀ : Doc) (s : WriteLog Client Write) : Doc :=
  replay app d₀ (s.log.map Prod.snd)

/-- The last version is the stored document. -/
theorem atVersion_length (app : Doc → Write → Doc) (d₀ : Doc)
    (s : WriteLog Client Write) :
    s.atVersion app d₀ s.log.length = s.current app d₀ := by
  simp [atVersion, current]

variable [DecidableEq Client]

/-- The committed writes of a client, in issue order. -/
def committedBy (s : WriteLog Client Write) (c : Client) : List Write :=
  (s.log.filter fun cw => cw.1 = c).map Prod.snd

/-- The writes of a client, in issue order: first the committed ones. -/
def issuedBy (s : WriteLog Client Write) (c : Client) : List Write :=
  s.committedBy c ++ s.outbox c

/-- The writes of a client that version `n` does not contain. -/
def unseen (s : WriteLog Client Write) (c : Client) (n : ℕ) : List Write :=
  (((s.log.drop n).filter fun cw => cw.1 = c).map Prod.snd) ++ s.outbox c

/-- What a listener of the client `c` shows when it has received version `n`. -/
def view (app : Doc → Write → Doc) (d₀ : Doc) (s : WriteLog Client Write) (c : Client)
    (n : ℕ) : Doc :=
  replay app (s.atVersion app d₀ n) (s.unseen c n)

/-- The client `c` issues writes. -/
def issue (s : WriteLog Client Write) (c : Client) (ws : List Write) :
    WriteLog Client Write :=
  { s with outbox := Function.update s.outbox c (s.outbox c ++ ws) }

/-- The backend commits the oldest write of the client `c`; `none` when it has none. -/
def commit (s : WriteLog Client Write) (c : Client) : Option (WriteLog Client Write) :=
  match s.outbox c with
  | [] => none
  | w :: ws => some
      { log := s.log ++ [(c, w)]
        outbox := Function.update s.outbox c ws }

/-- The backend rejects the oldest write of the client `c`; `none` when it has none. -/
def reject (s : WriteLog Client Write) (c : Client) : Option (WriteLog Client Write) :=
  match s.outbox c with
  | [] => none
  | _ :: ws => some { s with outbox := Function.update s.outbox c ws }

variable {app : Doc → Write → Doc} {d₀ : Doc} {s s' : WriteLog Client Write}
  {c c' : Client} {w : Write} {ws : List Write}

/-! ### Issuing and committing -/

/-- Writes that are issued are not committed yet. -/
@[simp] theorem issue_log : (s.issue c ws).log = s.log := rfl

/-- Writes that are issued wait behind those of the client. -/
@[simp] theorem issue_outbox_self : (s.issue c ws).outbox c = s.outbox c ++ ws := by
  simp [issue]

/-- The other clients' waiting writes stay. -/
theorem issue_outbox_of_ne (h : c' ≠ c) : (s.issue c ws).outbox c' = s.outbox c' := by
  simp [issue, h]

/-- To issue nothing changes nothing. -/
@[simp] theorem issue_nil : s.issue c [] = s := by
  simp [issue]

/-- A commit moves the oldest write of one outbox to the end of the log. -/
theorem commit_eq_some_iff :
    s.commit c = some s' ↔ ∃ w ws, s.outbox c = w :: ws ∧
      s' = { log := s.log ++ [(c, w)], outbox := Function.update s.outbox c ws } := by
  unfold commit
  cases hout : s.outbox c with
  | nil => simp
  | cons w ws =>
      constructor
      · intro h
        exact ⟨w, ws, rfl, (Option.some.inj h).symm⟩
      · rintro ⟨w', ws', hcons, rfl⟩
        obtain ⟨rfl, rfl⟩ := List.cons.inj hcons
        rfl

/-- What waits after an issue was waiting, or has just been issued. -/
theorem mem_outbox_issue (h : w ∈ (s.issue c ws).outbox c') :
    w ∈ s.outbox c' ∨ c' = c ∧ w ∈ ws := by
  by_cases hc : c' = c
  · subst hc
    rw [issue_outbox_self] at h
    exact (List.mem_append.mp h).imp_right fun hw => ⟨rfl, hw⟩
  · rw [issue_outbox_of_ne hc] at h
    exact Or.inl h

/-- What was waiting still waits after an issue. -/
theorem outbox_subset_issue : s.outbox c' ⊆ (s.issue c ws).outbox c' := by
  intro w hw
  by_cases hc : c' = c
  · subst hc
    rw [issue_outbox_self]
    exact List.mem_append_left _ hw
  · rwa [issue_outbox_of_ne hc]

/-- What waits after a commit was waiting. -/
theorem mem_outbox_commit (h : s.commit c = some s') (hw : w ∈ s'.outbox c') :
    w ∈ s.outbox c' := by
  obtain ⟨w', ws, hout, rfl⟩ := commit_eq_some_iff.mp h
  by_cases hc : c' = c
  · subst hc
    rw [hout]
    exact List.mem_cons_of_mem _ (by simpa using hw)
  · simpa [hc] using hw

/-- A write that does not wait after a commit any more was the oldest of the client. -/
theorem outbox_of_not_mem_commit (h : s.commit c = some s') (hw : w ∈ s.outbox c')
    (hnot : w ∉ s'.outbox c') : ∃ ws, s.outbox c = w :: ws := by
  obtain ⟨v, ws, hout, rfl⟩ := commit_eq_some_iff.mp h
  by_cases hc : c' = c
  · subst hc
    rw [hout] at hw
    rcases List.mem_cons.mp hw with rfl | hrest
    · exact ⟨ws, hout⟩
    · exact absurd (by simpa using hrest) hnot
  · exact absurd (by simpa [hc] using hw) hnot

/-- A rejection drops the oldest write of one outbox. -/
theorem reject_eq_some_iff :
    s.reject c = some s' ↔ ∃ w ws, s.outbox c = w :: ws ∧
      s' = { s with outbox := Function.update s.outbox c ws } := by
  unfold reject
  cases hout : s.outbox c with
  | nil => simp
  | cons w ws =>
      constructor
      · intro h
        exact ⟨w, ws, rfl, (Option.some.inj h).symm⟩
      · rintro ⟨w', ws', hcons, rfl⟩
        obtain ⟨rfl, rfl⟩ := List.cons.inj hcons
        rfl

/-- What waits after a rejection was waiting. -/
theorem mem_outbox_reject (h : s.reject c = some s') (hw : w ∈ s'.outbox c') :
    w ∈ s.outbox c' := by
  obtain ⟨w', ws, hout, rfl⟩ := reject_eq_some_iff.mp h
  by_cases hc : c' = c
  · subst hc
    rw [hout]
    exact List.mem_cons_of_mem _ (by simpa using hw)
  · simpa [hc] using hw

/-- A rejection leaves the log. -/
theorem reject_log (h : s.reject c = some s') : s'.log = s.log := by
  obtain ⟨w, ws, -, rfl⟩ := reject_eq_some_iff.mp h
  rfl

/-- Writes that are issued are committed by nobody yet. -/
@[simp] theorem committedBy_issue : (s.issue c ws).committedBy c' = s.committedBy c' := rfl

/-- A write that is committed is the client's latest. -/
@[simp] theorem committedBy_snoc {outbox : Client → List Write} :
    committedBy ⟨s.log ++ [(c, w)], outbox⟩ c = s.committedBy c ++ [w] := by
  simp [committedBy]

/-- Another client's commit is not the client's. -/
theorem committedBy_snoc_of_ne {outbox : Client → List Write} (h : c' ≠ c) :
    committedBy ⟨s.log ++ [(c, w)], outbox⟩ c' = s.committedBy c' := by
  simp [committedBy, h.symm]

/-- An issue extends the writes of the issuing client and no other's. -/
theorem issuedBy_issue :
    (s.issue c ws).issuedBy c' = s.issuedBy c' ++ if c' = c then ws else [] := by
  by_cases h : c' = c
  · subst h
    simp [issuedBy]
  · simp [issuedBy, h, issue_outbox_of_ne h]

/-- **A commit issues nothing**: the writes of every client, in issue order, stay. -/
theorem issuedBy_commit (h : s.commit c = some s') : s'.issuedBy c' = s.issuedBy c' := by
  obtain ⟨w, ws, hout, rfl⟩ := commit_eq_some_iff.mp h
  by_cases hc : c' = c
  · subst hc
    simp [issuedBy, hout]
  · simp [issuedBy, hc, committedBy_snoc_of_ne hc]

/-- What has been issued after an issue was issued before or has just been. -/
theorem exists_mem_issuedBy_issue {φ : Write → Prop} :
    (∃ c', ∃ w ∈ (s.issue c ws).issuedBy c', φ w) ↔
      (∃ c', ∃ w ∈ s.issuedBy c', φ w) ∨ ∃ w ∈ ws, φ w := by
  constructor
  · rintro ⟨c', w, hw, hφ⟩
    rw [issuedBy_issue] at hw
    rcases List.mem_append.mp hw with hold | hnew
    · exact Or.inl ⟨c', w, hold, hφ⟩
    · split at hnew
      · exact Or.inr ⟨w, hnew, hφ⟩
      · exact absurd hnew (by simp)
  · rintro (⟨c', w, hw, hφ⟩ | ⟨w, hw, hφ⟩)
    · exact ⟨c', w, by rw [issuedBy_issue]; exact List.mem_append_left _ hw, hφ⟩
    · exact ⟨c, w, by rw [issuedBy_issue, if_pos rfl]; exact List.mem_append_right _ hw, hφ⟩

/-- Nobody has issued anything at first. -/
@[simp] theorem issuedBy_empty : (empty : WriteLog Client Write).issuedBy c = [] := rfl

/-- What the log has from a client the client has committed. -/
theorem mem_committedBy_of_mem_log (h : (c, w) ∈ s.log) : w ∈ s.committedBy c :=
  List.mem_map.mpr ⟨(c, w), List.mem_filter.mpr ⟨h, by simp⟩, rfl⟩

/-- A committed write was issued. -/
theorem mem_issuedBy_of_mem_log (h : (c, w) ∈ s.log) : w ∈ s.issuedBy c :=
  List.mem_append_left _ (mem_committedBy_of_mem_log h)

/-- A pending write was issued. -/
theorem mem_issuedBy_of_mem_outbox (h : w ∈ s.outbox c) : w ∈ s.issuedBy c :=
  List.mem_append_right _ h

/-- A rejection issues nothing. -/
theorem mem_issuedBy_reject (h : s.reject c = some s') (hw : w ∈ s'.issuedBy c') :
    w ∈ s.issuedBy c' := by
  rcases List.mem_append.mp hw with hlog | hout
  · refine List.mem_append_left _ ?_
    rwa [committedBy, reject_log h] at hlog
  · exact List.mem_append_right _ (mem_outbox_reject h hout)

/-- The writes a version does not contain are issued ones. -/
theorem unseen_subset_issuedBy (n : ℕ) : s.unseen c n ⊆ s.issuedBy c := by
  intro w hw
  rcases List.mem_append.mp hw with h | h
  · obtain ⟨⟨c', w'⟩, hmem, rfl⟩ := List.mem_map.mp h
    obtain ⟨hdrop, heq⟩ := List.mem_filter.mp hmem
    obtain rfl : c' = c := by simpa using heq
    exact mem_issuedBy_of_mem_log (List.mem_of_mem_drop hdrop)
  · exact mem_issuedBy_of_mem_outbox h

/-! ### The stored document -/

/-- Writes that are issued leave the stored document. -/
@[simp] theorem current_issue :
    (s.issue c ws).current app d₀ = s.current app d₀ := rfl

/-- The writes a listener of the client `c` shows when it has received version `n`. -/
def visible (s : WriteLog Client Write) (c : Client) (n : ℕ) : List Write :=
  (s.log.take n).map Prod.snd ++ s.unseen c n

/-- **A client's view is a replay** of the writes it can see. -/
theorem view_eq_replay_visible (app : Doc → Write → Doc) (d₀ : Doc)
    (s : WriteLog Client Write) (c : Client) (n : ℕ) :
    s.view app d₀ c n = replay app d₀ (s.visible c n) := by
  simp [view, visible, atVersion, replay, List.foldl_append]

/-- A listener shows committed writes in the order of the log, and then pending ones. -/
theorem visible_sublist (n : ℕ) :
    (s.visible c n).Sublist (s.log.map Prod.snd ++ s.outbox c) := by
  have hown : ((s.log.drop n).filter fun cw => cw.1 = c).map Prod.snd |>.Sublist
      ((s.log.drop n).map Prod.snd) := List.filter_sublist.map _
  have hlog : s.log.map Prod.snd =
      (s.log.take n).map Prod.snd ++ (s.log.drop n).map Prod.snd := by
    rw [← List.map_append, List.take_append_drop]
  rw [visible, unseen, hlog, List.append_assoc]
  exact (List.Sublist.refl _).append (hown.append (List.Sublist.refl _))

/-- What is visible was issued. -/
theorem exists_mem_issuedBy_of_mem_visible {n : ℕ} (h : w ∈ s.visible c n) :
    ∃ c', w ∈ s.issuedBy c' := by
  rcases List.mem_append.mp h with htake | hunseen
  · obtain ⟨⟨c', w'⟩, hmem, rfl⟩ := List.mem_map.mp htake
    exact ⟨c', mem_issuedBy_of_mem_log (List.mem_of_mem_take hmem)⟩
  · exact ⟨c, unseen_subset_issuedBy n hunseen⟩

/-- What is visible at a version is visible at a later one. -/
theorem visible_subset_of_le {m n : ℕ} (h : m ≤ n) : s.visible c m ⊆ s.visible c n := by
  intro w hw
  rcases List.mem_append.mp hw with htake | hunseen
  · have hsub : (s.log.take m).map Prod.snd ⊆ (s.log.take n).map Prod.snd :=
      ((List.take_prefix_take_left h).sublist.map _).subset
    exact List.mem_append_left _ (hsub htake)
  · rcases List.mem_append.mp hunseen with hdrop | hout
    · obtain ⟨cw, hmem, rfl⟩ := List.mem_map.mp hdrop
      obtain ⟨hdrop, hown⟩ := List.mem_filter.mp hmem
      have hlog : cw ∈ s.log.take n ++ s.log.drop n := by
        rw [List.take_append_drop]
        exact List.mem_of_mem_drop hdrop
      rcases List.mem_append.mp hlog with htake | hdrop'
      · exact List.mem_append_left _ (List.mem_map.mpr ⟨cw, htake, rfl⟩)
      · refine List.mem_append_right _ (List.mem_append_left _ ?_)
        exact List.mem_map.mpr ⟨cw, List.mem_filter.mpr ⟨hdrop', hown⟩, rfl⟩
    · exact List.mem_append_right _ (List.mem_append_right _ hout)

/-- What is visible stays visible when another write is committed. -/
theorem visible_subset_commit (h : s.commit c' = some s') {n : ℕ} (hn : n ≤ s.log.length) :
    s.visible c n ⊆ s'.visible c n := by
  obtain ⟨v, ws, hout, rfl⟩ := commit_eq_some_iff.mp h
  intro w hw
  have htake : (s.log ++ [(c', v)]).take n = s.log.take n := List.take_append_of_le_length hn
  have hdrop : (s.log ++ [(c', v)]).drop n = s.log.drop n ++ [(c', v)] :=
    List.drop_append_of_le_length hn
  simp only [visible, unseen, htake, hdrop, List.filter_append, List.map_append,
    List.mem_append] at hw ⊢
  by_cases hc : c = c'
  · subst hc
    rw [hout, List.mem_cons] at hw
    rw [Function.update_self]
    rcases hw with hw | hw | rfl | hw
    · exact Or.inl hw
    · exact Or.inr (Or.inl (Or.inl hw))
    · exact Or.inr (Or.inl (Or.inr (by simp)))
    · exact Or.inr (Or.inr hw)
  · rw [Function.update_of_ne hc]
    rcases hw with hw | hw | hw
    · exact Or.inl hw
    · exact Or.inr (Or.inl (Or.inl hw))
    · exact Or.inr (Or.inr hw)

/-- What is visible stays visible when writes are issued. -/
theorem visible_subset_issue (n : ℕ) : s.visible c n ⊆ (s.issue c' ws).visible c n := by
  intro w hw
  rcases List.mem_append.mp hw with htake | hunseen
  · exact List.mem_append_left _ htake
  · rcases List.mem_append.mp hunseen with hdrop | hout
    · exact List.mem_append_right _ (List.mem_append_left _ hdrop)
    · exact List.mem_append_right _ (List.mem_append_right _ (outbox_subset_issue hout))

/-- What a client sees of the last version: its pending writes over the stored document. -/
theorem view_length (app : Doc → Write → Doc) (d₀ : Doc) (s : WriteLog Client Write)
    (c : Client) : s.view app d₀ c s.log.length =
      replay app (s.current app d₀) (s.outbox c) := by
  rw [view, atVersion_length]
  simp [unseen]

/-- A commit applies the oldest pending write of a client to the stored document. -/
theorem current_commit (app : Doc → Write → Doc) (d₀ : Doc) (h : s.commit c = some s') :
    ∃ w ws, s.outbox c = w :: ws ∧
      s' = { log := s.log ++ [(c, w)], outbox := Function.update s.outbox c ws } ∧
      s'.current app d₀ = app (s.current app d₀) w := by
  obtain ⟨w, ws, hout, rfl⟩ := commit_eq_some_iff.mp h
  exact ⟨w, ws, hout, rfl, by simp [current, replay]⟩

/-! ### Invariants of documents -/

/-- What every write of a list preserves, its replay preserves. -/
theorem replay_invariant {I : Doc → Prop} {d : Doc} (hd : I d)
    (hws : ∀ w ∈ ws, ∀ d, I d → I (app d w)) : I (replay app d ws) := by
  induction ws generalizing d with
  | nil => exact hd
  | cons w ws ih =>
      refine ih (hws w List.mem_cons_self d hd) fun w' hw' => ?_
      exact hws w' (List.mem_cons_of_mem _ hw')

/-- A representation of documents that every write respects is respected by a replay. -/
theorem replay_hom {Doc' : Type*} {app' : Doc' → Write → Doc'} (f : Doc → Doc')
    (h : ∀ d w, app' (f d) w = f (app d w)) (d : Doc) (ws : List Write) :
    replay app' (f d) ws = f (replay app d ws) :=
  List.foldl_hom f h

/-- An invariant of documents, kept by every issued write, holds of every version. -/
theorem atVersion_invariant {I : Doc → Prop} (hd : I d₀)
    (hws : ∀ c, ∀ w ∈ s.issuedBy c, ∀ d, I d → I (app d w)) (n : ℕ) :
    I (s.atVersion app d₀ n) := by
  refine replay_invariant hd fun w hw => ?_
  obtain ⟨⟨c, w'⟩, hmem, rfl⟩ := List.mem_map.mp hw
  exact hws c w' (mem_issuedBy_of_mem_log (List.mem_of_mem_take hmem))

/-- An invariant of documents, kept by every issued write, holds of the stored one. -/
theorem current_invariant {I : Doc → Prop} (hd : I d₀)
    (hws : ∀ c, ∀ w ∈ s.issuedBy c, ∀ d, I d → I (app d w)) :
    I (s.current app d₀) := by
  rw [← atVersion_length]
  exact atVersion_invariant hd hws _

/-- An invariant of documents, kept by every issued write, holds of every view. -/
theorem view_invariant {I : Doc → Prop} (hd : I d₀)
    (hws : ∀ c, ∀ w ∈ s.issuedBy c, ∀ d, I d → I (app d w)) (n : ℕ) :
    I (s.view app d₀ c n) :=
  replay_invariant (atVersion_invariant hd hws n) fun w hw =>
    hws c w (unseen_subset_issuedBy n hw)

end WriteLog
