import RockPaperScissors.Models
import RockPaperScissors.WriteLog

/-!
# Game Requests in the Store

The operations of `DataStore+GameRequests.swift` on the collection of game requests: the
two writes, and the reads of one request and of the requests between two users. Each
client is named by its user id, and reads the collection with its own pending writes laid
over it.

## Main results

* `getGameRequestWith_apply_delete`, `getGameRequestWith_apply_start`: what a write makes
  of a request.
* `getGameRequestWith_replay`: under writes that do not start a request it stays as it is,
  unless one of them deletes it.
-/

namespace RockPaperScissors

/-- A write of the collection `gameRequests`. -/
inductive RequestWrite
  /-- `startGameRequest`: `setData(from: gameRequest)`. -/
  | start (request : GameRequest)
  /-- `deleteGameRequest`. -/
  | delete (id : String)
  deriving DecidableEq, Repr

namespace RequestWrite

/-- What a write makes of the documents. -/
def apply (docs : List GameRequest) : RequestWrite → List GameRequest
  | start request => docs.filter (fun r => r.id ≠ request.id) ++ [request]
  | delete id => docs.filter fun r => r.id ≠ id

/-- The write starts the request with the id. -/
def starts (id : String) : RequestWrite → Bool
  | start request => request.id = id
  | delete _ => false

end RequestWrite

/-- `createGameRequest(toUser:id:)`; `none` when the local user has no id. -/
def createGameRequest (localUser : User) (toUser : String) (id : String)
    (now : TimeInterval) : Option GameRequest :=
  localUser.id.map fun localUserId =>
    { id := id
      fromId := localUserId
      toId := toUser
      createdAt := some now
      fromUsername := localUser.username }

/-- What `getGameRequestWith` finds in the documents. -/
def getGameRequestWith (docs : List GameRequest) (id : String) : Option GameRequest :=
  docs.find? fun r => r.id = id

/-- The answer of `checkForExtistingGameRequest` when the query reads the documents. -/
def checkForExtistingGameRequest (docs : List GameRequest) (toUser fromUser : String) :
    Bool :=
  docs.any fun r => r.fromId = fromUser ∧ r.toId = toUser

/-- A request is from the local user, to the user tapped, with the id of its document. -/
theorem createGameRequest_eq_some {localUser : User} {toUser id : String}
    {now : TimeInterval} {r : GameRequest}
    (h : createGameRequest localUser toUser id now = some r) :
    localUser.id = some r.fromId ∧ r.toId = toUser ∧ r.id = id := by
  obtain ⟨localUserId, hid, rfl⟩ := Option.map_eq_some_iff.mp h
  exact ⟨hid, rfl, rfl⟩

section Lemmas

variable {docs : List GameRequest} {id : String} {r : GameRequest} {w : RequestWrite}
  {ws : List RequestWrite}

/-- The request that is found has the id that was asked for. -/
theorem id_of_getGameRequestWith (h : getGameRequestWith docs id = some r) : r.id = id := by
  simpa using List.find?_some h

/-- The request that is found is there. -/
theorem mem_of_getGameRequestWith (h : getGameRequestWith docs id = some r) : r ∈ docs :=
  List.mem_of_find?_eq_some h

/-- The documents after a write are old ones and the started one. -/
theorem mem_apply (h : r ∈ RequestWrite.apply docs w) : r ∈ docs ∨ w = .start r := by
  cases w with
  | start request =>
      rcases List.mem_append.mp h with hold | hnew
      · exact Or.inl (List.mem_of_mem_filter hold)
      · obtain rfl := List.mem_singleton.mp hnew
        exact Or.inr rfl
  | delete id => exact Or.inl (List.mem_of_mem_filter h)

/-- A request is found whatever others are taken away. -/
theorem getGameRequestWith_filter_of_ne {id' : String} (h : id ≠ id') :
    getGameRequestWith (docs.filter fun r => r.id ≠ id') id = getGameRequestWith docs id := by
  rw [getGameRequestWith, List.find?_filter]
  congr 1
  funext r
  by_cases hr : r.id = id
  · simp [hr, h]
  · simp [hr]

/-- A request that is taken away is not found. -/
theorem getGameRequestWith_filter_self :
    getGameRequestWith (docs.filter fun r => r.id ≠ id) id = none := by
  rw [getGameRequestWith, List.find?_eq_none]
  intro r hr
  simpa using (List.mem_filter.mp hr).2

/-- A delete removes the request with its id and no other. -/
theorem getGameRequestWith_apply_delete (id' : String) :
    getGameRequestWith (RequestWrite.apply docs (.delete id')) id =
      if id = id' then none else getGameRequestWith docs id := by
  by_cases h : id = id'
  · subst h
    rw [if_pos rfl]
    exact getGameRequestWith_filter_self
  · rw [if_neg h]
    exact getGameRequestWith_filter_of_ne h

/-- A start sets the request with its id and no other. -/
theorem getGameRequestWith_apply_start (request : GameRequest) :
    getGameRequestWith (RequestWrite.apply docs (.start request)) id =
      if id = request.id then some request else getGameRequestWith docs id := by
  by_cases h : id = request.id
  · subst h
    rw [if_pos rfl, RequestWrite.apply, getGameRequestWith, List.find?_append]
    have hnone : getGameRequestWith (docs.filter fun r => r.id ≠ request.id) request.id =
        none := getGameRequestWith_filter_self
    rw [getGameRequestWith] at hnone
    rw [hnone]
    simp
  · have hne : ¬ request.id = id := fun heq => h heq.symm
    rw [if_neg h, RequestWrite.apply, getGameRequestWith, List.find?_append]
    have hrest : getGameRequestWith (docs.filter fun r => r.id ≠ request.id) id =
        getGameRequestWith docs id := getGameRequestWith_filter_of_ne h
    rw [getGameRequestWith, getGameRequestWith] at hrest
    rw [hrest]
    simp [getGameRequestWith, hne]

/-- A write that does not start a request leaves it, unless it deletes it. -/
theorem getGameRequestWith_apply (h : w.starts id = false) :
    getGameRequestWith (RequestWrite.apply docs w) id =
      if w = .delete id then none else getGameRequestWith docs id := by
  cases w with
  | start request =>
      have hne : ¬ id = request.id := by
        intro heq
        simp [RequestWrite.starts, heq] at h
      rw [getGameRequestWith_apply_start, if_neg hne, if_neg (by simp)]
  | delete id' =>
      rw [getGameRequestWith_apply_delete]
      by_cases hid : id = id'
      · rw [if_pos hid, if_pos (by rw [hid])]
      · rw [if_neg hid, if_neg (by simpa using fun heq => hid heq.symm)]

/-- Only its own delete removes a request. -/
theorem isSome_getGameRequestWith_apply (h : (getGameRequestWith docs id).isSome)
    (hw : w ≠ .delete id) : (getGameRequestWith (RequestWrite.apply docs w) id).isSome := by
  cases w with
  | start request =>
      rw [getGameRequestWith_apply_start]
      split
      · rfl
      · exact h
  | delete id' =>
      rw [getGameRequestWith_apply_delete, if_neg]
      · exact h
      · rintro rfl
        exact hw rfl

/-- **Writes that do not start a request** leave it, unless one of them deletes it. -/
theorem getGameRequestWith_replay (h : ∀ w ∈ ws, w.starts id = false) :
    getGameRequestWith (WriteLog.replay RequestWrite.apply docs ws) id =
      if .delete id ∈ ws then none else getGameRequestWith docs id := by
  induction ws generalizing docs with
  | nil => simp [WriteLog.replay]
  | cons w ws ih =>
      have hrest := @ih (RequestWrite.apply docs w)
        fun w' hw' => h w' (List.mem_cons_of_mem _ hw')
      rw [getGameRequestWith_apply (h w List.mem_cons_self)] at hrest
      rw [WriteLog.replay, List.foldl_cons, ← WriteLog.replay, hrest]
      by_cases hmem : .delete id ∈ ws
      · simp [hmem]
      · by_cases hw : w = .delete id
        · simp [hw]
        · simp [hmem, hw, Ne.symm hw]

end Lemmas

end RockPaperScissors
