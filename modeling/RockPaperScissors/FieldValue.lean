import Mathlib.Data.List.Basic
import Mathlib.Data.List.Nodup
import Mathlib.Tactic.TypeStar

/-!
# Field Values and Merges by Leaf Paths

Documents as trees of fields: a value is a scalar, an array, or a map from keys to
values, and a document is the fields of a map. The keys and the scalars are arbitrary,
and this module knows nothing of what a document means.

`patch` lays the leaves of a written document over a stored one: every leaf is set at its
path, and maps on the way to it are kept, or made where the stored document has something
else. Arrays are leaves, and so is a map without any field.

## Main results

* `patch_cons`: a patch lays one written field after the other over the stored ones.
* `lookup_patch`: a field after a patch is the written field laid over the stored one, and
  a field that is not written is the stored one.
* `exists_laid_map`: a written map is patched into the stored one, unless it is empty.
-/

/-- A value of a document. -/
inductive FieldValue (κ α : Type*)
  | scalar (a : α)
  | array (values : List (FieldValue κ α))
  | map (fields : List (κ × FieldValue κ α))

namespace FieldValue

variable {κ α : Type*}

/-- The fields of a map, and none of any other value. -/
def fields : FieldValue κ α → List (κ × FieldValue κ α)
  | map fs => fs
  | _ => []

/-- The fields of a map. -/
@[simp] theorem fields_map (fs : List (κ × FieldValue κ α)) : (map fs).fields = fs := rfl

/-! ### Leaves -/

mutual

/-- The leaves of a value with their paths. -/
def leaves : FieldValue κ α → List (List κ × FieldValue κ α)
  | scalar a => [([], scalar a)]
  | array values => [([], array values)]
  | map [] => [([], map [])]
  | map (f :: fs) => leavesOf (f :: fs)

/-- The leaves of the fields of a map. -/
def leavesOf : List (κ × FieldValue κ α) → List (List κ × FieldValue κ α)
  | [] => []
  | (k, v) :: fs => (leaves v).map (fun (path, leaf) => (k :: path, leaf)) ++ leavesOf fs

end

/-- Every value has a leaf. -/
theorem leaves_ne_nil : ∀ v : FieldValue κ α, leaves v ≠ []
  | scalar _ => by simp [leaves]
  | array _ => by simp [leaves]
  | map [] => by simp [leaves]
  | map ((_, v) :: _) => by simp [leaves, leavesOf, leaves_ne_nil v]

/-- The path of a leaf names its field. -/
theorem path_ne_nil {fs : List (κ × FieldValue κ α)} {leaf : List κ × FieldValue κ α}
    (h : leaf ∈ leavesOf fs) : leaf.1 ≠ [] := by
  induction fs with
  | nil => exact absurd h (by simp [leavesOf])
  | cons f fs ih =>
      rw [leavesOf, List.mem_append] at h
      rcases h with hhead | htail
      · obtain ⟨below, -, rfl⟩ := List.mem_map.mp hhead
        simp
      · exact ih htail

/-! ### Setting a value at a path -/

variable [DecidableEq κ]

/-- The fields with `v` under the key `k`. -/
def insert (k : κ) (v : FieldValue κ α) :
    List (κ × FieldValue κ α) → List (κ × FieldValue κ α)
  | [] => [(k, v)]
  | (k', v') :: fs => if k = k' then (k, v) :: fs else (k', v') :: insert k v fs

/-- The fields of the map under a key; none when something else is there. -/
def child (fs : List (κ × FieldValue κ α)) (k : κ) : List (κ × FieldValue κ α) :=
  ((fs.lookup k).map fields).getD []

/-- The fields with `v` at a path; on the way to it, what is not a map becomes one. -/
def set (fs : List (κ × FieldValue κ α)) : List κ → FieldValue κ α → List (κ × FieldValue κ α)
  | [], _ => fs
  | [k], v => insert k v fs
  | k :: k' :: path, v => insert k (map (set (child fs k) (k' :: path) v)) fs

variable {fs old new : List (κ × FieldValue κ α)} {k k' : κ} {v v' : FieldValue κ α}

/-- A key is looked up in the first entry, then in the rest. -/
theorem lookup_cons :
    ((k', v) :: fs).lookup k = if k = k' then some v else fs.lookup k := by
  by_cases h : k = k'
  · simp [h]
  · rw [List.lookup_cons, beq_false_of_ne h, if_neg h]

/-- An inserted value is found at its key, and the others at theirs. -/
theorem lookup_insert :
    (insert k v fs).lookup k' = if k' = k then some v else fs.lookup k' := by
  induction fs with
  | nil => exact lookup_cons
  | cons f fs ih =>
      obtain ⟨kf, vf⟩ := f
      by_cases h : k = kf
      · subst h
        rw [insert, if_pos rfl, lookup_cons, lookup_cons]
        split <;> rfl
      · rw [insert, if_neg h, lookup_cons, lookup_cons, ih]
        by_cases hkf : k' = kf
        · rw [if_pos hkf, if_neg fun hk => h (hk.symm.trans hkf)]
          exact (if_pos hkf).symm
        · rw [if_neg hkf, if_neg hkf]

/-- The last value under a key is the one that stays. -/
theorem insert_insert : insert k v (insert k v' fs) = insert k v fs := by
  induction fs with
  | nil => simp [insert]
  | cons f fs ih =>
      by_cases h : k = f.1
      · simp [insert, h]
      · simp [insert, h, ih]

/-- The fields of an inserted map. -/
@[simp] theorem child_insert_self : child (insert k v fs) k = v.fields := by
  simp [child, lookup_insert]

/-- A value set below a key is set in the map under that key. -/
theorem set_cons {path : List κ} (h : path ≠ []) :
    set fs (k :: path) v = insert k (map (set (child fs k) path v)) fs := by
  cases path with
  | nil => exact absurd rfl h
  | cons k' path => rfl

/-! ### Patches -/

/-- The stored fields with every leaf of the new ones set at its path. -/
def patch (old new : List (κ × FieldValue κ α)) : List (κ × FieldValue κ α) :=
  (leavesOf new).foldl (fun fs (path, leaf) => set fs path leaf) old

/-- What a written value makes of the fields stored in its place. -/
def laid (old : List (κ × FieldValue κ α)) : FieldValue κ α → FieldValue κ α
  | map (f :: fs) => map (patch old (f :: fs))
  | v => v

/-- Leaves below one key are set in the map under that key. -/
theorem foldl_set_cons {leaves : List (List κ × FieldValue κ α)} (hne : leaves ≠ [])
    (h : ∀ leaf ∈ leaves, leaf.1 ≠ []) :
    leaves.foldl (fun fs leaf => set fs (k :: leaf.1) leaf.2) fs =
      insert k (map (leaves.foldl (fun fs leaf => set fs leaf.1 leaf.2) (child fs k))) fs := by
  induction leaves generalizing fs with
  | nil => exact absurd rfl hne
  | cons leaf leaves ih =>
      have hset : set fs (k :: leaf.1) leaf.2 =
          insert k (map (set (child fs k) leaf.1 leaf.2)) fs :=
        set_cons (h leaf List.mem_cons_self)
      cases leaves with
      | nil => exact hset
      | cons leaf' leaves =>
          have hrest := @ih (set fs (k :: leaf.1) leaf.2) (by simp) fun l hl =>
            h l (List.mem_cons_of_mem _ hl)
          rw [List.foldl_cons, hrest, hset, insert_insert, child_insert_self]
          rfl

/-- The leaves of one field lay its value over the stored one. -/
theorem foldl_set_leaves :
    (leaves v).foldl (fun fs leaf => set fs (k :: leaf.1) leaf.2) fs =
      insert k (laid (child fs k) v) fs := by
  cases v with
  | scalar a => rfl
  | array values => rfl
  | map fs' =>
      cases fs' with
      | nil => rfl
      | cons f fs' =>
          have hne := leaves_ne_nil (map (f :: fs'))
          rw [leaves] at hne ⊢
          exact foldl_set_cons hne fun leaf hleaf => path_ne_nil hleaf

/-- A patch lays one written field after the other. -/
theorem patch_cons :
    patch old ((k, v) :: new) = patch (insert k (laid (child old k) v) old) new := by
  rw [patch, leavesOf, List.foldl_append, List.foldl_map, foldl_set_leaves]
  rfl

/-- A field that is not written stays. -/
theorem lookup_patch_of_notMem (h : k ∉ new.map Prod.fst) :
    (patch old new).lookup k = old.lookup k := by
  induction new generalizing old with
  | nil => rfl
  | cons f new ih =>
      rw [List.map_cons, List.mem_cons, not_or] at h
      rw [patch_cons, ih h.2, lookup_insert, if_neg h.1]

/-- **A field after a patch**: a written one is laid over the stored one. -/
theorem lookup_patch (h : (new.map Prod.fst).Nodup) :
    (patch old new).lookup k =
      ((new.lookup k).map (laid (child old k))).or (old.lookup k) := by
  induction new generalizing old with
  | nil => simp [patch, leavesOf]
  | cons f new ih =>
      obtain ⟨kf, vf⟩ := f
      rw [List.map_cons, List.nodup_cons] at h
      rw [patch_cons, lookup_cons]
      by_cases hk : k = kf
      · subst hk
        rw [lookup_patch_of_notMem h.1, lookup_insert, if_pos rfl, if_pos rfl]
        rfl
      · have hchild : child (insert kf (laid (child old kf) vf) old) k = child old k := by
          rw [child, lookup_insert, if_neg hk, child]
        rw [ih h.2, lookup_insert, if_neg hk, if_neg hk, hchild]

/-- **A map laid over stored fields** is a map whose fields are laid over them, unless it is
empty. -/
theorem exists_laid_map (hne : new ≠ []) (h : (new.map Prod.fst).Nodup) :
    ∃ merged, laid old (map new) = map merged ∧
      ∀ k, merged.lookup k = ((new.lookup k).map (laid (child old k))).or (old.lookup k) := by
  obtain ⟨f, fs, rfl⟩ := List.exists_cons_of_ne_nil hne
  exact ⟨patch old (f :: fs), rfl, fun k => lookup_patch h⟩

end FieldValue
