import Mathlib.Data.List.Forall2
import Mathlib.Data.List.Nodup
import RockPaperScissors.FieldValue

/-!
# Filters on Documents

The queries of a document database: a collection is a list of documents with distinct ids,
and a query selects the documents that pass all of its filters. A filter asks something of
one field, and a document without the field passes no filter on it. The keys, the scalars
and the ids are arbitrary.

A collection **represents** a list of values when document after document has the fields of
the values, in the sense of any relation. What a filter says of the fields is then to be
shown for one document; that the query selects the documents of the selected values follows,
in whatever order the documents come.

## Main results

* `FieldFilter.decode_select`, `FieldFilter.length_select_pos_iff`: a query selects the
  documents of the values that a predicate selects.
* `Document.find?_eq_of_perm`: a document is found by its id in any order of the documents.
-/

/-- What a query asks of a field. -/
inductive FieldFilter (κ α : Type*)
  | isEqualTo (key : κ) (value : α)
  | isNotEqualTo (key : κ) (value : α)
  | arrayContains (key : κ) (value : α)

namespace FieldValue

variable {κ α : Type*} [DecidableEq α]

/-- The value is the scalar. -/
def isScalar (a : α) : FieldValue κ α → Bool
  | scalar b => b = a
  | array _ => false
  | map _ => false

/-- An array of scalars contains the scalars it is made of. -/
theorem any_isScalar_map {β : Type*} {a : α} {values : List β} {g : β → α} :
    ((values.map fun b => (scalar (g b) : FieldValue κ α)).any
      (isScalar a) = true) ↔ a ∈ values.map g := by
  simp [isScalar]

end FieldValue

/-- A document of a collection. -/
structure Document (ι κ α : Type*) where
  documentID : ι
  fields : List (κ × FieldValue κ α)

namespace Document

variable {ι κ α : Type*} [DecidableEq ι] {docs docs' : List (Document ι κ α)}

/-- **A document is found by its id**, in any order of documents with distinct ids. -/
theorem find?_eq_of_perm (hdocs : docs'.Perm docs)
    (hnodup : (docs.map documentID).Nodup) (id : ι) :
    docs'.find? (fun d => d.documentID = id) = docs.find? fun d => d.documentID = id := by
  cases hfind : docs.find? fun d => d.documentID = id with
  | none =>
      rw [List.find?_eq_none] at hfind ⊢
      exact fun d hd => hfind d (hdocs.mem_iff.mp hd)
  | some d =>
      have hd := List.mem_of_find?_eq_some hfind
      have hid : d.documentID = id := by simpa using List.find?_some hfind
      have hsome : (docs'.find? fun d => d.documentID = id).isSome :=
        List.find?_isSome.mpr ⟨d, hdocs.mem_iff.mpr hd, by simpa using hid⟩
      obtain ⟨d', hfind'⟩ := Option.isSome_iff_exists.mp hsome
      have hd' := hdocs.mem_iff.mp (List.mem_of_find?_eq_some hfind')
      have hid' : d'.documentID = id := by simpa using List.find?_some hfind'
      rw [hfind', List.inj_on_of_nodup_map hnodup hd' hd (hid'.trans hid.symm)]

end Document

namespace FieldFilter

variable {ι κ α β : Type*} [DecidableEq κ] [DecidableEq α]

/-- The field that is asked about. -/
def key : FieldFilter κ α → κ
  | isEqualTo key _ => key
  | isNotEqualTo key _ => key
  | arrayContains key _ => key

/-- The field has what is asked of it. -/
def passes : FieldFilter κ α → FieldValue κ α → Bool
  | isEqualTo _ value, field => field.isScalar value
  | isNotEqualTo _ value, field => !field.isScalar value
  | arrayContains _ value, .array values => values.any (FieldValue.isScalar value)
  | arrayContains _ _, .scalar _ => false
  | arrayContains _ _, .map _ => false

/-- The document has the field, and the field has what is asked of it. -/
def passedBy (f : FieldFilter κ α) (d : Document ι κ α) : Bool :=
  (d.fields.lookup f.key).any f.passes

/-- The documents that pass all filters. -/
def select (fs : List (FieldFilter κ α)) (docs : List (Document ι κ α)) :
    List (Document ι κ α) :=
  docs.filter fun d => fs.all fun f => f.passedBy d

variable {f : FieldFilter κ α} {fs : List (FieldFilter κ α)} {d : Document ι κ α}
  {docs docs' : List (Document ι κ α)} {key : κ}
  {field : FieldValue κ α} {values : List (FieldValue κ α)} {a : α}

/-- `isEqualTo` compares the field at the key. -/
theorem passedBy_isEqualTo (h : d.fields.lookup key = some field) :
    (isEqualTo key a).passedBy d = field.isScalar a := by
  simp [passedBy, FieldFilter.key, passes, h]

/-- `isNotEqualTo` compares the field at the key, if there is one. -/
theorem passedBy_isNotEqualTo (h : d.fields.lookup key = some field) :
    (isNotEqualTo key a).passedBy d = !field.isScalar a := by
  simp [passedBy, FieldFilter.key, passes, h]

/-- `arrayContains` looks for the value in the array at the key. -/
theorem passedBy_arrayContains (h : d.fields.lookup key = some (.array values)) :
    (arrayContains key a).passedBy d = values.any (FieldValue.isScalar a) := by
  simp [passedBy, FieldFilter.key, passes, h]

/-- A document without the field passes no filter on it. -/
theorem passedBy_of_lookup_eq_none (h : d.fields.lookup f.key = none) : f.passedBy d = false := by
  rw [passedBy, h, Option.any_none]

section Represents

variable {R : Document ι κ α → β → Prop} {values : List β} {p : β → Bool}

/-- **A query selects the documents of the selected values**, in whatever order the documents
come, when its filters say of the fields what the predicate says of the value. -/
theorem decode_select {decode : Document ι κ α → Option β} (hdocs : docs'.Perm docs)
    (h : List.Forall₂ R docs values) (hdecode : ∀ d b, R d b → decode d = some b)
    (hp : ∀ d b, R d b → ((fs.all fun f => f.passedBy d) = true ↔ p b = true)) :
    ((select fs docs').map decode).Perm ((values.filter p).map some) := by
  have hselect : List.Forall₂ R (select fs docs) (values.filter p) :=
    List.rel_filter (fun d b hR => hp d b hR) h
  have hmap : (select fs docs).map decode = (values.filter p).map some := by
    rw [← List.forall₂_eq_eq_eq, List.forall₂_map_left_iff, List.forall₂_map_right_iff]
    exact hselect.imp hdecode
  exact hmap ▸ (hdocs.filter _).map decode

/-- A query selects as many documents as there are selected values. -/
theorem length_select (hdocs : docs'.Perm docs) (h : List.Forall₂ R docs values)
    (hp : ∀ d b, R d b → ((fs.all fun f => f.passedBy d) = true ↔ p b = true)) :
    (select fs docs').length = (values.filter p).length := by
  have hselect : List.Forall₂ R (select fs docs) (values.filter p) :=
    List.rel_filter (fun d b hR => hp d b hR) h
  exact (hdocs.filter _).length_eq.trans hselect.length_eq

/-- A query selects some document when a predicate selects some value. -/
theorem length_select_pos_iff (hdocs : docs'.Perm docs) (h : List.Forall₂ R docs values)
    (hp : ∀ d b, R d b → ((fs.all fun f => f.passedBy d) = true ↔ p b = true)) :
    0 < (select fs docs').length ↔ values.any p = true := by
  rw [length_select hdocs h hp, List.length_filter_pos_iff, List.any_eq_true]

end Represents

end FieldFilter
