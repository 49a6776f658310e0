import Mathlib.Data.List.Nodup
import Mathlib.Logic.Function.Basic
import Mathlib.Tactic.TypeStar

/-!
# Registrations Held in Slots

A client registers for something and gets a registration, which is live until it is
removed. Its owner holds registrations in slots, one in each, and can remove only what it
holds: a registration that is overwritten in its slot is live for ever. The slots and what
is registered for are arbitrary.

## Main results

* `Registrations.exact_register_iff`: the live registrations are exactly the held ones after
  a registration if and only if they were before and its slot was empty.
* `Registrations.exact_remove_iff`: a removal neither makes nor mends a leak.
* `Registrations.Exact.length_le`, `Registrations.Exact.notMem_remove`: without a leak at
  most one registration for a slot is live, and none after a removal.
* `Registrations.Holds.register`, `Registrations.Holds.liveFor_remove`: the same for one slot,
  whatever leaks from the others.
-/

/-- One registration of a listener, for what it listens to. -/
structure Registration (τ : Type*) where
  id : ℕ
  target : τ
  deriving DecidableEq

/-- The registrations that are live, and the properties that hold one each. -/
structure Registrations (κ τ : Type*) where
  /-- The live registrations, each with the slot it was made for. -/
  live : List (κ × Registration τ)
  slot : κ → Option (Registration τ)
  /-- The id of the next registration. -/
  next : ℕ

namespace Registrations

variable {κ τ : Type*}

/-- Nothing has been registered. -/
def empty : Registrations κ τ where
  live := []
  slot := fun _ => none
  next := 0

/-- What holds of all registrations and slots: ids are not used twice, and what is held is
live. -/
structure WellFormed (s : Registrations κ τ) : Prop where
  nodup : (s.live.map fun entry => entry.2.id).Nodup
  fresh : ∀ entry ∈ s.live, entry.2.id < s.next
  held_live : ∀ k r, s.slot k = some r → (k, r) ∈ s.live

/-- **There is no leak**: the live registrations are exactly the held ones. -/
def Exact (s : Registrations κ τ) : Prop :=
  ∀ k r, (k, r) ∈ s.live ↔ s.slot k = some r

variable {s : Registrations κ τ} {k j : κ} {r : Registration τ} {target : τ}

/-- Without registrations there is nothing to hold. -/
theorem wellFormed_empty : (empty : Registrations κ τ).WellFormed where
  nodup := List.nodup_nil
  fresh := fun _ h => absurd h List.not_mem_nil
  held_live := fun _ _ h => absurd h (by simp [empty])

/-- Without registrations there is no leak. -/
theorem exact_empty : (empty : Registrations κ τ).Exact := by
  intro k r
  simp [empty]

/-- Two live entries with one id are one. -/
theorem WellFormed.eq_of_id_eq (hs : s.WellFormed) {a b : κ × Registration τ}
    (ha : a ∈ s.live) (hb : b ∈ s.live) (h : a.2.id = b.2.id) : a = b :=
  List.inj_on_of_nodup_map hs.nodup ha hb h

variable [DecidableEq κ]

/-- A new registration for the target, assigned to the slot. -/
def register (s : Registrations κ τ) (k : κ) (target : τ) : Registrations κ τ where
  live := s.live ++ [(k, ⟨s.next, target⟩)]
  slot := Function.update s.slot k (some ⟨s.next, target⟩)
  next := s.next + 1

/-- The registration in the slot is removed, if there is one, and the slot is emptied. -/
def remove (s : Registrations κ τ) (k : κ) : Registrations κ τ where
  live :=
    match s.slot k with
    | none => s.live
    | some held => s.live.filter fun entry => entry.2.id ≠ held.id
  slot := Function.update s.slot k none
  next := s.next

/-- A removal empties its slot. -/
@[simp] theorem slot_remove_self : (s.remove k).slot k = none := by
  simp [remove]

/-- A removal leaves the other slots. -/
theorem slot_remove_of_ne (h : j ≠ k) : (s.remove k).slot j = s.slot j := by
  simp [remove, h]

/-- A registration leaves the other slots. -/
theorem slot_register_of_ne (h : j ≠ k) : (s.register k target).slot j = s.slot j := by
  simp [register, h]

/-- What is live after a removal was live, and not in the slot. -/
theorem WellFormed.mem_remove_iff (hs : s.WellFormed) :
    (j, r) ∈ (s.remove k).live ↔ (j, r) ∈ s.live ∧ ¬ (j = k ∧ s.slot k = some r) := by
  cases hslot : s.slot k with
  | none => simp [remove, hslot]
  | some held =>
      have hheld := hs.held_live k held hslot
      simp only [remove, hslot, List.mem_filter, decide_eq_true_eq, Option.some.injEq]
      constructor
      · rintro ⟨hmem, hne⟩
        refine ⟨hmem, ?_⟩
        rintro ⟨-, rfl⟩
        exact hne rfl
      · rintro ⟨hmem, hne⟩
        refine ⟨hmem, fun hid => hne ?_⟩
        obtain ⟨rfl, rfl⟩ := Prod.mk.inj (hs.eq_of_id_eq hmem hheld hid)
        exact ⟨rfl, rfl⟩

/-- Removals keep ids distinct and held registrations live. -/
theorem WellFormed.remove (hs : s.WellFormed) : (s.remove k).WellFormed where
  nodup := by
    unfold Registrations.remove
    dsimp only
    split
    · exact hs.nodup
    · exact hs.nodup.sublist (List.filter_sublist.map _)
  fresh := by
    rintro ⟨j, r⟩ hmem
    exact hs.fresh _ (hs.mem_remove_iff.mp hmem).1
  held_live := by
    intro j r hr
    by_cases hj : j = k
    · subst hj
      exact absurd hr (by simp)
    · rw [slot_remove_of_ne hj] at hr
      exact hs.mem_remove_iff.mpr ⟨hs.held_live j r hr, fun h => hj h.1⟩

/-- So do registrations, whose ids are new. -/
theorem WellFormed.register (hs : s.WellFormed) : (s.register k target).WellFormed where
  nodup := by
    have hnew : s.next ∉ s.live.map fun entry => entry.2.id := by
      intro hmem
      obtain ⟨entry, hentry, hid⟩ := List.mem_map.mp hmem
      have hlt := hs.fresh entry hentry
      omega
    simp only [Registrations.register, List.map_append]
    exact List.nodup_append.mpr ⟨hs.nodup, by simp, by
      rintro a ha b hb rfl
      obtain rfl : a = s.next := by simpa using hb
      exact hnew ha⟩
  fresh := by
    intro entry hentry
    rcases List.mem_append.mp hentry with hold | hnew
    · exact Nat.lt_succ_of_lt (hs.fresh entry hold)
    · obtain rfl := List.mem_singleton.mp hnew
      exact Nat.lt_succ_self _
  held_live := by
    intro j r hr
    by_cases hj : j = k
    · subst hj
      obtain rfl : ⟨s.next, target⟩ = r := by simpa [Registrations.register] using hr
      exact List.mem_append_right _ (List.mem_singleton.mpr rfl)
    · rw [slot_register_of_ne hj] at hr
      exact List.mem_append_left _ (hs.held_live j r hr)

/-! ### Leaks -/

/-- **A removal neither makes nor mends a leak.** -/
theorem exact_remove_iff (hs : s.WellFormed) : (s.remove k).Exact ↔ s.Exact := by
  have hslot : ∀ j r, (s.remove k).slot j = some r ↔ s.slot j = some r ∧ j ≠ k := by
    intro j r
    by_cases hj : j = k
    · subst hj
      simp
    · simp [slot_remove_of_ne hj, hj]
  constructor
  · intro h j r
    refine ⟨fun hmem => ?_, hs.held_live j r⟩
    by_cases hheld : j = k ∧ s.slot k = some r
    · exact hheld.1 ▸ hheld.2
    · exact ((hslot j r).mp ((h j r).mp (hs.mem_remove_iff.mpr ⟨hmem, hheld⟩))).1
  · intro h j r
    rw [hs.mem_remove_iff, hslot, h j r]
    constructor
    · rintro ⟨hr, hne⟩
      exact ⟨hr, fun hj => hne ⟨hj, hj ▸ hr⟩⟩
    · rintro ⟨hr, hne⟩
      exact ⟨hr, fun hheld => hne hheld.1⟩

/-- **A registration leaks exactly what its slot held.** -/
theorem exact_register_iff (hs : s.WellFormed) :
    (s.register k target).Exact ↔ s.Exact ∧ s.slot k = none := by
  have hself : (s.register k target).slot k = some ⟨s.next, target⟩ := by
    simp [register]
  constructor
  · intro h
    have hkeep : ∀ j r, (j, r) ∈ s.live → j ≠ k ∧ s.slot j = some r := by
      intro j r hmem
      have hr := (h j r).mp (List.mem_append_left _ hmem)
      by_cases hj : j = k
      · subst hj
        obtain rfl := Option.some.inj (hself.symm.trans hr)
        exact absurd (hs.fresh _ hmem) (Nat.lt_irrefl _)
      · exact ⟨hj, (slot_register_of_ne hj).symm.trans hr⟩
    constructor
    · exact fun j r => ⟨fun hmem => (hkeep j r hmem).2, hs.held_live j r⟩
    · by_contra hheld
      obtain ⟨r, hr⟩ := Option.ne_none_iff_exists'.mp hheld
      exact (hkeep k r (hs.held_live k r hr)).1 rfl
  · rintro ⟨h, hnone⟩ j r
    rw [register, List.mem_append, h j r, List.mem_singleton, Prod.mk.injEq]
    by_cases hj : j = k
    · subst hj
      simp [hnone, eq_comm]
    · simp [hj]

/-- A list without duplicates whose members are equal has at most one. -/
theorem length_le_one_of_nodup {α : Type*} {l : List α} (h : l.Nodup)
    (heq : ∀ a ∈ l, ∀ b ∈ l, a = b) : l.length ≤ 1 := by
  cases l with
  | nil => exact Nat.zero_le 1
  | cons a l =>
      cases l with
      | nil => exact Nat.le_refl 1
      | cons b l =>
          have hab : a = b := heq a (by simp) b (by simp)
          exact absurd (hab ▸ List.mem_cons_self) (List.nodup_cons.mp h).1

/-- **Without a leak at most one registration for a slot is live.** -/
theorem Exact.length_le (h : s.Exact) (hs : s.WellFormed) (k : κ) :
    (s.live.filter fun entry => entry.1 = k).length ≤ 1 := by
  have hnodup : s.live.Nodup := List.Nodup.of_map _ hs.nodup
  refine length_le_one_of_nodup (hnodup.filter _) ?_
  rintro ⟨j, r⟩ hr ⟨j', r'⟩ hr'
  obtain ⟨hmem, hj⟩ := List.mem_filter.mp hr
  obtain ⟨hmem', hj'⟩ := List.mem_filter.mp hr'
  obtain rfl : j = k := by simpa using hj
  obtain rfl : j' = j := by simpa using hj'
  have hsame := ((h j' r).mp hmem).symm.trans ((h j' r').mp hmem')
  rw [Option.some.inj hsame]

/-- **Without a leak none is live after a removal.** -/
theorem Exact.notMem_remove (h : s.Exact) (hs : s.WellFormed) (k : κ) (r : Registration τ) :
    (k, r) ∉ (s.remove k).live := by
  intro hmem
  have hheld := ((exact_remove_iff hs).mpr h k r).mp hmem
  exact absurd hheld (by simp)

/-! ### One slot -/

/-- The live registrations that were made for a slot, oldest first. -/
def liveFor (s : Registrations κ τ) (k : κ) : List (Registration τ) :=
  (s.live.filter fun entry => entry.1 = k).map Prod.snd

/-- The slot holds what is live for it. -/
def Holds (s : Registrations κ τ) (k : κ) : Prop :=
  s.liveFor k = (s.slot k).toList

/-- Nothing changes at the slot. -/
structure SameAt (k : κ) (s s' : Registrations κ τ) : Prop where
  slot : s'.slot k = s.slot k
  liveFor : s'.liveFor k = s.liveFor k

variable {s' s'' : Registrations κ τ}

/-- What is live for a slot is live. -/
theorem mem_liveFor_iff : r ∈ s.liveFor k ↔ (k, r) ∈ s.live := by
  simp [liveFor]

/-- An empty slot holds what is live for it, nothing. -/
theorem holds_empty : (empty : Registrations κ τ).Holds k := rfl

/-- Nothing changes where nothing happens. -/
theorem sameAt_refl : SameAt k s s :=
  ⟨rfl, rfl⟩

/-- Nothing changes in two steps in which nothing changes. -/
theorem SameAt.trans (h : SameAt k s s') (h' : SameAt k s' s'') : SameAt k s s'' :=
  ⟨h'.slot.trans h.slot, h'.liveFor.trans h.liveFor⟩

/-- A slot at which nothing changes holds what it held. -/
theorem SameAt.holds (h : SameAt k s s') (hs : s.Holds k) : s'.Holds k := by
  rw [Holds, h.slot, h.liveFor]
  exact hs

/-- A registration is the latest one for its slot. -/
theorem liveFor_register_self :
    (s.register k target).liveFor k = s.liveFor k ++ [⟨s.next, target⟩] := by
  simp [liveFor, register]

/-- A registration for one slot changes no other. -/
theorem sameAt_register (h : j ≠ k) : SameAt j s (s.register k target) where
  slot := slot_register_of_ne h
  liveFor := by simp [Registrations.liveFor, register, h.symm]

/-- A removal from one slot changes no other. -/
theorem WellFormed.sameAt_remove (hs : s.WellFormed) (h : j ≠ k) :
    SameAt j s (s.remove k) where
  slot := slot_remove_of_ne h
  liveFor := by
    unfold Registrations.liveFor Registrations.remove
    cases hslot : s.slot k with
    | none => rfl
    | some held =>
        have hheld := hs.held_live k held hslot
        rw [List.filter_filter]
        congr 1
        refine List.filter_congr fun entry hentry => ?_
        -- the removed entry was made for the other slot
        have hne : entry.1 = j → entry.2.id ≠ held.id := by
          intro hj hid
          rw [hs.eq_of_id_eq hentry hheld hid] at hj
          exact h hj.symm
        by_cases hj : entry.1 = j
        · simp [hj, hne hj]
        · simp [hj]

/-- Nothing is live for a slot after the removal of all that is. -/
theorem Holds.liveFor_remove (h : s.Holds k) : (s.remove k).liveFor k = [] := by
  unfold Holds at h
  cases hslot : s.slot k with
  | none =>
      rw [hslot] at h
      simpa [Registrations.liveFor, remove, hslot] using h
  | some held =>
      have hcomm : (s.remove k).liveFor k =
          (s.liveFor k).filter fun r => r.id ≠ held.id := by
        simp only [Registrations.liveFor, remove, hslot, List.filter_map, List.filter_filter]
        congr 1
        exact List.filter_congr fun entry _ => Bool.and_comm _ _
      rw [hcomm, h, hslot]
      simp

/-- An emptied slot holds what is live for it. -/
theorem Holds.remove (h : s.Holds k) : (s.remove k).Holds k := by
  rw [Holds, h.liveFor_remove, slot_remove_self]
  rfl

/-- A registration for an empty slot is held there. -/
theorem Holds.register (h : s.Holds k) (hnone : s.slot k = none) :
    (s.register k target).Holds k := by
  rw [Holds, liveFor_register_self, h, hnone]
  simp [Registrations.register]

end Registrations
