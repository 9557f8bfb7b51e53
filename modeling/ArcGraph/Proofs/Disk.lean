import ArcGraph.Datum.Decode
import Mathlib.Data.List.Basic

/-!
Radii of disks over a whole life.

The radius of a disk is the last one that was accepted, and before that the one
it began with. A disk that was checked therefore never has an improper radius.
One that was read from data may begin with any radius at all, and keeps it until
another one is accepted.
-/

namespace ArcGraph

open Scalar

namespace Disk

variable {α : Type} [Scalar α]

/-- The radius that a change gives to a disk. -/
def Change.acceptedRadius? : Change α → Option α
  | .resize radius => if isProperRadius radius then some radius else none
  | .move _ => none

/-- The radius is finite and not negative. -/
def IsProper (radius : α) : Prop :=
  isFinite radius = true ∧ ofNat 0 ≤ radius

theorem isProperRadius_iff (radius : α) : isProperRadius radius = true ↔ IsProper radius := by
  rw [isProperRadius, Bool.and_eq_true, decide_eq_true_eq, IsProper]

theorem checked_eq_ok_iff (center : Vec α) (radius : α) (disk : Disk α) :
    checked center radius = .ok disk ↔ IsProper radius ∧ disk = ⟨center, radius⟩ := by
  rw [← isProperRadius_iff]
  unfold checked
  split
  case isTrue proper => simp [proper, eq_comm]
  case isFalse improper => simp [improper]

/-- Only a radius is ever refused, and only an improper one. -/
theorem change_eq_error_iff (disk : Disk α) (change : Change α) (refusal : InvalidRadius α) :
    disk.change change = .error refusal ↔
      change = .resize refusal.radius ∧ ¬IsProper refusal.radius := by
  obtain ⟨refused⟩ := refusal
  rw [← isProperRadius_iff]
  cases change with
  | move center => simp [Disk.change]
  | resize radius =>
      simp only [Disk.change, resized, checked]
      split
      case isTrue proper =>
        simp only [reduceCtorEq, Change.resize.injEq, false_iff, not_and, not_not]
        rintro rfl
        exact proper
      case isFalse improper =>
        simp only [Except.error.injEq, InvalidRadius.mk.injEq, Change.resize.injEq]
        constructor
        · rintro rfl
          exact ⟨rfl, improper⟩
        · exact And.left

theorem radius_afterChange (disk : Disk α) (change : Change α) :
    (disk.afterChange change).radius = change.acceptedRadius?.getD disk.radius := by
  cases change with
  | move center => rfl
  | resize radius =>
      simp only [afterChange, Disk.change, resized, checked, Change.acceptedRadius?]
      cases isProperRadius radius <;> rfl

/-- The radius is the last one that was accepted. -/
theorem radius_after (disk : Disk α) (changes : List (Change α)) :
    (disk.after changes).radius =
      (changes.filterMap Change.acceptedRadius?).getLast?.getD disk.radius := by
  induction changes generalizing disk with
  | nil => rfl
  | cons change rest inductionHypothesis =>
      have first := disk.radius_afterChange change
      rw [after, List.foldl_cons, ← after, inductionHypothesis, first]
      cases accepted : change.acceptedRadius? with
      | none => rw [List.filterMap_cons_none accepted, Option.getD_none]
      | some radius =>
          rw [List.filterMap_cons_some accepted, List.getLast?_cons, Option.getD_some,
            Option.getD_some]

theorem isProper_of_mem_accepted {changes : List (Change α)} {radius : α}
    (accepted : radius ∈ changes.filterMap Change.acceptedRadius?) : IsProper radius := by
  obtain ⟨change, -, accepted⟩ := List.mem_filterMap.mp accepted
  cases change with
  | move center => cases accepted
  | resize asked =>
      simp only [Change.acceptedRadius?, Option.ite_none_right_eq_some, Option.some.injEq]
        at accepted
      obtain ⟨proper, rfl⟩ := accepted
      exact (isProperRadius_iff asked).mp proper

/-- An improper radius goes away when another one is accepted, and not before. -/
theorem isProper_after_iff (disk : Disk α) (changes : List (Change α)) :
    IsProper (disk.after changes).radius ↔
      IsProper disk.radius ∨ changes.filterMap Change.acceptedRadius? ≠ [] := by
  rw [radius_after]
  cases last : (changes.filterMap Change.acceptedRadius?).getLast? with
  | none =>
      rw [List.getLast?_eq_none_iff] at last
      simp [last]
  | some radius =>
      have member := List.mem_of_getLast? last
      refine iff_of_true (isProper_of_mem_accepted member) (.inr ?_)
      exact List.ne_nil_of_mem member

/-- The radius that plain data hold, proper or not. -/
def heldRadius? (datum : Datum) : Option Float32 := do
  let parts ← datum.parts? ["position", "radius"]
  Datum.required? Datum.single? (parts.lookup "radius")

theorem heldRadius?_of_ofDatum? {datum : Datum} {disk : Disk Float32}
    (read : ofDatum? datum = some disk) : heldRadius? datum = some disk.radius := by
  simp only [ofDatum?, Option.bind_eq_bind, Option.bind_eq_some_iff, Option.some.injEq] at read
  obtain ⟨parts, split, center, -, radius, held, rfl⟩ := read
  simp only [heldRadius?, split, Option.bind_eq_bind, Option.bind_some]
  exact held

/-- A disk that was checked has a proper radius whatever is done to it. One that was read has the
radius that its data hold, so that it may have an improper one until another one is accepted. -/
theorem radius_of_changes (changes : List (Change Float32)) :
    (∀ center radius disk, checked center radius = .ok disk →
      IsProper (disk.after changes).radius) ∧
    (∀ datum disk, ofDatum? datum = some disk →
      ∃ held, heldRadius? datum = some held ∧
        (IsProper (disk.after changes).radius ↔
          IsProper held ∨ changes.filterMap Change.acceptedRadius? ≠ [])) ∧
    ∀ (disk : Disk Float32) (change : Change Float32) (refusal : InvalidRadius Float32),
      disk.change change = .error refusal →
        ¬IsProper refusal.radius ∧ disk.afterChange change = disk := by
  refine ⟨?_, ?_, ?_⟩
  · intro center radius disk made
    obtain ⟨proper, rfl⟩ := (checked_eq_ok_iff center radius disk).mp made
    exact (isProper_after_iff _ changes).mpr (.inl proper)
  · intro datum disk read
    exact ⟨disk.radius, heldRadius?_of_ofDatum? read, disk.isProper_after_iff changes⟩
  · intro disk change refusal refused
    obtain ⟨-, improper⟩ := (disk.change_eq_error_iff change refusal).mp refused
    exact ⟨improper, by rw [afterChange, refused]⟩

/-- A disk that is read with a radius below zero. -/
def shrunken : Datum :=
  .record [("position", .list [.integer 0, .integer 0]), ("radius", .integer (-1))]

theorem radius_of_changes_mended :
    checked (⟨0, 0⟩ : Vec Float32) 5 = .ok ⟨⟨0, 0⟩, 5⟩ ∧
      IsProper ((⟨⟨0, 0⟩, 5⟩ : Disk Float32).after [.resize (0 / 0), .resize (-3)]).radius ∧
      ofDatum? shrunken = some ⟨⟨0, 0⟩, -1⟩ ∧
      IsProper ((⟨⟨0, 0⟩, -1⟩ : Disk Float32).after
        [.resize (1 / 0), .resize 4, .move ⟨2, 7⟩]).radius ∧
      (⟨⟨0, 0⟩, 5⟩ : Disk Float32).change (.resize (-3)) = .error ⟨-3⟩ ∧
      (⟨⟨0, 0⟩, 5⟩ : Disk Float32).afterChange (.resize (-3)) = ⟨⟨0, 0⟩, 5⟩ := by
  have made : checked (⟨0, 0⟩ : Vec Float32) 5 = .ok ⟨⟨0, 0⟩, 5⟩ := by decide +kernel
  have read : ofDatum? shrunken = some ⟨⟨0, 0⟩, -1⟩ := by decide +kernel
  have refused : (⟨⟨0, 0⟩, 5⟩ : Disk Float32).change (.resize (-3)) = .error ⟨-3⟩ := by
    decide +kernel
  obtain ⟨sound, -, unmoved⟩ := radius_of_changes [.resize (0 / 0), .resize (-3)]
  obtain ⟨-, mended, -⟩ := radius_of_changes [.resize (1 / 0), .resize 4, .move ⟨2, 7⟩]
  obtain ⟨_, -, mended⟩ := mended _ _ read
  refine ⟨made, sound _ _ _ made, read, ?_, refused, (unmoved _ _ _ refused).2⟩
  exact mended.mpr (.inr (by decide +kernel))

/-- What is read is not checked. -/
theorem read_without_proper_radius :
    ∃ disk, ofDatum? shrunken = some disk ∧ ¬IsProper disk.radius := by
  refine ⟨⟨⟨0, 0⟩, -1⟩, by decide +kernel, ?_⟩
  rw [← isProperRadius_iff]
  decide +kernel

end Disk

end ArcGraph
