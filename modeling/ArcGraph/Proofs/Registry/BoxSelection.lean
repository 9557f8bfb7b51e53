import ArcGraph.Proofs.Registry.Clicking

/-!
Selecting edges in a box.

Between the lower and the upper corner of the box of two points lies what lies
between the points themselves, whichever way round these are in each coordinate,
and nothing if one of the coordinates is no number. So it does not matter which
opposite corners a box is given by.
-/

namespace ArcGraph

open Scalar

section Amid

variable {α : Type} [Scalar α]

/-- The point lies strictly between two others, in each of the coordinates. -/
def Vec.isAmid (p a b : Vec α) : Bool :=
  decide (a.x < p.x ∧ p.x < b.x ∨ b.x < p.x ∧ p.x < a.x) &&
    decide (a.y < p.y ∧ p.y < b.y ∨ b.y < p.y ∧ p.y < a.y)

/-- The edge has an arc, and both its nodes have their centers strictly between two points. -/
def Edge.isAmid (a b : Vec α) (edge : Edge α) : Bool :=
  edge.arc.any fun arc => arc.start.isAmid a b && arc.finish.isAmid a b

end Amid

/-! ### Corners -/

theorem Binary.between_ends_iff (a b p : Float32) [Decidable (a < b)] [Decidable (b < a)] :
    (if a < b then a else b) < p ∧ p < (if b < a then a else b) ↔
      a < p ∧ p < b ∨ b < p ∧ p < a := by
  constructor
  · rintro ⟨lower, upper⟩
    split at lower
    case isTrue less =>
      rw [if_neg (not_lt_of_lt less)] at upper
      exact .inl ⟨lower, upper⟩
    case isFalse =>
      split at upper
      case isTrue => exact .inr ⟨lower, upper⟩
      case isFalse => exact absurd upper (not_lt_of_lt lower)
  · rintro (⟨lower, upper⟩ | ⟨lower, upper⟩)
    · have less := lt_trans_single lower upper
      rw [if_pos less, if_neg (not_lt_of_lt less)]
      exact ⟨lower, upper⟩
    · have less := lt_trans_single lower upper
      rw [if_neg (not_lt_of_lt less), if_pos less]
      exact ⟨lower, upper⟩

namespace Vec

theorem strictlyBetween_corners (p a b : Vec Float32) :
    p.strictlyBetween (a.lowerCorner b) (a.upperCorner b) = p.isAmid a b := by
  have across := Binary.between_ends_iff a.x b.x p.x
  have upward := Binary.between_ends_iff a.y b.y p.y
  rw [Bool.eq_iff_iff]
  simp only [strictlyBetween, isAmid, Bool.and_eq_true, decide_eq_true_eq, and_assoc]
  rw [← across, ← upward]
  exact and_assoc.symm

variable (p a b : Vec Float32)

theorem isAmid_comm : p.isAmid b a = p.isAmid a b := by
  simp only [isAmid, or_comm]

theorem isAmid_swap_x : p.isAmid ⟨b.x, a.y⟩ ⟨a.x, b.y⟩ = p.isAmid a b := by
  simp only [isAmid, or_comm (a := b.x < p.x ∧ _)]

theorem isAmid_swap_y : p.isAmid ⟨a.x, b.y⟩ ⟨b.x, a.y⟩ = p.isAmid a b := by
  simp only [isAmid, or_comm (a := b.y < p.y ∧ _)]

variable {p a b}

theorem number_of_isAmid (amid : p.isAmid a b = true) :
    a.x.isNaN = false ∧ a.y.isNaN = false ∧ b.x.isNaN = false ∧ b.y.isNaN = false := by
  rw [isAmid, Bool.and_eq_true, decide_eq_true_eq, decide_eq_true_eq] at amid
  have number {a b p : Float32} (between : a < p ∧ p < b ∨ b < p ∧ p < a) :
      a.isNaN = false ∧ b.isNaN = false := by
    rcases between with ⟨lower, upper⟩ | ⟨lower, upper⟩
    · exact ⟨(Binary.not_isNaN_of_lt lower).1, (Binary.not_isNaN_of_lt upper).2⟩
    · exact ⟨(Binary.not_isNaN_of_lt upper).2, (Binary.not_isNaN_of_lt lower).1⟩
  have across := number amid.1
  have upward := number amid.2
  exact ⟨across.1, upward.1, across.2, upward.2⟩

theorem isAmid_eq_false (noNumber : a.x.isNaN = true ∨ a.y.isNaN = true ∨ b.x.isNaN = true ∨
    b.y.isNaN = true) (p : Vec Float32) : p.isAmid a b = false := by
  rw [← Bool.not_eq_true]
  intro amid
  obtain ⟨left, lower, right, upper⟩ := number_of_isAmid amid
  rw [left, lower, right, upper] at noNumber
  simp only [Bool.false_eq_true, or_self] at noNumber

end Vec

namespace Registry

theorem isInBox_corners (a b : Vec Float32) (edge : Edge Float32) :
    isInBox (a.lowerCorner b) (a.upperCorner b) edge = edge.isAmid a b := by
  simp only [isInBox, Edge.isAmid, Vec.strictlyBetween_corners]

/-! ### Selections -/

/-- The outcome of selecting the edges between two points. Selected are those that were, and those
with an arc whose nodes have their centers strictly between the points; nothing else is changed, and
to select them again selects none. -/
structure IsBoxSelection (registry : Registry Float32) (a b : Vec Float32)
    (outcome : ℕ × Registry Float32) : Prop where
  keys : outcome.2.edges.keys = registry.edges.keys
  edge : ∀ key, outcome.2.get? key = (registry.get? key).map fun edge =>
    edge.withSelected (edge.flags.selected || edge.isAmid a b)
  nextId : outcome.2.nextId = registry.nextId
  curvature : outcome.2.curvature = registry.curvature
  count : outcome.1 = registry.edges.values.countP fun edge =>
    edge.isAmid a b && !edge.flags.selected
  selectedCount : outcome.2.selectedCount = registry.selectedCount + outcome.1
  again : outcome.2.selectInBox a b = (0, outcome.2)

variable (registry : Registry Float32) (a b : Vec Float32)

theorem selectInBox_eq : registry.selectInBox a b =
    (registry.edges.values.countP fun edge => edge.isAmid a b && !edge.flags.selected,
      registry.mapEdges fun edge =>
        edge.withSelected (edge.flags.selected || edge.isAmid a b)) := by
  have change (edge : Edge Float32) :
      (if edge.isAmid a b then edge.withSelected true else edge) =
        edge.withSelected (edge.flags.selected || edge.isAmid a b) := by
    cases edge.isAmid a b <;> simp [Edge.withSelected]
  simp only [selectInBox, isInBox_corners, change]

theorem countP_or_eq_add {β : Type} (p q : β → Bool) (values : List β) :
    (values.countP fun value => p value || q value) =
      values.countP p + values.countP fun value => q value && !p value := by
  rw [List.countP_eq_countP_filter_add values _ p, List.countP_filter, List.countP_filter]
  congr 2 <;>
    · funext value
      cases p value <;> cases q value <;> rfl

theorem isBoxSelection_selectInBox :
    registry.IsBoxSelection a b (registry.selectInBox a b) := by
  rw [selectInBox_eq]
  refine {
    keys := Table.keys_mapValues _ _
    edge := registry.get?_mapEdges _
    nextId := rfl
    curvature := rfl
    count := rfl
    selectedCount := ?_
    again := ?_ }
  · rw [Registry.selectedCount, mapEdges, Table.values_mapValues, List.countP_map]
    exact countP_or_eq_add _ _ _
  · rw [selectInBox_eq, mapEdges_mapEdges]
    refine Prod.ext ?_ (congrArg registry.mapEdges ?_)
    · rw [mapEdges, Table.values_mapValues, List.countP_map, List.countP_eq_zero]
      intro edge _
      change ¬(edge.isAmid a b && !(edge.flags.selected || edge.isAmid a b)) = true
      cases edge.isAmid a b <;> simp
    · funext edge
      change edge.withSelected (edge.flags.selected || edge.isAmid a b || edge.isAmid a b) = _
      rw [Bool.or_assoc, Bool.or_self]

variable {registry a b}

theorem selectInBox_congr {a' b' : Vec Float32}
    (same : ∀ p : Vec Float32, p.isAmid a' b' = p.isAmid a b) :
    registry.selectInBox a' b' = registry.selectInBox a b := by
  simp only [selectInBox_eq, Edge.isAmid, same]

theorem selectInBox_of_empty (empty : ∀ p : Vec Float32, p.isAmid a b = false) :
    registry.selectInBox a b = (0, registry) := by
  rw [selectInBox_eq]
  simp [Edge.isAmid, empty, Edge.withSelected, mapEdges, Table.mapValues]

end Registry

/-- Selecting between two points selects the edges with both nodes strictly between them, and counts
those that were not selected. Any opposite corners of the same box do as well, and if one of the
coordinates is no number nothing is selected. -/
theorem selection_of_corners (registry : Registry Float32) (a b : Vec Float32) :
    registry.IsBoxSelection a b (registry.selectInBox a b) ∧
    (∀ corners ∈ [(b, a), (⟨b.x, a.y⟩, ⟨a.x, b.y⟩), (⟨a.x, b.y⟩, ⟨b.x, a.y⟩)],
      registry.selectInBox corners.1 corners.2 = registry.selectInBox a b) ∧
    (a.x.isNaN = true ∨ a.y.isNaN = true ∨ b.x.isNaN = true ∨ b.y.isNaN = true →
      registry.selectInBox a b = (0, registry)) := by
  refine ⟨registry.isBoxSelection_selectInBox a b, ?_, ?_⟩
  · simp only [List.mem_cons, List.not_mem_nil, or_false]
    rintro corners (rfl | rfl | rfl)
    · exact Registry.selectInBox_congr fun p => p.isAmid_comm a b
    · exact Registry.selectInBox_congr fun p => p.isAmid_swap_x a b
    · exact Registry.selectInBox_congr fun p => p.isAmid_swap_y a b
  · intro noNumber
    exact Registry.selectInBox_of_empty (Vec.isAmid_eq_false noNumber)

/-- A box around the edge on top, given by different corners, and one without a left side. -/
theorem selection_of_corners_crossing :
    (crossed.selectInBox ⟨120, -10⟩ ⟨-10, 10⟩).1 = 1 ∧
      (crossed.selectInBox ⟨120, -10⟩ ⟨-10, 10⟩).2.selectedCount = crossed.selectedCount + 1 ∧
      crossed.selectInBox ⟨-10, -10⟩ ⟨120, 10⟩ = crossed.selectInBox ⟨120, -10⟩ ⟨-10, 10⟩ ∧
      (0 / 0 : Float32).isNaN = true ∧
      crossed.selectInBox ⟨0 / 0, -10⟩ ⟨120, 10⟩ = (0, crossed) := by
  have count : (crossed.selectInBox ⟨120, -10⟩ ⟨-10, 10⟩).1 = 1 := by decide +kernel
  have noNumber : (0 / 0 : Float32).isNaN = true := by decide +kernel
  obtain ⟨isSelection, corners, -⟩ := selection_of_corners crossed ⟨120, -10⟩ ⟨-10, 10⟩
  have grown := isSelection.selectedCount
  rw [count] at grown
  exact ⟨count, grown, corners (⟨-10, -10⟩, ⟨120, 10⟩) (by simp), noNumber,
    (selection_of_corners crossed ⟨0 / 0, -10⟩ ⟨120, 10⟩).2.2 (.inl noNumber)⟩

end ArcGraph
