import ArcGraph.Proofs.Number.SumOrder
import ArcGraph.Proofs.Registry.Picking

/-!
Picking with a larger tolerance.

Where every operation rounds, and with whatever infinities and values that are
no number an arc may hold, a larger tolerance turns away no point that a smaller
one lets through. A hull with a border at infinity takes an infinite tolerance
for no number, but then the comparison with it turns nothing away.
-/

namespace ArcGraph

open Scalar

theorem Scalar.isNaN_single (x : Float32) : Scalar.isNaN x = x.isNaN := by
  cases nan : x.isNaN with
  | false =>
      have self : x ≤ x := Binary.le_refl_of_number nan
      simp [Scalar.isNaN, self]
  | true =>
      have self : ¬x ≤ x := by
        intro le
        rw [(Binary.not_isNaN_of_le le).1] at nan
        cases nan
      simp [Scalar.isNaN, self]

theorem Scalar.le_maxNumber {x : Float32} (number : x.isNaN = false) (y : Float32) :
    x ≤ maxNumber x y := by
  rw [maxNumber, isNaN_single, number, if_neg Bool.false_ne_true]
  split
  case isTrue less => exact Binary.le_of_lt_single less
  case isFalse => exact Binary.le_refl_of_number number

namespace Arc

variable {arc : Arc Float32} {p : Vec Float32} {distance distance' : Float32}

theorem slack_nonneg (arc : Arc Float32) : Float32.ofNat 0 ≤ arc.slack := by
  have least : Float32.ofNat 0 ≤ (leastSlack : Float32) := by decide +kernel
  exact Trans.trans least (le_maxNumber (Binary.not_isNaN_of_le least).2 _)

/-- The strip of the hull grows with the tolerance. -/
theorem isBesideHull_eq_false_of_le {tolerance tolerance' : Float32}
    (nonneg : Float32.ofNat 0 ≤ tolerance) (le : tolerance ≤ tolerance')
    (inside : arc.isBesideHull p tolerance = false) :
    arc.isBesideHull p tolerance' = false := by
  unfold isBesideHull at inside ⊢
  cases borders : extent [arc.side arc.tail, arc.side arc.handle, arc.side arc.head] with
  | none =>
      simp only [borders, Bool.and_eq_false_iff] at inside ⊢
      refine inside.imp_left fun infinite => ?_
      rw [← Bool.not_eq_true] at infinite ⊢
      exact mt (Binary.isFinite_of_le nonneg le) infinite
  | some strip =>
      simp only [borders, Bool.or_eq_false_iff, decide_eq_false_iff_not] at inside ⊢
      exact ⟨mt (Binary.lt_sub_of_lt_sub nonneg le) inside.1,
        mt (Binary.add_lt_of_add_lt nonneg le) inside.2⟩

/-- A distance that a point may have is a number, and not negative. -/
theorem nonneg_of_judgeUnscreened_eq_hit (hit : arc.judgeUnscreened p distance = .hit) :
    Float32.ofNat 0 ≤ distance := by
  unfold judgeUnscreened at hit
  split at hit
  case isTrue => cases hit
  case isFalse valid =>
    simp only [Bool.or_eq_true, not_or, decide_eq_true_eq, Bool.not_eq_true, isNaN_single] at valid
    exact Binary.le_of_not_lt_single valid.1.2 (Binary.isNaN_of_has Binary.has_zero) valid.2

theorem tolerance_of_le (arc : Arc Float32) (nonneg : Float32.ofNat 0 ≤ distance)
    (le : distance ≤ distance') :
    Float32.ofNat 0 ≤ distance + arc.slack ∧ distance + arc.slack ≤ distance' + arc.slack := by
  have slack := arc.slack_nonneg
  have nonneg' : Float32.ofNat 0 ≤ distance' := Trans.trans nonneg le
  refine ⟨Binary.nonneg_add nonneg slack, ?_⟩
  exact Binary.add_le_add_of_number le (Binary.le_refl_of_number (Binary.not_isNaN_of_le slack).2)
    (Binary.isNaN_add_of_nonneg nonneg slack) (Binary.isNaN_add_of_nonneg nonneg' slack)

theorem judgeUnscreened_eq_hit_of_le (le : distance ≤ distance')
    (hit : arc.judgeUnscreened p distance = .hit) : arc.judgeUnscreened p distance' = .hit := by
  have nonneg := nonneg_of_judgeUnscreened_eq_hit hit
  obtain ⟨-, wider⟩ := tolerance_of_le arc nonneg le
  have nonneg' : Float32.ofNat 0 ≤ distance' := Trans.trans nonneg le
  have number := (Binary.not_isNaN_of_le le).2
  have upward : ¬distance' < Float32.ofNat 0 := fun less => Binary.not_le_of_lt less nonneg'
  unfold judgeUnscreened at hit ⊢
  split at hit
  case isTrue => cases hit
  case isFalse valid =>
    have valid' : ¬(!p.isFinite || isNaN distance' || decide (distance' < ofNat 0)) = true := by
      simp only [Bool.or_eq_true, not_or, decide_eq_true_eq, isNaN_single] at valid ⊢
      rw [number]
      exact ⟨⟨valid.1.1, Bool.false_ne_true⟩, upward⟩
    rw [if_neg valid']
    cases fitted : Parabola.ofArc? arc with
    | none => simp [fitted] at hit
    | some parabola =>
        simp only [fitted] at hit ⊢
        split at hit
        case isTrue => cases hit
        case isFalse near =>
          rw [if_neg fun far => near (Trans.trans wider far)]
          exact hit

theorem isHit_of_le (le : distance ≤ distance') (hit : arc.isHit p distance = true) :
    arc.isHit p distance' = true := by
  rw [isHit, decide_eq_true_eq, judge_eq_hit_iff] at hit ⊢
  obtain ⟨inside, near⟩ := hit
  obtain ⟨nonneg, wider⟩ := tolerance_of_le arc (nonneg_of_judgeUnscreened_eq_hit near) le
  exact ⟨isBesideHull_eq_false_of_le nonneg wider inside, judgeUnscreened_eq_hit_of_le le near⟩

end Arc

theorem Edge.isHit_of_le {edge : Edge Float32} {p : Vec Float32} {distance distance' : Float32}
    (le : distance ≤ distance') (hit : edge.isHit p distance = true) :
    edge.isHit p distance' = true := by
  rw [isHit, Option.any_eq_true] at hit ⊢
  obtain ⟨arc, found, hit⟩ := hit
  exact ⟨arc, found, Arc.isHit_of_le le hit⟩

/-! ### The topmost edge -/

namespace Registry

/-- The edge has the given place in the order of drawing, is hit, and no edge after it is. -/
structure IsTopmost {α : Type} [Scalar α] (registry : Registry α) (p : Vec α) (tolerance : α)
    (place : ℕ) (edge : Edge α) : Prop where
  drawn : registry.edges.values[place]? = some edge
  hit : edge.isHit p tolerance = true
  last : ∀ {later edge'}, place < later → registry.edges.values[later]? = some edge' →
    edge'.isHit p tolerance = false

variable {α : Type} [Scalar α] {registry : Registry α} {p : Vec α} {tolerance : α}

theorem exists_isTopmost_of_pick? {id : EdgeId} (picked : registry.pick? p tolerance = some id) :
    ∃ place edge, registry.IsTopmost p tolerance place edge ∧ edge.id = id := by
  rw [pick?, Option.map_eq_some_iff] at picked
  obtain ⟨edge, found, same⟩ := picked
  obtain ⟨hit, above, below, split, missed⟩ := List.find?_eq_some_iff_append.mp found
  have order : registry.edges.values = below.reverse ++ edge :: above.reverse := by
    rw [← List.reverse_reverse registry.edges.values, split]
    simp
  refine ⟨below.length, edge, ⟨?_, hit, ?_⟩, same⟩
  · rw [order]
    simp
  · intro later edge' after drawn
    obtain ⟨gap, rfl⟩ := Nat.exists_eq_add_of_lt after
    have behind : (below.reverse ++ edge :: above.reverse)[below.length + gap + 1]? =
        above.reverse[gap]? := by
      rw [List.getElem?_append_right (by simp; omega), List.length_reverse, add_assoc,
        Nat.add_sub_cancel_left, List.getElem?_cons_succ]
    rw [order, behind] at drawn
    have member : edge' ∈ above := List.mem_reverse.mp (List.mem_of_getElem? drawn)
    simpa using missed edge' member

/-- Where there is an edge that is hit, one is picked. -/
theorem exists_pick? {place : ℕ} {edge : Edge α} (drawn : registry.edges.values[place]? = some edge)
    (hit : edge.isHit p tolerance = true) : ∃ id, registry.pick? p tolerance = some id := by
  have found : (registry.edges.values.reverse.find? fun edge => edge.isHit p tolerance).isSome := by
    rw [List.find?_isSome]
    exact ⟨edge, List.mem_reverse.mpr (List.mem_of_getElem? drawn), hit⟩
  obtain ⟨top, found⟩ := Option.isSome_iff_exists.mp found
  exact ⟨top.id, by rw [pick?, found, Option.map_some]⟩

end Registry

/-- A point that hits an arc still hits it with a larger tolerance, and the edge that is picked then
is drawn no earlier. -/
theorem hit_of_tolerance_le {tolerance tolerance' : Float32} (le : tolerance ≤ tolerance') :
    (∀ (arc : Arc Float32) (p : Vec Float32),
      arc.isHit p tolerance = true → arc.isHit p tolerance' = true) ∧
    ∀ (registry : Registry Float32) (p : Vec Float32) (id : EdgeId),
      registry.pick? p tolerance = some id →
        ∃ place edge place' edge', registry.IsTopmost p tolerance place edge ∧ edge.id = id ∧
          registry.IsTopmost p tolerance' place' edge' ∧
          registry.pick? p tolerance' = some edge'.id ∧ place ≤ place' := by
  refine ⟨fun arc p => Arc.isHit_of_le le, ?_⟩
  intro registry p id picked
  obtain ⟨place, edge, topmost, same⟩ := Registry.exists_isTopmost_of_pick? picked
  have hit := Edge.isHit_of_le le topmost.hit
  obtain ⟨id', picked'⟩ := Registry.exists_pick? topmost.drawn hit
  obtain ⟨place', edge', topmost', rfl⟩ := Registry.exists_isTopmost_of_pick? picked'
  refine ⟨place, edge, place', edge', topmost, same, topmost', picked', ?_⟩
  by_contra below
  have missed := topmost'.last (not_le.mp below) topmost.drawn
  rw [hit] at missed
  cases missed

/-- Near a crossing the edge below is picked, and with no limit the one on top. -/
theorem hit_of_tolerance_le_crossing :
    (10 : Float32) ≤ 1 / 0 ∧
      (crossing.updateAll crossingNodes).2.pick? ⟨20, 50⟩ 10 = some 1 ∧
      (crossing.updateAll crossingNodes).2.pick? ⟨20, 50⟩ (1 / 0) = some 2 ∧
      ∃ place edge place' edge',
        (crossing.updateAll crossingNodes).2.IsTopmost ⟨20, 50⟩ 10 place edge ∧ edge.id = 1 ∧
        (crossing.updateAll crossingNodes).2.IsTopmost ⟨20, 50⟩ (1 / 0) place' edge' ∧
        edge'.id = 2 ∧ place ≤ place' := by
  have le : (10 : Float32) ≤ 1 / 0 := by decide +kernel
  have picked : (crossing.updateAll crossingNodes).2.pick? ⟨20, 50⟩ 10 = some 1 := by
    decide +kernel
  have picked' : (crossing.updateAll crossingNodes).2.pick? ⟨20, 50⟩ (1 / 0) = some 2 := by
    decide +kernel
  obtain ⟨place, edge, place', edge', topmost, same, topmost', top, ordered⟩ :=
    (hit_of_tolerance_le le).2 _ _ _ picked
  have same' : edge'.id = 2 := Option.some.inj (top.symm.trans picked')
  exact ⟨le, picked, picked', place, edge, place', edge', topmost, same, topmost', same', ordered⟩

end ArcGraph
