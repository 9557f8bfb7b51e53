import ArcGraph.Proofs.Arc.Hit
import ArcGraph.Proofs.Plane.Single

/-!
The fitted parabola in 32 bits.

Its axis across is turned by the products that the first coordinate of the head
is made of, so that this coordinate, the span, is not negative. A span of zero
would be a factor of zero in the determinant, which is too large for that. So
the span is a positive finite number, and nothing is ever divided by zero: a
division by zero may give anything and makes no difference.
-/

namespace ArcGraph

open Scalar

/-! ### Divisors -/

/-- The numbers with some other division. -/
@[reducible]
def Scalar.dividing {α : Type} [Scalar α] (div : α → α → α) : Scalar α :=
  { (inferInstance : Scalar α) with div }

section Divisors

variable {α : Type} [Scalar α]

/-- The division is the usual one for the divisors of the geometry: some literals, lengths that are
not too short, determinants that are not too small and positive spans. -/
structure Scalar.Agrees (div : α → α → α) : Prop where
  literal : ∀ n ∈ [2, 1000, 10000, 1000000, 8388608], ∀ a, div a (ofNat n) = a / ofNat n
  length : ∀ a length, ¬length < Vec.degenerateLength → div a length = a / length
  determinant : ∀ a determinant, ¬abs determinant < Parabola.unitSpacing →
    div a determinant = a / determinant
  span : ∀ a span, ofNat 0 < span → div a span = a / span

variable {div : α → α → α} (agrees : Agrees div)
include agrees

theorem Scalar.half_dividing :
    @HDiv.hDiv _ _ _ (@instHDiv _ (dividing div).toDiv) (@ofNat _ (dividing div) 1)
      (@ofNat _ (dividing div) 2) = (ofNat 1 / ofNat 2 : α) :=
  agrees.literal 2 (by decide) (ofNat 1)

namespace Vec

theorem degenerateLength_dividing :
    @degenerateLength α (dividing div) = degenerateLength :=
  agrees.literal 1000000 (by decide) (ofNat 1)

theorem unit?_dividing (a : Vec α) : @unit? α (dividing div) a = a.unit? := by
  unfold unit?
  rw [degenerateLength_dividing agrees]
  split
  case isFalse infinite => exact (if_neg infinite).symm
  case isTrue finite =>
    refine Eq.trans ?_ (if_pos finite).symm
    split
    case isTrue short => exact (if_pos short).symm
    case isFalse long =>
      refine Eq.trans (congrArg some ?_) (if_neg long).symm
      ext
      · exact agrees.length a.x a.length long
      · exact agrees.length a.y a.length long

end Vec

namespace Parabola

theorem unitSpacing_dividing : @unitSpacing α (dividing div) = unitSpacing :=
  agrees.literal 8388608 (by decide) (ofNat 1)

theorem axis?_dividing (bulge along : Vec α) (length : α) :
    @axis? α (dividing div) bulge along length = axis? bulge along length := by
  have ratio : @straightRatio α (dividing div) = straightRatio :=
    agrees.literal 10000 (by decide) (ofNat 1)
  unfold axis?
  rw [ratio, Vec.unit?_dividing agrees]
  rfl

theorem coefficients?_dividing (pu pv qu qv : α) :
    @coefficients? α (dividing div) pu pv qu qv = coefficients? pu pv qu qv := by
  unfold coefficients?
  dsimp only
  rw [unitSpacing_dividing agrees]
  split
  case isTrue singular => exact (if_pos singular).symm
  case isFalse regular =>
    refine Eq.trans ?_ (if_neg regular).symm
    have large : ¬abs (pu * qu * (pu - qu)) < unitSpacing := by
      intro small
      exact regular (Bool.or_eq_true_iff.mpr (.inr (decide_eq_true small)))
    rw [← agrees.determinant (pv * qu - qv * pu) _ large,
      ← agrees.determinant (pu * pu * qv - qu * qu * pv) _ large]
    rfl

theorem ofArc?_dividing (arc : Arc α) : @ofArc? α (dividing div) arc = ofArc? arc := by
  simp only [ofArc?, half_dividing agrees, Vec.unit?_dividing agrees, axis?_dividing agrees,
    coefficients?_dividing agrees]
  rfl

end Parabola

namespace Arc

variable (arc : Arc α) (p : Vec α)

theorem slack_dividing : @slack α (dividing div) arc = arc.slack := by
  have least : @leastSlack α (dividing div) = leastSlack :=
    agrees.literal 1000 (by decide) (ofNat 1)
  simp only [slack, least, Parabola.unitSpacing_dividing agrees]
  rfl

theorem handle_dividing : @handle α (dividing div) arc = arc.handle := by
  simp only [handle, half_dividing agrees]
  rfl

theorem isBesideHull_dividing (tolerance : α) :
    @isBesideHull α (dividing div) arc p tolerance = arc.isBesideHull p tolerance := by
  simp only [isBesideHull, handle_dividing agrees]
  rfl

theorem judge_dividing (distance : α)
    (positive : ∀ parabola, Parabola.ofArc? arc = some parabola → ofNat 0 < parabola.span) :
    @judge α (dividing div) arc p distance = arc.judge p distance := by
  simp only [judge, slack_dividing agrees, isBesideHull_dividing agrees,
    Parabola.ofArc?_dividing agrees]
  cases fitted : Parabola.ofArc? arc with
  | none => rfl
  | some parabola =>
      have share (u : α) :
          @HDiv.hDiv _ _ _ (@instHDiv _ (dividing div).toDiv) u parabola.span =
            u / parabola.span :=
        agrees.span u parabola.span (positive parabola fitted)
      simp only [share]
      rfl

end Arc

end Divisors

/-! ### The span -/

namespace Parabola

/-- The frame is one that a point can be judged in. -/
structure IsUsable (parabola : Parabola Float32) (arc : Arc Float32) : Prop where
  finite : parabola.span.isFinite = true
  positive : Float32.ofNat 0 < parabola.span
  head : (parabola.toLocal arc.head).1 = parabola.span
  leading : parabola.a.isFinite = true
  linear : parabola.b.isFinite = true

theorem not_dot_crossAxis_lt_zero (axis chord : Vec Float32) :
    ¬chord.dot (crossAxis axis chord) < Float32.ofNat 0 := by
  rw [Vec.dot_comm_single]
  unfold crossAxis
  split
  case isTrue backward =>
    rw [Vec.neg_dot_single]
    exact Binary.not_neg_add_neg_lt_zero backward
  case isFalse forward => exact forward

theorem finite_of_coefficients? {α : Type} [Scalar α] {pu pv qu qv a b : α}
    (solved : coefficients? pu pv qu qv = some (a, b)) :
    isFinite (pu * qu * (pu - qu)) = true ∧ ¬abs (pu * qu * (pu - qu)) < unitSpacing ∧
      isFinite a = true ∧ isFinite b = true := by
  simp only [coefficients?] at solved
  split at solved
  case isTrue => cases solved
  case isFalse regular =>
    split at solved
    case isTrue => cases solved
    case isFalse finite =>
      simp only [Bool.or_eq_true, Bool.not_eq_true', decide_eq_true_eq, not_or,
        Bool.not_eq_false, Option.some.injEq, Prod.mk.injEq] at regular finite solved
      obtain ⟨rfl, rfl⟩ := solved
      exact ⟨regular.1, regular.2, finite.1, finite.2⟩

theorem unitSpacing_pos_single : Float32.ofNat 0 < unitSpacing := by decide +kernel

section Determinant

variable {pu pv qu qv a b : Float32} (solved : coefficients? pu pv qu qv = some (a, b))
include solved

theorem span_isFinite : qu.isFinite = true := by
  obtain ⟨finite, -⟩ := finite_of_coefficients? solved
  exact Binary.right_isFinite_of_mul (Binary.left_isFinite_of_mul finite)

/-- A determinant with a factor of zero is zero, as the other factors are finite. -/
theorem not_isZero_span : ¬Binary.IsZero qu := by
  obtain ⟨finite, large, -⟩ := finite_of_coefficients? solved
  have finiteDifference : (pu - qu).isFinite = true := Binary.right_isFinite_of_mul finite
  have finiteFirst : pu.isFinite = true :=
    Binary.left_isFinite_of_mul (Binary.left_isFinite_of_mul finite)
  intro zero
  exact Binary.not_isZero_of_not_abs_lt unitSpacing_pos_single large
    ((zero.mul_left finiteFirst).mul_right finiteDifference)

theorem span_pos_of_not_lt (forward : ¬qu < Float32.ofNat 0) : Float32.ofNat 0 < qu := by
  have number : qu.isNaN = false := Binary.isNaN_of_isFinite (span_isFinite solved)
  have apart : ¬Binary.Alike qu (Float32.ofNat 0) := fun alike =>
    not_isZero_span solved alike.isZero
  exact (Binary.lt_or_lt_of_not_alike number rfl apart).resolve_left forward

end Determinant

theorem isUsable_of_ofArc? {arc : Arc Float32} {parabola : Parabola Float32}
    (fitted : ofArc? arc = some parabola) : parabola.IsUsable arc := by
  obtain ⟨along, -, -, solved, origin, across, extent⟩ :=
    (ofArc?_eq_some_iff arc parabola).mp fitted
  obtain ⟨-, -, leading, linear⟩ := finite_of_coefficients? solved
  have forward : ¬arc.chord.dot parabola.uAxis < Float32.ofNat 0 := by
    rw [across]
    exact not_dot_crossAxis_lt_zero parabola.vAxis arc.chord
  have head : (parabola.toLocal arc.head).1 = arc.chord.dot parabola.uAxis := by
    rw [toLocal, origin]
    rfl
  rw [← extent] at solved forward head
  exact ⟨span_isFinite solved, span_pos_of_not_lt solved forward, head, leading, linear⟩

end Parabola

/-- The division is that of numbers of 32 bits, except that a division by zero may give anything. -/
def Scalar.DividesNonzero (div : Float32 → Float32 → Float32) : Prop :=
  ∀ a b, ¬Binary.IsZero b → div a b = a / b

theorem Scalar.DividesNonzero.agrees {div : Float32 → Float32 → Float32}
    (nonzero : DividesNonzero div) : Agrees div where
  literal n listed a := by
    have divisors : ∀ n ∈ [2, 1000, 10000, 1000000, 8388608], ¬Binary.IsZero (Float32.ofNat n) := by
      decide +kernel
    exact nonzero a (Float32.ofNat n) (divisors n listed)
  length a length long :=
    nonzero a length (Binary.not_isZero_of_not_lt Vec.degenerateLength_pos_single long)
  determinant a determinant large :=
    nonzero a determinant
      (Binary.not_isZero_of_not_abs_lt Parabola.unitSpacing_pos_single large)
  span a span positive := nonzero a span (Binary.not_isZero_of_pos positive)

namespace Arc

/-- Where an arc has a parabola, points can be judged in its frame. Neither the fit nor a judgement
depends on what a division by zero gives. -/
theorem usable_of_fitted (arc : Arc Float32) :
    (∀ parabola, Parabola.ofArc? arc = some parabola → parabola.IsUsable arc) ∧
      ∀ div, DividesNonzero div →
        @Parabola.ofArc? Float32 (dividing div) arc = Parabola.ofArc? arc ∧
          ∀ p distance, @judge Float32 (dividing div) arc p distance = arc.judge p distance := by
  refine ⟨fun _ => Parabola.isUsable_of_ofArc?, fun div nonzero => ?_⟩
  refine ⟨Parabola.ofArc?_dividing nonzero.agrees arc, fun p distance => ?_⟩
  apply judge_dividing nonzero.agrees
  intro parabola fitted
  exact (Parabola.isUsable_of_ofArc? fitted).positive

/-- An arc of height 3 over a chord of length 4, with ends in the two centers. -/
def bow : Arc Float32 where
  start := ⟨ofNat 0, ofNat 0⟩
  finish := ⟨ofNat 4, ofNat 0⟩
  startRadius := ofNat 0
  finishRadius := ofNat 0
  curvature := ofNat 3
  normal := ⟨ofNat 0, ofNat 1⟩
  offset := ofNat 0
  reach := ⟨ofNat 4, ofNat 0⟩
  midpoint := ⟨ofNat 2, ofNat 0⟩
  apex := ⟨ofNat 2, ofNat 3⟩
  tail := ⟨ofNat 0, ofNat 0⟩
  head := ⟨ofNat 4, ofNat 0⟩

/-- A division that takes every quotient by zero for seven. -/
def divideOrSeven (a b : Float32) : Float32 :=
  if Binary.IsZero b then ofNat 7 else a / b

theorem usable_of_fitted_bow :
    (∃ parabola, Parabola.ofArc? bow = some parabola ∧ parabola.IsUsable bow) ∧
      @Parabola.ofArc? Float32 (dividing divideOrSeven) bow = Parabola.ofArc? bow := by
  obtain ⟨usable, independent⟩ := usable_of_fitted bow
  constructor
  · have fitted : (Parabola.ofArc? bow).isSome = true := by decide +kernel
    obtain ⟨parabola, fitted⟩ := Option.isSome_iff_exists.mp fitted
    exact ⟨parabola, fitted, usable parabola fitted⟩
  · exact (independent divideOrSeven fun a b nonzero => if_neg nonzero).1

end Arc

end ArcGraph
