import ArcGraph.Number.Binary

/-!
The order of numbers of 32 bits, and their kinds.

Comparing two numbers the other way round turns the outcome round. There is none
either way if one of them is no number.
-/

namespace ArcGraph.Binary

open Float.Model Float.Model.UnpackedFloat

theorem swap_compare (a b : UnpackedFloat) : (a.compare b).map Ordering.swap = b.compare a := by
  cases a with
  | notANumber => cases b <;> rfl
  | infinity sign =>
      cases b with
      | infinity sign' => cases sign <;> cases sign' <;> rfl
      | _ => cases sign <;> rfl
  | zero =>
      cases b with
      | infinity sign' => cases sign' <;> rfl
      | finite sign' => cases sign' <;> rfl
      | _ => rfl
  | finite sign significand exponent =>
      cases b with
      | notANumber => cases sign <;> rfl
      | infinity sign' => cases sign <;> cases sign' <;> rfl
      | zero => cases sign <;> rfl
      | finite sign' significand' exponent' =>
          have turned :
              ((compare exponent exponent').then (compare significand significand')).swap =
                (compare exponent' exponent).then (compare significand' significand) := by
            rw [Ordering.swap_then, ← Std.OrientedCmp.eq_swap, ← Std.OrientedCmp.eq_swap]
          cases sign with
          | negative =>
              cases sign' with
              | negative => exact congrArg (fun outcome => some outcome.swap) turned
              | positive => rfl
          | positive =>
              cases sign' with
              | negative => rfl
              | positive => exact congrArg some turned

theorem not_le_of_lt {a b : Float32} (less : a < b) : ¬ b ≤ a := by
  have less : a.toModel.unpack.compare b.toModel.unpack = some .lt :=
    beq_iff_eq.mp (of_decide_eq_true less)
  intro le
  have le : (b.toModel.unpack.compare a.toModel.unpack).any Ordering.isLE = true :=
    of_decide_eq_true le
  rw [← swap_compare, less] at le
  cases le

theorem isFinite_eq_false_iff {a : Float32} :
    a.isFinite = false ↔ a.isNaN = true ∨ a.isInf = true := by
  change a.toModel.unpack.isFinite = false ↔
    a.toModel.unpack.isNaN = true ∨ a.toModel.unpack.isInf = true
  cases a.toModel.unpack with
  | notANumber => exact ⟨fun _ => .inl rfl, fun _ => rfl⟩
  | infinity => exact ⟨fun _ => .inr rfl, fun _ => rfl⟩
  | zero => exact ⟨nofun, nofun⟩
  | finite => exact ⟨nofun, nofun⟩

end ArcGraph.Binary
