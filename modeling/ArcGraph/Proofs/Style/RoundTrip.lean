import ArcGraph.Proofs.Style.Partial

/-!
Styles that are saved and loaded.

A style is found again in its file, with its font as it was. A number of it is
another one only if it is stray.
-/

namespace ArcGraph

def Color.numbers (color : Color) : List Float32 :=
  [color.red, color.green, color.blue, color.alpha]

theorem Color.map_beq_iff {f : Float32 → Float32} (color : Color) :
    (color.map f == color) = true ↔ ∀ x ∈ color.numbers, (f x == x) = true := by
  change instBEqColor.beq _ _ = true ↔ _
  simp [map, numbers, instBEqColor.beq]

namespace Style

variable (style : Style Float32)

def numbers : List Float32 :=
  [style.curvature, style.arrowHalfWidth, style.labelOffsetFactor, style.labelMidpointScale,
    style.lineWidth, style.pickTolerance] ++ style.colorDefault.numbers ++
    style.colorSelected.numbers

theorem mapNumbers_eq_self_iff {f : Float32 → Float32} :
    style.mapNumbers f = style ↔ ∀ x ∈ style.numbers, f x = x := by
  obtain ⟨_, _, _, _, _, _, ⟨_, _, _, _⟩, ⟨_, _, _, _⟩, _⟩ := style
  simp [mapNumbers, numbers, Color.map, Color.numbers]
  tauto

theorem mapNumbers_beq_iff {f : Float32 → Float32} :
    (style.mapNumbers f == style) = true ↔ ∀ x ∈ style.numbers, (f x == x) = true := by
  change instBEqStyle.beq _ _ = true ↔ _
  simp only [instBEqStyle.beq, mapNumbers, numbers, BEq.rfl, Bool.and_eq_true, Color.map_beq_iff,
    List.forall_mem_append, List.forall_mem_cons]
  simp
  tauto

variable {style} (proper : ∀ x ∈ style.numbers, x.isNaN = false)

include proper

/-- A saved style is always found again. It is the same one, and is taken for equal, just where no
number in it is stray. -/
theorem load_save :
    load (some style.save) = .found (style.mapNumbers reread) ∧
      (style.mapNumbers reread = style ↔ ∀ x ∈ style.numbers, ¬ IsStray x) ∧
      ((style.mapNumbers reread == style) = true ↔ ∀ x ∈ style.numbers, ¬ IsStray x) := by
  refine ⟨style.load_save_eq, ?_, ?_⟩
  · rw [mapNumbers_eq_self_iff]
    simp only [reread_eq_self_iff]
  · rw [mapNumbers_beq_iff]
    exact forall₂_congr fun x member => reread_beq_iff (proper x member)

omit proper

/-- Infinite numbers, a negative zero, the least number and a font that needs escapes. -/
def extreme : Style Float32 :=
  { standard with
    curvature := .ofBits 0x7f800000
    arrowHalfWidth := .ofBits 0x80000000
    labelOffsetFactor := .ofBits 0xff800000
    lineWidth := .ofBits 0x00000001
    labelFont := "\n'''\"\"\"\\" }

theorem load_save_extreme :
    (∀ x ∈ extreme.numbers, x.isNaN = false) ∧ load (some extreme.save) = .found extreme := by
  have proper : ∀ x ∈ extreme.numbers, x.isNaN = false := by decide +kernel
  obtain ⟨found, same, -⟩ := load_save proper
  rw [same.2 (by decide +kernel)] at found
  exact ⟨proper, found⟩

/-- The standard style with a stray curvature. -/
def stray : Style Float32 := { standard with curvature := .ofBits 0x15ae43fd }

/-- The shortest decimal of the curvature, `7.038531e-26`, comes back as the next number. -/
theorem load_save_stray :
    (∀ x ∈ stray.numbers, x.isNaN = false) ∧
      load (some stray.save) = .found { stray with curvature := .ofBits 0x15ae43fe } ∧
      ({ stray with curvature := .ofBits 0x15ae43fe } == stray) = false := by
  have proper : ∀ x ∈ stray.numbers, x.isNaN = false := by decide +kernel
  have changed : stray.mapNumbers reread = { stray with curvature := .ofBits 0x15ae43fe } := by
    decide +kernel
  rw [load_save_eq, changed]
  exact ⟨proper, rfl, by decide +kernel⟩

end Style

end ArcGraph
