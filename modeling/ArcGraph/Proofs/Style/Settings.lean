import ArcGraph.Proofs.Toml.Document

/-!
Settings as a file holds them.

A record is read as a style if it has all settings that are required. The others
are standard if they are missing.
-/

namespace ArcGraph

open Datum Toml

def Color.map (f : Float32 → Float32) (color : Color) : Color :=
  ⟨f color.red, f color.green, f color.blue, f color.alpha⟩

namespace Style

variable (style : Style Float32)

/-- The style with a function applied to each of its numbers. -/
def mapNumbers (f : Float32 → Float32) : Style Float32 where
  curvature := f style.curvature
  arrowHalfWidth := f style.arrowHalfWidth
  labelOffsetFactor := f style.labelOffsetFactor
  labelMidpointScale := f style.labelMidpointScale
  labelFont := style.labelFont
  lineWidth := f style.lineWidth
  colorDefault := style.colorDefault.map f
  colorSelected := style.colorSelected.map f
  pickTolerance := f style.pickTolerance

/-- The value of a setting as it is read from a file. -/
def datum : Key → Datum
  | .curvature => numberDatum style.curvature
  | .arrowHalfWidth => numberDatum style.arrowHalfWidth
  | .labelOffsetFactor => numberDatum style.labelOffsetFactor
  | .labelMidpointScale => numberDatum style.labelMidpointScale
  | .labelFont => .text style.labelFont
  | .lineWidth => numberDatum style.lineWidth
  | .colorDefault => colorDatum style.colorDefault
  | .colorSelected => colorDatum style.colorSelected
  | .pickTolerance => numberDatum style.pickTolerance

theorem isValue_writeValue (key : Key) : IsValue (style.writeValue key) (style.datum key) := by
  cases key with
  | labelFont =>
      have text := isValue_write style.labelFont.toList
      rwa [String.ofList_toList] at text
  | colorDefault => exact isValue_writeColor style.colorDefault
  | colorSelected => exact isValue_writeColor style.colorSelected
  | _ => exact isValue_writeNumber _

theorem inRange_numberDatum (x : Float32) : (numberDatum x).inRange = true := by
  obtain ⟨written, read, back⟩ := (isReread x).ofToken?
  have datum : numberDatum x = .number written := by simp [numberDatum, read]
  obtain ⟨double, read, -⟩ := Option.map_eq_some_iff.mp back
  rw [datum, inRange, read]
  rfl

theorem inRange_datum (key : Key) : (style.datum key).inRange = true := by
  cases key with
  | labelFont => rfl
  | colorDefault | colorSelected =>
      simp [datum, colorDatum, inRange, itemsInRange, inRange_numberDatum]
  | _ => exact inRange_numberDatum _

theorem ofDatum?_colorDatum (color : Color) :
    Color.ofDatum? true (colorDatum color) = some (color.map reread) := by
  simp [Color.ofDatum?, colorDatum, single?_numberDatum, Color.map]

/-- The style with the standard values of some settings. -/
def reset (removed : Finset Key) : Style Float32 :=
  let plain : Style Float32 := standard
  { curvature := if .curvature ∈ removed then plain.curvature else style.curvature
    arrowHalfWidth :=
      if .arrowHalfWidth ∈ removed then plain.arrowHalfWidth else style.arrowHalfWidth
    labelOffsetFactor :=
      if .labelOffsetFactor ∈ removed then plain.labelOffsetFactor else style.labelOffsetFactor
    labelMidpointScale :=
      if .labelMidpointScale ∈ removed then plain.labelMidpointScale else style.labelMidpointScale
    labelFont := if .labelFont ∈ removed then plain.labelFont else style.labelFont
    lineWidth := if .lineWidth ∈ removed then plain.lineWidth else style.lineWidth
    colorDefault := if .colorDefault ∈ removed then plain.colorDefault else style.colorDefault
    colorSelected := if .colorSelected ∈ removed then plain.colorSelected else style.colorSelected
    pickTolerance := if .pickTolerance ∈ removed then plain.pickTolerance else style.pickTolerance }

theorem reset_empty : style.reset ∅ = style := rfl

section Fields

variable {style} {removed : Finset Key} {fields : List (String × Datum)}
  (parts : ∀ key, fields.lookup key.name = if key ∈ removed then none else some (style.datum key))

include parts

/-- Without a setting that is required there is no style. -/
theorem ofDatum?_of_required {key : Key} (gone : key ∈ removed) (required : key.isRequired = true) :
    ofDatum? true (.record fields) = none := by
  have part := parts key
  rw [if_pos gone] at part
  rw [ofDatum?, parts?, Option.bind_eq_bind, Option.bind_some]
  split_ifs
  · cases key with
    | labelMidpointScale | pickTolerance => contradiction
    | _ => simp [part, required?]
  · rfl

/-- Settings that are not required are standard if they are missing. -/
theorem ofDatum?_of_optional (known : fields.all admits = true)
    (optional : ∀ key ∈ removed, key.isRequired = false) :
    ofDatum? true (.record fields) = some ((style.mapNumbers reread).reset removed) := by
  have present {key : Key} (required : key.isRequired = true) : key ∉ removed := by
    intro gone
    rw [optional key gone] at required
    contradiction
  have part {key : Key} (required : key.isRequired = true) :
      fields.lookup key.name = some (style.datum key) := by
    rw [parts, if_neg (present required)]
  have number {key : Key} {x : Float32} (isNumber : style.datum key = numberDatum x)
      (fallback : Float32) : optional? single? fallback (fields.lookup key.name) =
        some (if key ∈ removed then fallback else reread x) := by
    rw [parts, isNumber]
    split_ifs
    · rfl
    · exact single?_numberDatum x
  have scale := @number .labelMidpointScale _ rfl standard.labelMidpointScale
  have tolerance := @number .pickTolerance _ rfl standard.pickTolerance
  have required : ∀ key ∈ [Key.curvature, .arrowHalfWidth, .labelOffsetFactor, .labelFont,
      .lineWidth, .colorDefault, .colorSelected], key.isRequired = true := by decide
  simp only [List.forall_mem_cons] at required
  rw [ofDatum?, parts?, Option.bind_eq_bind, Option.bind_some, if_pos known, scale, tolerance]
  simp [part, required, present, required?, datum, single?_numberDatum, ofDatum?_colorDatum, text?,
    reset, mapNumbers]

end Fields

/-- A part that is no setting is passed over only if its numbers are in range. -/
theorem ofDatum?_of_overflow (allowsMore : Bool) {fields : List (String × Datum)} {key : String}
    {value : Datum} (member : (key, value) ∈ fields)
    (unknown : ∀ setting : Key, setting.name ≠ key) (large : value.inRange = false) :
    ofDatum? allowsMore (.record fields) = none := by
  have refused : ¬fields.all admits = true := by
    intro all
    have admitted := List.all_eq_true.mp all _ member
    simp [admits, unknown, large] at admitted
  rw [ofDatum?, parts?, Option.bind_eq_bind, Option.bind_some, if_neg refused]

theorem Key.name_injective : Function.Injective Key.name := by
  have different : (Key.all.map Key.name).Nodup := by decide
  exact fun key key' same => List.inj_on_of_nodup_map different key.mem_all key'.mem_all same

theorem Key.name_ne {name : String} (other : name ∉ Key.all.map Key.name) (key : Key) :
    key.name ≠ name := by
  rintro rfl
  exact other (List.mem_map_of_mem key.mem_all)

theorem Key.isRequired_iff (key : Key) :
    key.isRequired = true ↔ key ∉ ({labelMidpointScale, pickTolerance} : Finset Key) := by
  cases key <;> decide

theorem isBareKey_name (key : Key) : IsBareKey key.name := by
  cases key <;> simp [IsBareKey, Key.name, isBare]

end Style

end ArcGraph
