import ArcGraph.Proofs.Style.Settings
import ArcGraph.Proofs.Toml.Entries

/-!
Files that lack settings.

Of a saved style some entries may be taken out, and entries with other keys may
be put anywhere between those that are left. What such a file gives depends on
what was taken out, and never on what was put in.
-/

namespace ArcGraph.Style

open Datum Toml

/-- An entry of a file that is none of the settings. Its value can be read, and its numbers are in
range: a number out of range makes the whole file faulty wherever it stands (`load_of_overflow`).
Dots in its key may lead further in, but a header such as `[window]` is no entry and so no addition:
it would take the settings behind it into its table. -/
structure Addition where
  text : List Char
  key : String
  inner : List String
  value : Datum
  isEntry : IsEntry text (key :: inner) value
  inRange : value.inRange = true
  unknown : ∀ setting : Key, setting.name ≠ key

def Addition.path (addition : Addition) : List String :=
  addition.key :: addition.inner

inductive Piece where
  | setting (key : Key)
  | addition (added : Addition)

namespace Piece

def setting? : Piece → Option Key
  | setting key => some key
  | addition _ => none

def addition? : Piece → Option Addition
  | setting _ => none
  | addition added => some added

def path : Piece → List String
  | setting key => [key.name]
  | addition added => added.path

def text (style : Style Float32) : Piece → List Char
  | setting key => style.writeEntry key
  | addition added => added.text

def value (style : Style Float32) : Piece → Datum
  | setting key => style.datum key
  | addition added => added.value

variable (style : Style Float32) (piece : Piece)

theorem isEntry : IsEntry (piece.text style) piece.path (piece.value style) := by
  cases piece with
  | setting key => exact isEntry_line (isBareKey_name key) (style.isValue_writeValue key)
  | addition added => exact added.isEntry

theorem inRange : (piece.value style).inRange = true := by
  cases piece with
  | setting key => exact style.inRange_datum key
  | addition added => exact added.inRange

theorem path_ne_nil : piece.path ≠ [] := by
  cases piece <;> exact List.cons_ne_nil _ _

end Piece

/-- A file with the settings that are not removed, in their order, and with additions, all of them
at the top level, as there are no headers. An addition before another entry ends a line, and no two
of them are in each other's way. -/
structure PartialFile (removed : Finset Key) where
  pieces : List Piece
  settings : pieces.filterMap Piece.setting? = Key.all.filter (· ∉ removed)
  endsLine : ∀ added, .addition added ∈ pieces.dropLast → EndsLine added.text
  apart : (pieces.filterMap Piece.addition?).Pairwise fun added other =>
    Tree.Apart added.path other.path

theorem fromUTF8?_toUTF8 (text : String) : String.fromUTF8? text.toUTF8 = some text := by
  rw [String.fromUTF8?, String.toUTF8_eq_toByteArray, dif_pos text.isValidUTF8]
  rfl

theorem load_toUTF8 {text : String} {datum : Datum}
    (document : document? text.toList = some datum) :
    load (some text.toUTF8) = (ofDatum? true datum).elim .faulty .found := by
  rw [load, Option.bind_some, fromUTF8?_toUTF8]
  simp only [read?, document, Option.bind_some]
  cases ofDatum? true datum <;> rfl

namespace PartialFile

variable {removed : Finset Key}

/-- The bytes of the file, with the values of the style. -/
def bytes (file : PartialFile removed) (style : Style Float32) : ByteArray :=
  (String.ofList (file.pieces.flatMap (Piece.text style))).toUTF8

/-- The file without additions that lacks nothing. -/
def whole : PartialFile ∅ where
  pieces := Key.all.map .setting
  settings := by simp [List.filterMap_map, Function.comp_def, Piece.setting?]
  endsLine := by simp [Key.all]
  apart := by simp [List.filterMap_map, Function.comp_def, Piece.addition?]

theorem bytes_whole (style : Style Float32) : whole.bytes style = style.save := rfl

variable (file : PartialFile removed) (style : Style Float32)

theorem setting_mem_iff (key : Key) : .setting key ∈ file.pieces ↔ key ∉ removed := by
  have kept : key ∈ file.pieces.filterMap Piece.setting? ↔ key ∉ removed := by
    rw [file.settings, List.mem_filter, decide_eq_true_iff]
    exact and_iff_right key.mem_all
  rw [← kept, List.mem_filterMap]
  constructor
  · exact fun member => ⟨_, member, rfl⟩
  · rintro ⟨piece, member, eq⟩
    cases piece <;> cases eq
    exact member

theorem pairwise_apart : (file.pieces.map Piece.path).Pairwise Tree.Apart := by
  have names : (file.pieces.filterMap Piece.setting?).Pairwise (·.name ≠ ·.name) := by
    rw [file.settings]
    exact List.Pairwise.filter _ (by decide)
  rw [List.pairwise_map]
  refine ((List.pairwise_filterMap.mp names).and (List.pairwise_filterMap.mp file.apart)).imp ?_
  rintro (key | added) (key' | added') ⟨names, additions⟩
  · exact Tree.apart_of_head_ne (names key rfl key' rfl) _ _
  · exact Tree.apart_of_head_ne (added'.unknown key) _ _
  · exact Tree.apart_of_head_ne (added.unknown key').symm _ _
  · exact additions added rfl added' rfl

theorem endsLine_text : ∀ piece ∈ file.pieces.dropLast, EndsLine (piece.text style) := by
  intro piece member
  cases piece with
  | setting key => exact endsLine_line
  | addition added => exact file.endsLine added member

/-- The record that the file describes has the settings that are left and nothing else that
matters. -/
theorem exists_record : ∃ fields,
    document? (file.pieces.flatMap (Piece.text style)) = some (.record fields) ∧
      fields.all admits = true ∧
      ∀ key : Key, fields.lookup key.name =
        if key ∈ removed then none else some (style.datum key) := by
  obtain ⟨tree, read, document⟩ := document?_parts (fun piece _ => piece.isEntry style)
    (file.endsLine_text style) (fun piece _ => piece.path_ne_nil) file.pairwise_apart
  refine ⟨fieldData tree, document, ?_, fun key => ?_⟩
  · have inRange := Tree.inRange_of_entries read
      (List.forall_mem_map.mpr fun piece _ => piece.inRange style)
    rw [Tree.fieldData_eq_map, List.all_map, List.all_eq_true]
    intro entry member
    simp [admits, inRange entry member]
  · rw [Tree.lookup_fieldData]
    split_ifs with gone
    · rw [Tree.lookup_of_forall_head_ne read, Option.map_none]
      refine List.forall_mem_map.mpr fun piece member => ?_
      cases piece with
      | setting kept =>
          intro same
          obtain rfl := Key.name_injective (Option.some.inj same)
          exact (file.setting_mem_iff kept).mp member gone
      | addition added => exact fun same => added.unknown key (Option.some.inj same).symm
    · have member : ([key.name], style.datum key) ∈
          file.pieces.map fun piece => (piece.path, piece.value style) :=
        List.mem_map_of_mem ((file.setting_mem_iff key).mpr gone)
      rw [Tree.lookup_of_mem_entries read member]
      rfl

theorem load_bytes :
    load (some (file.bytes style)) =
      if removed ⊆ {.labelMidpointScale, .pickTolerance} then
        .found ((style.mapNumbers reread).reset removed)
      else .faulty := by
  obtain ⟨fields, document, known, parts⟩ := file.exists_record style
  rw [bytes, load_toUTF8 (by rwa [String.toList_ofList])]
  split_ifs with optional
  · have present : ∀ key ∈ removed, key.isRequired = false := fun key gone =>
      Bool.eq_false_iff.mpr fun required => key.isRequired_iff.mp required (optional gone)
    rw [ofDatum?_of_optional parts known present, Option.elim_some]
  · obtain ⟨key, gone, other⟩ := Finset.not_subset.mp optional
    rw [ofDatum?_of_required parts gone (key.isRequired_iff.mpr other), Option.elim_none]

end PartialFile

/-- A number out of range makes a file faulty, under whichever key it stands that is no setting. -/
theorem load_of_overflow {text : String} {fields : List (String × Datum)} {key : String}
    {value : Datum} (document : document? text.toList = some (.record fields))
    (member : (key, value) ∈ fields) (unknown : ∀ setting : Key, setting.name ≠ key)
    (large : value.inRange = false) : load (some text.toUTF8) = .faulty := by
  rw [load_toUTF8 document, ofDatum?_of_overflow true member unknown large, Option.elim_none]

theorem load_save_eq (style : Style Float32) :
    load (some style.save) = .found (style.mapNumbers reread) := by
  rw [← PartialFile.bytes_whole, PartialFile.load_bytes, if_pos (Finset.empty_subset _),
    reset_empty]

/-- A file without a setting that is required counts for nothing. Any other one gives what the
whole file gives, with the standard values of what it lacks. -/
theorem load_of_partial (style : Style Float32) {removed : Finset Key}
    (file : PartialFile removed) :
    ∃ whole, load (some style.save) = .found whole ∧
      load (some (file.bytes style)) =
        (if removed ⊆ {.labelMidpointScale, .pickTolerance} then .found (whole.reset removed)
        else .faulty) ∧
      (load (some (file.bytes style))).style =
        if removed ⊆ {.labelMidpointScale, .pickTolerance} then
          (load (some style.save)).style.reset removed
        else standard := by
  have whole := style.load_save_eq
  have part := file.load_bytes style
  refine ⟨_, whole, part, ?_⟩
  rw [whole, part]
  split_ifs <;> rfl

theorem isEntry_zoom : IsEntry "# closer\nzoom = [1,\n  0.5]\n".toList ["zoom"]
    (.list [.integer 1, .number (.decimal ⟨false, 5, -1⟩)]) := by
  rfl

/-- A list over two lines, with a comment before it. -/
def zoom : Addition where
  text := "# closer\nzoom = [1,\n  0.5]\n".toList
  key := "zoom"
  inner := []
  value := .list [.integer 1, .number (.decimal ⟨false, 5, -1⟩)]
  isEntry := isEntry_zoom
  inRange := by decide +kernel
  unknown := Key.name_ne (by decide)

theorem isEntry_author : IsEntry "author.'first name' = \"\"\"A\nB\"\"\"".toList
    ["author", "first name"] (.text "A\nB") := by
  rfl

/-- A text in a table, on a last line that has no end. -/
def author : Addition where
  text := "author.'first name' = \"\"\"A\nB\"\"\"".toList
  key := "author"
  inner := ["first name"]
  value := .text "A\nB"
  isEntry := isEntry_author
  inRange := rfl
  unknown := Key.name_ne (by decide)

/-- A file without a tolerance, with additions among its settings and behind them. -/
def annotated : PartialFile {.pickTolerance} where
  pieces := [.setting .curvature, .addition zoom, .setting .arrowHalfWidth,
    .setting .labelOffsetFactor, .setting .labelMidpointScale, .setting .labelFont,
    .setting .lineWidth, .setting .colorDefault, .setting .colorSelected, .addition author]
  settings := by decide
  endsLine := by
    intro added member
    obtain rfl : added = zoom := by simpa using member
    rfl
  apart := List.pairwise_pair.mpr (Tree.apart_of_head_ne (by decide) _ _)

/-- The font looks like a setting, and the tolerance is not the standard one. -/
def lookalike : Style Float32 :=
  { standard with labelFont := "\npick_tolerance = 1\n", pickTolerance := .ofBits 0x40000000 }

theorem load_of_partial_annotated :
    load (some lookalike.save) = .found lookalike ∧
      load (some (annotated.bytes lookalike)) =
        .found { lookalike with pickTolerance := standard.pickTolerance } := by
  obtain ⟨whole, found, part, -⟩ := load_of_partial lookalike annotated
  have same : lookalike.mapNumbers reread = lookalike := by decide +kernel
  rw [load_save_eq, same] at found
  cases found
  rw [load_save_eq, same, part, if_pos (by decide)]
  exact ⟨rfl, rfl⟩

end ArcGraph.Style
