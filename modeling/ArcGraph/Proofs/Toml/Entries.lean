import ArcGraph.Proofs.Toml.Locality

/-!
Documents of entries.

Keys with dots put values into tables inside each other. Entries go together if
none of their paths leads through another. What a document of such entries says
under a key depends on the entries with that key only, and not on their order.
-/

namespace ArcGraph.Toml

namespace Tree

section Alter

variable {key : String} {change : Option Node → Option Node} {tree tree' : Tree}

theorem lookup_cons (key other : String) (node : Node) (tree : Tree) :
    List.lookup key ((other, node) :: tree) =
      if other = key then some node else tree.lookup key := by
  rw [List.lookup_cons]
  by_cases same : other = key
  · rw [if_pos same, same, BEq.rfl]
  · rw [if_neg same, beq_false_of_ne (Ne.symm same)]

theorem mem_of_lookup {node : Node} (found : tree.lookup key = some node) : (key, node) ∈ tree := by
  induction tree with
  | nil => cases found
  | cons entry tree inductionHypothesis =>
      obtain ⟨other, node'⟩ := entry
      rw [lookup_cons] at found
      split_ifs at found with same
      · cases found
        rw [same]
        exact List.mem_cons_self
      · exact List.mem_cons_of_mem _ (inductionHypothesis found)

theorem isSome_alter? (tree : Tree) (key : String) (change : Option Node → Option Node) :
    (tree.alter? key change).isSome = (change (tree.lookup key)).isSome := by
  induction tree with
  | nil => rw [alter?, Option.isSome_map, List.lookup_nil]
  | cons entry tree inductionHypothesis =>
      obtain ⟨other, node⟩ := entry
      rw [alter?, lookup_cons]
      split_ifs with same
      · rw [Option.isSome_map]
      · rw [Option.isSome_map, inductionHypothesis]

/-- A change only sees what is under the key. -/
theorem alter?_congr {change' : Option Node → Option Node}
    (same : change (tree.lookup key) = change' (tree.lookup key)) :
    tree.alter? key change = tree.alter? key change' := by
  induction tree with
  | nil =>
      rw [List.lookup_nil] at same
      rw [alter?, alter?, same]
  | cons entry tree inductionHypothesis =>
      obtain ⟨other, node⟩ := entry
      rw [lookup_cons] at same
      rw [alter?, alter?]
      split_ifs at same ⊢
      · rw [same]
      · rw [inductionHypothesis same]

/-- What a change under a key does to the tree. -/
structure IsAltered (key : String) (node : Node) (tree tree' : Tree) : Prop where
  lookup_self : tree'.lookup key = some node
  lookup_of_ne : ∀ other, other ≠ key → tree'.lookup other = tree.lookup other
  mem_or_eq : ∀ entry ∈ tree', entry ∈ tree ∨ entry = (key, node)

theorem exists_isAltered (altered : tree.alter? key change = some tree') :
    ∃ node, change (tree.lookup key) = some node ∧ IsAltered key node tree tree' := by
  induction tree generalizing tree' with
  | nil =>
      rw [alter?] at altered
      obtain ⟨node, changed, rfl⟩ := Option.map_eq_some_iff.mp altered
      refine ⟨node, changed, by rw [lookup_cons, if_pos rfl], fun other ne => ?_, by simp⟩
      rw [lookup_cons, if_neg (Ne.symm ne)]
  | cons entry tree inductionHypothesis =>
      obtain ⟨other, node'⟩ := entry
      rw [alter?] at altered
      rw [lookup_cons]
      split_ifs at altered ⊢ with same
      · obtain ⟨node, changed, rfl⟩ := Option.map_eq_some_iff.mp altered
        refine ⟨node, changed, by rw [lookup_cons, if_pos rfl], fun other' ne => ?_,
          fun entry member => ?_⟩
        · rw [lookup_cons, lookup_cons, if_neg (Ne.symm ne), if_neg (same ▸ Ne.symm ne)]
        · rcases List.mem_cons.mp member with rfl | member
          · exact .inr rfl
          · exact .inl (List.mem_cons_of_mem _ member)
      · obtain ⟨rest, altered', rfl⟩ := Option.map_eq_some_iff.mp altered
        obtain ⟨node, changed, isAltered⟩ := inductionHypothesis altered'
        refine ⟨node, changed, by rw [lookup_cons, if_neg same, isAltered.lookup_self],
          fun other' ne => ?_, fun entry member => ?_⟩
        · rw [lookup_cons, lookup_cons, isAltered.lookup_of_ne other' ne]
        · rcases List.mem_cons.mp member with rfl | member
          · exact .inl List.mem_cons_self
          · exact (isAltered.mem_or_eq entry member).imp_left (List.mem_cons_of_mem _)

end Alter

/-! ### Paths that go together -/

/-- Neither path leads through the end of the other. -/
def Apart (path other : List String) : Prop :=
  ¬path <+: other ∧ ¬other <+: path

theorem apart_of_head_ne {key key' : String} (ne : key ≠ key') (more more' : List String) :
    Apart (key :: more) (key' :: more') := by
  simp [Apart, List.cons_prefix_cons, ne, ne.symm]

/-- The table that a key with something behind a dot leads into. -/
def dotted? : Option Node → Option Tree
  | none => some []
  | some (.table .dotted inner) => some inner
  | _ => none

/-- A value can be put at the end of the path: up to there only dots have made tables. -/
def Free : List String → Tree → Prop
  | [], _ => False
  | [key], tree => tree.lookup key = none
  | key :: next :: more, tree =>
      ∃ inner, dotted? (tree.lookup key) = some inner ∧ Free (next :: more) inner

theorem free_empty {path : List String} (nonempty : path ≠ []) : Free path [] := by
  induction path with
  | nil => contradiction
  | cons key more inductionHypothesis =>
      cases more with
      | nil => rfl
      | cons next more => exact ⟨[], rfl, inductionHypothesis (List.cons_ne_nil next more)⟩

variable {key next : String} {more path : List String} {value : Datum} {inner tree tree' : Tree}

theorem Free.congr (free : Free (key :: more) tree) (same : tree'.lookup key = tree.lookup key) :
    Free (key :: more) tree' := by
  cases more with
  | nil => exact same.trans free
  | cons next more =>
      rw [Free, same]
      exact free

/-- Behind a dot the value is put into the table that the key leads into. -/
theorem put?_dotted (found : dotted? (tree.lookup key) = some inner) :
    put? value (key :: next :: more) tree =
      tree.alter? key fun _ => (put? value (next :: more) inner).map (.table .dotted) := by
  rw [put?]
  refine alter?_congr ?_
  cases old : tree.lookup key with
  | none =>
      rw [old] at found
      cases found
      rfl
  | some node =>
      rw [old] at found
      match node with
      | .table .dotted _ =>
          cases found
          rfl
      | .leaf _ | .rows _ | .table .header _ | .table .implied _ => cases found

theorem Free.isSome_put? (free : Free path tree) (value : Datum) :
    (put? value path tree).isSome = true := by
  induction path generalizing tree with
  | nil => exact free.elim
  | cons key more inductionHypothesis =>
      cases more with
      | nil =>
          have unused : tree.lookup key = none := free
          rw [put?, isSome_alter?, unused]
          rfl
      | cons next more =>
          obtain ⟨inner, found, free⟩ := free
          rw [put?_dotted found, isSome_alter?, Option.isSome_map]
          exact inductionHypothesis free

theorem lookup_put?_of_head_ne (ne : path.head? ≠ some key)
    (put : put? value path tree = some tree') : tree'.lookup key = tree.lookup key := by
  match path with
  | [] => cases put
  | [_] | _ :: _ :: _ =>
      rw [put?] at put
      obtain ⟨node, -, altered⟩ := exists_isAltered put
      exact altered.lookup_of_ne key fun same => ne (congrArg some same.symm)

/-- A path stays free when a value is put at the end of another one. -/
theorem Free.put? {other : List String} (free : Free other tree) (apart : Apart path other)
    (put : Tree.put? value path tree = some tree') : Free other tree' := by
  induction path generalizing other tree tree' with
  | nil => cases put
  | cons key more inductionHypothesis =>
      cases other with
      | nil => exact free.elim
      | cons key' more' =>
          by_cases same : key' = key
          · subst same
            -- If one of the paths ends here, it leads through the other.
            match more, more' with
            | [], more' => exact absurd ⟨more', rfl⟩ apart.1
            | next :: more, [] => exact absurd ⟨next :: more, rfl⟩ apart.2
            | next :: more, next' :: more' =>
                have apart : Apart (next :: more) (next' :: more') := by
                  simpa [Apart, List.cons_prefix_cons] using apart
                obtain ⟨inner, found, free⟩ := free
                rw [put?_dotted found] at put
                obtain ⟨node, changed, altered⟩ := exists_isAltered put
                obtain ⟨inner', put, rfl⟩ := Option.map_eq_some_iff.mp changed
                refine ⟨inner', ?_, inductionHypothesis free apart put⟩
                rw [altered.lookup_self, dotted?]
          · have head : (key :: more).head? ≠ some key' := fun eq => same (Option.some.inj eq).symm
            exact free.congr (lookup_put?_of_head_ne head put)

/-! ### What is put stays -/

theorem lookup_put?_single (put : put? value [key] tree = some tree') :
    tree'.lookup key = some (.leaf value) := by
  rw [put?] at put
  obtain ⟨node, changed, altered⟩ := exists_isAltered put
  rw [altered.lookup_self]
  cases found : tree.lookup key with
  | none =>
      rw [found] at changed
      cases changed
      rfl
  | some other =>
      rw [found] at changed
      cases changed

theorem lookup_put?_of_leaf {datum : Datum}
    (leaf : tree.lookup key = some (.leaf datum)) (put : put? value path tree = some tree') :
    tree'.lookup key = some (.leaf datum) := by
  by_cases head : path.head? = some key
  · obtain ⟨more, rfl⟩ := List.head?_eq_some_iff.mp head
    cases more <;> rw [put?] at put <;> obtain ⟨node, changed, -⟩ := exists_isAltered put
    all_goals
      rw [leaf] at changed
      cases changed
  · rw [lookup_put?_of_head_ne head put, leaf]

/-! ### Numbers in range -/

def InRange (tree : Tree) : Prop :=
  ∀ entry ∈ tree, entry.2.datum.inRange = true

theorem fieldData_eq_map (tree : Tree) :
    fieldData tree = tree.map fun entry => (entry.1, entry.2.datum) := by
  induction tree with
  | nil => rfl
  | cons entry tree inductionHypothesis =>
      rw [fieldData, inductionHypothesis]
      rfl

theorem fieldsInRange_eq_all (fields : List (String × Datum)) :
    Datum.fieldsInRange fields = fields.all fun field => field.2.inRange := by
  induction fields with
  | nil => rfl
  | cons field fields inductionHypothesis =>
      rw [Datum.fieldsInRange, inductionHypothesis, List.all_cons]

theorem itemsInRange_eq_all (items : List Datum) :
    Datum.itemsInRange items = items.all (·.inRange) := by
  induction items with
  | nil => rfl
  | cons item items inductionHypothesis =>
      rw [Datum.itemsInRange, inductionHypothesis, List.all_cons]

theorem inRange_table (origin : Origin) :
    (Node.table origin tree).datum.inRange = true ↔ InRange tree := by
  rw [Node.datum, Datum.inRange, fieldsInRange_eq_all, fieldData_eq_map, List.all_map]
  simp [InRange]

theorem inRange_rows {tables : List Tree} :
    (Node.rows tables).datum.inRange = true ↔ ∀ table ∈ tables, InRange table := by
  have rows : rowData tables = tables.map fun table => .record (fieldData table) := by
    induction tables with
    | nil => rfl
    | cons table tables inductionHypothesis =>
        rw [rowData, inductionHypothesis, List.map_cons]
  rw [Node.datum, Datum.inRange, itemsInRange_eq_all, rows, List.all_reverse, List.all_map,
    List.all_eq_true]
  refine forall₂_congr fun table member => ?_
  exact inRange_table .header

theorem InRange.of_lookup {node : Node} (inRange : InRange tree)
    (found : tree.lookup key = some node) : node.datum.inRange = true :=
  inRange _ (mem_of_lookup found)

theorem InRange.alter? {change : Option Node → Option Node} (inRange : InRange tree)
    (kept : ∀ node, change (tree.lookup key) = some node → node.datum.inRange = true)
    (altered : tree.alter? key change = some tree') : InRange tree' := by
  obtain ⟨node, changed, isAltered⟩ := exists_isAltered altered
  intro entry member
  rcases isAltered.mem_or_eq entry member with old | rfl
  · exact inRange entry old
  · exact kept node changed

theorem InRange.put? (inRange : InRange tree) (small : value.inRange = true)
    (put : Tree.put? value path tree = some tree') : InRange tree' := by
  induction path generalizing tree tree' with
  | nil => cases put
  | cons key more inductionHypothesis =>
      cases more with
      | nil =>
          rw [Tree.put?] at put
          refine inRange.alter? (fun node changed => ?_) put
          split at changed
          case h_1 => cases changed; exact small
          case h_2 => cases changed
      | cons next more =>
          have empty : InRange [] := by simp [InRange]
          have table {origin : Origin} {inner inner' : Tree}
              (found : tree.lookup key = some (.table origin inner))
              (put : Tree.put? value (next :: more) inner = some inner') :
              (Node.table origin inner').datum.inRange = true :=
            (inRange_table origin).mpr
              (inductionHypothesis ((inRange_table origin).mp (inRange.of_lookup found)) put)
          rw [Tree.put?] at put
          refine inRange.alter? (fun node changed => ?_) put
          split at changed
          case h_1 =>
            obtain ⟨inner, put, rfl⟩ := Option.map_eq_some_iff.mp changed
            exact (inRange_table _).mpr (inductionHypothesis empty put)
          case h_2 inner found =>
            obtain ⟨inner', put, rfl⟩ := Option.map_eq_some_iff.mp changed
            exact table found put
          case h_3 inner found =>
            split_ifs at changed
            obtain ⟨inner', put, rfl⟩ := Option.map_eq_some_iff.mp changed
            exact table found put
          case h_4 newest older found =>
            split_ifs at changed
            obtain ⟨newest', put, rfl⟩ := Option.map_eq_some_iff.mp changed
            have old := List.forall_mem_cons.mp (inRange_rows.mp (inRange.of_lookup found))
            exact inRange_rows.mpr
              (List.forall_mem_cons.mpr ⟨inductionHypothesis old.1 put, old.2⟩)
          case h_5 => cases changed

/-! ### All entries -/

section Entries

variable {entries : List (List String × Datum)}

/-- Puts one entry after the other. -/
def putAll? (entries : List (List String × Datum)) (tree : Tree) : Option Tree :=
  entries.foldlM (fun tree (path, value) => Tree.put? value path tree) tree

theorem putAll?_cons_eq_some_iff {entry : List String × Datum} :
    putAll? (entry :: entries) tree = some tree' ↔
      ∃ next, Tree.put? entry.2 entry.1 tree = some next ∧ putAll? entries next = some tree' := by
  rw [putAll?, List.foldlM_cons, Option.bind_eq_bind, Option.bind_eq_some_iff]
  rfl

/-- What every single entry preserves, all of them preserve. -/
theorem putAll?_induction {motive : Tree → Prop}
    (step : ∀ entry ∈ entries, ∀ tree tree', motive tree →
      Tree.put? entry.2 entry.1 tree = some tree' → motive tree')
    (start : motive tree) (all : putAll? entries tree = some tree') : motive tree' := by
  induction entries generalizing tree with
  | nil =>
      cases all
      exact start
  | cons entry entries inductionHypothesis =>
      obtain ⟨next, put, all⟩ := putAll?_cons_eq_some_iff.mp all
      exact inductionHypothesis (fun entry member => step entry (List.mem_cons_of_mem _ member))
        (step entry List.mem_cons_self _ _ start put) all

theorem exists_putAll? (free : ∀ entry ∈ entries, Free entry.1 tree)
    (apart : (entries.map Prod.fst).Pairwise Apart) :
    ∃ tree', putAll? entries tree = some tree' := by
  induction entries generalizing tree with
  | nil => exact ⟨tree, rfl⟩
  | cons entry entries inductionHypothesis =>
      rw [List.map_cons, List.pairwise_cons, List.forall_mem_map] at apart
      obtain ⟨next, put⟩ := Option.isSome_iff_exists.mp
        ((free entry List.mem_cons_self).isSome_put? entry.2)
      have free' : ∀ other ∈ entries, Free other.1 next := fun other member =>
        (free other (List.mem_cons_of_mem _ member)).put? (apart.1 other member) put
      obtain ⟨tree', all⟩ := inductionHypothesis free' apart.2
      exact ⟨tree', putAll?_cons_eq_some_iff.mpr ⟨next, put, all⟩⟩

theorem exists_ofEntries? (nonempty : ∀ entry ∈ entries, entry.1 ≠ [])
    (apart : (entries.map Prod.fst).Pairwise Apart) : ∃ tree, ofEntries? entries = some tree :=
  exists_putAll? (fun entry member => free_empty (nonempty entry member)) apart

variable (read : ofEntries? entries = some tree)

include read

theorem lookup_of_mem_entries {key : String} {value : Datum} (member : ([key], value) ∈ entries) :
    tree.lookup key = some (.leaf value) := by
  obtain ⟨before, behind, rfl⟩ := List.append_of_mem member
  rw [ofEntries?, List.foldlM_append, Option.bind_eq_bind, Option.bind_eq_some_iff] at read
  obtain ⟨between, -, read⟩ := read
  obtain ⟨next, put, all⟩ := putAll?_cons_eq_some_iff.mp read
  exact putAll?_induction (fun _ _ _ _ leaf put => lookup_put?_of_leaf leaf put)
    (lookup_put?_single put) all

theorem lookup_of_forall_head_ne {key : String}
    (absent : ∀ entry ∈ entries, entry.1.head? ≠ some key) : tree.lookup key = none :=
  putAll?_induction (motive := fun tree => tree.lookup key = none)
    (fun entry member _ _ none put => (lookup_put?_of_head_ne (absent entry member) put).trans none)
    List.lookup_nil read

theorem inRange_of_entries (inRange : ∀ entry ∈ entries, entry.2.inRange = true) : InRange tree :=
  putAll?_induction (fun entry member _ _ old put => old.put? (inRange entry member) put)
    (by simp [InRange]) read

end Entries

theorem lookup_fieldData (tree : Tree) (key : String) :
    (fieldData tree).lookup key = (tree.lookup key).map Node.datum := by
  induction tree with
  | nil => rfl
  | cons entry tree inductionHypothesis =>
      obtain ⟨other, node⟩ := entry
      rw [fieldData, lookup_cons, List.lookup_cons, inductionHypothesis]
      by_cases same : other = key
      · rw [if_pos same, same, BEq.rfl]
        rfl
      · rw [if_neg same, beq_false_of_ne (Ne.symm same)]

end Tree

/-! ### Texts of entries -/

/-- The text holds a single entry, and maybe comments. -/
def IsEntry (text : List Char) (path : List String) (value : Datum) : Prop :=
  statements? (text.length + 1) text = some [.entry path value]

section Lines

variable {name : String} {content : List Char}

theorem endsLine_line : EndsLine (line name content) :=
  (endsLine_singleton.mpr rfl).prepend _

theorem isEntry_line {datum : Datum} (bare : IsBareKey name) (isValue : IsValue content datum) :
    IsEntry (line name content) [name] datum := by
  obtain ⟨skip, ink⟩ := skipTrivia_line bare content []
  have read := statement?_line bare isValue []
  rw [List.append_nil] at skip ink read
  obtain ⟨bound, length⟩ := Nat.exists_eq_succ_of_ne_zero (mt List.eq_nil_of_length_eq_zero ink)
  rw [IsEntry, statements?_eq_some_iff (skip.symm ▸ ink), skip, length]
  exact ⟨_, ['\n'], [], [], read, rfl, rfl, rfl⟩

end Lines

theorem dropByteOrderMark_of_statements? {bound : ℕ} {text : List Char}
    {statements : List Statement} (read : statements? bound text = some statements) :
    dropByteOrderMark text = text := by
  unfold dropByteOrderMark
  split
  case h_2 => rfl
  case h_1 rest =>
    have mark : skipTrivia false ('\ufeff' :: rest) = '\ufeff' :: rest :=
      skipTrivia_of_ne (by decide) (by decide) (by decide) (by decide)
    have unread : statement? ('\ufeff' :: rest) = none := by
      have unquoted : Quoted.opened? ('\ufeff' :: rest) = none :=
        opened?_eq_none (by decide) (by decide)
      have unnamed : key? ('\ufeff' :: rest) = none := by
        rw [key?, unquoted, List.takeWhile_cons_of_neg (by decide)]
        rfl
      have pathless : path? greatestDepth ('\ufeff' :: rest) = none := by
        rw [greatestDepth, path?, unnamed]
        rfl
      unfold statement?
      split
      case h_1 start => cases start
      case h_2 start => cases start
      case h_3 =>
        rw [assignment?, pathless]
        rfl
    cases bound with
    | zero => cases read
    | succ bound =>
        obtain ⟨_, _, _, _, first, -⟩ := (statements?_eq_some_iff (by simp [mark])).mp read
        rw [mark, unread] at first
        cases first

theorem ofStatements?_entries (entries : List (List String × Datum)) :
    Assembly.ofStatements? (entries.map fun entry => .entry entry.1 entry.2) =
      (Tree.ofEntries? entries).map (⟨·, []⟩) := by
  suffices all : ∀ root, (entries.map fun entry => Statement.entry entry.1 entry.2).foldlM
      Assembly.step? ⟨root, []⟩ = (Tree.putAll? entries root).map (⟨·, []⟩) from all []
  induction entries with
  | nil => exact fun root => rfl
  | cons entry entries inductionHypothesis =>
      obtain ⟨path, value⟩ := entry
      intro root
      have step : Assembly.step? ⟨root, []⟩ (.entry path value) =
          (Tree.put? value path root).map (⟨·, []⟩) := by
        rw [Assembly.step?]
        cases Tree.put? value path root <;> rfl
      rw [List.map_cons, List.foldlM_cons, step, Tree.putAll?, List.foldlM_cons]
      cases put : Tree.put? value path root with
      | none => simp only [put]; rfl
      | some next => simp only [put]; exact inductionHypothesis next

section Parts

variable {Part : Type} {text : Part → List Char} {path : Part → List String}
  {value : Part → Datum} {parts : List Part}
  (isEntry : ∀ part ∈ parts, IsEntry (text part) (path part) (value part))
  (ends : ∀ part ∈ parts.dropLast, EndsLine (text part))

include isEntry ends

theorem statements?_parts :
    statements? ((parts.flatMap text).length + 1) (parts.flatMap text) =
      some (parts.map fun part => .entry (path part) (value part)) := by
  induction parts with
  | nil => rfl
  | cons part parts inductionHypothesis =>
      have first : IsEntry (text part) (path part) (value part) := isEntry part List.mem_cons_self
      cases parts with
      | nil => simpa [IsEntry] using first
      | cons next parts =>
          rw [List.dropLast_cons_cons] at ends
          have others := inductionHypothesis
            (fun part member => isEntry part (List.mem_cons_of_mem _ member))
            (fun part member => ends part (List.mem_cons_of_mem _ member))
          rw [List.flatMap_cons, List.length_append]
          exact statements?_append (.inr (ends part List.mem_cons_self)) first others

/-- A document of entries that go together is the record of their tree. -/
theorem document?_parts (nonempty : ∀ part ∈ parts, path part ≠ [])
    (apart : (parts.map path).Pairwise Tree.Apart) :
    ∃ tree, Tree.ofEntries? (parts.map fun part => (path part, value part)) = some tree ∧
      document? (parts.flatMap text) = some (.record (fieldData tree)) := by
  have read := statements?_parts isEntry ends
  obtain ⟨tree, ofEntries⟩ :
      ∃ tree, Tree.ofEntries? (parts.map fun part => (path part, value part)) = some tree :=
    Tree.exists_ofEntries? (List.forall_mem_map.mpr nonempty) (by rwa [List.map_map])
  have assembled := ofStatements?_entries (parts.map fun part => (path part, value part))
  rw [List.map_map, ofEntries, Option.map_some] at assembled
  refine ⟨tree, ofEntries, ?_⟩
  rw [document?, dropByteOrderMark_of_statements? read, read, Option.bind_eq_bind,
    Option.bind_some]
  change (Assembly.ofStatements? (parts.map ((fun entry => Statement.entry entry.1 entry.2) ∘
    fun part => (path part, value part)))).bind _ = _
  rw [assembled]
  rfl

end Parts

end ArcGraph.Toml
