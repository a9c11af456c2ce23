import Mathlib.Data.List.Infix
import Mathlib.Data.Set.Basic
import SqlCatalog.Proofs.Catalog.Coherent
import SqlCatalog.Proofs.Text.LowerCase
import SqlCatalog.Schema.PseudoIndex

/-!
# What the name of an index says

The name that an index is compared under is put together from its table, its uniqueness and its
columns. In lower case it is put together in the same way from what the index does. The marks
between the parts can stand in names as well; where they do not, the parts can be read off the name.
Plain names contain none of them.

## Main definitions

* `IndexShape` is what an index does; `PseudoIndex.shape` is that of an index, with names in lower
  case.
* `Schema.HasIndex` says which indexes a schema has, `Schema.indexShapes` what they do.
* `IndexShape.TableSeparable`, `IndexShape.ColumnsSeparable` say that names are free of the marks.

## Main statements

* `mem_pseudoIndexes_iff`: the indexes that are compared are those that the schema has.
* `PseudoIndex.WellNamed.lower_name`: the name in lower case says what the index does.
* `IndexShape.TableSeparable.table_eq`, `IndexShape.ColumnsSeparable.columns_eq`: what can be read
  off a name.
* `PseudoIndex.Plain.lower_name_eq_iff`: the shape can, if all names are plain.
-/

namespace SqlCatalog

/-! ## Shapes -/

/-- What an index does: names of a table and of its columns, and whether it is unique. -/
structure IndexShape where
  table : String
  unique : Bool
  columns : List String
deriving DecidableEq

attribute [ext] IndexShape

namespace PseudoIndex

/-- What the index does, with names in lower case. -/
def shape (p : PseudoIndex) : IndexShape where
  table := lower p.table.name
  unique := p.unique
  columns := p.columns.map fun i => lower (p.table.columnName i)

/-- An index with the name that is put together for it, over columns of its table. -/
structure WellNamed (p : PseudoIndex) : Prop where
  eq_of : p = .of p.table p.columns p.unique
  columns : ∀ i ∈ p.columns, i < p.table.columns.length

/-- Whether the table and the columns of the index have plain names. -/
structure Plain (p : PseudoIndex) : Prop where
  table : isPlainName p.table.name = true
  columns : ∀ i ∈ p.columns, isPlainName (p.table.columnName i) = true

end PseudoIndex

/-! ## The indexes of a schema -/

/-- There is an index over the columns at these places of the table, unique or not: a declared one,
or a unique one that the primary key or a unique constraint implies. -/
inductive Schema.HasIndex (s : Schema) : Table → List Nat → Bool → Prop
  | declared {i : Index} {t : Table} (hi : i ∈ s.indexes) (ht : s.tables[i.table]? = some t) :
      s.HasIndex t i.columns i.unique
  | primaryKey {t : Table} {columns : List Nat} (ht : t ∈ s.tables)
      (h : t.primaryKey = some columns) : s.HasIndex t columns true
  | unique {t : Table} {name : Option String} {columns : List Nat} (ht : t ∈ s.tables)
      (h : .unique name columns ∈ t.constraints) : s.HasIndex t columns true

section Schemas

variable {s : Schema} {p : PseudoIndex}

/-- Every index of a schema is compared. -/
theorem Schema.HasIndex.mem_pseudoIndexes {t : Table} {columns : List Nat} {unique : Bool}
    (h : s.HasIndex t columns unique) : .of t columns unique ∈ s.pseudoIndexes := by
  have implied {t : Table} {columns : List Nat} (ht : t ∈ s.tables)
      (hcolumns : columns ∈ t.primaryKey.toList ++ t.uniques) :
      .of t columns true ∈ s.pseudoIndexes :=
    List.mem_append_right _ (List.mem_flatMap.2 ⟨t, ht, List.mem_map_of_mem hcolumns⟩)
  cases h with
  | declared hi ht =>
    exact List.mem_append_left _ (List.mem_filterMap.2 ⟨_, hi, by rw [ht]; rfl⟩)
  | primaryKey ht h => exact implied ht (List.mem_append_left _ (Option.mem_toList.2 h))
  | unique ht h => exact implied ht (List.mem_append_right _ (Table.mem_uniques_iff.2 ⟨_, h⟩))

/-- The indexes that are compared are exactly those of the schema, each with its name. -/
theorem mem_pseudoIndexes_iff : p ∈ s.pseudoIndexes ↔
    s.HasIndex p.table p.columns p.unique ∧ p = .of p.table p.columns p.unique := by
  constructor
  · intro hp
    rcases List.mem_append.1 hp with hp | hp
    · obtain ⟨i, hi, hp⟩ := List.mem_filterMap.1 hp
      obtain ⟨t, ht, rfl⟩ := Option.map_eq_some_iff.1 hp
      exact ⟨.declared hi ht, rfl⟩
    · obtain ⟨t, ht, hp⟩ := List.mem_flatMap.1 hp
      obtain ⟨columns, hcolumns, rfl⟩ := List.mem_map.1 hp
      rcases List.mem_append.1 hcolumns with hkey | hunique
      · exact ⟨.primaryKey ht (Option.mem_toList.1 hkey), rfl⟩
      · obtain ⟨name, hc⟩ := Table.mem_uniques_iff.1 hunique
        exact ⟨.unique ht hc, rfl⟩
  · rintro ⟨hindex, heq⟩
    rw [heq]
    exact hindex.mem_pseudoIndexes

/-- The indexes of a coherent schema are over columns of its tables. -/
theorem Schema.HasIndex.lt_length (hs : s.Coherent) {t : Table} {columns : List Nat}
    {unique : Bool} (h : s.HasIndex t columns unique) :
    t ∈ s.tables ∧ ∀ i ∈ columns, i < t.columns.length := by
  cases h with
  | declared hi ht =>
    obtain ⟨t', ht', hcolumns⟩ := hs.indexes _ hi
    obtain rfl : t = t' := Option.some.inj (ht.symm.trans ht')
    exact ⟨List.mem_of_getElem? ht, hcolumns⟩
  | primaryKey ht h => exact ⟨ht, (hs.tables t ht).primaryKey columns h⟩
  | unique ht h => exact ⟨ht, (hs.tables t ht).constraints _ h⟩

/-- The indexes of a coherent schema are over its tables and bear the names of their columns. -/
theorem wellNamed_of_mem_pseudoIndexes (hs : s.Coherent) (hp : p ∈ s.pseudoIndexes) :
    p.table ∈ s.tables ∧ p.WellNamed := by
  obtain ⟨hindex, heq⟩ := mem_pseudoIndexes_iff.1 hp
  obtain ⟨ht, hcolumns⟩ := hindex.lt_length hs
  exact ⟨ht, heq, hcolumns⟩

end Schemas

/-! ## What the indexes of a schema do -/

/-- The columns of the table at the given places are these. -/
def Table.ColumnsAt (t : Table) : List Nat → List Column → Prop :=
  List.Forall₂ fun i c => t.columns[i]? = some c

/-- What the indexes of a schema do, where names are told apart by their keys. -/
def Schema.indexShapes (key : String → String) (s : Schema) : Set IndexShape :=
  {x | ∃ t places columns, s.HasIndex t places x.unique ∧ t.ColumnsAt places columns ∧
    x.table = key t.name ∧ x.columns = columns.map fun c => key c.name}

/-- What the index does, with the keys of the names. -/
def PseudoIndex.shapeBy (key : String → String) (p : PseudoIndex) : IndexShape where
  table := key p.table.name
  unique := p.unique
  columns := p.columns.map fun i => key (p.table.columnName i)

section Shapes

variable {t : Table} {places : List Nat} {columns : List Column}

/-- There is a column at each place of a table. -/
theorem Table.exists_columnsAt (h : ∀ i ∈ places, i < t.columns.length) :
    ∃ columns, t.ColumnsAt places columns := by
  induction places with
  | nil => exact ⟨[], .nil⟩
  | cons i places ih =>
    obtain ⟨hi, hplaces⟩ := List.forall_mem_cons.1 h
    obtain ⟨columns, hcolumns⟩ := ih hplaces
    exact ⟨_, .cons (List.getElem?_eq_getElem hi) hcolumns⟩

/-- The names at some places are those of the columns there. -/
theorem Table.ColumnsAt.map_columnName (h : t.ColumnsAt places columns) (key : String → String) :
    (places.map fun i => key (t.columnName i)) = columns.map fun c => key c.name := by
  induction h with
  | nil => rfl
  | cons hc _ ih => rw [List.map_cons, List.map_cons, ih, Table.columnName, hc]; rfl

variable {a b s : Schema} {key : String → String}

/-- The indexes that are compared do what the indexes of the schema do. -/
theorem mem_indexShapes_iff (hs : s.Coherent) {x : IndexShape} :
    x ∈ s.indexShapes key ↔ ∃ p ∈ s.pseudoIndexes, p.shapeBy key = x := by
  constructor
  · rintro ⟨t, places, columns, hindex, hcolumns, htable, hnames⟩
    refine ⟨.of t places x.unique, mem_pseudoIndexes_iff.2 ⟨hindex, rfl⟩, ?_⟩
    exact IndexShape.ext htable.symm rfl ((hcolumns.map_columnName key).trans hnames.symm)
  · rintro ⟨p, hp, rfl⟩
    obtain ⟨hindex, -⟩ := mem_pseudoIndexes_iff.1 hp
    obtain ⟨columns, hcolumns⟩ := Table.exists_columnsAt (hindex.lt_length hs).2
    exact ⟨p.table, p.columns, columns, hindex, hcolumns, rfl, hcolumns.map_columnName key⟩

/-- Two coherent schemas have the same indexes exactly when each index that is listed for one does
what an index listed for the other does. -/
theorem indexShapes_eq_iff (ha : a.Coherent) (hb : b.Coherent) :
    a.indexShapes key = b.indexShapes key ↔
      (∀ x ∈ a.pseudoIndexes.map (PseudoIndex.shapeBy key),
        x ∈ b.pseudoIndexes.map (PseudoIndex.shapeBy key)) ∧
      ∀ x ∈ b.pseudoIndexes.map (PseudoIndex.shapeBy key),
        x ∈ a.pseudoIndexes.map (PseudoIndex.shapeBy key) := by
  rw [Set.Subset.antisymm_iff]
  simp only [Set.subset_def, mem_indexShapes_iff ha, mem_indexShapes_iff hb, List.mem_map]

/-- Indexes over the same names do the same, whatever the names are told apart by. -/
theorem indexShapes_eq_of_id (h : a.indexShapes id = b.indexShapes id) :
    a.indexShapes key = b.indexShapes key := by
  have subset {a b : Schema} (h : a.indexShapes id = b.indexShapes id) :
      a.indexShapes key ⊆ b.indexShapes key := by
    rintro ⟨_, unique, _⟩ ⟨t, places, columns, hindex, hcolumns, rfl, rfl⟩
    have hx : ⟨t.name, unique, columns.map Column.name⟩ ∈ a.indexShapes id :=
      ⟨t, places, columns, hindex, hcolumns, rfl, rfl⟩
    rw [h] at hx
    obtain ⟨t', places', columns', hindex', hcolumns', htable, hnames⟩ := hx
    refine ⟨t', places', columns', hindex', hcolumns', congrArg key htable, ?_⟩
    have hkeys := congrArg (List.map key) hnames
    rwa [List.map_map, List.map_map] at hkeys
  exact (subset h).antisymm (subset h.symm)

end Shapes

/-! ## Names in lower case -/

/-- The mark of a unique index. -/
def uniqueMark (unique : Bool) : String := if unique then "-unique" else ""

/-- The text between the brackets of the name of an index. -/
def PseudoIndex.columnText (p : PseudoIndex) : String :=
  ",".intercalate (p.columns.map p.table.columnName)

/-- The name that is put together from what an index does. -/
def IndexShape.name (x : IndexShape) : String :=
  x.table ++ uniqueMark x.unique ++ ":(" ++ ",".intercalate x.columns ++ ")"

/-- A list of texts goes on after the first one with a comma, or is closed. -/
theorem intercalate_cons_close (x : List Char) (xs : List (List Char)) :
    [','].intercalate (x :: xs) ++ [')'] =
      x ++ match xs with
        | [] => [')']
        | _ :: _ => ',' :: ([','].intercalate xs ++ [')']) := by
  cases xs <;> simp [List.intercalate]

/-- The texts of a list are lowered one by one: commas and the bracket are borders. -/
theorem lowerCharsFrom_intercalate_close (xs : List (List Char)) :
    lowerCharsFrom [] ([','].intercalate xs ++ [')']) =
      [','].intercalate (xs.map (lowerCharsFrom [])) ++ [')'] := by
  induction xs with
  | nil => rfl
  | cons x xs ih =>
    rw [List.map_cons, intercalate_cons_close, intercalate_cons_close]
    cases xs with
    | nil => exact lowerCharsFrom_append_border (by decide +kernel) [] x []
    | cons y xs =>
      dsimp only
      rw [lowerCharsFrom_append_border (by decide +kernel), ih]
      rfl

section Names

variable {p q : PseudoIndex}

/-- A name is the table, the mark for uniqueness, and the columns between parentheses. -/
theorem IndexShape.toList_name (x : IndexShape) :
    x.name.toList = x.table.toList ++ (uniqueMark x.unique).toList ++
      ':' :: '(' :: ([','].intercalate (x.columns.map String.toList) ++ [')']) := by
  rw [name]
  simp

/-- The name of an index, character by character. -/
theorem PseudoIndex.WellNamed.toList_name (h : p.WellNamed) :
    p.name.toList = p.table.name.toList ++ (uniqueMark p.unique).toList ++
      ':' :: '(' :: (p.columnText.toList ++ [')']) := by
  have hname : p.name = p.table.name ++ uniqueMark p.unique ++ ":(" ++ p.columnText ++ ")" :=
    congrArg PseudoIndex.name h.eq_of
  rw [hname]
  simp

theorem lowerCharsFrom_uniqueMark (before : List Char) (unique : Bool) :
    lowerCharsFrom before ((uniqueMark unique).toList ++ [':']) =
      (uniqueMark unique).toList ++ [':'] := by
  have hascii : ∀ c ∈ (uniqueMark unique).toList ++ [':'], isAscii c = true := by
    rw [← List.all_eq_true]
    cases unique <;> decide
  rw [← List.append_nil (_ ++ _), lowerCharsFrom_append hascii]
  cases unique <;> rfl

theorem meetsCased_uniqueMark (unique : Bool) :
    meetsCased ((uniqueMark unique).toList ++ [':']) = false := by
  cases unique <;> decide +kernel

/-- The name of an index in lower case is put together from what the index does. -/
theorem PseudoIndex.WellNamed.lower_name (h : p.WellNamed) : lower p.name = p.shape.name := by
  have hsplit : p.name.toList =
      (p.table.name.toList ++ ((uniqueMark p.unique).toList ++ [':'])) ++
        '(' :: ([','].intercalate (p.columns.map fun i => (p.table.columnName i).toList) ++
          [')']) := by
    rw [h.toList_name, columnText, String.toList_intercalate, List.map_map]
    simp [Function.comp_def]
  have hcolumns : p.shape.columns.map String.toList =
      (p.columns.map fun i => (p.table.columnName i).toList).map (lowerCharsFrom []) := by
    simp [shape, toList_lower]
  apply String.toList_inj.1
  rw [toList_lower, hsplit, lowerCharsFrom_append_border (by decide +kernel),
    lowerCharsFrom_append_of_meetsCased (meetsCased_uniqueMark _), lowerCharsFrom_uniqueMark,
    lowerCharsFrom_intercalate_close, ← hcolumns, ← toList_lower, IndexShape.toList_name]
  simp [shape]

end Names

/-! ## Parts of a name -/

/-- The end of the table can be found in a name: the table does not end like the mark of a unique
index, and what begins the columns does not stand in it. -/
structure IndexShape.TableSeparable (x : IndexShape) : Prop where
  mark : ¬"-unique".toList <:+ x.table.toList
  bracket : ¬[':', '('] <:+: x.table.toList

/-- The columns can be told apart in a name: none is empty, and there are no commas in them. -/
def IndexShape.ColumnsSeparable (x : IndexShape) : Prop :=
  ∀ c ∈ x.columns, c ≠ "" ∧ ',' ∉ c.toList

section Parts

variable {xs ys rest rest' : List Char}

/-- The mark of a unique index adds no beginning of columns. -/
theorem bracket_infix_of_append_uniqueMark {unique : Bool}
    (h : [':', '('] <:+: xs ++ (uniqueMark unique).toList) : [':', '('] <:+: xs := by
  cases unique with
  | false => exact (List.append_nil xs) ▸ h
  | true =>
    induction xs with
    | nil => exact absurd h (by decide)
    | cons c xs ih =>
      rcases List.infix_cons_iff.1 h with hstart | hwithin
      · obtain ⟨rfl, hbracket⟩ := List.cons_prefix_cons.1 hstart
        cases xs with
        | nil => exact absurd hbracket (by decide)
        | cons d xs =>
          obtain ⟨rfl, -⟩ := List.cons_prefix_cons.1 hbracket
          exact ⟨[], xs, rfl⟩
      · exact List.infix_cons (ih hwithin)

/-- Texts without the beginning of columns are equal if they are before the first one. -/
theorem eq_of_append_bracket (hxs : ¬[':', '('] <:+: xs) (hys : ¬[':', '('] <:+: ys)
    (h : xs ++ ':' :: '(' :: rest = ys ++ ':' :: '(' :: rest') : xs = ys ∧ rest = rest' := by
  have between {as rest rest' : List Char}
      (h : ':' :: '(' :: rest = as ++ ':' :: '(' :: rest') : as = [] ∨ [':', '('] <:+: as := by
    rcases as with _ | ⟨c, _ | ⟨d, as⟩⟩
    · exact .inl rfl
    · simp at h
    · obtain ⟨rfl, rfl, -⟩ : ':' = c ∧ '(' = d ∧ _ := by simpa using h
      exact .inr ⟨[], as, rfl⟩
  rcases List.append_eq_append_iff.1 h with ⟨as, rfl, has⟩ | ⟨as, rfl, has⟩
  · rcases between has with rfl | hwithin
    · exact ⟨(List.append_nil xs).symm, by simpa using has⟩
    · exact absurd (hwithin.trans (List.suffix_append xs as).isInfix) hys
  · rcases between has with rfl | hwithin
    · exact ⟨List.append_nil ys, by simpa using has.symm⟩
    · exact absurd (hwithin.trans (List.suffix_append ys as).isInfix) hxs

/-- A text that does not end in the mark tells whether the mark was put behind it. -/
theorem eq_of_append_uniqueMark {unique unique' : Bool} (hxs : ¬"-unique".toList <:+ xs)
    (hys : ¬"-unique".toList <:+ ys)
    (h : xs ++ (uniqueMark unique).toList = ys ++ (uniqueMark unique').toList) :
    xs = ys ∧ unique = unique' := by
  have plain (zs : List Char) : zs ++ (uniqueMark false).toList = zs := List.append_nil zs
  cases unique <;> cases unique'
  · exact ⟨(plain xs).symm.trans (h.trans (plain ys)), rfl⟩
  · exact absurd ⟨ys, h.symm.trans (plain xs)⟩ hxs
  · exact absurd ⟨xs, h.trans (plain ys)⟩ hys
  · exact ⟨List.append_cancel_right h, rfl⟩

/-- Texts that are not empty and contain no commas can be told apart in a list. -/
theorem eq_of_intercalate {xs ys : List (List Char)} (hxs : ∀ x ∈ xs, x ≠ [] ∧ ',' ∉ x)
    (hys : ∀ y ∈ ys, y ≠ [] ∧ ',' ∉ y) (h : [','].intercalate xs = [','].intercalate ys) :
    xs = ys := by
  have notNil {z : List Char} {zs : List (List Char)} (hz : z ≠ []) :
      [','].intercalate (z :: zs) ≠ [] := by
    cases zs <;> simp [List.intercalate, hz]
  rcases xs with _ | ⟨x, xs⟩ <;> rcases ys with _ | ⟨y, ys⟩
  · rfl
  · exact absurd h.symm (notNil (hys y List.mem_cons_self).1)
  · exact absurd h (notNil (hxs x List.mem_cons_self).1)
  · have hsplit := congrArg (List.splitOn ',') h
    rwa [List.splitOn_intercalate ',' (fun z hz => (hxs z hz).2) (List.cons_ne_nil x xs),
      List.splitOn_intercalate ',' (fun z hz => (hys z hz).2) (List.cons_ne_nil y ys)] at hsplit

variable {x y : IndexShape}

/-- The table and the uniqueness can be read off a name. -/
theorem IndexShape.TableSeparable.table_eq (hx : x.TableSeparable) (hy : y.TableSeparable)
    (h : x.name = y.name) : x.table = y.table ∧ x.unique = y.unique := by
  have hchars := congrArg String.toList h
  rw [toList_name, toList_name] at hchars
  obtain ⟨hmarked, -⟩ := eq_of_append_bracket
    (fun hwithin => hx.bracket (bracket_infix_of_append_uniqueMark hwithin))
    (fun hwithin => hy.bracket (bracket_infix_of_append_uniqueMark hwithin)) hchars
  obtain ⟨htable, hunique⟩ := eq_of_append_uniqueMark hx.mark hy.mark hmarked
  exact ⟨String.toList_inj.1 htable, hunique⟩

/-- So can the columns, once the table and the uniqueness are known. -/
theorem IndexShape.ColumnsSeparable.columns_eq (hx : x.ColumnsSeparable)
    (hy : y.ColumnsSeparable) (htable : x.table = y.table) (hunique : x.unique = y.unique)
    (h : x.name = y.name) : x.columns = y.columns := by
  have hchars := congrArg String.toList h
  rw [toList_name, toList_name, htable, hunique] at hchars
  have hlist : [','].intercalate (x.columns.map String.toList) =
      [','].intercalate (y.columns.map String.toList) := by
    simpa using hchars
  have separable {z : IndexShape} (hz : z.ColumnsSeparable) :
      ∀ c ∈ z.columns.map String.toList, c ≠ [] ∧ ',' ∉ c := by
    intro _ hc
    obtain ⟨c, hmem, rfl⟩ := List.mem_map.1 hc
    exact ⟨by simpa using (hz c hmem).1, (hz c hmem).2⟩
  exact List.map_injective_iff.2 (fun _ _ => String.toList_inj.1)
    (eq_of_intercalate (separable hx) (separable hy) hlist)

end Parts

/-! ## Plain names -/

section Plain

variable {p q : PseudoIndex}

theorem isNameChar_lower {name : String} (h : isPlainName name = true) :
    (lower name).toList ≠ [] ∧ ∀ c ∈ (lower name).toList, isNameChar c = true := by
  obtain ⟨hne, hchars⟩ := isNameChar_of_isPlainName h
  rw [toList_lower_of_isPlainName h]
  refine ⟨by simpa using hne, fun c hc => ?_⟩
  obtain ⟨d, hd, rfl⟩ := List.mem_map.1 hc
  exact (isNameChar_toLower d).trans (hchars d hd)

/-- A plain name has no other characters in lower case either. -/
theorem not_mem_lower {name : String} (h : isPlainName name = true) {c : Char}
    (hc : isNameChar c = false) : c ∉ (lower name).toList := by
  intro hmem
  rw [(isNameChar_lower h).2 c hmem] at hc
  cases hc

/-- The plain name of a table can be told from what follows it. -/
theorem tableSeparable_of_isPlainName (h : isPlainName p.table.name = true) :
    p.shape.TableSeparable where
  mark := fun hend => not_mem_lower h (c := '-') (by decide) (hend.subset (by decide))
  bracket := fun hwithin => not_mem_lower h (c := ':') (by decide) (hwithin.subset (by decide))

/-- Plain names of columns can be told from each other. -/
theorem PseudoIndex.Plain.columnsSeparable (h : p.Plain) : p.shape.ColumnsSeparable := by
  intro c hc
  obtain ⟨i, hi, rfl⟩ := List.mem_map.1 hc
  refine ⟨?_, not_mem_lower (h.columns i hi) (by decide)⟩
  simpa using (isNameChar_lower (h.columns i hi)).1

/-- Names over plain tables say which table it is and whether the index is unique. -/
theorem eq_of_lower_name (hp : p.WellNamed) (hq : q.WellNamed)
    (hpt : isPlainName p.table.name = true) (hqt : isPlainName q.table.name = true)
    (h : lower p.name = lower q.name) :
    lower p.table.name = lower q.table.name ∧ p.unique = q.unique := by
  rw [hp.lower_name, hq.lower_name] at h
  exact (tableSeparable_of_isPlainName hpt).table_eq (tableSeparable_of_isPlainName hqt) h

/-- Among indexes with plain names, names that are equal up to letter case belong to indexes that
do the same. -/
theorem PseudoIndex.Plain.lower_name_eq_iff (hp : p.Plain) (hq : q.Plain) (hpn : p.WellNamed)
    (hqn : q.WellNamed) : lower p.name = lower q.name ↔ p.shape = q.shape := by
  rw [hpn.lower_name, hqn.lower_name]
  constructor
  · intro h
    obtain ⟨htable, hunique⟩ := (tableSeparable_of_isPlainName hp.table).table_eq
      (tableSeparable_of_isPlainName hq.table) h
    have hcolumns := hp.columnsSeparable.columns_eq hq.columnsSeparable htable hunique h
    exact IndexShape.ext htable hunique hcolumns
  · intro h
    rw [h]

end Plain

end SqlCatalog
