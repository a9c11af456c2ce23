import SqlCatalog.Proofs.Query.JoinTrees

/-!
# Sources are read back

A source is written with its first join innermost on the left, and with parentheses around a join on
the right, so that reading joins from left to right gives back the tree of joins, each with its own
condition. What the places stand for has no part in this: the text alone tells the shape of a
source. What goes wrong is no join by itself, but a condition that is not made of words, or one with
an operand that leaves no text.

As in conditions, no word is reserved: a table or a column can be called `join` or `on`, since a
joint is looked for only behind an operand of a join and a name only where an operand is due.

## Main definitions

* `Source.ReadableConditions` says that every condition has words for texts and texts for operands.
* `QueryToken.blur` makes all places alike.

## Main statements

* `ReadsAsSource.join`, `ReadsAsSource.crossJoin`: one more join on the right.
* `readsSource_layout`: a source is read before anything that no condition goes on with.
* `Source.joinTree_readsBack`: the text of a source gives back its tree of joins.
-/

namespace SqlCatalog

/-! ## Sources -/

/-- The trees are read as the source, before anything that no condition goes on with. -/
def ReadsAsSource (trees : List QueryTree) (tree : JoinTree (List QueryTree)) : Prop :=
  ∀ rest, Closes rest → jointsLength rest = 0 →
    readSource (QueryTree.sourceParts (trees ++ rest)) =
      readJoins 0 tree (QueryTree.sourceParts rest)

section Sources

variable {trees on : List QueryTree} {left right : JoinTree (List QueryTree)} {t : QueryTree}

theorem QueryTree.sourceParts_eq (ts : List QueryTree) :
    QueryTree.sourceParts ts = ts.map fun t => ⟨t, t.source⟩ := by
  induction ts with
  | nil => rfl
  | cons t ts ih => rw [sourceParts, ih, List.map_cons]

theorem QueryTree.sourceParts_append (ts us : List QueryTree) :
    QueryTree.sourceParts (ts ++ us) = QueryTree.sourceParts ts ++ QueryTree.sourceParts us := by
  simp only [sourceParts_eq, List.map_append]

theorem map_tree_sourceParts (ts : List QueryTree) :
    (QueryTree.sourceParts ts).map SourcePart.tree = ts := by
  rw [QueryTree.sourceParts_eq, List.map_map]
  exact List.map_id ts

/-- The parts of a condition that was read are passed over. -/
theorem readJoins_skip (ps rest : List SourcePart) (left : JoinTree (List QueryTree)) :
    readJoins ps.length left (ps ++ rest) = readJoins 0 left rest := by
  induction ps with
  | nil => rfl
  | cons p ps ih => exact ih

/-- What is read as a source is one between parentheses. -/
theorem ReadsAsSource.source_group (h : ReadsAsSource trees right) :
    (QueryTree.group trees).source = some right := by
  have hall := h [] closes_nil rfl
  rw [List.append_nil] at hall
  rw [QueryTree.source, hall, QueryTree.sourceParts, readJoins]

/-- A name is read as a table. -/
theorem readsAsSource_table (name : String) :
    ReadsAsSource [.leaf (nameToken name)] (.table name) := by
  intro rest _ _
  rw [List.singleton_append, QueryTree.sourceParts, readSource, QueryTree.source, name?_nameToken]
  rfl

/-- A condition that is read is the one in front of the next join. -/
theorem conditionTrees_eq (hon : Spans on) {rest : List QueryTree} (hcloses : Closes rest)
    (hends : jointsLength rest = 0) :
    conditionTrees (QueryTree.sourceParts (on ++ rest)) = on := by
  rw [conditionTrees]
  simp only [map_tree_sourceParts, hon rest hcloses, hends, Nat.add_zero, List.take_left]

/-- After the words of a join comes its right side, then its condition, as far as that goes. -/
theorem readJoins_words (kind : JoinKind) (hright : t.source = some right)
    (rest : List QueryTree) :
    readJoins 0 left (QueryTree.sourceParts
        ((lexText kind.between).map .leaf ++ t :: .leaf (.word "on") :: rest)) =
      let on := conditionTrees (QueryTree.sourceParts rest)
      readJoins on.length (.join kind left right on) (QueryTree.sourceParts rest) := by
  rw [QueryTree.sourceParts_append, QueryTree.sourceParts, QueryTree.sourceParts, hright]
  cases kind <;> rfl

/-- What begins a join ends a condition. -/
theorem ends_of_between (kind : JoinKind) (rest : List QueryTree) :
    Closes ((lexText kind.between).map .leaf ++ rest) ∧
      jointsLength ((lexText kind.between).map .leaf ++ rest) = 0 := by
  cases kind <;> exact ⟨closes_cons rfl _, rfl⟩

/-- One more join on the right. -/
theorem ReadsAsSource.join (h : ReadsAsSource trees left) (kind : JoinKind)
    (hright : t.source = some right) (hon : Spans on) :
    ReadsAsSource (trees ++ ((lexText kind.between).map .leaf ++ t :: .leaf (.word "on") :: on))
      (.join kind left right on) := by
  intro rest hcloses hends
  obtain ⟨hcloses', hends'⟩ := ends_of_between kind (t :: .leaf (.word "on") :: (on ++ rest))
  have hlength : (QueryTree.sourceParts on).length = on.length := by
    rw [QueryTree.sourceParts_eq, List.length_map]
  rw [List.append_assoc, List.append_assoc, List.cons_append, List.cons_append,
    h _ hcloses' hends', readJoins_words kind hright, conditionTrees_eq hon hcloses hends,
    QueryTree.sourceParts_append]
  show readJoins on.length _ _ = _
  rw [← hlength, readJoins_skip]

/-- One more cross join on the right. -/
theorem ReadsAsSource.crossJoin (h : ReadsAsSource trees left) (hright : t.source = some right) :
    ReadsAsSource (trees ++ [.leaf (.word "cross"), .leaf (.word "join"), t])
      (.crossJoin left right) := by
  intro rest _ _
  have hreads := h (.leaf (.word "cross") :: .leaf (.word "join") :: t :: rest)
    (closes_cons rfl _) rfl
  rw [List.append_assoc]
  refine hreads.trans ?_
  simp only [QueryTree.sourceParts, readJoins, hright]
  rfl

end Sources

/-- The conditions of a source are made of words, and all operands in them leave a text. -/
def Source.ReadableConditions : Source → Prop
  | .table _ => True
  | .join _ left right on =>
    left.ReadableConditions ∧ right.ReadableConditions ∧ on.Spelled ∧ on.leavesTexts = true
  | .crossJoin left right => left.ReadableConditions ∧ right.ReadableConditions

/-- The trees of a condition, in which only the places are no part of the text. -/
def Comparison.trees (scopes : List Scope) (c : Comparison) : List QueryTree :=
  (nestTokens [] [] (c.layout scopes).tokens).getD []

/-- The trees of a condition, with other tokens for the places. -/
def Comparison.treesWith (scopes : List Scope) (f : QueryToken → QueryToken) (c : Comparison) :
    List QueryTree := (c.trees scopes).map (QueryTree.map f)

/-- The tokens are nested as trees that are read as the source, whatever the places are. -/
structure ReadsSource (scopes : List Scope) (s : Source) (trees : List QueryTree) : Prop where
  nests : Nests (s.layout scopes).tokens trees
  reads : ∀ f, KeepsPlain f →
    ReadsAsSource (trees.map (QueryTree.map f)) (s.joinTree (Comparison.treesWith scopes f))

/-- On the right of a join, the tokens are one tree that is read as the source. -/
structure ReadsRight (scopes : List Scope) (s : Source) (t : QueryTree) : Prop where
  nests : Nests ((s.layout scopes).inParensIf s.isJoin).tokens [t]
  reads : ∀ f, KeepsPlain f →
    (t.map f).source = some (s.joinTree (Comparison.treesWith scopes f))

theorem JoinKind.isPlain_between (kind : JoinKind) :
    ∀ t ∈ lexText kind.between, t.isPlain = true := by
  cases kind <;> decide

section Layouts

variable {scopes : List Scope} {s left right : Source} {on : Comparison} {trees : List QueryTree}
  {t : QueryTree}

/-- The trees of a condition are those its tokens are nested as. -/
theorem Comparison.trees_eq (h : Nests (on.layout scopes).tokens trees) :
    on.trees scopes = trees := by
  rw [Comparison.trees, h.nestTokens_eq]
  rfl

theorem readsSource_table (t : Table) :
    ReadsSource scopes (.table t) [.leaf (nameToken t.name)] := by
  refine ⟨Nests.leaf (isLeaf_nameToken t.name), fun f hf => ?_⟩
  rw [List.map_singleton, QueryTree.map, hf _ (isPlain_nameToken t.name)]
  exact readsAsSource_table t.name

theorem readsRight_table (t : Table) : ReadsRight scopes (.table t) (.leaf (nameToken t.name)) := by
  refine ⟨Nests.leaf (isLeaf_nameToken t.name), fun f hf => ?_⟩
  rw [QueryTree.map, hf _ (isPlain_nameToken t.name), QueryTree.source, name?_nameToken]
  rfl

/-- A join on the right side is read between parentheses. -/
theorem ReadsSource.readsRight_group (h : ReadsSource scopes s trees) (hjoin : s.isJoin = true) :
    ReadsRight scopes s (.group trees) := by
  refine ⟨?_, fun f hf => ?_⟩
  · rw [hjoin]
    exact Layout.nests_inParens h.nests
  · rw [QueryTree.map_group]
    exact (h.reads f hf).source_group

/-- Whatever is read as a source is read on the right side of a join. -/
theorem ReadsSource.exists_readsRight (h : ReadsSource scopes s trees) :
    ∃ t, ReadsRight scopes s t := by
  cases s with
  | table t => exact ⟨_, readsRight_table t⟩
  | join kind left right on => exact ⟨_, h.readsRight_group rfl⟩
  | crossJoin left right => exact ⟨_, h.readsRight_group rfl⟩

/-- The tokens of a join: its left side, its words, its right side and its condition. -/
theorem Source.tokens_join (kind : JoinKind) (left right : Source) (on : Comparison) :
    ((Source.join kind left right on).layout scopes).tokens =
      (left.layout scopes).tokens ++ (lexText kind.between ++
        (((right.layout scopes).inParensIf right.isJoin).tokens ++
          (.word "on" :: (on.layout scopes).tokens))) := by
  rw [Source.layout, List.append_assoc, Layout.tokens_append]
  congr 1
  exact congrArg (lexText kind.between ++ ·) List.flatMap_append

/-- One more join with a condition is read behind a source. -/
theorem ReadsSource.join (hleft : ReadsSource scopes left trees) (kind : JoinKind)
    (hright : ReadsRight scopes right t) (hon : (on.layout scopes).IsCondition) :
    ∃ trees, ReadsSource scopes (.join kind left right on) trees := by
  obtain ⟨ons, hnests, hspans⟩ := hon
  refine ⟨trees ++ ((lexText kind.between).map .leaf ++ t :: .leaf (.word "on") :: ons), ?_,
    fun f hf => ?_⟩
  · have hword : Nests [.word "on"] [.leaf (.word "on")] := Nests.leaf (by decide)
    rw [Source.tokens_join]
    exact hleft.nests.append ((Nests.leaves kind.fixedText.leaves).append
      (hright.nests.append (hword.append hnests)))
  · have hword : f (.word "on") = .word "on" := hf _ rfl
    rw [List.map_append, List.map_append, hf.map_leaves kind.isPlain_between, List.map_cons,
      List.map_cons, QueryTree.map.eq_1, hword, Source.joinTree, Comparison.treesWith,
      Comparison.trees_eq hnests]
    exact (hleft.reads f hf).join kind (hright.reads f hf) (hspans f hf)

theorem ReadsSource.crossJoin (hleft : ReadsSource scopes left trees)
    (hright : ReadsRight scopes right t) :
    ReadsSource scopes (.crossJoin left right)
      (trees ++ [.leaf (.word "cross"), .leaf (.word "join"), t]) := by
  constructor
  · have hwords : Nests (lexText " cross join ") [.leaf (.word "cross"), .leaf (.word "join")] :=
      (Nests.leaf (by decide)).append (Nests.leaf (by decide))
    rw [Source.layout, Layout.tokens_append]
    exact hleft.nests.append (hwords.append hright.nests)
  · intro f hf
    have hcross : f (.word "cross") = .word "cross" := hf _ rfl
    have hjoin : f (.word "join") = .word "join" := hf _ rfl
    rw [List.map_append, List.map_cons, List.map_cons, List.map_singleton, QueryTree.map.eq_1,
      QueryTree.map.eq_1, hcross, hjoin]
    exact (hleft.reads f hf).crossJoin (hright.reads f hf)

/-- A source is read as its joins. -/
theorem readsSource_layout (scopes : List Scope) :
    ∀ s : Source, s.ReadableConditions → ∃ trees, ReadsSource scopes s trees
  | .table t, _ => ⟨_, readsSource_table t⟩
  | .join kind left right on, ⟨hleft, hright, hspelled, htexts⟩ => by
    obtain ⟨_, hleft⟩ := readsSource_layout scopes left hleft
    obtain ⟨_, hright⟩ := readsSource_layout scopes right hright
    obtain ⟨t, hright⟩ := hright.exists_readsRight
    exact hleft.join kind hright (isCondition_comparison scopes on hspelled htexts)
  | .crossJoin left right, ⟨hleft, hright⟩ => by
    obtain ⟨_, hleft⟩ := readsSource_layout scopes left hleft
    obtain ⟨_, hright⟩ := readsSource_layout scopes right hright
    obtain ⟨t, hright⟩ := hright.exists_readsRight
    exact ⟨_, hleft.crossJoin hright⟩

end Layouts

/-! ## What the text alone tells -/

/-- The token as it is known from the text alone, where all places look alike. -/
def QueryToken.blur (t : QueryToken) : QueryToken := if t.isPlain then t else .unknown ' '

theorem keepsPlain_blur : KeepsPlain QueryToken.blur := fun _ h => if_pos h

theorem keepsPlain_id : KeepsPlain id := fun _ _ => rfl

mutual

theorem QueryTree.map_id : ∀ t : QueryTree, t.map id = t
  | .leaf _ => rfl
  | .group inner => by rw [QueryTree.map, QueryTree.mapAll_id inner]

theorem QueryTree.mapAll_id : ∀ ts : List QueryTree, QueryTree.mapAll id ts = ts
  | [] => rfl
  | t :: ts => by rw [QueryTree.mapAll, QueryTree.map_id t, QueryTree.mapAll_id ts]

end

section Blurred

variable {L L' : QueryLexer}

theorem blur_place (c : Char) (number : Nat) : (L.place c number).blur = .unknown ' ' := by
  rw [QueryLexer.place]
  cases number - L.used with
  | zero => rfl
  | succ k =>
    show (L.slots[k]?.elim (QueryToken.unknown c) QueryToken.place).blur = _
    cases L.slots[k]? <;> rfl

theorem placeAt_length (h : L.placeholder = L'.placeholder) (count count' : Nat)
    (cs : List Char) :
    (L.placeAt count cs).map Prod.snd = (L'.placeAt count' cs).map Prod.snd := by
  rw [QueryLexer.placeAt, QueryLexer.placeAt, h]
  cases L'.placeholder with
  | fixed text => dsimp only; split <;> rfl
  | numbered lead => rfl

/-- Where a token ends, and which one it is unless it is a place, does not depend on what places
stand for. -/
theorem blur_tokenAt (h : L.placeholder = L'.placeholder) (count count' : Nat) (c : Char)
    (cs : List Char) :
    (L.tokenAt count c cs).1.blur = (L'.tokenAt count' c cs).1.blur ∧
      (L.tokenAt count c cs).2 = (L'.tokenAt count' c cs).2 := by
  rw [QueryLexer.tokenAt, QueryLexer.tokenAt]
  split
  · exact ⟨rfl, rfl⟩
  · split
    · split <;> exact ⟨rfl, rfl⟩
    · split
      · exact ⟨rfl, rfl⟩
      · have hlength := placeAt_length h count count' (c :: cs)
        cases hplace : L.placeAt count (c :: cs) <;>
          cases hplace' : L'.placeAt count' (c :: cs) <;> rw [hplace, hplace'] at hlength
        · exact ⟨rfl, rfl⟩
        · cases hlength
        · cases hlength
        · obtain hlength := Option.some.inj hlength
          exact ⟨(blur_place c _).trans (blur_place c _).symm, congrArg (· - 1) hlength⟩

/-- Without their slots, places are the same wherever counting them begins. -/
theorem map_blur_lexFrom (h : L.placeholder = L'.placeholder) (cs : List Char)
    (skip count count' : Nat) :
    (L.lexFrom skip count cs).map QueryToken.blur =
      (L'.lexFrom skip count' cs).map QueryToken.blur := by
  induction cs generalizing skip count count' with
  | nil => rfl
  | cons c cs ih =>
    cases skip with
    | succ skip => exact ih skip count count'
    | zero =>
      obtain ⟨htoken, hlength⟩ := blur_tokenAt h count count' c cs
      rw [QueryLexer.lexFrom, QueryLexer.lexFrom]
      split
      · exact ih 0 count count'
      · rw [List.map_cons, List.map_cons, htoken, hlength, ih]

theorem nestTokens_leaf {t : QueryToken} (ht : t.IsLeaf) (level : List QueryTree)
    (outer : List (List QueryTree)) (ts : List QueryToken) :
    nestTokens level outer (t :: ts) = nestTokens (.leaf t :: level) outer ts :=
  (Nests.leaf ht) level outer ts

theorem isLeaf_blur {t : QueryToken} (ht : t.IsLeaf) : t.blur.IsLeaf := by
  rw [QueryToken.blur]
  split
  · exact ht
  · decide

/-- Parentheses are nested alike, whatever places stand for. -/
theorem nestTokens_blur (ts : List QueryToken) (level : List QueryTree)
    (outer : List (List QueryTree)) :
    nestTokens (level.map (QueryTree.map .blur)) (outer.map (List.map (QueryTree.map .blur)))
        (ts.map .blur) =
      (nestTokens level outer ts).map (List.map (QueryTree.map .blur)) := by
  induction ts generalizing level outer with
  | nil => cases outer <;> simp [nestTokens]
  | cons t ts ih =>
    by_cases hopen : t = .symbol "("
    · subst hopen
      exact ih [] (level :: outer)
    · by_cases hclose : t = .symbol ")"
      · subst hclose
        cases outer with
        | nil => rfl
        | cons above outer =>
          have hgroup := ih (.group level.reverse :: above) outer
          rw [List.map_cons, QueryTree.map_group, List.map_reverse] at hgroup
          exact hgroup
      · rw [List.map_cons, nestTokens_leaf (isLeaf_blur ⟨hopen, hclose⟩),
          nestTokens_leaf ⟨hopen, hclose⟩, ← ih]
        rfl

end Blurred

/-! ## Sources are read back -/

theorem Source.ReadableConditions.spelled {s : Source} (h : s.ReadableConditions) : s.Spelled := by
  induction s using Source.joinTree.induct with
  | case1 t => trivial
  | case2 kind left right on ihl ihr => exact ⟨ihl h.1, ihr h.2.1, h.2.2.1⟩
  | case3 left right ihl ihr => exact ⟨ihl h.1, ihr h.2⟩

section ReadBack

variable {s : Source} {scope : Scope} {g : Speller}

/-- The trees of a condition are those of its text. -/
theorem Comparison.trees_render {c : Comparison} (hspelled : c.Spelled)
    (hstyle : g.placeholder.IsReadable) :
    (c.render quoteName scope g).1.trees g = some (c.trees [scope]) := by
  obtain ⟨hlexes, trees, hnests⟩ := readable_comparison [scope] c hspelled
  have hwrites := writes_comparison quoteName [scope] c g
  rw [List.headD_cons] at hwrites
  rw [hwrites, Fragment.trees, hlexes.tokens_spell hstyle, hnests.nestTokens_eq,
    Comparison.trees_eq hnests]

/-- The text of a source is read as the tokens of its layout. -/
theorem Source.tokens_render (h : s.ReadableConditions) (hstyle : g.placeholder.IsReadable) :
    (s.render quoteName scope g).1.tokens g = (s.layout [scope]).tokens := by
  obtain ⟨hlexes, -⟩ := readable_source [scope] s h.spelled
  have hwrites := writes_source quoteName [scope] s g
  rw [List.headD_cons] at hwrites
  rw [hwrites, hlexes.tokens_spell hstyle]

/-- The tree that the text of a source is read as, whatever its places stand for. -/
theorem Source.readSource_blurred (h : s.ReadableConditions) (hstyle : g.placeholder.IsReadable)
    (scope : Scope) :
    (nestTokens [] [] (((s.render quoteName scope g).1.tokens g).map .blur)).bind
        (fun trees => readSource (QueryTree.sourceParts trees)) =
      some (s.joinTree (Comparison.treesWith [scope] .blur)) := by
  obtain ⟨trees, hnests, hreads⟩ := readsSource_layout [scope] s h
  have hall := hreads _ keepsPlain_blur [] closes_nil rfl
  have hblur : nestTokens [] [] ((s.layout [scope]).tokens.map .blur) =
      some (trees.map (QueryTree.map .blur)) := by
    rw [← Option.map_some, ← hnests.nestTokens_eq]
    exact nestTokens_blur (s.layout [scope]).tokens [] []
  rw [List.append_nil] at hall
  rw [s.tokens_render h hstyle, hblur]
  exact hall

/-- The shape of a source is known from its text, whatever the places in it stand for. -/
theorem Source.shape_eq_of_text_eq (h : s.ReadableConditions) (hstyle : g.placeholder.IsReadable)
    {s' : Source} {scope' : Scope} {g' : Speller} (h' : s'.ReadableConditions)
    (hsame : g'.placeholder = g.placeholder)
    (htext : (s'.render quoteName scope' g').1.text = (s.render quoteName scope g).1.text) :
    s'.shape = s.shape := by
  have htokens : ((s'.render quoteName scope' g').1.tokens g').map QueryToken.blur =
      ((s.render quoteName scope g).1.tokens g).map QueryToken.blur := by
    rw [Fragment.tokens, Fragment.tokens, htext]
    exact map_blur_lexFrom hsame _ 0 _ _
  have hread := s'.readSource_blurred h' (hsame ▸ hstyle) scope'
  rw [htokens, s.readSource_blurred h hstyle scope] at hread
  have hshape := congrArg (JoinTree.map fun _ => ()) (Option.some.inj hread)
  rw [map_joinTree, map_joinTree] at hshape
  exact hshape.symm

/-- The conditions of a source, each of which is read from its own text. -/
theorem Source.joinTree_trees (h : s.ReadableConditions) (hstyle : g.placeholder.IsReadable) :
    (s.joinTree fun on => (on.render quoteName scope g).1.trees g) =
      s.joinTree fun on => some (on.trees [scope]) := by
  induction s using Source.joinTree.induct with
  | case1 t => rfl
  | case2 kind left right on ihl ihr =>
    rw [joinTree, joinTree, ihl h.1, ihr h.2.1, Comparison.trees_render h.2.2.1 hstyle]
  | case3 left right ihl ihr => rw [joinTree, joinTree, ihl h.1, ihr h.2]

/-- A source is read back from its text: with the tables in their order, the kind of every join, and
the trees of its own text for every condition. The text alone tells the shape. -/
theorem Source.joinTree_readsBack (h : s.ReadableConditions) (hstyle : g.placeholder.IsReadable)
    (scope : Scope) :
    (∃ tree, (s.render quoteName scope g).1.readSource g = some tree ∧
      tree.tables = s.tables.map Table.name ∧
      tree.map some = s.joinTree fun on =>
        (on.render quoteName scope (.fresh g.placeholder)).1.trees (.fresh g.placeholder)) ∧
    ∀ (s' : Source) (scope' : Scope) (g' : Speller), s'.ReadableConditions →
      g'.placeholder = g.placeholder →
      (s'.render quoteName scope' g').1.text = (s.render quoteName scope g).1.text →
      s'.shape = s.shape := by
  refine ⟨⟨s.joinTree (Comparison.trees [scope]), ?_, s.tables_joinTree _, ?_⟩,
    fun s' scope' g' h' hsame htext => shape_eq_of_text_eq h hstyle h' hsame htext⟩
  · obtain ⟨trees, hnests, hreads⟩ := readsSource_layout [scope] s h
    have hall := hreads _ keepsPlain_id [] closes_nil rfl
    have hid (ts : List QueryTree) : ts.map (QueryTree.map id) = ts := by
      rw [← QueryTree.mapAll_eq, QueryTree.mapAll_id]
    have hwith : Comparison.treesWith [scope] id = Comparison.trees [scope] :=
      funext fun c => hid (c.trees [scope])
    rw [hid, List.append_nil, hwith] at hall
    rw [Fragment.readSource, Fragment.trees, s.tokens_render h hstyle, hnests.nestTokens_eq]
    exact hall
  · rw [map_joinTree, joinTree_trees (g := .fresh g.placeholder) h hstyle]

end ReadBack

/-! ## Joins of small tables -/

/-- A table with one column. -/
def joinedTable (id : TableId) (name column : String) : Table :=
  { Table.empty id name with
    columns := [⟨column, id, 0, ⟨"integer", none⟩, none, none, none⟩] }

/-- The column of such a table. -/
def joinedColumn (id : TableId) (name column : String) : ColumnRef :=
  let t := joinedTable id name column
  ⟨t, ⟨column, id, 0, ⟨"integer", none⟩, none, none, none⟩⟩

/-- Joins on the left and on the right of others. Two of the tables have the names of keywords, and
the condition of the outer join ends with a null test. -/
def nestedJoins : Source :=
  .crossJoin
    (.join .leftOuter (.table (joinedTable 0 "join" "x"))
      (.join .plain (.table (joinedTable 1 "on" "y")) (.table (joinedTable 2 "c d" "z"))
        (.columns .eq (joinedColumn 1 "on" "y") (joinedColumn 2 "c d" "z")))
      (.null (.column (joinedColumn 2 "c d" "z")) true))
    (.table (joinedTable 3 "d" "w"))

/-- The tables are read back in order, those with the names of keywords among them. -/
theorem readsBack_nestedJoins :
    nestedJoins.ReadableConditions ∧ Dialect.postgres.placeholder.IsReadable ∧
      ∃ tree, (nestedJoins.render quoteName nestedJoins.tables
          (.fresh Dialect.postgres.placeholder)).1.readSource
            (.fresh Dialect.postgres.placeholder) = some tree ∧
        tree.tables = ["join", "on", "c d", "d"] := by
  have hstyle := Dialect.isReadable_placeholder .postgres
  have hreadable : nestedJoins.ReadableConditions :=
    ⟨⟨trivial, ⟨trivial, trivial, trivial, rfl⟩, trivial, rfl⟩, trivial⟩
  obtain ⟨⟨tree, hread, htables, -⟩, -⟩ :=
    Source.joinTree_readsBack (g := .fresh Dialect.postgres.placeholder) hreadable hstyle
      nestedJoins.tables
  exact ⟨hreadable, hstyle, tree, hread, htables⟩

example : (nestedJoins.render quoteName nestedJoins.tables (.fresh (.fixed "%s"))).1.text =
    "join left outer join (on join \"c d\" on y = z) on z is not null cross join d" := by
  decide +kernel

/-- Two joins, of which the first has a condition of the given operands. -/
def joinsOn (lhs rhs : Expression) : Source :=
  .join .plain
    (.join .plain (.table (joinedTable 0 "a" "x")) (.table (joinedTable 1 "b" "y"))
      (.operands .eq lhs rhs))
    (.table (joinedTable 2 "c" "z"))
    (.columns .eq (joinedColumn 0 "a" "x") (joinedColumn 2 "c" "z"))

/-- One join with a condition that goes on like the second of two joins. -/
def joinOnText : Source :=
  .join .plain (.table (joinedTable 0 "a" "x")) (.table (joinedTable 1 "b" "y"))
    (.operands .eq (.column (joinedColumn 0 "a" "x")) (.verbatim "y join c on x = z"))

/-- Two joins and one join have one text, which is read as two. Behind an operand that leaves no
text, the next join is no join. -/
theorem not_readsBack_joins :
    let g := Speller.fresh Dialect.postgres.placeholder
    let f (s : Source) := (s.render quoteName s.tables g).1
    let x := Expression.column (joinedColumn 0 "a" "x")
    let y := Expression.column (joinedColumn 1 "b" "y")
    (f (joinsOn x y) = f joinOnText ∧ (joinsOn x y).shape ≠ joinOnText.shape ∧
      ((f joinOnText).readSource g).map (JoinTree.map fun _ => ()) = some (joinsOn x y).shape) ∧
    ((f (joinsOn x (.parameter ⟨"ids", some 0⟩))).readSource g).map
      (JoinTree.map fun _ => ()) = none := by
  decide +kernel

end SqlCatalog
