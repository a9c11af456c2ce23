import SqlCatalog.Proofs.Query.Meaning

/-!
# Expressions are read back

Each part of an expression is read before anything that does not go on with it. An operation is put
between parentheses as an operand, so that it is read as one; as an item of a list it is read up to
the next comma. What a group of trees is, a selection or a list of sums, is seen from its first two
trees. Only parameters that stand for several values, or for none, are items of lists alone.

## Main definitions

* `ReadsItems` says that trees are read as items before anything that ends an operand.
* `ReadsAsOperand`, `ReadsAsSum` and `ReadsAsList` say what tokens are read as, and with which
  values.

## Main statements

* `ReadsAsOperand.binary`, `ReadsAsSum.inParens`, `ReadsAsList.comma`: the rules of reading.
* `Expression.Built.readsBack`: an expression that is built is read back with its value.
-/

namespace SqlCatalog

/-! ## Reading items part by part -/

theorem QueryTree.parts_append (ts us : List QueryTree) :
    QueryTree.parts (ts ++ us) = QueryTree.parts ts ++ QueryTree.parts us := by
  induction ts with
  | nil => rfl
  | cons t ts ih => rw [List.cons_append, QueryTree.parts, ih, QueryTree.parts, List.cons_append]

/-- Whether an operand before the part goes on with it. -/
def Part.goesOn : Part → Bool
  | .leaf (.symbol ".") | .group _ _ => true
  | _ => false

/-- Whether an operand ends before the parts. -/
def EndsOperand (rest : List Part) : Prop := ∀ p ∈ rest.head?, p.goesOn = false

/-- The trees are read as the items, of which the first is an operand, before anything that does not
go on with the last one. -/
def ReadsItems (trees : List QueryTree) (items : List Item) : Prop :=
  ∀ rest, EndsOperand rest →
    readItems (QueryTree.parts trees ++ rest) = (items ++ ·) <$> readJoints rest

/-- The trees between two operands are read as the item. -/
structure Joins (trees : List QueryTree) (item : Item) : Prop where
  reads : ∀ rest, readJoints (QueryTree.parts trees ++ rest) = (item :: ·) <$> readItems rest
  ends : ∀ rest, EndsOperand (QueryTree.parts trees ++ rest)

section Items

variable {trees more between : List QueryTree} {items others : List Item} {item : Item}

theorem ReadsItems.readItems_eq (h : ReadsItems trees items) :
    readItems (QueryTree.parts trees) = some items := by
  have hall := h [] (by simp [EndsOperand])
  rw [List.append_nil] at hall
  rw [hall, readJoints, Option.map_eq_map, Option.map_some, List.append_nil]

/-- Items with a joint between them are read as one run of items. -/
theorem ReadsItems.join (h : ReadsItems trees items) (hbetween : Joins between item)
    (hmore : ReadsItems more others) :
    ReadsItems (trees ++ (between ++ more)) (items ++ item :: others) := by
  intro rest hrest
  rw [QueryTree.parts_append, QueryTree.parts_append, List.append_assoc, List.append_assoc,
    h _ (hbetween.ends _), hbetween.reads, hmore rest hrest]
  cases readJoints rest with
  | none => rfl
  | some joints => simp

theorem readsItems_leaf {t : QueryToken} {x : Operand} (h : t.operand? = some x) :
    ReadsItems [.leaf t] [.operand x] := by
  intro rest hrest
  show readItems (.leaf t :: rest) = _
  rw [readItems, h]
  · rfl
  · rintro f inner items more rfl rfl
    exact absurd (hrest _ rfl) (by simp [Part.goesOn])
  · rintro u more rfl
    exact absurd (hrest _ rfl) (by simp [Part.goesOn])

/-- Two names with a dot between them are read as one qualified reference. -/
theorem readsItems_qualified {t u : QueryToken} {table column : String} (ht : t.name? = some table)
    (hu : u.name? = some column) :
    ReadsItems [.leaf t, .leaf (.symbol "."), .leaf u]
      [.operand (.ofTerm (.reference (.qualified table column)))] := by
  intro rest _
  show readItems (.leaf t :: .leaf (.symbol ".") :: .leaf u :: rest) = _
  rw [readItems, ht, hu]
  rfl

/-- A group is read as an operand by what is inside it. -/
theorem readsItems_group (inner : List QueryTree) :
    ReadsItems [.group inner] [.operand (.ofGroup inner (readItems (QueryTree.parts inner)))] :=
  fun _ _ => rfl

/-- A word before a group is read as a call. -/
theorem readsItems_call (name : String) {inner : List QueryTree} {arguments : List Term}
    (h : (readItems (QueryTree.parts inner)).bind readList = some arguments) :
    ReadsItems [.leaf (.word name), .group inner]
      [.operand (.ofTerm (.call name arguments))] := by
  intro rest _
  show readItems (.leaf (.word name) :: .group inner (readItems (QueryTree.parts inner)) ::
    rest) = _
  rw [readItems, h]
  rfl

theorem joins_comma : Joins [.leaf (.symbol ",")] .comma where
  reads _ := rfl
  ends _ _ hp := by
    obtain rfl := Option.some.inj hp
    rfl

theorem joins_word {word : String} {o : Operator} (h : Operator.ofText? word = some o)
    (hnot : word ≠ "not") (his : word ≠ "is") : Joins [.leaf (.word word)] (.joint o) where
  reads rest := by
    show readJoints (.leaf (.word word) :: rest) = _
    rw [readJoints, h]
    · rfl
    · exact fun _ _ hword => hnot hword
    · exact fun _ _ hword => his hword
    · exact fun _ _ hword => his hword
  ends _ _ hp := by
    obtain rfl := Option.some.inj hp
    rfl

theorem joins_symbol {symbol : String} {o : Operator} (h : Operator.ofText? symbol = some o)
    (hcomma : symbol ≠ ",") (hdot : symbol ≠ ".") : Joins [.leaf (.symbol symbol)] (.joint o) where
  reads rest := by
    show readJoints (.leaf (.symbol symbol) :: rest) = _
    rw [readJoints, h]
    · rfl
    · exact hcomma
  ends _ _ hp := by
    obtain rfl := Option.some.inj hp
    rw [Part.goesOn]
    · exact fun hsymbol => hdot (QueryToken.symbol.inj (Part.leaf.inj hsymbol))
    · exact fun _ _ hgroup => nomatch hgroup

/-- The two words of the negated membership are one joint. -/
theorem joins_notIn : Joins [.leaf (.word "not"), .leaf (.word "in")] (.joint .notIn) where
  reads rest := by
    show readJoints (.leaf (.word "not") :: .leaf (.word "in") :: rest) = _
    rw [readJoints]
  ends _ _ hp := by
    obtain rfl := Option.some.inj hp
    rfl

/-- The words of an operator are read as its joint. -/
theorem joins_operator (o : Operator) : Joins ((lexText o.between).map .leaf) (.joint o) := by
  cases o with
  | notIn => exact joins_notIn
  | like | isIn | and | or => exact joins_word (by decide) (by decide) (by decide)
  | _ => exact joins_symbol (by decide) (by decide) (by decide)

/-- The words of a test for null. -/
def nullTestWords (negated : Bool) : List QueryToken :=
  if negated then [.word "is", .word "not", .word "null"] else [.word "is", .word "null"]

/-- A test for null after an operand. -/
theorem ReadsItems.nullTest (h : ReadsItems trees items) (negated : Bool) :
    ReadsItems (trees ++ (nullTestWords negated).map .leaf) (items ++ [.nullTest negated]) := by
  intro rest _
  have hends : EndsOperand (QueryTree.parts ((nullTestWords negated).map .leaf) ++ rest) := by
    intro p hp
    cases negated <;> (obtain rfl := Option.some.inj hp; rfl)
  have hreads : readJoints (QueryTree.parts ((nullTestWords negated).map .leaf) ++ rest) =
      (.nullTest negated :: ·) <$> readJoints rest := by
    cases negated
    · show readJoints (.leaf (.word "is") :: .leaf (.word "null") :: rest) = _
      rw [readJoints]
    · show readJoints
        (.leaf (.word "is") :: .leaf (.word "not") :: .leaf (.word "null") :: rest) = _
      rw [readJoints]
  rw [QueryTree.parts_append, List.append_assoc, h _ hends, hreads]
  cases readJoints rest with
  | none => rfl
  | some joints => simp

end Items

/-! ## Selections between parentheses -/

/-- The trees are not those of a selection, even if something follows that joins operands. -/
def NotSelection (trees : List QueryTree) : Prop :=
  ∀ rest : List QueryTree, (∀ t ∈ rest.head?, t.opensOperand = false) →
    isSelection (trees ++ rest) = false

section NotSelection

variable {trees more : List QueryTree} {t u : QueryTree}

theorem NotSelection.isSelection_eq (h : NotSelection trees) : isSelection trees = false := by
  have hnil := h [] (by simp)
  rwa [List.append_nil] at hnil

/-- After a name, what cannot begin an operand shows that no selection follows. -/
theorem isSelection_cons (h : ∀ u ∈ more.head?, u.opensOperand = false) :
    isSelection (t :: more) = false := by
  unfold isSelection
  split
  · rename_i next _ htrees
    obtain ⟨-, rfl⟩ := List.cons.inj htrees
    exact h next rfl
  · rfl

theorem isSelection_of_ne (h : t ≠ .leaf (.word "select")) : isSelection (t :: more) = false := by
  unfold isSelection
  split
  · rename_i htrees
    exact absurd (List.cons.inj htrees).1 h
  · rfl

theorem notSelection_singleton (t : QueryTree) : NotSelection [t] := fun _ h => isSelection_cons h

/-- What begins as no selection is none, whatever comes later. -/
theorem NotSelection.append (h : NotSelection trees) (hu : u.opensOperand = false) :
    NotSelection (trees ++ u :: more) := by
  intro rest _
  rw [List.append_assoc]
  refine h (u :: more ++ rest) fun t ht => ?_
  obtain rfl := Option.some.inj ht
  exact hu

end NotSelection

/-! ## Tokens that are read -/

/-- The tokens are nested as the trees, and these are read as the items. -/
structure ParsesAs (ts : List QueryToken) (trees : List QueryTree) (items : List Item) : Prop where
  nests : Nests ts trees
  reads : ReadsItems trees items

/-- The tokens are read as one operand with the given value. -/
def ReadsAsOperand (ts : List QueryToken) (value : ∀ V, Interpretation V → V) : Prop :=
  ∃ trees x t, ParsesAs ts trees [.operand x] ∧ NotSelection trees ∧ x.term = some t ∧
    ∀ V I, t.value I = value V I

/-- The tokens are read as a sum with the given value. -/
def ReadsAsSum (ts : List QueryToken) (value : ∀ V, Interpretation V → V) : Prop :=
  ∃ trees items t, ParsesAs ts trees items ∧ NotSelection trees ∧
    (∀ i ∈ items, i.isComma = false) ∧ readSum items = some t ∧ ∀ V I, t.value I = value V I

/-- The tokens are read as sums with the given values. -/
def ReadsAsList (ts : List QueryToken) (values : ∀ V, Interpretation V → List V) : Prop :=
  ∃ trees items terms, ParsesAs ts trees items ∧ NotSelection trees ∧
    (items.splitOnP Item.isComma).mapM readSum = some terms ∧
    ∀ V I, Term.values I terms = values V I

/-- The tokens, between parentheses, are read as sums with the given values, if there are any. -/
def FillsParens (ts : List QueryToken) (values : ∀ V, Interpretation V → List V) : Prop :=
  ∃ trees items terms, Nests ts trees ∧ readItems (QueryTree.parts trees) = some items ∧
    isSelection trees = false ∧ readList items = some terms ∧
    ∀ V I, Term.values I terms = values V I

section Terms

variable {ts us : List QueryToken} {trees more : List QueryTree} {items others : List Item}

/-- Items with an operator between them are read as one run of items. -/
theorem ParsesAs.between (h : ParsesAs ts trees items) (o : Operator)
    (h' : ParsesAs us more others) :
    ParsesAs (ts ++ (lexText o.between ++ us))
      (trees ++ ((lexText o.between).map .leaf ++ more)) (items ++ .joint o :: others) :=
  ⟨h.nests.append ((Nests.leaves o.fixedText.leaves).append h'.nests),
    h.reads.join (joins_operator o) h'.reads⟩

theorem ParsesAs.comma (h : ParsesAs ts trees items) (h' : ParsesAs us more others) :
    ParsesAs (ts ++ .symbol "," :: us) (trees ++ .leaf (.symbol ",") :: more)
      (items ++ .comma :: others) :=
  ⟨h.nests.append ((Nests.leaf (by decide)).append h'.nests), h.reads.join joins_comma h'.reads⟩

variable {value value' : ∀ V, Interpretation V → V}

/-- An operand is a sum of one. -/
theorem ReadsAsOperand.sum (h : ReadsAsOperand ts value) : ReadsAsSum ts value := by
  obtain ⟨trees, x, t, hreads, hnot, hterm, hvalue⟩ := h
  refine ⟨trees, [.operand x], t, hreads, hnot, by simp [Item.isComma], ?_, hvalue⟩
  rw [readSum, hterm]
  rfl

/-- Two operands with an operator of sums between them. -/
theorem ReadsAsOperand.binary {o : Operator} (h : ReadsAsOperand ts value) (ho : o.isSum = true)
    (h' : ReadsAsOperand us value') :
    ReadsAsSum (ts ++ (lexText o.between ++ us))
      (fun V I => I.binary o (value V I) (value' V I)) := by
  obtain ⟨trees, x, t, hreads, hnot, hterm, hvalue⟩ := h
  obtain ⟨trees', y, u, hreads', -, hterm', hvalue'⟩ := h'
  refine ⟨_, _, .binary o t u, hreads.between o hreads', ?_, by simp [Item.isComma], ?_, ?_⟩
  · cases o <;> first | exact hnot.append rfl | cases ho
  · show (do readSumFrom (← x.term) [.joint o, .operand y]) = _
    rw [hterm, Option.bind_eq_bind, Option.bind_some, readSumFrom, hterm']
    rfl
  · intro V I
    rw [Term.value, hvalue, hvalue']

/-- A sum between parentheses is one operand. -/
theorem ReadsAsSum.inParens {l : Layout} (h : ReadsAsSum l.tokens value) :
    ReadsAsOperand l.inParens.tokens value := by
  obtain ⟨trees, items, t, hreads, hnot, hcomma, hsum, hvalue⟩ := h
  refine ⟨[.group trees], _, t, ⟨Layout.nests_inParens hreads.nests, readsItems_group trees⟩,
    notSelection_singleton _, ?_, hvalue⟩
  -- Without a comma there is one sum between the parentheses, and it is what they stand for.
  have hlist : readList items = some [t] := by
    have hne : items.isEmpty = false := by
      cases items with
      | nil => cases hsum
      | cons i items => rfl
    rw [readList, hne, List.splitOnP_eq_singleton hcomma, List.mapM_cons, hsum]
    rfl
  rw [Operand.ofGroup, hreads.reads.readItems_eq, hnot.isSelection_eq]
  show Term.ofItems <$> readList items = _
  rw [hlist]
  rfl

theorem ReadsAsSum.list (h : ReadsAsSum ts value) : ReadsAsList ts (fun V I => [value V I]) := by
  obtain ⟨trees, items, t, hreads, hnot, hcomma, hsum, hvalue⟩ := h
  refine ⟨trees, items, [t], hreads, hnot, ?_, fun V I => ?_⟩
  · rw [List.splitOnP_eq_singleton hcomma, List.mapM_cons, hsum]
    rfl
  · rw [Term.values, Term.values, hvalue]

variable {values values' : ∀ V, Interpretation V → List V}

/-- Lists with a comma between them are read as one list. -/
theorem ReadsAsList.comma (h : ReadsAsList ts values) (h' : ReadsAsList us values') :
    ReadsAsList (ts ++ .symbol "," :: us) (fun V I => values V I ++ values' V I) := by
  obtain ⟨trees, items, terms, hreads, hnot, hsplit, hvalues⟩ := h
  obtain ⟨trees', items', terms', hreads', -, hsplit', hvalues'⟩ := h'
  refine ⟨_, _, terms ++ terms', hreads.comma hreads', hnot.append rfl, ?_, fun V I => ?_⟩
  · rw [List.splitOnP_append_cons _ _ rfl, List.mapM_append, hsplit, hsplit']
    rfl
  · rw [Term.values_eq_map, List.map_append, ← Term.values_eq_map, ← Term.values_eq_map, hvalues,
      hvalues']

theorem ReadsAsList.fillsParens (h : ReadsAsList ts values) : FillsParens ts values := by
  obtain ⟨trees, items, terms, hreads, hnot, hsplit, hvalues⟩ := h
  refine ⟨trees, items, terms, hreads.nests, hreads.reads.readItems_eq, hnot.isSelection_eq, ?_,
    hvalues⟩
  cases items with
  | nil => cases hsplit
  | cons i items => exact hsplit

theorem fillsParens_nil : FillsParens [] (fun _ _ => []) :=
  ⟨[], [], [], .nil, rfl, rfl, rfl, fun _ _ => rfl⟩

/-- Items between parentheses are read as one operand. -/
theorem FillsParens.tuple {l : Layout} (h : FillsParens l.tokens values) :
    ReadsAsOperand l.inParens.tokens (fun V I => I.ofItems (values V I)) := by
  obtain ⟨trees, items, terms, hnests, hreads, hnot, hlist, hvalues⟩ := h
  refine ⟨[.group trees], _, Term.ofItems terms, ⟨Layout.nests_inParens hnests,
    readsItems_group trees⟩, notSelection_singleton _, ?_, fun V I => ?_⟩
  · rw [Operand.ofGroup, hreads, hnot]
    show Term.ofItems <$> readList items = _
    rw [hlist]
    rfl
  · rw [Term.value_ofItems, hvalues]

/-- Items between the parentheses of a call are read as its arguments. -/
theorem FillsParens.call {l : Layout} {name : String} (hname : name ≠ "select")
    (h : FillsParens l.tokens values) :
    ReadsAsOperand (.word name :: l.inParens.tokens) (fun V I => I.call name (values V I)) := by
  obtain ⟨trees, items, terms, hnests, hreads, -, hlist, hvalues⟩ := h
  refine ⟨[.leaf (.word name), .group trees], _, .call name terms,
    ⟨(Nests.leaf ⟨by simp, by simp⟩).append (Layout.nests_inParens hnests),
      readsItems_call name ?_⟩, fun rest _ => ?_, rfl, fun V I => ?_⟩
  · rw [hreads]
    exact hlist
  · exact isSelection_of_ne (by simpa using hname)
  · rw [Term.value, hvalues]

end Terms

/-! ## Leaves -/

section Leaves

theorem readsAsOperand_leaf {t : QueryToken} {term : Term} (ht : t.IsLeaf)
    (h : t.operand? = some (.ofTerm term)) :
    ReadsAsOperand [t] (fun _ I => term.value I) :=
  ⟨[.leaf t], _, term, ⟨Nests.leaf ht, readsItems_leaf h⟩, notSelection_singleton _, rfl,
    fun _ _ => rfl⟩

/-- A name is read back from its token, quoted or not. -/
theorem name?_nameToken (name : String) : (nameToken name).name? = some name := by
  rw [nameToken]
  split <;> rfl

/-- A reference is read as itself. -/
theorem readsAsOperand_reference (r : Reference) :
    ReadsAsOperand r.tokens (fun _ I => I.reference r) := by
  cases r with
  | bare column =>
    have hoperand : (nameToken column).operand? =
        some (.ofTerm (.reference (.bare column))) := by
      rw [nameToken]
      split <;> rfl
    exact readsAsOperand_leaf (isLeaf_nameToken column) hoperand
  | qualified table column =>
    refine ⟨(Reference.tokens (.qualified table column)).map .leaf, _,
      .reference (.qualified table column), ⟨Nests.leaves (Reference.isLeaf_tokens _),
        readsItems_qualified (name?_nameToken table) (name?_nameToken column)⟩,
      (notSelection_singleton _).append rfl, rfl, fun _ _ => rfl⟩

/-- A text that is one token is read as the asterisk or as a bare reference. -/
theorem readsAsOperand_verbatim {text : String} (h : IsVerbatim text) :
    ReadsAsOperand (lexText text)
      (fun _ I => if text = "*" then I.star else I.reference (.bare text)) := by
  rcases h with h | rfl
  · have hne : text ≠ "*" := by
      rintro rfl
      exact absurd h (by decide)
    have hoperand : (QueryToken.word text).operand? =
        some (.ofTerm (.reference (.bare text))) := rfl
    simp only [lexText_word h, if_neg hne]
    exact readsAsOperand_leaf ⟨by simp, by simp⟩ hoperand
  · have hoperand : (QueryToken.symbol "*").operand? = some (.ofTerm .star) := rfl
    exact readsAsOperand_leaf (by decide) hoperand

theorem readsAsOperand_place (slot : Slot) :
    ReadsAsOperand [.place slot] (fun _ I => I.slot slot) :=
  have hoperand : (QueryToken.place slot).operand? = some (.ofTerm (.slot slot)) := rfl
  readsAsOperand_leaf ⟨by simp, by simp⟩ hoperand

/-- The places of an argument are items of a list. -/
theorem readsAsList_places {slots : List Slot} (h : slots ≠ []) :
    ReadsAsList (placeTokens slots) (fun _ I => slots.map I.slot) := by
  induction slots with
  | nil => exact absurd rfl h
  | cons slot slots ih =>
    have hslot := (readsAsOperand_place slot).sum.list
    cases slots with
    | nil => exact hslot
    | cons next slots => exact hslot.comma (ih (List.cons_ne_nil _ _))

end Leaves

/-! ## Expressions -/

theorem Layout.tokens_between (l : Layout) (o : Operator) (m : Layout) :
    (l ++ .text o.between :: m).tokens = l.tokens ++ (lexText o.between ++ m.tokens) :=
  List.flatMap_append

/-- What a selection is does not depend on where it stands. -/
theorem Select.content_eq {s : Select} {outer : List Scope} {trees : List QueryTree}
    (hlexes : (s.layout outer).Lexes) (hnests : Nests (s.layout outer).tokens trees) :
    s.content = trees := by
  have hstyle : (Placeholder.fixed "?").IsReadable := ⟨'?', [], rfl, by decide⟩
  rw [Select.content, writes_select quoteName outer s, Fragment.trees, hlexes.tokens_spell hstyle,
    hnests.nestTokens_eq]
  rfl

/-- A selection between parentheses is read as its content, which is not looked into. -/
theorem readsAsOperand_subquery {s : Select} (outer : List Scope) (h : s.Spelled)
    (hopens : s.columns.head?.all Expression.opens = true) :
    ReadsAsOperand (s.layout outer).inParens.tokens (fun _ I => I.selection s.content) := by
  obtain ⟨hlexes, trees, hnests, hselection⟩ := readable_select outer s h
  refine ⟨[.group trees], _, .selection trees,
    ⟨Layout.nests_inParens hnests, readsItems_group trees⟩, notSelection_singleton _, ?_, ?_⟩
  · rw [Operand.ofGroup, hselection hopens]
    rfl
  · intro V I
    rw [Select.content_eq hlexes hnests]
    rfl

/-- The expression is read as its only value, be it an operand of an operation or not. -/
def Expression.ReadsBack (scope : Scope) (e : Expression) : Prop :=
  ∃ value : ∀ V, Interpretation V → V,
    ReadsAsOperand ((e.layout [scope]).inParensIf e.isOperation).tokens value ∧
      ReadsAsSum (e.layout [scope]).tokens value ∧ ∀ V I, e.values I scope = [value V I]

section Expressions

variable {scope : Scope} {e : Expression} {es : List Expression}

theorem ReadsAsOperand.readsBack {value : ∀ V, Interpretation V → V}
    (h : ReadsAsOperand (e.layout [scope]).tokens value) (hop : e.isOperation = false)
    (hvalues : ∀ V I, e.values I scope = [value V I]) : e.ReadsBack scope := by
  refine ⟨value, ?_, h.sum, hvalues⟩
  rw [hop]
  exact h

/-- Between the parentheses that operations get, an expression is read as one operand. -/
theorem Expression.ReadsBack.operand (h : e.ReadsBack scope) :
    ReadsAsOperand ((e.layout [scope]).inParensIf e.isOperation).tokens
      (fun _ I => e.value I scope) := by
  obtain ⟨value, hoperand, -, hvalues⟩ := h
  have hvalue : (fun V (I : Interpretation V) => e.value I scope) = value := by
    funext V I
    rw [Expression.value, hvalues]
    rfl
  rwa [hvalue]

theorem readsAsList_item (h : e.isParameter = false → e.ReadsBack scope)
    (hplaces : ∀ p, e = .parameter p → (Argument.parameter p).places ≠ 0) :
    ReadsAsList (e.layout [scope]).tokens (fun _ I => e.values I scope) := by
  cases hp : e.isParameter with
  | false =>
    obtain ⟨value, -, hsum, hvalues⟩ := h hp
    simpa only [hvalues] using hsum.list
  | true =>
    cases e with
    | parameter p =>
      have hslots : (Argument.parameter p).slots ≠ [] := by
        rw [← List.length_pos_iff, length_slots]
        exact Nat.pos_of_ne_zero (hplaces p rfl)
      rw [Expression.layout, Layout.tokens_argument]
      exact readsAsList_places hslots
    | _ => cases hp

/-- Expressions with commas between them are read as the list of their values. -/
theorem readsAsList_items (h : ∀ d ∈ e :: es, d.isParameter = false → d.ReadsBack scope)
    (hplaces : ∀ p, .parameter p ∈ e :: es → (Argument.parameter p).places ≠ 0) :
    ReadsAsList (Layout.join ", " (Expression.layouts [scope] (e :: es))).tokens
      (fun _ I => Expression.valuesAll I scope (e :: es)) := by
  induction es generalizing e with
  | nil =>
    have hitem := readsAsList_item (h e (List.mem_singleton_self e)) fun p hp =>
      hplaces p (List.mem_singleton.2 hp.symm)
    simp only [Expression.valuesAll, List.append_nil]
    exact hitem
  | cons d es ih =>
    obtain ⟨he, hes⟩ := List.forall_mem_cons.1 h
    have hitem := readsAsList_item he fun p hp => hplaces p (List.mem_cons.2 (.inl hp.symm))
    have hmore := ih hes fun p hp => hplaces p (List.mem_cons_of_mem e hp)
    have htokens : (Layout.join ", " (Expression.layouts [scope] (e :: d :: es))).tokens =
        (e.layout [scope]).tokens ++ .symbol "," ::
          (Layout.join ", " (Expression.layouts [scope] (d :: es))).tokens :=
      List.flatMap_append
    rw [htokens]
    exact hitem.comma hmore

/-- The items of a list are read between its parentheses. -/
theorem fillsParens_items (hfill : Expression.FillList es)
    (h : ∀ e ∈ es, e.isParameter = false → e.ReadsBack scope) :
    FillsParens (Layout.join ", " (Expression.layouts [scope] es)).tokens
      (fun _ I => Expression.valuesAll I scope es) := by
  -- A parameter without places is alone: nothing stands between the parentheses.
  by_cases hempty : ∃ p, .parameter p ∈ es ∧ (Argument.parameter p).places = 0
  · obtain ⟨p, hp, hplaces⟩ := hempty
    have hslots : (Argument.parameter p).slots = [] :=
      List.length_eq_zero_iff.1 ((length_slots _).trans hplaces)
    obtain rfl := hfill p hp hplaces
    have htokens : (Layout.join ", " (Expression.layouts [scope] [.parameter p])).tokens = [] := by
      show Layout.tokens [.argument (.parameter p)] = []
      rw [Layout.tokens_argument, hslots]
      rfl
    simp only [htokens, Expression.valuesAll, Expression.values, hslots]
    exact fillsParens_nil
  · cases es with
    | nil => exact fillsParens_nil
    | cons e es =>
      exact (readsAsList_items h fun p hp hplaces => hempty ⟨p, hp, hplaces⟩).fillsParens

/-- An expression that is built is read back. -/
theorem Expression.Built.readsBack (h : e.Built) : e.ReadsBack scope := by
  induction h with
  | column c =>
    refine ReadsAsOperand.readsBack ?_ rfl fun _ _ => rfl
    rw [Expression.layout, Layout.tokens_column]
    exact readsAsOperand_reference _
  | constant value =>
    refine ReadsAsOperand.readsBack ?_ rfl fun _ _ => rfl
    exact readsAsOperand_place ⟨.value value, 0⟩
  | @parameter p hplaces =>
    have hslots : (Argument.parameter p).slots = [⟨.parameter p, 0⟩] := by
      rw [Argument.slots, hplaces]
      rfl
    have hplace := readsAsOperand_place ⟨.parameter p, 0⟩
    refine ReadsAsOperand.readsBack ?_ rfl fun V I => (congrArg (List.map I.slot) hslots : _)
    rw [Expression.layout, Layout.tokens_argument, hslots]
    exact hplace
  | tuple hfill _ ih =>
    exact ReadsAsOperand.readsBack (fillsParens_items hfill ih).tuple rfl fun _ _ => rfl
  | @call name arguments hname hselect hfill _ ih =>
    refine ReadsAsOperand.readsBack ?_ rfl fun _ _ => rfl
    have htokens (l : Layout) : Layout.tokens (.text name :: l) = .word name :: l.tokens :=
      congrArg (· ++ l.tokens) (lexText_word hname)
    rw [Expression.layout, htokens]
    exact (fillsParens_items hfill ih).call hselect
  | verbatim htext =>
    refine ReadsAsOperand.readsBack ?_ rfl fun _ _ => rfl
    rw [Expression.layout, Layout.tokens, List.flatMap_singleton]
    exact readsAsOperand_verbatim htext
  | subquery hspelled hopens =>
    exact ReadsAsOperand.readsBack (readsAsOperand_subquery _ hspelled hopens) rfl fun _ _ => rfl
  | @binary o lhs rhs ho _ _ ihl ihr =>
    have hsum := ihl.operand.binary ho ihr.operand
    rw [← Layout.tokens_between] at hsum
    exact ⟨_, hsum.inParens, hsum, fun _ _ => rfl⟩

end Expressions

end SqlCatalog
