import SqlCatalog.Proofs.Query.ReadExpressions

/-!
# Trees of joins

A source is read as joins that associate to the left: after what is joined come the words of a join,
a table or a source between parentheses, and a condition unless the join is a cross join. Nothing
says where a condition ends. It goes on as long as what follows joins operands, so that the first
word that is no operator begins the next join. Names are told from keywords by where they stand.

## Main definitions

* `JoinTree` is a tree of joins, `Source.joinTree` that of a source.
* `operandsLength` finds the end of a condition, `Fragment.readSource` reads a source from a
  fragment.
* `Spans` says that trees are a condition up to what does not go on with it, `Layout.IsCondition`
  that a layout is read as such trees.
* `KeepsPlain` is said of changes of tokens that change nothing but places.

## Main statements

* `Spans.join`: two operands with what joins them.
* `isCondition_comparison`: a condition of which all operands leave a text is read up to what does
  not go on with it.
-/

namespace SqlCatalog

/-! ## Trees of joins -/

/-- What is left of a source if only its joins matter, with a remark on each condition. -/
inductive JoinTree (α : Type) where
  | table (name : String)
  | join (kind : JoinKind) (left right : JoinTree α) (on : α)
  | crossJoin (left right : JoinTree α)
deriving DecidableEq

namespace JoinTree

variable {α β : Type}

/-- The tree with other remarks. -/
def map (f : α → β) : JoinTree α → JoinTree β
  | table name => table name
  | join kind left right on => join kind (left.map f) (right.map f) (f on)
  | crossJoin left right => crossJoin (left.map f) (right.map f)

/-- The names of the tables, from left to right. -/
def tables : JoinTree α → List String
  | table name => [name]
  | join _ left right _ => left.tables ++ right.tables
  | crossJoin left right => left.tables ++ right.tables

end JoinTree

section Trees

variable {α β : Type}

/-- The tree of joins of a source. -/
def Source.joinTree (condition : Comparison → α) : Source → JoinTree α
  | .table t => .table t.name
  | .join kind left right on =>
    .join kind (left.joinTree condition) (right.joinTree condition) (condition on)
  | .crossJoin left right => .crossJoin (left.joinTree condition) (right.joinTree condition)

/-- The joins of a source, without their conditions. -/
def Source.shape (s : Source) : JoinTree Unit := s.joinTree fun _ => ()

/-- Other remarks on the conditions give the same tree of joins with these remarks. -/
theorem Source.map_joinTree (f : α → β) (condition : Comparison → α) (s : Source) :
    (s.joinTree condition).map f = s.joinTree fun c => f (condition c) := by
  induction s using Source.joinTree.induct with
  | case1 t => rfl
  | case2 kind left right on ihl ihr => rw [joinTree, JoinTree.map, ihl, ihr, joinTree]
  | case3 left right ihl ihr => rw [joinTree, JoinTree.map, ihl, ihr, joinTree]

/-- The tree of joins has the tables of the source, in order. -/
theorem Source.tables_joinTree (condition : Comparison → α) (s : Source) :
    (s.joinTree condition).tables = s.tables.map Table.name := by
  induction s using Source.joinTree.induct with
  | case1 t => rfl
  | case2 kind left right on ihl ihr =>
    rw [joinTree, JoinTree.tables, ihl, ihr, tables, List.map_append]
  | case3 left right ihl ihr => rw [joinTree, JoinTree.tables, ihl, ihr, tables, List.map_append]

end Trees

/-! ## Reading sources -/

mutual

/-- How many trees belong to a condition, where the first of them begins an operand. -/
def operandsLength : List QueryTree → Nat
  | [] => 0
  | .leaf (.word _) :: .group _ :: rest => 2 + jointsLength rest
  | .leaf _ :: .leaf (.symbol ".") :: .leaf _ :: rest => 3 + jointsLength rest
  | _ :: rest => 1 + jointsLength rest

/-- How many trees belong to a condition, where the trees go on after an operand. -/
def jointsLength : List QueryTree → Nat
  | .leaf (.symbol ",") :: rest => 1 + operandsLength rest
  | .leaf (.word "not") :: .leaf (.word "in") :: rest => 2 + operandsLength rest
  | .leaf (.word "is") :: .leaf (.word "not") :: .leaf (.word "null") :: rest =>
    3 + jointsLength rest
  | .leaf (.word "is") :: .leaf (.word "null") :: rest => 2 + jointsLength rest
  | .leaf (.word text) :: rest | .leaf (.symbol text) :: rest =>
    if (Operator.ofText? text).isSome then 1 + operandsLength rest else 0
  | _ => 0

end

/-- A tree with the source that it is, be it a name or a source between parentheses. -/
structure SourcePart where
  tree : QueryTree
  source : Option (JoinTree (List QueryTree))

/-- The trees of a condition at the beginning of the parts. -/
def conditionTrees (parts : List SourcePart) : List QueryTree :=
  let trees := parts.map SourcePart.tree
  trees.take (operandsLength trees)

/-- The side of an outer join. -/
def outerJoin? : String → Option JoinKind
  | "left" => some .leftOuter
  | "right" => some .rightOuter
  | "full" => some .fullOuter
  | _ => none

/-- Reads joins from left to right, after `left` was read. The first `skip` parts belong to the
condition that was read last. -/
def readJoins : Nat → JoinTree (List QueryTree) → List SourcePart →
    Option (JoinTree (List QueryTree))
  | _, left, [] => some left
  | skip + 1, left, _ :: rest => readJoins skip left rest
  | 0, left, ⟨.leaf (.word "cross"), _⟩ :: ⟨.leaf (.word "join"), _⟩ :: p :: rest => do
    readJoins 0 (.crossJoin left (← p.source)) rest
  | 0, left, ⟨.leaf (.word "join"), _⟩ :: p :: ⟨.leaf (.word "on"), _⟩ :: rest => do
    let on := conditionTrees rest
    readJoins on.length (.join .plain left (← p.source) on) rest
  | 0, left, ⟨.leaf (.word "inner"), _⟩ :: ⟨.leaf (.word "join"), _⟩ :: p ::
      ⟨.leaf (.word "on"), _⟩ :: rest => do
    let on := conditionTrees rest
    readJoins on.length (.join .inner left (← p.source) on) rest
  | 0, left, ⟨.leaf (.word side), _⟩ :: ⟨.leaf (.word "outer"), _⟩ :: ⟨.leaf (.word "join"), _⟩ ::
      p :: ⟨.leaf (.word "on"), _⟩ :: rest => do
    let on := conditionTrees rest
    readJoins on.length (.join (← outerJoin? side) left (← p.source) on) rest
  | _, _, _ => none

/-- Reads what is joined first, and the joins. -/
def readSource : List SourcePart → Option (JoinTree (List QueryTree))
  | [] => none
  | p :: ps => do readJoins 0 (← p.source) ps

mutual

/-- The source that a tree is. -/
def QueryTree.source : QueryTree → Option (JoinTree (List QueryTree))
  | .leaf t => JoinTree.table <$> t.name?
  | .group inner => readSource (QueryTree.sourceParts inner)

/-- Trees with the sources that they are. -/
def QueryTree.sourceParts : List QueryTree → List SourcePart
  | [] => []
  | t :: ts => ⟨t, t.source⟩ :: QueryTree.sourceParts ts

end

/-- Reads a source from a fragment that the speller wrote. -/
def Fragment.readSource (f : Fragment) (g : Speller) : Option (JoinTree (List QueryTree)) := do
  SqlCatalog.readSource (QueryTree.sourceParts (← f.trees g))

-- Behind a complete operand a word is a keyword, and names of tables and columns can be any words.
example :
    let word (text : String) := QueryTree.leaf (.word text)
    let isOn := [word "x", .leaf (.symbol "="), word "join"]
    let isFull := [word "y", word "is", word "not", word "null"]
    readSource (QueryTree.sourceParts ([word "a", word "join", word "b", word "on"] ++ isOn ++
      [word "cross", word "join",
        .group ([word "c", word "full", word "outer", word "join", word "on", word "on"]
          ++ isFull)])) =
      some (.crossJoin (.join .plain (.table "a") (.table "b") isOn)
        (.join .fullOuter (.table "c") (.table "on") isFull)) := by
  rfl

/-! ## Where a condition ends -/

/-- Whether an operand before the tree goes on with it. -/
def QueryTree.goesOn : QueryTree → Bool
  | .leaf (.symbol ".") | .group _ => true
  | _ => false

/-- Whether an operand ends before the trees. -/
def Closes (rest : List QueryTree) : Prop := ∀ t ∈ rest.head?, t.goesOn = false

/-- The trees are operands with what joins them, of a condition that goes on with joints alone. -/
def Spans (trees : List QueryTree) : Prop :=
  ∀ rest, Closes rest → operandsLength (trees ++ rest) = trees.length + jointsLength rest

/-- The trees join two operands of a condition. -/
structure Joints (between : List QueryTree) : Prop where
  length : ∀ rest, jointsLength (between ++ rest) = between.length + operandsLength rest
  closes : ∀ rest, Closes (between ++ rest)

section Spans

variable {trees more between : List QueryTree}

theorem closes_nil : Closes [] := fun _ h => nomatch h

theorem closes_cons {t : QueryTree} (h : t.goesOn = false) (rest : List QueryTree) :
    Closes (t :: rest) := by
  intro u hu
  obtain rfl := Option.some.inj hu
  exact h

/-- Operands with what joins them go on as a condition. -/
theorem Spans.join (h : Spans trees) (hbetween : Joints between) (hmore : Spans more) :
    Spans (trees ++ (between ++ more)) := by
  intro rest hrest
  rw [List.append_assoc, List.append_assoc, h _ (hbetween.closes _), hbetween.length,
    hmore rest hrest]
  simp [Nat.add_assoc]

theorem spans_leaf (t : QueryToken) : Spans [.leaf t] := by
  intro rest hrest
  show operandsLength (.leaf t :: rest) = 1 + jointsLength rest
  rw [operandsLength]
  · rintro f inner more - rfl
    exact absurd (hrest _ rfl) (by simp [QueryTree.goesOn])
  · rintro t u more - rfl
    exact absurd (hrest _ rfl) (by simp [QueryTree.goesOn])

theorem spans_qualified (t u : QueryToken) :
    Spans [.leaf t, .leaf (.symbol "."), .leaf u] := by
  intro rest _
  cases t <;> rfl

theorem spans_group (inner : List QueryTree) : Spans [.group inner] := fun _ _ => rfl

theorem spans_call (name : String) (inner : List QueryTree) :
    Spans [.leaf (.word name), .group inner] := fun _ _ => rfl

theorem joints_comma : Joints [.leaf (.symbol ",")] :=
  ⟨fun _ => rfl, closes_cons rfl⟩

/-- The words of an operator join two operands. -/
theorem joints_operator (o : Operator) : Joints ((lexText o.between).map .leaf) := by
  constructor <;> cases o <;> intro rest <;> first | rfl | exact closes_cons rfl _

/-- A test for null after an operand. -/
theorem Spans.nullTest (h : Spans trees) (negated : Bool) :
    Spans (trees ++ (nullTestWords negated).map .leaf) := by
  intro rest _
  have hcloses : Closes ((nullTestWords negated).map .leaf ++ rest) := by
    cases negated <;> exact closes_cons rfl _
  rw [List.append_assoc, h _ hcloses, List.length_append, Nat.add_assoc]
  congr 1
  cases negated <;> rfl

end Spans

/-! ## Readings that do not look at places -/

mutual

/-- The tree with other tokens. -/
def QueryTree.map (f : QueryToken → QueryToken) : QueryTree → QueryTree
  | .leaf t => .leaf (f t)
  | .group inner => .group (QueryTree.mapAll f inner)

/-- The trees with other tokens. -/
def QueryTree.mapAll (f : QueryToken → QueryToken) : List QueryTree → List QueryTree
  | [] => []
  | t :: ts => t.map f :: QueryTree.mapAll f ts

end

/-- Whether a token is known from the text alone. -/
def QueryToken.isPlain : QueryToken → Bool
  | .word _ | .quoted _ | .symbol _ => true
  | .place _ | .unknown _ => false

/-- All tokens but places are kept. -/
def KeepsPlain (f : QueryToken → QueryToken) : Prop := ∀ t, t.isPlain = true → f t = t

section KeepsPlain

variable {f : QueryToken → QueryToken}

theorem QueryTree.mapAll_eq (ts : List QueryTree) :
    QueryTree.mapAll f ts = ts.map (QueryTree.map f) := by
  induction ts with
  | nil => rfl
  | cons t ts ih => rw [mapAll, ih, List.map_cons]

theorem QueryTree.map_group (inner : List QueryTree) :
    (QueryTree.group inner).map f = .group (inner.map (QueryTree.map f)) := by
  rw [QueryTree.map, mapAll_eq]

/-- Tokens known from the text are kept as the leaves they are. -/
theorem KeepsPlain.map_leaves (hf : KeepsPlain f) {ts : List QueryToken}
    (h : ∀ t ∈ ts, t.isPlain = true) : (ts.map .leaf).map (QueryTree.map f) = ts.map .leaf := by
  rw [List.map_map]
  exact List.map_congr_left fun t ht => congrArg QueryTree.leaf (hf t (h t ht))

end KeepsPlain

theorem isPlain_nameToken (name : String) : (nameToken name).isPlain = true := by
  rw [nameToken]
  split <;> rfl

theorem Reference.isPlain_tokens (r : Reference) : ∀ t ∈ r.tokens, t.isPlain = true := by
  cases r with
  | bare column => exact List.forall_mem_singleton.2 (isPlain_nameToken column)
  | qualified table column =>
    simp only [Reference.tokens, List.forall_mem_cons]
    exact ⟨isPlain_nameToken table, rfl, isPlain_nameToken column, by simp⟩

theorem Operator.isPlain_between (o : Operator) : ∀ t ∈ lexText o.between, t.isPlain = true := by
  cases o <;> decide

theorem isPlain_nullTestWords (negated : Bool) :
    ∀ t ∈ nullTestWords negated, t.isPlain = true := by
  cases negated <;> decide

/-! ## Conditions -/

/-- Whether an operand leaves a text: a parameter without places does not, unless it stands between
parentheses. -/
def Expression.leavesText (e : Expression) : Bool := e.isOperation || e.opens

/-- Whether every operand of a condition leaves a text, where none has been put between
parentheses with what it belongs to. -/
def Comparison.leavesTexts : Comparison → Bool
  | .null operand _ => operand.leavesText
  | .columns _ _ _ => true
  | .operands _ lhs rhs => lhs.leavesText && rhs.leavesText
  | .compound o lhs rhs =>
    ((o == .and && lhs.isAlternative) || lhs.leavesTexts) &&
      ((o == .and && rhs.isAlternative) || rhs.leavesTexts)

/-- The tokens are nested as trees that go on as a condition, whatever the places are. -/
def ReadsCondition (ts : List QueryToken) (trees : List QueryTree) : Prop :=
  Nests ts trees ∧ ∀ f, KeepsPlain f → Spans (trees.map (QueryTree.map f))

/-- The layout is read as a condition, or as the operands of one. -/
def Layout.IsCondition (l : Layout) : Prop := ∃ trees, ReadsCondition l.tokens trees

section Conditions

variable {l m : Layout} {trees : List QueryTree}

/-- Two conditions with an operator between them are read as one. -/
theorem Layout.IsCondition.between (h : l.IsCondition) (o : Operator) (h' : m.IsCondition) :
    Layout.IsCondition (l ++ .text o.between :: m) := by
  obtain ⟨trees, hnests, hspans⟩ := h
  obtain ⟨more, hnests', hspans'⟩ := h'
  refine ⟨trees ++ ((lexText o.between).map .leaf ++ more), ?_, fun f hf => ?_⟩
  · rw [tokens_between]
    exact hnests.append ((Nests.leaves o.fixedText.leaves).append hnests')
  · rw [List.map_append, List.map_append, hf.map_leaves o.isPlain_between]
    exact (hspans f hf).join (joints_operator o) (hspans' f hf)

/-- A condition with a test for null behind it is read as one. -/
theorem Layout.IsCondition.nullTest (h : l.IsCondition) (negated : Bool) :
    Layout.IsCondition (l ++ [Piece.text (SqlCatalog.nullTest negated)]) := by
  obtain ⟨trees, hnests, hspans⟩ := h
  have htokens : tokens (l ++ [Piece.text (SqlCatalog.nullTest negated)]) =
      l.tokens ++ nullTestWords negated := by
    rw [tokens_append]
    cases negated <;> rfl
  have hleaves : ∀ t ∈ nullTestWords negated, t.IsLeaf := by
    cases negated <;> decide
  refine ⟨trees ++ (nullTestWords negated).map .leaf, ?_, fun f hf => ?_⟩
  · rw [htokens]
    exact hnests.append (Nests.leaves hleaves)
  · rw [List.map_append, hf.map_leaves (isPlain_nullTestWords negated)]
    exact (hspans f hf).nullTest negated

/-- Whatever stands between parentheses is one operand of a condition. -/
theorem Layout.Readable.isCondition_inParens (h : l.Readable) : l.inParens.IsCondition := by
  obtain ⟨-, trees, hnests⟩ := h
  refine ⟨[.group trees], nests_inParens hnests, fun f _ => ?_⟩
  rw [List.map_singleton, QueryTree.map_group]
  exact spans_group _

/-- What stands between parentheses need not be a condition itself. -/
theorem Layout.Readable.isCondition_inParensIf (h : l.Readable) {needed : Bool}
    (hl : needed = false → l.IsCondition) : (l.inParensIf needed).IsCondition := by
  cases needed with
  | false => exact hl rfl
  | true => exact h.isCondition_inParens

theorem readsCondition_leaf {t : QueryToken} (h : t.IsLeaf) : ReadsCondition [t] [.leaf t] :=
  ⟨Nests.leaf h, fun f _ => spans_leaf (f t)⟩

theorem isCondition_column (scopes : List Scope) (c : ColumnRef) :
    Layout.IsCondition [.column c scopes] := by
  refine ⟨_, Layout.nests_column c scopes, fun f hf => ?_⟩
  rw [hf.map_leaves (Reference.isPlain_tokens _)]
  cases c.reference (scopes.headD []) with
  | bare column => exact spans_leaf _
  | qualified table column => exact spans_qualified _ _

/-- The places of an argument are operands with commas between them. -/
theorem spans_places {slots : List Slot} (h : slots ≠ []) {f : QueryToken → QueryToken}
    (hf : KeepsPlain f) : Spans (((placeTokens slots).map .leaf).map (QueryTree.map f)) := by
  induction slots with
  | nil => exact absurd rfl h
  | cons slot slots ih =>
    cases slots with
    | nil => exact spans_leaf _
    | cons next slots =>
      have hcomma : f (.symbol ",") = .symbol "," := hf _ rfl
      have hjoin := (spans_leaf (f (.place slot))).join joints_comma (ih (List.cons_ne_nil _ _))
      rw [← hcomma] at hjoin
      exact hjoin

/-- An argument with places is an operand of a condition. -/
theorem isCondition_argument {a : Argument} (h : a.places ≠ 0) :
    Layout.IsCondition [.argument a] := by
  refine ⟨_, Layout.nests_argument a, fun f hf => spans_places (fun hslots => h ?_) hf⟩
  rw [← length_slots, hslots, List.length_nil]

theorem isCondition_verbatim {text : String} (h : IsVerbatim text) :
    Layout.IsCondition [.text text] := by
  rcases h with h | rfl
  · have htokens : Layout.tokens [.text text] = [.word text] :=
      (List.append_nil _).trans (lexText_word h)
    exact ⟨_, htokens ▸ readsCondition_leaf ⟨by simp, by simp⟩⟩
  · have hstar : ReadsCondition (Layout.tokens [.text "*"]) _ :=
      readsCondition_leaf (t := .symbol "*") (by decide)
    exact ⟨_, hstar⟩

theorem isCondition_call {name : String} (hname : isPlainName name = true) (h : l.Readable) :
    Layout.IsCondition (.text name :: l.inParens) := by
  obtain ⟨-, trees, hnests⟩ := h
  have htokens : Layout.tokens (.text name :: l.inParens) = .word name :: l.inParens.tokens :=
    congrArg (· ++ l.inParens.tokens) (lexText_word hname)
  refine ⟨[.leaf (.word name), .group trees], ?_, fun f hf => ?_⟩
  · rw [htokens]
    exact (Nests.leaf ⟨by simp, by simp⟩).append (Layout.nests_inParens hnests)
  · have hword : f (.word name) = .word name := hf _ rfl
    rw [List.map_cons, List.map_singleton, QueryTree.map_group, QueryTree.map, hword]
    exact spans_call name _

/-- An operand that leaves a text is read as one. Operations stand between parentheses, so that
this needs no induction. -/
theorem isCondition_operand (scopes : List Scope) {e : Expression} (hspelled : e.Spelled)
    (htext : e.leavesText = true) :
    ((e.layout scopes).inParensIf e.isOperation).IsCondition := by
  cases e with
  | column c => exact isCondition_column scopes c
  | constant value => exact isCondition_argument (a := .value value) Nat.one_ne_zero
  | parameter p => exact isCondition_argument (a := .parameter p) (bne_iff_ne.1 htext)
  | tuple items =>
    exact (Layout.Readable.join (readable_expressions scopes items hspelled)).isCondition_inParens
  | call name arguments =>
    exact isCondition_call hspelled.1
      (Layout.Readable.join (readable_expressions scopes arguments hspelled.2))
  | verbatim text => exact isCondition_verbatim hspelled
  | subquery select =>
    obtain ⟨hlexes, trees, hnests, -⟩ := readable_select scopes select hspelled
    exact Layout.Readable.isCondition_inParens ⟨hlexes, trees, hnests⟩
  | binary o lhs rhs =>
    exact (readable_expression scopes _ hspelled).readable.isCondition_inParens

/-- A condition of which all operands leave a text is read up to what does not go on with it. -/
theorem isCondition_comparison (scopes : List Scope) :
    ∀ c : Comparison, c.Spelled → c.leavesTexts = true → (c.layout scopes).IsCondition
  | .null _ negated, hspelled, htext => (isCondition_operand scopes hspelled htext).nullTest negated
  | .columns o lhs rhs, _, _ =>
    (isCondition_column scopes lhs).between o (isCondition_column scopes rhs)
  | .operands o lhs rhs, hspelled, htext => by
    obtain ⟨hl, hr⟩ := Bool.and_eq_true_iff.1 htext
    exact (isCondition_operand scopes hspelled.1 hl).between o
      (isCondition_operand scopes hspelled.2 hr)
  | .compound o lhs rhs, hspelled, htext => by
    obtain ⟨hl, hr⟩ := Bool.and_eq_true_iff.1 htext
    have hside {c : Comparison} (hc : c.Spelled)
        (htext : ((o == .and && c.isAlternative) || c.leavesTexts) = true)
        (ih : c.leavesTexts = true → (c.layout scopes).IsCondition) :
        ((c.layout scopes).inParensIf (o == .and && c.isAlternative)).IsCondition := by
      refine (readable_comparison scopes c hc).isCondition_inParensIf fun hparens => ih ?_
      rwa [hparens, Bool.false_or] at htext
    have hlhs := hside hspelled.1 hl (isCondition_comparison scopes lhs hspelled.1)
    have hrhs := hside hspelled.2 hr (isCondition_comparison scopes rhs hspelled.2)
    exact hlhs.between o hrhs

end Conditions

end SqlCatalog
