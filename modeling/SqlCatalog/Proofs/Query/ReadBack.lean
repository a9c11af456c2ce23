import SqlCatalog.Proofs.Query.ReadExpressions

/-!
# Conditions are read back

The parentheses of a condition are enough: its text, read with the precedence of the operators,
means what the condition means. An alternative is put between parentheses in a conjunction, and
there it is read as one part. Equal connectives need no parentheses, since `and` and `or` are
associative. What goes wrong is no condition by itself: a parameter that stands for several values,
or for none, where one value is expected, and a function whose name is not a word.

## Main definitions

* `ReadsAsConjunction` and `ReadsAsDisjunction` say what tokens are read as, and with which truth.

## Main statements

* `Comparison.Built.readsIn`: a condition that is built is read back wherever it stands.
* `Comparison.readsBack_of_built`: the text of a condition that is built means what it means.
* `not_readsBack_misread`: conditions of which the text does not.
-/

namespace SqlCatalog

/-! ## Conditions -/

/-- Whether the operator makes a condition of two terms. -/
def Operator.isTest : Operator → Bool
  | eq | ne | gt | ge | lt | le | like | isIn | notIn => true
  | _ => false

/-- The tokens are read as tests with `and` between them, of which the conjunction has the given
truth. -/
def ReadsAsConjunction (ts : List QueryToken) (truth : ∀ V, Interpretation V → Truth) : Prop :=
  ∃ trees items parts, ParsesAs ts trees items ∧ (∀ i ∈ items, i.isJoint .or = false) ∧
    (items.splitOnP (Item.isJoint .and)).mapM readTest = some parts ∧
    ∀ V I, Condition.truthOfAll (V := V) I parts = truth V I

/-- The tokens are read as conjunctions with `or` between them, of which the disjunction has the
given truth. -/
def ReadsAsDisjunction (ts : List QueryToken) (truth : ∀ V, Interpretation V → Truth) : Prop :=
  ∃ trees items parts, ParsesAs ts trees items ∧
    (items.splitOnP (Item.isJoint .or)).mapM readConjunction = some parts ∧
    ∀ V I, Condition.truthOfAny (V := V) I parts = truth V I

section Conditions

variable {ts us : List QueryToken} {value value' : ∀ V, Interpretation V → V}
  {truth truth' : ∀ V, Interpretation V → Truth}

/-- A test is a conjunction of one part. -/
theorem readsAsConjunction_test {trees : List QueryTree} {items : List Item} {c : Condition}
    (hreads : ParsesAs ts trees items) (hor : ∀ i ∈ items, i.isJoint .or = false)
    (hand : ∀ i ∈ items, i.isJoint .and = false) (htest : readTest items = some c) :
    ReadsAsConjunction ts (fun _ I => c.truth I) := by
  refine ⟨trees, items, [c], hreads, hor, ?_, fun V I => ?_⟩
  · rw [List.splitOnP_eq_singleton hand, List.mapM_cons, htest]
    rfl
  · rw [Condition.truthOfAll, Condition.truthOfAll, Truth.and_true]

/-- Two operands with a relation between them are read as a test of their values. -/
theorem ReadsAsOperand.test {o : Operator} (h : ReadsAsOperand ts value) (ho : o.isTest = true)
    (h' : ReadsAsOperand us value') :
    ReadsAsConjunction (ts ++ (lexText o.between ++ us))
      (fun V I => I.test o (value V I) (value' V I)) := by
  obtain ⟨trees, x, t, hreads, -, hterm, hvalue⟩ := h
  obtain ⟨trees', y, u, hreads', -, hterm', hvalue'⟩ := h'
  have hsum {x : Operand} {t : Term} (hterm : x.term = some t) : readSum [.operand x] = some t := by
    rw [readSum, hterm]
    rfl
  have htest : readTest [.operand x, .joint o, .operand y] = some (.test o t u) := by
    have hsplit : readTest [.operand x, .joint o, .operand y] =
        (do return .test o (← readSum [.operand x]) (← readSum [.operand y])) := by
      cases o <;> first | rfl | cases ho
    rw [hsplit, hsum hterm, hsum hterm']
    rfl
  have hjoint : ∀ p : Operator, p.isTest = false →
      ∀ i ∈ [Item.operand x, .joint o, .operand y], i.isJoint p = false := by
    intro p hp
    have hne : o ≠ p := by
      rintro rfl
      rw [hp] at ho
      cases ho
    simpa [Item.isJoint] using hne
  have hall := readsAsConjunction_test (hreads.between o hreads') (hjoint .or rfl) (hjoint .and rfl)
    htest
  simpa only [Condition.truth, hvalue, hvalue'] using hall

/-- An operand with a test for null behind it is read as that test. -/
theorem ReadsAsOperand.nullTest (h : ReadsAsOperand ts value) (negated : Bool) :
    ReadsAsConjunction (ts ++ nullTestWords negated) (fun V I => I.null negated (value V I)) := by
  obtain ⟨trees, x, t, hreads, -, hterm, hvalue⟩ := h
  have hleaves : ∀ t ∈ nullTestWords negated, t.IsLeaf := by
    cases negated <;> decide
  have htest : readTest [.operand x, .nullTest negated] = some (Condition.null negated t) := by
    show (do return Condition.null negated (← readSum [.operand x])) = _
    rw [readSum, hterm]
    rfl
  have hall := readsAsConjunction_test
    ⟨hreads.nests.append (Nests.leaves hleaves), hreads.reads.nullTest negated⟩
    (by simp [Item.isJoint]) (by simp [Item.isJoint]) htest
  simpa only [Condition.truth, hvalue] using hall

/-- Conjunctions with `and` between them are read as one, since nothing binds closer. -/
theorem ReadsAsConjunction.and (h : ReadsAsConjunction ts truth)
    (h' : ReadsAsConjunction us truth') :
    ReadsAsConjunction (ts ++ (lexText Operator.and.between ++ us))
      (fun V I => (truth V I).and (truth' V I)) := by
  obtain ⟨trees, items, parts, hreads, hor, hparts, htruth⟩ := h
  obtain ⟨trees', items', parts', hreads', hor', hparts', htruth'⟩ := h'
  refine ⟨_, _, parts ++ parts', hreads.between .and hreads', ?_, ?_, fun V I => ?_⟩
  · intro i hi
    rcases List.mem_append.1 hi with hi | hi
    · exact hor i hi
    · rcases List.mem_cons.1 hi with rfl | hi
      · rfl
      · exact hor' i hi
  · rw [List.splitOnP_append_cons _ _ rfl, List.mapM_append, hparts, hparts']
    rfl
  · rw [Condition.truthOfAll_append, htruth, htruth']

/-- A conjunction is a disjunction of one part. -/
theorem ReadsAsConjunction.disjunction (h : ReadsAsConjunction ts truth) :
    ReadsAsDisjunction ts truth := by
  obtain ⟨trees, items, parts, hreads, hor, hparts, htruth⟩ := h
  refine ⟨trees, items, [.all parts], hreads, ?_, fun V I => ?_⟩
  · rw [List.splitOnP_eq_singleton hor, List.mapM_cons, readConjunction, hparts]
    rfl
  · rw [Condition.truthOfAny, Condition.truthOfAny, Truth.or_false, Condition.truth, htruth]

theorem ReadsAsDisjunction.or (h : ReadsAsDisjunction ts truth)
    (h' : ReadsAsDisjunction us truth') :
    ReadsAsDisjunction (ts ++ (lexText Operator.or.between ++ us))
      (fun V I => (truth V I).or (truth' V I)) := by
  obtain ⟨trees, items, parts, hreads, hparts, htruth⟩ := h
  obtain ⟨trees', items', parts', hreads', hparts', htruth'⟩ := h'
  refine ⟨_, _, parts ++ parts', hreads.between .or hreads', ?_, fun V I => ?_⟩
  · rw [List.splitOnP_append_cons _ _ rfl, List.mapM_append, hparts, hparts']
    rfl
  · rw [Condition.truthOfAny_append, htruth, htruth']

/-- A disjunction between parentheses is a conjunction of one part. -/
theorem ReadsAsDisjunction.inParens {l : Layout} (h : ReadsAsDisjunction l.tokens truth) :
    ReadsAsConjunction l.inParens.tokens truth := by
  obtain ⟨trees, items, parts, hreads, hparts, htruth⟩ := h
  have htest : readTest [.operand (.ofGroup trees (readItems (QueryTree.parts trees)))] =
      some (.any parts) := by
    show Option.bind (readItems (QueryTree.parts trees)) readDisjunction = _
    rw [hreads.reads.readItems_eq, Option.bind_some, readDisjunction, hparts]
    rfl
  have hall := readsAsConjunction_test
    ⟨Layout.nests_inParens hreads.nests, readsItems_group trees⟩
    (by simp [Item.isJoint]) (by simp [Item.isJoint]) htest
  simpa only [Condition.truth, htruth] using hall

end Conditions

/-- The condition is read as a disjunction, and as a conjunction unless it is an alternative. -/
structure Comparison.ReadsIn (scope : Scope) (c : Comparison) : Prop where
  disjunction : ReadsAsDisjunction (c.layout [scope]).tokens (fun _ I => c.truth I scope)
  conjunction : c.isAlternative = false →
    ReadsAsConjunction (c.layout [scope]).tokens (fun _ I => c.truth I scope)

section Comparisons

variable {scope : Scope} {a b c : Comparison}

theorem ReadsAsConjunction.readsIn
    (h : ReadsAsConjunction (c.layout [scope]).tokens (fun _ I => c.truth I scope)) :
    c.ReadsIn scope :=
  ⟨h.disjunction, fun _ => h⟩

/-- Between parentheses if it needs them, a condition is read as a conjunction. -/
theorem Comparison.ReadsIn.inParensIf (h : c.ReadsIn scope) :
    ReadsAsConjunction ((c.layout [scope]).inParensIf c.isAlternative).tokens
      (fun _ I => c.truth I scope) := by
  cases hc : c.isAlternative with
  | false => exact h.conjunction hc
  | true => exact h.disjunction.inParens

/-- A test for null is read back when its operand is. -/
theorem readsIn_null {e : Expression} (h : e.ReadsBack scope) (negated : Bool) :
    (Comparison.null e negated).ReadsIn scope := by
  have hnull := h.operand.nullTest negated
  have htokens : ((Comparison.null e negated).layout [scope]).tokens =
      ((e.layout [scope]).inParensIf e.isOperation).tokens ++ nullTestWords negated := by
    rw [Comparison.layout, Layout.tokens_append]
    cases negated <;> rfl
  rw [← htokens] at hnull
  exact hnull.readsIn

theorem readsIn_operands {o : Operator} {lhs rhs : Expression} (ho : o.isTest = true)
    (hlhs : lhs.ReadsBack scope) (hrhs : rhs.ReadsBack scope) :
    (Comparison.operands o lhs rhs).ReadsIn scope := by
  have htest := hlhs.operand.test ho hrhs.operand
  rw [← Layout.tokens_between] at htest
  exact ReadsAsConjunction.readsIn htest

/-- Columns are compared as any operands are. -/
theorem readsIn_columns {o : Operator} (ho : o.isTest = true) (x y : ColumnRef) :
    (Comparison.columns o x y).ReadsIn scope := by
  have hcolumn (z : ColumnRef) : (Expression.column z).ReadsBack scope :=
    (Expression.Built.column z).readsBack
  have h := readsIn_operands ho (hcolumn x) (hcolumn y)
  exact ⟨h.disjunction, h.conjunction⟩

/-- A conjunction is read back: alternatives inside it stand between parentheses. -/
theorem readsIn_and (ha : a.ReadsIn scope) (hb : b.ReadsIn scope) : (a.and b).ReadsIn scope := by
  have hand := ha.inParensIf.and hb.inParensIf
  rw [← Layout.tokens_between] at hand
  exact ReadsAsConjunction.readsIn hand

theorem readsIn_or (ha : a.ReadsIn scope) (hb : b.ReadsIn scope) : (a.or b).ReadsIn scope := by
  have hor := ha.disjunction.or hb.disjunction
  rw [← Layout.tokens_between] at hor
  exact ⟨hor, fun h => nomatch h⟩

/-- What a comparison of two expressions is built as. -/
theorem Comparison.of_cases (o : Operator) (lhs rhs : Expression) :
    (∃ negated, Comparison.of o lhs rhs = .null lhs negated) ∨
      (∃ x y, Comparison.of o lhs rhs = .columns o x y) ∨
        Comparison.of o lhs rhs = .operands o lhs rhs := by
  unfold Comparison.of
  split
  · exact .inl ⟨_, rfl⟩
  · exact .inl ⟨_, rfl⟩
  · split
    · exact .inr (.inl ⟨_, _, rfl⟩)
    · exact .inr (.inr rfl)

theorem Operator.isTest_of_isRelation {o : Operator} (h : o.isRelation = true) :
    o.isTest = true := by
  cases o <;> first | rfl | cases h

/-- A condition that is built is read back. -/
theorem Comparison.Built.readsIn (h : c.Built) : c.ReadsIn scope := by
  -- A pattern is an operation of constants, and stands between parentheses like any other.
  have hany : Expression.anyText.Built := .constant _
  induction h with
  | @of o lhs rhs ho hlhs hrhs =>
    have htest := Operator.isTest_of_isRelation ho
    obtain ⟨negated, hof⟩ | ⟨x, y, hof⟩ | hof := Comparison.of_cases o lhs rhs <;> rw [hof]
    · exact readsIn_null hlhs.readsBack negated
    · exact readsIn_columns htest x y
    · exact readsIn_operands htest hlhs.readsBack hrhs.readsBack
  | null hoperand negated => exact readsIn_null hoperand.readsBack negated
  | isIn hlhs hrhs => exact readsIn_operands rfl hlhs.readsBack hrhs.readsBack
  | notIn hlhs hrhs => exact readsIn_operands rfl hlhs.readsBack hrhs.readsBack
  | startsWith hoperand value =>
    have hpattern := Expression.Built.binary (o := .concat) rfl (.constant value) hany
    exact readsIn_operands rfl hoperand.readsBack hpattern.readsBack
  | endsWith hoperand value =>
    have hpattern := Expression.Built.binary (o := .concat) rfl hany (.constant value)
    exact readsIn_operands rfl hoperand.readsBack hpattern.readsBack
  | contains hoperand value =>
    have hinner := Expression.Built.binary (o := .concat) rfl hany (.constant value)
    have hpattern := Expression.Built.binary (o := .concat) rfl hinner hany
    exact readsIn_operands rfl hoperand.readsBack hpattern.readsBack
  | and _ _ iha ihb => exact readsIn_and iha ihb
  | or _ _ iha ihb => exact readsIn_or iha ihb

theorem Expression.allSpelled_iff (es : List Expression) :
    Expression.AllSpelled es ↔ ∀ e ∈ es, e.Spelled := by
  induction es with
  | nil => simp [Expression.AllSpelled]
  | cons e es ih => rw [Expression.AllSpelled, ih, List.forall_mem_cons]

theorem Expression.Built.spelled {e : Expression} (h : e.Built) : e.Spelled := by
  have hitem {e : Expression} (h : e.isParameter = false → e.Spelled) : e.Spelled := by
    cases e with
    | parameter p => trivial
    | _ => exact h rfl
  induction h with
  | column c => trivial
  | constant value => trivial
  | parameter hplaces => trivial
  | tuple _ _ ih => exact (Expression.allSpelled_iff _).2 fun e he => hitem (ih e he)
  | call hname _ _ _ ih =>
    exact ⟨hname, (Expression.allSpelled_iff _).2 fun e he => hitem (ih e he)⟩
  | verbatim htext => exact htext
  | subquery hspelled _ => exact hspelled
  | binary _ _ _ ihl ihr => exact ⟨ihl, ihr⟩

theorem Comparison.Built.spelled (h : c.Built) : c.Spelled := by
  induction h with
  | @of o lhs rhs ho hlhs hrhs =>
    obtain ⟨negated, hof⟩ | ⟨x, y, hof⟩ | hof := Comparison.of_cases o lhs rhs <;> rw [hof]
    · exact hlhs.spelled
    · trivial
    · exact ⟨hlhs.spelled, hrhs.spelled⟩
  | null hoperand _ => exact hoperand.spelled
  | isIn hlhs hrhs | notIn hlhs hrhs => exact ⟨hlhs.spelled, hrhs.spelled⟩
  | startsWith hoperand _ | endsWith hoperand _ => exact ⟨hoperand.spelled, trivial, trivial⟩
  | contains hoperand _ => exact ⟨hoperand.spelled, ⟨trivial, trivial⟩, trivial⟩
  | and _ _ iha ihb | or _ _ iha ihb => exact ⟨iha, ihb⟩

/-- The text of a condition that is built means what the condition means: read with the precedence
of its operators, it has the same truth under every interpretation. -/
theorem Comparison.readsBack_of_built (h : c.Built) (scope : Scope) {g : Speller}
    (hstyle : g.placeholder.IsReadable) : c.ReadsBack scope g := by
  have hin : c.ReadsIn scope := h.readsIn
  obtain ⟨trees, items, parts, hreads, hparts, htruth⟩ := hin.disjunction
  have hlexes := (readable_comparison [scope] c h.spelled).1
  have hwrites := writes_comparison quoteName [scope] c g
  rw [List.headD_cons] at hwrites
  refine ⟨.any parts, ?_, htruth⟩
  -- From the text to its tokens, from these to their trees, and from the trees to the condition.
  rw [hwrites, Fragment.read, Fragment.trees, hlexes.tokens_spell hstyle,
    hreads.nests.nestTokens_eq]
  show (readItems (QueryTree.parts trees)).bind readDisjunction = _
  rw [hreads.reads.readItems_eq, Option.bind_some, readDisjunction, hparts]
  rfl

end Comparisons

/-! ## Conditions on points -/

/-- A table with the columns `x` and `y`. -/
def pointTable : Table :=
  { Table.empty 0 "t" with
    columns := ["x", "y"].mapIdx fun i name => ⟨name, 0, i, ⟨"integer", none⟩, none, none, none⟩ }

/-- A column of that table. -/
def pointColumn (i : Fin 2) : Expression := .column ⟨pointTable, pointTable.columns.get i⟩

/-- A condition with operations and alternatives inside others. -/
def nestedCondition : Comparison :=
  (Comparison.of .gt
      (.binary .plus (pointColumn 0) (.binary .minus (pointColumn 1) (.constant (.int 1))))
      (.call "max" [pointColumn 0])).and
    (((pointColumn 0).notIn (.parameter ⟨"ids", some 2⟩)).or (.null (pointColumn 1) true))

theorem built_nestedCondition : nestedCondition.Built := by
  have hcolumn (i : Fin 2) : (pointColumn i).Built := .column _
  have hsum := Expression.Built.binary (o := .plus) rfl (hcolumn 0)
    (.binary (o := .minus) rfl (hcolumn 1) (.constant (.int 1)))
  have hcall : (Expression.call "max" [pointColumn 0]).Built := by
    refine .call (by decide) (by decide) ?_ ?_
    · intro p hp
      cases List.mem_singleton.1 hp
    · rw [List.forall_mem_singleton]
      exact fun _ => hcolumn 0
  have hids : (Expression.parameter ⟨"ids", some 2⟩).asCollection.Built := by
    refine .tuple ?_ ?_
    · intro p hp hplaces
      obtain rfl := Expression.parameter.inj (List.mem_singleton.1 hp)
      cases hplaces
    · rw [List.forall_mem_singleton]
      exact fun h => nomatch h
  exact .and (.of rfl hsum hcall) (.or (.notIn (hcolumn 0) hids) (.null (hcolumn 1) true))

/-- The parentheses around operations and alternatives, and those of a list, are all told apart. -/
theorem readsBack_nestedCondition :
    nestedCondition.Built ∧ Dialect.postgres.placeholder.IsReadable ∧
      nestedCondition.ReadsBack [pointTable] (.fresh Dialect.postgres.placeholder) :=
  have hstyle := Dialect.isReadable_placeholder .postgres
  ⟨built_nestedCondition, hstyle,
    Comparison.readsBack_of_built built_nestedCondition [pointTable] hstyle⟩

example : (nestedCondition.render quoteName [pointTable] (.fresh (.fixed "%s"))).1.text =
    "(x + (y - %s)) > max(x) and (x not in (%s, %s) or y is not null)" := by decide +kernel

/-- Conditions that are not read back: one that adds two values at once, one with no value before a
comma, one that calls an operation, one that calls a function `select`, and one in which the columns
of a selection begin with no value. -/
def misreadConditions : List Comparison :=
  let x := pointColumn 0
  let y := pointColumn 1
  let values (n : Nat) : Expression := .parameter ⟨"ids", some n⟩
  [x.isIn (.binary .plus y (values 2)),
    x.isIn (.tuple [values 0, y]),
    .of .eq x (.binary .minus x (.call "y - f" [x])),
    .of .eq x (.binary .plus (.call "select" [x]) y),
    x.isIn (.subquery { Select.all (.table pointTable) with columns := [values 0, y] })]

/-- Values are numbers, and a test holds if its right side is two. -/
def numericInterpretation : Interpretation Nat where
  reference r := if r = .bare "x" then 5 else 2
  slot _ := 1
  star := 0
  call _ _ := 1
  selection _ := 2
  row vs := vs.length
  binary o a b := if o = .minus then a - b else a + b
  test _ _ b := some (b == 2)
  null _ _ := none

/-- A condition that is read as one with another truth is not read back. -/
theorem not_readsBack_of_truth_ne {V : Type} {c : Comparison} {scope : Scope} {g : Speller}
    (I : Interpretation V)
    (h : ((c.render quoteName scope g).1.read g).all
      (fun read => read.truth I != c.truth I scope) = true) :
    ¬ c.ReadsBack scope g := by
  rintro ⟨read, hread, htruth⟩
  rw [hread, Option.all_some, htruth V I, bne_self_eq_false] at h
  cases h

/-- The first and the two calls are read as conditions that mean something else, the other two are
not read at all. -/
theorem not_readsBack_misread :
    ¬ ∃ c ∈ misreadConditions, c.ReadsBack [pointTable] (.fresh (.fixed "%s")) := by
  have hall : ∀ c ∈ misreadConditions,
      ((c.render quoteName [pointTable] (.fresh (.fixed "%s"))).1.read (.fresh (.fixed "%s"))).all
        (fun read => read.truth numericInterpretation !=
          c.truth numericInterpretation [pointTable]) = true := by
    decide +kernel
  rintro ⟨c, hc, hread⟩
  exact not_readsBack_of_truth_ne numericInterpretation (hall c hc) hread

end SqlCatalog
