import SqlCatalog.Proofs.Query.Precedence

/-!
# The meaning of conditions

A condition is true, false or unknown. What its leaves, its operators and its tests mean is left to
an interpretation; `and` and `or` are those of three-valued logic. Both a condition as it was built
and a condition as it is read are evaluated under an interpretation, each along its own structure.

## Main definitions

* `Truth` with `Truth.and` and `Truth.or`.
* `Interpretation` says what everything else means.
* `Term.value` and `Condition.truth` evaluate what is read, `Expression.value` and
  `Comparison.truth` what was built.
* `Comparison.Built` are the conditions that are built by the rules for building them.
* `Comparison.ReadsBack` says that the text of a condition is read as a condition that means the
  same.
-/

namespace SqlCatalog

/-! ## Three-valued logic -/

/-- True, false, or `none` if it is unknown. -/
abbrev Truth := Option Bool

namespace Truth

/-- Both hold: false if one does not, however little is known of the other. -/
def and : Truth → Truth → Truth
  | some true, b => b
  | some false, _ | none, some false => some false
  | none, _ => none

/-- One holds: true if one does, however little is known of the other. -/
def or : Truth → Truth → Truth
  | some false, b => b
  | some true, _ | none, some true => some true
  | none, _ => none

theorem and_assoc (a b c : Truth) : (a.and b).and c = a.and (b.and c) := by
  rcases a with _ | _ | _ <;> rcases b with _ | _ | _ <;> rcases c with _ | _ | _ <;> rfl

theorem or_assoc (a b c : Truth) : (a.or b).or c = a.or (b.or c) := by
  rcases a with _ | _ | _ <;> rcases b with _ | _ | _ <;> rcases c with _ | _ | _ <;> rfl

theorem and_true (a : Truth) : a.and (some true) = a := by
  rcases a with _ | _ | _ <;> rfl

theorem or_false (a : Truth) : a.or (some false) = a := by
  rcases a with _ | _ | _ <;> rfl

end Truth

/-! ## Interpretations -/

/-- What the leaves, the operators and the tests of conditions mean, with values in `V`. -/
structure Interpretation (V : Type) where
  reference : Reference → V
  slot : Slot → V
  star : V
  call : String → List V → V
  selection : List QueryTree → V
  row : List V → V
  binary : Operator → V → V → V
  test : Operator → V → V → Truth
  null : Bool → V → Truth

/-- The value of what stands between parentheses: an item alone is that item. -/
def Interpretation.ofItems {V : Type} (I : Interpretation V) : List V → V
  | [v] => v
  | vs => I.row vs

/-! ## The meaning of what is read -/

section Reading

variable {V : Type} (I : Interpretation V)

mutual

/-- The value of a term. -/
def Term.value : Term → V
  | .reference r => I.reference r
  | .slot s => I.slot s
  | .star => I.star
  | .call name arguments => I.call name (Term.values arguments)
  | .selection trees => I.selection trees
  | .row items => I.row (Term.values items)
  | .binary o lhs rhs => I.binary o lhs.value rhs.value

/-- The values of terms. -/
def Term.values : List Term → List V
  | [] => []
  | t :: ts => t.value :: Term.values ts

end

mutual

/-- The truth of a condition. -/
def Condition.truth : Condition → Truth
  | .null negated operand => I.null negated (operand.value I)
  | .test o lhs rhs => I.test o (lhs.value I) (rhs.value I)
  | .all parts => Condition.truthOfAll parts
  | .any parts => Condition.truthOfAny parts

/-- Whether all conditions hold. -/
def Condition.truthOfAll : List Condition → Truth
  | [] => some true
  | c :: cs => c.truth.and (Condition.truthOfAll cs)

/-- Whether one of the conditions holds. -/
def Condition.truthOfAny : List Condition → Truth
  | [] => some false
  | c :: cs => c.truth.or (Condition.truthOfAny cs)

end

theorem Term.values_eq_map (ts : List Term) : Term.values I ts = ts.map (Term.value I) := by
  induction ts with
  | nil => rfl
  | cons t ts ih => rw [Term.values, ih, List.map_cons]

/-- What several terms between parentheses mean does not depend on whether they are one. -/
theorem Term.value_ofItems (ts : List Term) :
    (Term.ofItems ts).value I = I.ofItems (Term.values I ts) := by
  rcases ts with - | ⟨t, - | ⟨u, ts⟩⟩ <;> rfl

/-- All of two lists of conditions are true when all of each are, in the logic of three values. -/
theorem Condition.truthOfAll_append (cs ds : List Condition) :
    Condition.truthOfAll I (cs ++ ds) =
      (Condition.truthOfAll I cs).and (Condition.truthOfAll I ds) := by
  induction cs with
  | nil => rfl
  | cons c cs ih => rw [List.cons_append, truthOfAll, truthOfAll, ih, Truth.and_assoc]

/-- Any of two lists of conditions is true when any of either is, in the logic of three values. -/
theorem Condition.truthOfAny_append (cs ds : List Condition) :
    Condition.truthOfAny I (cs ++ ds) =
      (Condition.truthOfAny I cs).or (Condition.truthOfAny I ds) := by
  induction cs with
  | nil => rfl
  | cons c cs ih => rw [List.cons_append, truthOfAny, truthOfAny, ih, Truth.or_assoc]

end Reading

/-! ## The meaning of what was built -/

/-- What a selection is by itself: the trees of its text, whatever stands around it. -/
def Select.content (s : Select) : List QueryTree :=
  let g := Speller.fresh (.fixed "?")
  ((s.render quoteName g).1.trees g).getD []

section Building

variable {V : Type} (I : Interpretation V) (scope : Scope)

mutual

/-- The values of an expression as an item of a list: one, unless it is a parameter that stands for
several. -/
def Expression.values : Expression → List V
  | .column c => [I.reference (c.reference scope)]
  | .constant value => (Argument.value value).slots.map I.slot
  | .parameter p => (Argument.parameter p).slots.map I.slot
  | .tuple items => [I.ofItems (Expression.valuesAll items)]
  | .call name arguments => [I.call name (Expression.valuesAll arguments)]
  | .verbatim text => [if text = "*" then I.star else I.reference (.bare text)]
  | .subquery select => [I.selection select.content]
  | .binary o lhs rhs => [I.binary o (I.ofItems lhs.values) (I.ofItems rhs.values)]

/-- The values of the items of a list. -/
def Expression.valuesAll : List Expression → List V
  | [] => []
  | e :: es => e.values ++ Expression.valuesAll es

end

/-- The value of an expression. -/
def Expression.value (e : Expression) : V := I.ofItems (e.values I scope)

/-- The truth of a condition. -/
def Comparison.truth : Comparison → Truth
  | .null operand negated => I.null negated (operand.value I scope)
  | .columns o lhs rhs =>
    I.test o (I.reference (lhs.reference scope)) (I.reference (rhs.reference scope))
  | .operands o lhs rhs => I.test o (lhs.value I scope) (rhs.value I scope)
  | .compound .and lhs rhs => lhs.truth.and rhs.truth
  | .compound .or lhs rhs => lhs.truth.or rhs.truth
  | .compound _ _ _ => none

end Building

/-! ## What can be built -/

/-- Whether the operator compares two values. -/
def Operator.isRelation : Operator → Bool
  | eq | ne | gt | ge | lt | le => true
  | _ => false

/-- A parameter that stands for no values leaves no trace, and so no item of a list but its own. -/
def Expression.FillList (items : List Expression) : Prop :=
  ∀ p, .parameter p ∈ items → (Argument.parameter p).places = 0 → items = [.parameter p]

/-- Whether an expression is a parameter. -/
def Expression.isParameter : Expression → Bool
  | .parameter _ => true
  | _ => false

/-- The expressions that are built from columns, constants, parameters, calls of functions,
selections and sums. A parameter that does not stand for one value is an item of a list. -/
inductive Expression.Built : Expression → Prop
  | column (c : ColumnRef) : Built (.column c)
  | constant (value : Value) : Built (.constant value)
  | parameter {p : Parameter} (h : (Argument.parameter p).places = 1) : Built (.parameter p)
  | tuple {items : List Expression} (hfill : Expression.FillList items)
      (h : ∀ e ∈ items, e.isParameter = false → Built e) : Built (.tuple items)
  | call {name : String} {arguments : List Expression} (hname : isPlainName name = true)
      (hselect : name ≠ "select") (hfill : Expression.FillList arguments)
      (h : ∀ e ∈ arguments, e.isParameter = false → Built e) : Built (.call name arguments)
  | verbatim {text : String} (h : IsVerbatim text) : Built (.verbatim text)
  | subquery {select : Select} (h : select.Spelled)
      (hopens : select.columns.head?.all Expression.opens = true) : Built (.subquery select)
  | binary {o : Operator} {lhs rhs : Expression} (ho : o.isSum = true) (hlhs : Built lhs)
      (hrhs : Built rhs) : Built (.binary o lhs rhs)

/-- The conditions that are built from such expressions. -/
inductive Comparison.Built : Comparison → Prop
  | of {o : Operator} {lhs rhs : Expression} (ho : o.isRelation = true) (hlhs : lhs.Built)
      (hrhs : rhs.Built) : Built (.of o lhs rhs)
  | null {operand : Expression} (h : operand.Built) (negated : Bool) : Built (.null operand negated)
  | isIn {lhs rhs : Expression} (hlhs : lhs.Built) (hrhs : rhs.asCollection.Built) :
      Built (lhs.isIn rhs)
  | notIn {lhs rhs : Expression} (hlhs : lhs.Built) (hrhs : rhs.asCollection.Built) :
      Built (lhs.notIn rhs)
  | startsWith {operand : Expression} (h : operand.Built) (value : Value) :
      Built (operand.startsWith value)
  | endsWith {operand : Expression} (h : operand.Built) (value : Value) :
      Built (operand.endsWith value)
  | contains {operand : Expression} (h : operand.Built) (value : Value) :
      Built (operand.contains value)
  | and {a b : Comparison} (ha : Built a) (hb : Built b) : Built (a.and b)
  | or {a b : Comparison} (ha : Built a) (hb : Built b) : Built (a.or b)

/-- The text of a condition is read as a condition that means the same. -/
def Comparison.ReadsBack (c : Comparison) (scope : Scope) (g : Speller) : Prop :=
  ∃ read, (c.render quoteName scope g).1.read g = some read ∧
    ∀ (V : Type) (I : Interpretation V), read.truth I = c.truth I scope

end SqlCatalog
