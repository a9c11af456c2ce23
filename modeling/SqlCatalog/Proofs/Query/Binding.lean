import SqlCatalog.Proofs.Lists
import SqlCatalog.Proofs.Query.Places

/-!
# Values at places

A statement is rendered with a place for each value that it will get, and its parameters are
replaced by values later. A parameter for several values is one argument with several places, or
with none, so the places and the values are counted in different ways. They come out the same when
every parameter is bound to as many values as it stands for: then there is one value for each
place, and it is the one that is bound there.

## Main definitions

* `Parameter.IsBound` says that a parameter is bound in the shape that it asks for.
* `Layout.seats` are the places of a layout, each as an argument and a number.
* `Bindings.valueAt?` is the value that is bound to a place.

## Main statements

* `exists_mapM_resolve_eq_ok`: arguments have values exactly if their parameters are bound.
* `map_some_of_mapM_resolve`: these are the values bound to the places, from left to right.
* `Layout.holders_seats`: the places of a layout are those of its text.
-/

namespace SqlCatalog

/-! ## Single arguments -/

/-- Whether a parameter is bound to a value, or to as many values as it counts. -/
def Parameter.IsBound (bs : Bindings) (p : Parameter) : Prop :=
  (p.count = none ∧ ∃ v, bs.get? p.name = some (.one v)) ∨
    ∃ vs, p.count = some vs.length ∧ bs.get? p.name = some (.many vs)

/-- The places of an argument, numbered from zero. -/
def Argument.seats (a : Argument) : List (Argument × Nat) := (List.range a.places).map (a, ·)

/-- The value that is bound to a place of an argument. -/
def Bindings.valueAt? (bs : Bindings) : Argument × Nat → Option Value
  | (.value v, _) => some v
  | (.parameter p, k) =>
    match bs.get? p.name with
    | some (.one v) => some v
    | some (.many vs) => vs[k]?
    | none => none

namespace Argument

variable {bs : Bindings} {a : Argument}

/-- The arguments that fill the seats of an argument are those it is expanded to. -/
theorem holders_seats (a : Argument) : a.seats.map Prod.fst = a.expanded := by
  simp [seats, expanded, Function.comp_def, List.map_const']

/-- A parameter has values exactly if they are bound to it in the shape that it asks for. -/
theorem resolve_parameter_eq_ok {p : Parameter} {vs : List Value} :
    p.resolve bs = .ok vs ↔
      (p.count = none ∧ ∃ v, bs.get? p.name = some (.one v) ∧ vs = [v]) ∨
        (p.count = some vs.length ∧ bs.get? p.name = some (.many vs)) := by
  unfold Parameter.resolve
  rcases bs.get? p.name with _ | v | ws
  · simp
  · cases p.count <;> simp [eq_comm]
  · cases p.count with
    | none => simp
    | some n =>
      by_cases hlength : ws.length = n
      · simp only [hlength, beq_self_eq_true, if_true, Except.ok.injEq, Option.some.injEq,
          Binding.many.injEq, reduceCtorEq, false_and, false_or]
        constructor
        · rintro rfl
          exact ⟨hlength.symm, rfl⟩
        · exact fun h => h.2
      · simp only [beq_eq_false_iff_ne.2 hlength, Bool.false_eq_true, if_false, reduceCtorEq,
          false_and, false_or, Option.some.injEq, Binding.many.injEq, false_iff]
        rintro ⟨rfl, rfl⟩
        exact hlength rfl

/-- An argument has values exactly if it is no parameter or a parameter that is bound. -/
theorem exists_resolve_eq_ok :
    (∃ vs, a.resolve bs = .ok vs) ↔ ∀ p, a = .parameter p → p.IsBound bs := by
  cases a with
  | value v => simp [resolve]
  | parameter p =>
    simp only [resolve, resolve_parameter_eq_ok, parameter.injEq, forall_eq']
    constructor
    · rintro ⟨vs, ⟨hcount, v, hv, -⟩ | ⟨hcount, hvs⟩⟩
      · exact .inl ⟨hcount, v, hv⟩
      · exact .inr ⟨vs, hcount, hvs⟩
    · rintro (⟨hcount, v, hv⟩ | ⟨vs, hcount, hvs⟩)
      · exact ⟨[v], .inl ⟨hcount, v, hv, rfl⟩⟩
      · exact ⟨vs, .inr ⟨hcount, hvs⟩⟩

/-- The values of an argument are those that are bound to its places. -/
theorem map_some_of_resolve {vs : List Value} (h : a.resolve bs = .ok vs) :
    vs.map some = a.seats.map bs.valueAt? := by
  cases a with
  | value v =>
    obtain rfl := Except.ok.inj h
    rfl
  | parameter p =>
    rcases resolve_parameter_eq_ok.1 h with ⟨hcount, v, hv, rfl⟩ | ⟨hcount, hvs⟩
    · simp [seats, places, hcount, Bindings.valueAt?, hv]
    · refine List.ext_getElem? fun k => ?_
      by_cases hk : k < vs.length
      · simp [seats, places, hcount, Bindings.valueAt?, hvs, hk]
      · simp [seats, places, hcount, hk]

end Argument

/-! ## Several arguments -/

section Arguments

variable {bs : Bindings} {arguments : List Argument}

/-- Arguments have values exactly if the parameters among them are bound. -/
theorem exists_mapM_resolve_eq_ok :
    (∃ vss, arguments.mapM (Argument.resolve bs) = .ok vss) ↔
      ∀ p, .parameter p ∈ arguments → p.IsBound bs := by
  induction arguments with
  | nil => simp [pure, Except.pure]
  | cons a arguments ih =>
    have hsplit : (∃ vss, (a :: arguments).mapM (Argument.resolve bs) = .ok vss) ↔
        (∃ vs, a.resolve bs = .ok vs) ∧
          ∃ vss, arguments.mapM (Argument.resolve bs) = .ok vss := by
      simp only [mapM_cons_eq_ok]
      constructor
      · rintro ⟨_, vs, vss, hvs, hvss, -⟩
        exact ⟨⟨vs, hvs⟩, vss, hvss⟩
      · rintro ⟨⟨vs, hvs⟩, vss, hvss⟩
        exact ⟨_, vs, vss, hvs, hvss, rfl⟩
    rw [hsplit, ih, Argument.exists_resolve_eq_ok]
    simp only [List.mem_cons, or_imp, forall_and, eq_comm]

/-- The values of arguments are those that are bound to their places, from left to right. -/
theorem map_some_of_mapM_resolve {vss : List (List Value)}
    (h : arguments.mapM (Argument.resolve bs) = .ok vss) :
    vss.flatten.map some = (arguments.flatMap Argument.seats).map bs.valueAt? := by
  induction arguments generalizing vss with
  | nil =>
    obtain rfl := Except.ok.inj h
    rfl
  | cons a arguments ih =>
    obtain ⟨vs, vss', hvs, hvss, rfl⟩ := mapM_cons_eq_ok.1 h
    rw [List.flatten_cons, List.map_append, Argument.map_some_of_resolve hvs, ih hvss,
      List.flatMap_cons, List.map_append]

end Arguments

/-- The values of a fragment that has values in the places of all arguments. -/
theorem Fragment.values_of_values (text : String) (vs : List Value) :
    Fragment.values ⟨text, vs.map .value⟩ = .ok vs := by
  unfold Fragment.values
  induction vs with
  | nil => rfl
  | cons v vs ih => exact mapM_cons_eq_ok.2 ⟨v, vs, rfl, ih, rfl⟩

/-! ## Layouts -/

namespace Layout

/-- The arguments of a layout, from left to right. -/
def arguments : Layout → List Argument
  | [] => []
  | .argument a :: l => a :: arguments l
  | _ :: l => arguments l

/-- The places of a layout, from left to right. -/
def seats (l : Layout) : List (Argument × Nat) := l.arguments.flatMap Argument.seats

/-- The places of a layout do not depend on how it is spelled. -/
theorem arguments_of_spell (quote : String → String) (l : Layout) (g : Speller) :
    (l.spell quote g).arguments = l.arguments := by
  induction l generalizing g with
  | nil => rfl
  | cons p l ih =>
    rw [spell_cons, Fragment.append, ih]
    cases p <;> rfl

/-- The places of a layout are those of its text. -/
theorem holders_seats (quote : String → String) (l : Layout) :
    l.seats.map Prod.fst = Mark.holders (l.marks quote) := by
  rw [← l.expanded_spell quote (.fresh (.fixed "")), arguments_of_spell, seats, List.map_flatMap]
  simp only [Argument.holders_seats]

end Layout

end SqlCatalog
