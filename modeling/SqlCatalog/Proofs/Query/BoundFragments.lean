import SqlCatalog.Proofs.Query.Binding

/-!
# Bound fragments

Binding goes through the arguments of a fragment from left to right and stops at the first
parameter that is not bound as it asks. What comes out keeps the text and has a value for each
place, so that there is nothing left to bind. Arguments are looked at one by one, so that fragments
can be bound before or after they are put together.

## Main definitions

* `Parameter.Fault` says what is wrong with the binding of a parameter.
* `Fragment.places` is the number of places of a fragment.

## Main statements

* `resolve_parameter_eq_error`: a parameter has no values exactly if its binding has a fault.
* `Fragment.bind_append`, `Fragment.bind_bound`: binding parts, and binding again.
* `bind_by_parameters`: when a fragment can be bound, which error it gives otherwise, and what a
  bound fragment is.
-/

namespace SqlCatalog

/-! ## Faults -/

/-- What is wrong with the binding of a parameter: there is none, a list has the wrong length, or
a list stands for a single value or a single value for a list. -/
inductive Parameter.Fault (bs : Bindings) (p : Parameter) : QueryError → Prop
  | unbound (hget : bs.get? p.name = none) : Fault bs p (.unboundParameter p.name)
  | length {n : Nat} {vs : List Value} (hcount : p.count = some n)
      (hget : bs.get? p.name = some (.many vs)) (hlength : vs.length ≠ n) :
      Fault bs p (.parameterCount p.name n vs.length)
  | list {vs : List Value} (hcount : p.count = none) (hget : bs.get? p.name = some (.many vs)) :
      Fault bs p (.wrongShape p.name)
  | single {n : Nat} {v : Value} (hcount : p.count = some n)
      (hget : bs.get? p.name = some (.one v)) : Fault bs p (.wrongShape p.name)

namespace Argument

variable {bs : Bindings} {a : Argument} {e : QueryError}

/-- A parameter has no values exactly if there is a fault in its binding, which is the error. -/
theorem resolve_parameter_eq_error {p : Parameter} : p.resolve bs = .error e ↔ p.Fault bs e := by
  constructor
  · intro h
    rw [Parameter.resolve] at h
    rcases hget : bs.get? p.name with _ | v | vs <;> rw [hget] at h
    · obtain rfl := Except.error.inj h
      exact .unbound hget
    · rcases hcount : p.count with _ | n <;> rw [hcount] at h
      · cases h
      · obtain rfl := Except.error.inj h
        exact .single hcount hget
    · rcases hcount : p.count with _ | n <;> rw [hcount] at h
      · obtain rfl := Except.error.inj h
        exact .list hcount hget
      · by_cases hlength : vs.length = n
        · simp [hlength] at h
        · simp only [beq_eq_false_iff_ne.2 hlength, Bool.false_eq_true, if_false] at h
          obtain rfl := Except.error.inj h
          exact .length hcount hget hlength
  · rintro (hget | ⟨hcount, hget, hlength⟩ | ⟨hcount, hget⟩ | ⟨hcount, hget⟩)
    · simp [Parameter.resolve, hget]
    · simp [Parameter.resolve, hget, hcount, hlength]
    · simp [Parameter.resolve, hget, hcount]
    · simp [Parameter.resolve, hget, hcount]

/-- An argument has no values exactly if it is a parameter with a fault in its binding. -/
theorem resolve_eq_error : a.resolve bs = .error e ↔ ∃ p, a = .parameter p ∧ p.Fault bs e := by
  cases a with
  | value v => simp [resolve]
  | parameter p => simp [resolve, resolve_parameter_eq_error]

theorem length_seats (a : Argument) : a.seats.length = a.places := by
  simp [seats]

end Argument

/-! ## Fragments -/

namespace Fragment

variable {f g : Fragment} {bs : Bindings}

/-- The number of places of a fragment: one for a value or a parameter for one value, and as many
as it counts for a parameter for several. -/
def places (f : Fragment) : Nat := (f.arguments.map Argument.places).foldr (· + ·) 0

theorem length_seats (arguments : List Argument) : (arguments.flatMap Argument.seats).length =
    (arguments.map Argument.places).foldr (· + ·) 0 := by
  induction arguments with
  | nil => rfl
  | cons a arguments ih => rw [List.flatMap_cons, List.length_append, a.length_seats, ih]; rfl

/-- Binding keeps the text and has the values of all arguments, if all have values. -/
theorem bind_eq_map (f : Fragment) (bs : Bindings) :
    f.bind bs = (fun vss => ⟨f.text, vss.flatten.map .value⟩) <$>
      f.arguments.mapM (Argument.resolve bs) := by
  rw [bind]
  cases f.arguments.mapM (Argument.resolve bs) <;> rfl

/-- A fragment is bound exactly when each of its arguments is resolved, with their values in
order. -/
theorem bind_eq_ok {b : Fragment} : f.bind bs = .ok b ↔
    ∃ vss, f.arguments.mapM (Argument.resolve bs) = .ok vss ∧
      ⟨f.text, vss.flatten.map .value⟩ = b := by
  rw [bind_eq_map]
  cases f.arguments.mapM (Argument.resolve bs) <;> simp [Functor.map, Except.map]

/-- A fragment fails to be bound exactly with the error of its arguments. -/
theorem bind_eq_error {e : QueryError} : f.bind bs = .error e ↔
    f.arguments.mapM (Argument.resolve bs) = .error e := by
  rw [bind_eq_map]
  cases f.arguments.mapM (Argument.resolve bs) <;> simp [Functor.map, Except.map]

/-- The values of values, whatever is bound. -/
theorem mapM_resolve_values (bs : Bindings) (vs : List Value) :
    (vs.map Argument.value).mapM (Argument.resolve bs) = .ok (vs.map fun v => [v]) := by
  induction vs with
  | nil => rfl
  | cons v vs ih => exact mapM_cons_eq_ok.2 ⟨[v], vs.map fun v => [v], rfl, ih, rfl⟩

/-- A fragment that has values only stays as it is when it is bound. -/
theorem bind_bound (text : String) (vs : List Value) (bs : Bindings) :
    bind ⟨text, vs.map .value⟩ bs = .ok ⟨text, vs.map .value⟩ := by
  refine bind_eq_ok.2 ⟨_, mapM_resolve_values bs vs, ?_⟩
  rw [← List.flatMap_def, List.flatMap_singleton']

/-- Two fragments in a row are bound one after the other. -/
theorem bind_append (f g : Fragment) (bs : Bindings) : (f.append g).bind bs = (do
    let b ← f.bind bs
    let c ← g.bind bs
    return b.append c) := by
  rw [bind_eq_map, bind_eq_map, bind_eq_map, append, List.mapM_append]
  cases f.arguments.mapM (Argument.resolve bs) with
  | error e => rfl
  | ok vss =>
    cases g.arguments.mapM (Argument.resolve bs) with
    | error e => rfl
    | ok wss => simp [Bind.bind, Except.bind, Functor.map, Except.map, pure, Except.pure, append]

end Fragment

/-- A fragment can be bound exactly if each of its parameters is bound to a value, or to as many
values as it counts. Otherwise the error is the fault of the first parameter that is not. A bound
fragment has the same text and one value for each place, the one that is bound there, and binding
it again changes nothing. Two fragments in a row are bound one after the other. -/
theorem bind_by_parameters (f g : Fragment) (bs : Bindings) :
    ((∃ b, f.bind bs = .ok b) ↔ ∀ p, .parameter p ∈ f.arguments → p.IsBound bs) ∧
    (∀ e, f.bind bs = .error e ↔
      ∃ before p after, f.arguments = before ++ .parameter p :: after ∧
        (∀ q, .parameter q ∈ before → q.IsBound bs) ∧ p.Fault bs e) ∧
    (∀ b, f.bind bs = .ok b → b.text = f.text ∧
      (∃ vs, b.values = .ok vs ∧ vs.length = f.places ∧
        vs.map some = (f.arguments.flatMap Argument.seats).map bs.valueAt?) ∧
      ∀ bs', b.bind bs' = .ok b) ∧
    (f.append g).bind bs = (do
      let b ← f.bind bs
      let c ← g.bind bs
      return b.append c) := by
  have hbound (arguments : List Argument) :
      (∀ a ∈ arguments, ∃ vs, a.resolve bs = .ok vs) ↔
        ∀ p, .parameter p ∈ arguments → p.IsBound bs := by
    simp only [Argument.exists_resolve_eq_ok]
    constructor
    · intro h p hp
      exact h _ hp p rfl
    · rintro h a ha p rfl
      exact h p ha
  refine ⟨?_, fun e => ?_, fun b hb => ?_, Fragment.bind_append f g bs⟩
  · rw [← exists_mapM_resolve_eq_ok]
    constructor
    · rintro ⟨b, hb⟩
      obtain ⟨vss, hvss, -⟩ := Fragment.bind_eq_ok.1 hb
      exact ⟨vss, hvss⟩
    · rintro ⟨vss, hvss⟩
      exact ⟨_, Fragment.bind_eq_ok.2 ⟨vss, hvss, rfl⟩⟩
  · rw [Fragment.bind_eq_error, mapM_eq_error]
    constructor
    · rintro ⟨before, a, after, harguments, hbefore, ha⟩
      obtain ⟨p, rfl, hp⟩ := Argument.resolve_eq_error.1 ha
      exact ⟨before, p, after, harguments, (hbound before).1 hbefore, hp⟩
    · rintro ⟨before, p, after, harguments, hbefore, hp⟩
      exact ⟨before, _, after, harguments, (hbound before).2 hbefore,
        Argument.resolve_eq_error.2 ⟨p, rfl, hp⟩⟩
  · obtain ⟨vss, hvss, rfl⟩ := Fragment.bind_eq_ok.1 hb
    have hvalues := map_some_of_mapM_resolve hvss
    refine ⟨rfl, ⟨vss.flatten, Fragment.values_of_values _ _, ?_, hvalues⟩,
      fun bs' => Fragment.bind_bound _ _ bs'⟩
    have hlength := congrArg List.length hvalues
    rwa [List.length_map, List.length_map, Fragment.length_seats] at hlength

/-- A condition on a list of two values and on a single value. -/
def twoAndOne : Fragment :=
  ⟨"a in (%s, %s) and b = %s", [.parameter ⟨"ids", some 2⟩, .parameter ⟨"name", none⟩]⟩

/-- Bound as its parameters ask, the condition gets three values and is not bound any further; of
two faults in its binding the first one counts. -/
theorem bind_twoAndOne :
    (∃ b vs, twoAndOne.bind [("name", .one (.text "x")), ("ids", .many [.int 1, .int 2])] = .ok b ∧
      b.values = .ok vs ∧ vs.length = 3 ∧ b.bind [] = .ok b) ∧
    twoAndOne.bind [("ids", .many [.int 1])] = .error (.parameterCount "ids" 2 1) := by
  constructor
  · obtain ⟨hiff, -, hvalues, -⟩ := bind_by_parameters twoAndOne .empty
      [("name", .one (.text "x")), ("ids", .many [.int 1, .int 2])]
    have hparameters : ∀ p, .parameter p ∈ twoAndOne.arguments → p.IsBound
        [("name", .one (.text "x")), ("ids", .many [.int 1, .int 2])] := by
      intro p hp
      rcases List.mem_cons.1 hp with hp | hp
      · obtain rfl := Argument.parameter.inj hp
        exact .inr ⟨[.int 1, .int 2], rfl, rfl⟩
      · obtain rfl := Argument.parameter.inj (List.mem_singleton.1 hp)
        exact .inl ⟨rfl, .text "x", rfl⟩
    obtain ⟨b, hb⟩ := hiff.2 hparameters
    obtain ⟨-, ⟨vs, hvs, hlength, -⟩, hagain⟩ := hvalues b hb
    exact ⟨b, vs, hb, hvs, hlength, hagain []⟩
  · obtain ⟨-, herror, -⟩ := bind_by_parameters twoAndOne .empty [("ids", .many [.int 1])]
    refine (herror _).2 ⟨[], ⟨"ids", some 2⟩, [.parameter ⟨"name", none⟩], rfl, by simp, ?_⟩
    have hfault : Parameter.Fault [("ids", .many [.int 1])] ⟨"ids", some 2⟩
        (.parameterCount "ids" 2 [Value.int 1].length) := .length rfl rfl (by decide)
    exact hfault

end SqlCatalog
