import SqlCatalog.Proofs.Query.Binding
import SqlCatalog.Query.Execution

/-!
# Calls to the server

A statement that is run is handed to the executor once, and only when every parameter in it is
bound. What is handed over is the text of the statement with a place for each value, and the value
at each position is the one that is bound to the place with that number. The executor's answer is
passed on, and its state is what this one call leaves.

## Main definitions

* `Executor.recorded` keeps a list of the calls that are made to an executor.
* `QueryStatement.IsBound` says that every parameter of a statement is bound.

## Main statements

* `exists_call_eq_ok`, `arguments_of_call`: when a statement makes a call, and which one.
* `run_recorded`: the calls that running a statement makes, and what comes of them.
-/

namespace SqlCatalog

variable {σ : Type}

/-- The executor with a list of the calls that were made to it. -/
def Executor.recorded (x : Executor σ) : Executor (List Call × σ) where
  dialect := x.dialect
  placeholder := x.placeholder
  execute c st := let answer := x.execute c st.2; (answer.1, st.1 ++ [c], answer.2)

/-- The places of a speller that has not spelled any yet are numbered from one. -/
theorem Speller.places_fresh (p : Placeholder) (n : Nat) :
    (Speller.fresh p).places n = (List.range n).map fun k => p.spell (k + 1) := by
  simp [Speller.places, Speller.fresh, Speller.after, Speller.next]

namespace QueryStatement

variable {s : QueryStatement} {bs : Bindings} {x : Executor σ}

/-- Whether every parameter of the statement is bound in the shape that it asks for. -/
def IsBound (bs : Bindings) (s : QueryStatement) : Prop :=
  ∀ p, .parameter p ∈ s.layout.arguments → p.IsBound bs

instance (bs : Bindings) (s : QueryStatement) : Decidable (s.IsBound bs) :=
  decidable_of_iff ((s.layout.arguments.mapM (Argument.resolve bs)).isOk = true) <| by
    rw [IsBound, ← exists_mapM_resolve_eq_ok]
    cases s.layout.arguments.mapM (Argument.resolve bs) <;> simp [Except.isOk, Except.toBool]

/-- The arguments of a statement are those of its layout, whatever the style. -/
theorem arguments_fragment (style : Style) (s : QueryStatement) :
    (s.fragment style).arguments = s.layout.arguments := by
  have hfragment : s.fragment style = s.layout.spell style.quote (.fresh style.placeholder) :=
    congrArg Prod.fst (renderAnew_eq style.quote s (.fresh style.placeholder))
  rw [hfragment, Layout.arguments_of_spell]

/-- The text of a statement is its marks filled with the places of the style. -/
theorem text_fragment (style : Style) (s : QueryStatement) :
    let marks := s.layout.marks style.quote
    (s.fragment style).text =
      Mark.fill marks ((Speller.fresh style.placeholder).places (Mark.holders marks).length) := by
  intro marks
  have hfragment : s.fragment style = s.layout.spell style.quote (.fresh style.placeholder) :=
    congrArg Prod.fst (renderAnew_eq style.quote s (.fresh style.placeholder))
  rw [hfragment, Layout.text_spell, Layout.length_holders_marks]

/-- A statement is handed over with its text and the values of its arguments. -/
theorem call_eq (x : Executor σ) (bs : Bindings) (failOnNoRows : Bool) (s : QueryStatement) :
    s.call x bs failOnNoRows =
      (fun vss => ⟨(s.fragment (styleFor x)).text, vss.flatten, failOnNoRows⟩) <$>
        s.layout.arguments.mapM (Argument.resolve bs) := by
  rw [call, Fragment.bind, arguments_fragment]
  cases s.layout.arguments.mapM (Argument.resolve bs) with
  | error e => rfl
  | ok vss =>
    simp only [bind, Except.bind, pure, Except.pure, Fragment.values_of_values, Functor.map,
      Except.map]

/-- A statement makes a call exactly if its parameters are bound. -/
theorem exists_call_eq_ok {failOnNoRows : Bool} :
    (∃ c, s.call x bs failOnNoRows = .ok c) ↔ s.IsBound bs := by
  rw [IsBound, ← exists_mapM_resolve_eq_ok, call_eq]
  cases s.layout.arguments.mapM (Argument.resolve bs) <;> simp [Functor.map, Except.map]

/-- The call of a statement has a value for each place of its text, the one that is bound there. -/
theorem arguments_of_call {failOnNoRows : Bool} {c : Call}
    (h : s.call x bs failOnNoRows = .ok c) :
    c.sql = (s.fragment (styleFor x)).text ∧ c.failOnNoRows = failOnNoRows ∧
      c.arguments.map some = s.layout.seats.map bs.valueAt? := by
  rw [call_eq] at h
  cases hvss : s.layout.arguments.mapM (Argument.resolve bs) with
  | error e => rw [hvss] at h; cases h
  | ok vss =>
    rw [hvss] at h
    obtain rfl := Except.ok.inj h
    exact ⟨rfl, rfl, map_some_of_mapM_resolve hvss⟩

/-- Running a statement calls the executor once if every parameter of the statement is bound, and
does not call it otherwise. What is called for is the statement's text in the executor's style,
with as many values as places, at each position the value that is bound to the place there. Whether
it fails without rows is what was asked for, and the answer and the state are the executor's. -/
theorem run_recorded (x : Executor σ) (bs : Bindings) (failOnNoRows : Bool) (s : QueryStatement)
    (calls : List Call) (st : σ) :
    let seats := s.layout.seats
    let holders := Mark.holders (s.layout.marks quoteName)
    let ran := s.run x.recorded bs failOnNoRows (calls, st)
    s.run x bs failOnNoRows st = (ran.1, ran.2.2) ∧
      (s.IsBound bs → ∃ c,
        ran = ((x.execute c st).1.mapError .execution, calls ++ [c], (x.execute c st).2) ∧
          c.failOnNoRows = failOnNoRows ∧
          (∀ used, c.sql = (s.renderAnew quoteName ⟨x.placeholder, used⟩).1.text) ∧
          c.sql = Mark.fill (s.layout.marks quoteName)
            ((List.range holders.length).map fun k => x.placeholder.spell (k + 1)) ∧
          seats.map Prod.fst = holders ∧ c.arguments.length = holders.length ∧
          c.arguments.map some = seats.map bs.valueAt?) ∧
      (¬ s.IsBound bs → ∃ e, ran = (.error e, calls, st)) := by
  intro seats holders ran
  have hsame : s.call x.recorded bs failOnNoRows = s.call x bs failOnNoRows := rfl
  have hbound : (∃ c, s.call x bs failOnNoRows = .ok c) ↔ s.IsBound bs := exists_call_eq_ok
  cases hcall : s.call x bs failOnNoRows with
  | error e =>
    have hran : ran = (.error e, calls, st) := by
      simp only [ran, run, hsame, hcall]
      rfl
    have hfree : s.run x bs failOnNoRows st = (.error e, st) := by
      simp only [run, hcall]
      rfl
    refine ⟨by rw [hran, hfree], fun h => ?_, fun _ => ⟨e, hran⟩⟩
    obtain ⟨c, hc⟩ := hbound.2 h
    rw [hcall] at hc
    cases hc
  | ok c =>
    have hran : ran =
        ((x.execute c st).1.mapError .execution, calls ++ [c], (x.execute c st).2) := by
      simp only [ran, run, hsame, hcall]
      rfl
    have hfree : s.run x bs failOnNoRows st =
        ((x.execute c st).1.mapError .execution, (x.execute c st).2) := by
      simp only [run, hcall]
      rfl
    obtain ⟨hsql, hfail, hvalues⟩ := arguments_of_call hcall
    have hseats : seats.map Prod.fst = holders := s.layout.holders_seats quoteName
    have hlength : c.arguments.length = holders.length := by
      have := congrArg List.length hvalues
      rw [List.length_map, List.length_map] at this
      rw [this, ← hseats, List.length_map]
    refine ⟨by rw [hran, hfree], fun _ => ⟨c, hran, hfail, fun used => ?_, ?_, hseats, hlength,
      hvalues⟩, fun h => absurd (hbound.1 ⟨c, hcall⟩) h⟩
    · exact hsql
    · rw [hsql, text_fragment, Speller.places_fresh]
      rfl

end QueryStatement

/-! ### A statement with parameters for several values -/

/-- A table with one column. -/
def oneColumn : Table :=
  { Table.empty 0 "t" with columns := [⟨"x", 0, 0, ⟨"integer", none⟩, none, none, none⟩] }

/-- A statement in which one parameter stands for two values, at two places, and one for none. -/
def deleteTwice : QueryStatement :=
  let x := Expression.column ⟨oneColumn, ⟨"x", 0, 0, ⟨"integer", none⟩, none, none, none⟩⟩
  .delete oneColumn (((x.isIn (.parameter ⟨"ids", some 2⟩)).and
    (x.notIn (.parameter ⟨"none", some 0⟩))).or (x.isIn (.parameter ⟨"ids", some 2⟩))) []

/-- An executor that answers with the number of the call. -/
def numbering : Executor Nat where
  dialect := .oracle
  placeholder := .numbered ":"
  execute _ n := (.ok [[.int (.ofNat n)]], n + 1)

/-- The values of the parameter are handed over at each of its places; with one value too few
nothing is handed over. -/
theorem run_recorded_deleteTwice :
    let bs : List Value → Bindings := fun ids => [("ids", .many ids), ("none", .many [])]
    (∃ c, deleteTwice.run numbering.recorded (bs [.int 7, .null]) true ([], 4) =
        (.ok [[.int 4]], [c], 5) ∧
      c.sql = "delete from t where x in (:1, :2) and x not in () or x in (:3, :4)" ∧
      c.arguments.map some = [some (.int 7), some .null, some (.int 7), some .null]) ∧
    ∃ e, deleteTwice.run numbering.recorded (bs [.int 7]) true ([], 4) = (.error e, [], 4) := by
  intro bs
  obtain ⟨-, hbound, -⟩ :=
    QueryStatement.run_recorded numbering (bs [.int 7, .null]) true deleteTwice [] 4
  obtain ⟨-, -, hunbound⟩ :=
    QueryStatement.run_recorded numbering (bs [.int 7]) true deleteTwice [] 4
  obtain ⟨c, hran, -, -, hsql, -, -, hvalues⟩ := hbound (by decide +kernel)
  refine ⟨⟨c, hran, hsql.trans (by decide +kernel), hvalues.trans (by decide +kernel)⟩,
    hunbound (by decide +kernel)⟩

end SqlCatalog
