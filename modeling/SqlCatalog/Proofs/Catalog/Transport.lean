import SqlCatalog.Proofs.Catalog.Reachable

/-!
# Compiling under a change of names

A change of the names in a schema, or of the dialect it is written in, is invisible to compiling
where compiling into the changed schema gives the changed answer and the changed schema. Whether
this is so can be said step by step: it holds of what is read first, and goes on holding for what
is done then.

## Main definitions

* `Transport` is a change of errors and of schemas.
* `Transport.answer` changes what a reader gives.
* `Transport.Carries` says that one way of compiling does the same from the changed schema as
  another from the schema itself.

## Main statements

* `Transport.answer_bind`: a reader after another.
* `Transport.Carries.bind` and `Transport.Carries.read`: what is done after something else.
* `Transport.Carries.commit`: the table of a draft is added.
-/

namespace SqlCatalog

/-- A change of errors and of schemas. -/
structure Transport where
  error : CompileError → CompileError
  schema : Schema → Schema

namespace Transport

variable {α β γ δ : Type} (τ : Transport)

/-! ## Readers -/

/-- What a reader gives, with the error changed or else the result. -/
def answer (f : α → β) : Compile α → Compile β
  | .ok a => .ok (f a)
  | .error e => .error (τ.error e)

@[simp] theorem answer_ok (f : α → β) (a : α) : τ.answer f (.ok a) = .ok (f a) := rfl

@[simp] theorem answer_error (f : α → β) (e : CompileError) :
    τ.answer f (.error e) = .error (τ.error e) := rfl

/-- A change that keeps errors and results keeps the answer. -/
theorem answer_eq_self (h : ∀ e, τ.error e = e) (x : Compile α) : τ.answer id x = x := by
  cases x with
  | error e => exact congrArg _ (h e)
  | ok a => rfl

/-- A reader after another gives what is changed if both do. -/
theorem answer_bind {x : Compile α} {y : Compile β} {h : α → β} {k : γ → δ} {f : α → Compile γ}
    {g : β → Compile δ} (hx : y = τ.answer h x)
    (hf : ∀ a, x = .ok a → g (h a) = τ.answer k (f a)) : y >>= g = τ.answer k (x >>= f) := by
  subst hx
  cases x with
  | error e => rfl
  | ok a => exact hf a rfl

/-- What is read and then changed is transported when both steps are. -/
theorem answer_map {x : Compile α} {y : Compile β} {h : α → β} {k : γ → δ} {f : α → γ}
    {g : β → δ} (hx : y = τ.answer h x) (hf : ∀ a, g (h a) = k (f a)) :
    g <$> y = τ.answer k (f <$> x) := by
  subst hx
  cases x with
  | error e => rfl
  | ok a => exact congrArg Except.ok (hf a)

/-! ## Compiling -/

/-- From the changed schema `y` gives what `x` gives from `s`, and leaves the changed schema of what
`x` leaves. -/
def Carries (x y : Compiling α) (s : Schema) : Prop :=
  y.into (τ.schema s) = (τ.answer id (x.into s).1, τ.schema (x.into s).2)

namespace Carries

variable {τ : Transport} {s : Schema} {x y : Compiling α}

theorem pure {a : α} : τ.Carries (Pure.pure a) (Pure.pure a) s := rfl

theorem throw (e : CompileError) :
    τ.Carries (α := α) (MonadExcept.throw e) (MonadExcept.throw (τ.error e)) s := rfl

theorem get {f g : Schema → Compiling β} (h : τ.Carries (f s) (g (τ.schema s)) s) :
    τ.Carries (MonadState.get >>= f) (MonadState.get >>= g) s := h

theorem set (s' : Schema) :
    τ.Carries (MonadState.set s') (MonadState.set (τ.schema s')) s := rfl

/-- A first part that is carried, and what is carried after it, are carried together. -/
theorem bind {f g : α → Compiling β} (h : τ.Carries x y s)
    (hf : ∀ a s', x.into s = (.ok a, s') → τ.Carries (f a) (g a) s') :
    τ.Carries (x >>= f) (y >>= g) s := by
  unfold Carries at h ⊢
  rw [Compiling.into_bind, Compiling.into_bind, h]
  rcases hx : x.into s with ⟨e | a, s'⟩
  · rfl
  · exact hf a s' hx

theorem discard (h : τ.Carries x y s) : τ.Carries (Functor.discard x) (Functor.discard y) s :=
  h.bind fun _ _ _ => .pure

/-- What is read is changed, and what follows goes on from there. -/
theorem read {r : Compile γ} {r' : Compile δ} {h : γ → δ} {f : γ → Compiling β}
    {g : δ → Compiling β} (hr : r' = τ.answer h r)
    (hf : ∀ c, r = .ok c → τ.Carries (f c) (g (h c)) s) :
    τ.Carries (liftM r >>= f) (liftM r' >>= g) s := by
  subst hr
  cases r with
  | error e => rfl
  | ok c => exact hf c rfl

end Carries

/-- What changes the schema under one use of a sequence changes it under several. -/
theorem addUsers_schema (huser : ∀ s id user, (τ.schema s).addUser id user =
    τ.schema (s.addUser id user)) (owner : TableId) (users : List (SequenceId × Nat)) (s : Schema) :
    (τ.schema s).addUsers owner users = τ.schema (s.addUsers owner users) := by
  induction users generalizing s with
  | nil => rfl
  | cons user users ih =>
    show ((τ.schema s).addUser user.1 (owner, user.2)).addUsers owner users = _
    rw [huser]
    exact ih (s.addUser user.1 (owner, user.2))

/-- A draft is committed alike if its table is added alike and sequences take the same users. -/
theorem Carries.commit {τ : Transport} {s : Schema} {d d' : Draft} (hid : d'.table.id = d.table.id)
    (husers : d'.users = d.users)
    (huser : ∀ s id user, (τ.schema s).addUser id user = τ.schema (s.addUser id user))
    (hadd : fromCatalog ((τ.schema s).addTable d'.table) =
      τ.answer τ.schema (fromCatalog (s.addTable d.table))) : τ.Carries d.commit d'.commit s := by
  refine .get (.read hadd fun s' _ => ?_)
  refine .bind (.set s') fun _ s'' _ => ?_
  rw [hid, husers]
  show Compiling.into _ (τ.schema s'') = _
  rw [into_addUsers, into_addUsers, τ.addUsers_schema huser]
  rfl

end Transport

end SqlCatalog
