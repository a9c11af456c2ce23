import SqlCatalog.Proofs.Catalog.Comments
import SqlCatalog.Proofs.Catalog.StatementGrammar
import SqlCatalog.Proofs.Token.Levels

/-!
# Which compiler a statement goes to

The kind of a statement is found in its tokens as they are grouped, while a compiler reads flat
tokens, where lists are opened. In a statement of a source both begin with the same words: a list
stands alone, and its first token is none of these words. So a statement goes to the only compiler
that can accept it, if there is one.

## Main definitions

* `StatementKind.Begins` says which words each kind of statement begins with.
* `StatementKind.Accepts` says that a statement is accepted as one of the given kind.

## Main statements

* `kind_eq_ok`: the kind of a statement is that of its first words.
* `StatementKind.Accepts.begins`: what a compiler accepts begins with the words of its kind.
* `compileStatement_eq_ok_iff`: a statement is accepted by its own compiler, if by any.
-/

namespace SqlCatalog

/-! ## The first words -/

/-- Whether tokens begin with the words of a statement of the given kind. -/
inductive StatementKind.Begins : StatementKind → List Token → Prop
  | table {t u : Token} {ts : List Token} (ht : t.isKeyword "CREATE" = true)
      (hu : u.isKeyword "TABLE" = true) : Begins .table (t :: u :: ts)
  | sequence {t u : Token} {ts : List Token} (ht : t.isKeyword "CREATE" = true)
      (hu : u.isKeyword "SEQUENCE" = true) : Begins .sequence (t :: u :: ts)
  | index {t u : Token} {ts : List Token} (ht : t.isKeyword "CREATE" = true)
      (hu : u.isKeyword "INDEX" = true ∨ u.isKeyword "UNIQUE" = true) :
      Begins .index (t :: u :: ts)
  | seedRow {t : Token} {ts : List Token} (ht : t.isKeyword "INSERT" = true) :
      Begins .seedRow (t :: ts)
  | blank : Begins .blank []

/-- The statement is accepted as one of the given kind, and makes `s'` of `s`: the compiler of that
kind accepts it, or there are no tokens but comments. -/
inductive StatementKind.Accepts (statement : Statement) (s s' : Schema) : StatementKind → Prop
  | table {id : TableId} (h : (compileTable statement).into s = (.ok id, s')) :
      Accepts statement s s' .table
  | sequence {id : SequenceId} (h : (compileSequence statement).into s = (.ok id, s')) :
      Accepts statement s s' .sequence
  | index (h : (compileIndex statement).into s = (.ok ⟨⟩, s')) : Accepts statement s s' .index
  | seedRow (h : (compileSeedRow statement).into s = (.ok ⟨⟩, s')) : Accepts statement s s' .seedRow
  | blank (h : ∀ t ∈ statement, t.isSignificant = false) (hs : s' = s) :
      Accepts statement s s' .blank

section Dispatch

variable {statement : Statement} {kind : StatementKind} {s s' : Schema} {ts us : List Token}

/-- The kind of a statement is that of its first words. -/
theorem kind_eq_ok : StatementKind.of statement = .ok kind ↔
    kind.Begins (statement.filter Token.isSignificant) := by
  rw [StatementKind.of]
  generalize statement.filter Token.isSignificant = ts
  constructor
  · intro h
    split at h
    · obtain rfl := Except.ok.inj h
      exact .blank
    · rename_i t ts
      split at h
      · rename_i ht
        split at h
        · cases h
        · rename_i u us
          split_ifs at h with htable hsequence hindex
          · obtain rfl := Except.ok.inj h
            exact .table ht htable
          · obtain rfl := Except.ok.inj h
            exact .sequence ht hsequence
          · obtain rfl := Except.ok.inj h
            exact .index ht (by simpa using hindex)
          · cases h
      · split_ifs at h with hinsert
        obtain rfl := Except.ok.inj h
        exact .seedRow hinsert
  · intro h
    cases h with
    | table ht hu => simp [ht, hu]
    | sequence ht hu =>
      have hnot := isKeyword_eq_false hu (b := "TABLE") (by decide +kernel)
      simp [ht, hu, hnot]
    | @index t u ts ht hu =>
      have hnot : u.isKeyword "TABLE" = false ∧ u.isKeyword "SEQUENCE" = false := by
        rcases hu with hu | hu <;> constructor <;> exact isKeyword_eq_false hu (by decide +kernel)
      simp [ht, hu, hnot]
    | seedRow ht =>
      have hnot := isKeyword_eq_false ht (b := "CREATE") (by decide +kernel)
      simp [ht, hnot]
    | blank => rfl

/-- Tokens with the same keywords begin with the same words. -/
theorem StatementKind.Begins.of_sameWords (h : kind.Begins us)
    (hsame : List.Forall₂ (fun t u => ∀ word, u.isKeyword word = t.isKeyword word) ts us) :
    kind.Begins ts := by
  cases h with
  | table hfirst hsecond =>
    obtain ⟨t, _, ht, hmore, rfl⟩ := List.forall₂_cons_right_iff.1 hsame
    obtain ⟨u, _, hu, -, rfl⟩ := List.forall₂_cons_right_iff.1 hmore
    exact .table (by rw [← ht, hfirst]) (by rw [← hu, hsecond])
  | sequence hfirst hsecond =>
    obtain ⟨t, _, ht, hmore, rfl⟩ := List.forall₂_cons_right_iff.1 hsame
    obtain ⟨u, _, hu, -, rfl⟩ := List.forall₂_cons_right_iff.1 hmore
    exact .sequence (by rw [← ht, hfirst]) (by rw [← hu, hsecond])
  | index hfirst hsecond =>
    obtain ⟨t, _, ht, hmore, rfl⟩ := List.forall₂_cons_right_iff.1 hsame
    obtain ⟨u, _, hu, -, rfl⟩ := List.forall₂_cons_right_iff.1 hmore
    exact .index (by rw [← ht, hfirst]) (by rwa [← hu, ← hu])
  | seedRow hfirst =>
    obtain ⟨t, _, ht, -, rfl⟩ := List.forall₂_cons_right_iff.1 hsame
    exact .seedRow (by rw [← ht, hfirst])
  | blank =>
    obtain rfl := List.forall₂_nil_right_iff.1 hsame
    exact .blank

/-! ## Grouped and flat tokens -/

/-- A token that is no list and no comment is one flat token, which is the same keyword or none. -/
theorem exists_flattenToken {t : Token} (hlist : ∀ items, t ≠ .list items)
    (h : t.isSignificant = true) :
    ∃ u, t.flattenToken = [u] ∧ ∀ word, u.isKeyword word = t.isKeyword word := by
  cases t with
  | list items => exact absurd rfl (hlist items)
  | comment raw => cases h
  | _ => exact ⟨_, rfl, fun _ => rfl⟩

/-- Where there are no lists, the flat tokens are the tokens that are no comments, one for one. -/
theorem sameWords_flatten (h : ∀ t ∈ ts, ∀ items, t ≠ .list items) :
    List.Forall₂ (fun t u => ∀ word, u.isKeyword word = t.isKeyword word)
      (ts.filter Token.isSignificant) (Token.flatten ts) := by
  induction ts with
  | nil => exact .nil
  | cons t ts ih =>
    obtain ⟨ht, hts⟩ := List.forall_mem_cons.1 h
    rw [Token.flatten, List.filter_cons]
    split
    · rename_i hsignificant
      obtain ⟨u, hu, hword⟩ := exists_flattenToken ht hsignificant
      rw [hu]
      exact .cons hword (ih hts)
    · rename_i hcomment
      cases t with
      | comment raw => exact ih hts
      | _ => exact absurd rfl hcomment

/-- The flat tokens of a list begin with a token that no statement begins with. -/
theorem not_begins_flatten (h : isListLevel ts = true) : ¬ kind.Begins (Token.flatten ts) := by
  -- The first token that is no comment is an item, and no item is one of the words.
  have hitem {t : Token} (ht : t.isItem = true) : ∃ u, t.flattenToken = [u] ∧
      u.isKeyword "CREATE" = false ∧ u.isKeyword "INSERT" = false := by
    cases t with
    | keyword k =>
      refine ⟨_, rfl, ?_⟩
      simp only [Token.isItem, Bool.or_eq_true] at ht
      rcases ht with (ht | ht) | ht <;>
        exact ⟨isKeyword_eq_false ht (by decide +kernel), isKeyword_eq_false ht (by decide +kernel)⟩
    | identifier | integer | string | call => exact ⟨_, rfl, rfl, rfl⟩
    | _ => cases ht
  obtain ⟨hlength, hseparated⟩ := Bool.and_eq_true_iff.1 h
  obtain ⟨t, more, hfilter⟩ : ∃ t more, ts.filter Token.isSignificant = t :: more :=
    List.exists_cons_of_ne_nil fun hnil => by simp [hnil] at hlength
  have ht : t.isItem = true := by
    rw [hfilter] at hseparated
    cases more with
    | nil => exact hseparated
    | cons comma rest =>
      simp only [isCommaSeparated, Bool.and_eq_true] at hseparated
      exact hseparated.1.1
  obtain ⟨u, hu, hcreate, hinsert⟩ := hitem ht
  rw [← flatten_filter, hfilter, Token.flatten, hu, List.singleton_append]
  generalize Token.flatten more = rest
  intro hbegins
  cases hbegins with
  | table hfirst | sequence hfirst | index hfirst => simp [hcreate] at hfirst
  | seedRow hfirst => simp [hinsert] at hfirst

/-- A statement of a source has no lists on its outermost level, or it is a list. -/
theorem not_list_of_mem_statements {source : String} {script : List Statement}
    (h : statements source = .ok script) (hmem : statement ∈ script) :
    (∀ t ∈ statement, ∀ items, t ≠ .list items) ∨
      ∃ items, isListLevel items = true ∧ statement = [.list items] := by
  obtain ⟨ts, _, htokens, -⟩ := statements_eq_ok.1 h
  have hts : ∀ t ∈ ts, ∀ items, t ≠ .list items := by
    rintro t ht items rfl
    cases (tokenize_eq_ok.1 htokens).allLexical.forall_mem _ ht
  obtain ⟨level, hlevel, -, rfl | ⟨hlist, rfl⟩⟩ := exists_level htokens hts h hmem
  · refine .inl (forall_mem_groupFrom (Q := fun t => ∀ items, t ≠ .list items) (by simp) (by simp)
      (by simp) (by simp) .none fun t ht => ?_)
    cases hlevel t ht with
    | leaf hleaf => exact hleaf
    | paren => simp
  · exact .inr ⟨_, hlist, rfl⟩

/-- A statement of a source begins with the words that its flat tokens begin with. -/
theorem StatementKind.Begins.of_flatten {source : String} {script : List Statement}
    (h : statements source = .ok script) (hmem : statement ∈ script)
    (hbegins : kind.Begins (Token.flatten statement)) :
    kind.Begins (statement.filter Token.isSignificant) := by
  rcases not_list_of_mem_statements h hmem with hlist | ⟨items, hlist, rfl⟩
  · exact hbegins.of_sameWords (sameWords_flatten hlist)
  · have hflatten : Token.flatten [.list items] = Token.flatten items := by
      simp [Token.flatten, Token.flattenToken]
    rw [hflatten] at hbegins
    exact absurd hbegins (not_begins_flatten hlist)

/-! ## The compilers -/

/-- What is done after reading was read. -/
theorem Compiling.exists_ok_of_read {α β : Type} {x : Compile α} {f : Schema → α → Compiling β}
    {b : β} (h : (MonadState.get >>= fun s => liftM x >>= f s).into s = (.ok b, s')) :
    ∃ a, x = .ok a := by
  cases x with
  | error e => cases h
  | ok a => exact ⟨a, rfl⟩

theorem Compiling.exists_of_into_discard {α : Type} {x : Compiling α}
    (h : (Functor.discard x).into s = (.ok ⟨⟩, s')) : ∃ a, x.into s = (.ok a, s') := by
  have hbind : (x >>= fun _ => Pure.pure PUnit.unit).into s = (.ok ⟨⟩, s') := h
  rw [into_bind] at hbind
  rcases hx : x.into s with ⟨e | a, t⟩ <;> rw [hx] at hbind
  · cases hbind
  · exact ⟨a, congrArg (Prod.mk _) (Prod.mk.inj hbind).2⟩

/-- What spells a table definition begins as one. -/
theorem TableSyntax.Spelled.begins {x : TableSyntax} (h : x.Spelled ts) :
    StatementKind.table.Begins ts := by
  cases h with
  | call hwords | paren hwords =>
    obtain ⟨t, u, rfl, ht, hu⟩ := spellsWords_pair.1 hwords
    exact .table ht hu

theorem SpellsSequence.begins {name : String} (h : SpellsSequence name ts) :
    StatementKind.sequence.Begins ts := by
  obtain ⟨hwords, -⟩ := h
  obtain ⟨t, u, rfl, ht, hu⟩ := spellsWords_pair.1 hwords
  exact .sequence ht hu

theorem IndexHead.Spelled.begins {d : IndexHead} (h : d.Spelled ts) :
    StatementKind.index.Begins ts := by
  obtain ⟨hwords, -⟩ := h
  rw [IndexHead.words] at hwords
  split at hwords
  · obtain ⟨t, _, rfl, ht, hwords⟩ := spellsWords_cons.1 hwords
    obtain ⟨u, v, rfl, hu, -⟩ := spellsWords_pair.1 hwords
    exact .index ht (.inr hu)
  · obtain ⟨t, u, rfl, ht, hu⟩ := spellsWords_pair.1 hwords
    exact .index ht (.inl hu)

theorem SeedRowDefinition.Spelled.begins {d : SeedRowDefinition} (h : d.Spelled ts) :
    StatementKind.seedRow.Begins ts := by
  obtain ⟨hwords, -⟩ := h
  obtain ⟨t, u, rfl, ht, -⟩ := spellsWords_pair.1 hwords
  exact .seedRow ht

/-- What a compiler accepts begins with the words of its kind. -/
theorem StatementKind.Accepts.begins (h : kind.Accepts statement s s') :
    kind.Begins (Token.flatten statement) := by
  cases h with
  | table h =>
    obtain ⟨x, hspelled, -⟩ := spelled_of_into_compileTable h
    exact hspelled.begins
  | sequence h =>
    obtain ⟨name, hread⟩ := Compiling.exists_ok_of_read h
    exact (readSequenceDefinition_eq_ok.1 hread).begins
  | index h =>
    obtain ⟨d, hread⟩ := Compiling.exists_ok_of_read h
    exact (readIndexHead_eq_ok.1 hread).begins
  | seedRow h =>
    obtain ⟨d, hread⟩ := Compiling.exists_ok_of_read h
    exact (readSeedRow_eq_ok.1 hread).begins
  | blank h =>
    have hnil : statement.filter Token.isSignificant = [] := by simpa using h
    rw [← flatten_filter, hnil]
    exact .blank

/-- What is accepted as a statement of its own kind is accepted by the compiler of that kind. -/
theorem accepts_of_compile (hof : StatementKind.of statement = .ok kind)
    (h : (kind.compile statement).into s = (.ok ⟨⟩, s')) : kind.Accepts statement s s' := by
  cases kind with
  | table =>
    obtain ⟨id, hid⟩ := Compiling.exists_of_into_discard h
    exact .table hid
  | sequence =>
    obtain ⟨id, hid⟩ := Compiling.exists_of_into_discard h
    exact .sequence hid
  | index => exact .index h
  | seedRow => exact .seedRow h
  | blank =>
    have hbegins := kind_eq_ok.1 hof
    generalize hfilter : statement.filter Token.isSignificant = ts at hbegins
    cases hbegins
    exact .blank (by simpa using hfilter) (Prod.mk.inj h).2.symm

/-- A statement of a source is accepted exactly if the compiler of some kind accepts it, or it is
nothing but comments, and it makes the same schema then. Which compiler that is depends on the
statement alone. -/
theorem compileStatement_eq_ok_iff {source : String} {script : List Statement}
    (h : statements source = .ok script) (hmem : statement ∈ script) :
    (∀ s s', (compileStatement statement).into s = (.ok ⟨⟩, s') ↔
      ∃ kind : StatementKind, kind.Accepts statement s s') ∧
    ∀ (kind kind' : StatementKind) (s s' t t' : Schema),
      kind.Accepts statement s s' → kind'.Accepts statement t t' → kind = kind' := by
  have hkind {kind : StatementKind} {s s' : Schema} (haccepts : kind.Accepts statement s s') :
      StatementKind.of statement = .ok kind := kind_eq_ok.2 (haccepts.begins.of_flatten h hmem)
  refine ⟨fun s s' => ⟨fun hdone => ?_, fun ⟨kind, haccepts⟩ => ?_⟩, ?_⟩
  · rw [into_compileStatement] at hdone
    cases hof : StatementKind.of statement with
    | error e =>
      rw [hof] at hdone
      cases hdone
    | ok kind =>
      rw [hof] at hdone
      exact ⟨kind, accepts_of_compile hof hdone⟩
  · rw [into_compileStatement, hkind haccepts]
    cases haccepts with
    | table h => exact Compiling.into_discard h
    | sequence h => exact Compiling.into_discard h
    | index h => exact h
    | seedRow h => exact h
    | blank _ hs =>
      rw [hs]
      rfl
  · intro kind kind' s s' t t' haccepts haccepts'
    exact Except.ok.inj ((hkind haccepts).symm.trans (hkind haccepts'))

end Dispatch

/-- A statement with comments between its words, and one that is nothing else. -/
theorem compileStatement_eq_ok_iff_commented :
    let source := "create /*a*/ sequence --b\nq; --c"
    let define : Statement := [.keyword "CREATE", .comment "/*a*/", .keyword "SEQUENCE",
      .comment "--b\n", .identifier [.name "q"]]
    let blank : Statement := [.comment "--c"]
    statements source = .ok [define, blank] ∧ ∀ statement ∈ [define, blank],
      (∀ s s', (compileStatement statement).into s = (.ok ⟨⟩, s') ↔
        ∃ kind : StatementKind, kind.Accepts statement s s') ∧
      ∀ (kind kind' : StatementKind) (s s' t t' : Schema),
        kind.Accepts statement s s' → kind'.Accepts statement t t' → kind = kind' := by
  intro source define blank
  have hscript : statements source = .ok [define, blank] :=
    toOption_eq_some.1 (by decide +kernel)
  exact ⟨hscript, fun _ hmem => compileStatement_eq_ok_iff hscript hmem⟩

end SqlCatalog
