import SqlCatalog.Proofs.Catalog.Refusals
import SqlCatalog.Proofs.Catalog.StatementGrammar
import SqlCatalog.Proofs.Catalog.TableGrammar
import SqlCatalog.Proofs.Definition.ItemTokens

/-!
# The column lists of references

A reference can carry a list of columns of the table that it refers to. The list is read over: it
can be left out, put in or replaced by any other, and the definition is accepted as it was and makes
the same schema of the schema. So nothing keeps the list from naming columns that are not there,
whereas all other lists of columns are looked up.

## Main definitions

* `SameButLists` relates bodies that differ in the lists of their references.
* `CarriesList` says which lists the references of a body carry, and `Schema.NamesColumns` that a
  list names columns of a table.

## Main statements

* `SpellsItems.sameButLists`: a body spells the same parts with other lists.
* `reference_lists_ignored`: which lists are checked and which are not.
* `reference_list_not_checked`: a list with a column that is not there.
-/

namespace SqlCatalog

/-! ## Bodies with other lists -/

/-- The tokens are the same, but that the lists of references can be others or left out. -/
inductive SameButLists : List Token → List Token → Prop
  | nil : SameButLists [] []
  | cons (t : Token) {ts us : List Token} (h : SameButLists ts us) :
      SameButLists (t :: ts) (t :: us)
  | target {n : String} {k t u : Token} {ts us : List Token} (hk : k.isKeyword "REFERENCES" = true)
      (ht : SpellsTarget n t) (hu : SpellsTarget n u) (h : SameButLists ts us) :
      SameButLists (k :: t :: ts) (k :: u :: us)

section Lists

variable {t : Token} {ts us vs : List Token}

theorem SameButLists.symm (h : SameButLists ts us) : SameButLists us ts := by
  induction h with
  | nil => exact .nil
  | cons t _ ih => exact .cons t ih
  | target hk ht hu _ ih => exact .target hk hu ht ih

/-- No reference begins among the tokens. -/
def NoReferences (ts : List Token) : Prop := ∀ t ∈ ts, t.isKeyword "REFERENCES" = false

/-- Tokens without references are the same. -/
theorem SameButLists.append_left (h : SameButLists (ts ++ us) vs) (hts : NoReferences ts) :
    ∃ ws, vs = ts ++ ws ∧ SameButLists us ws := by
  induction ts generalizing vs with
  | nil => exact ⟨vs, rfl, h⟩
  | cons t ts ih =>
    obtain ⟨ht, hts⟩ := List.forall_mem_cons.1 hts
    generalize hall : t :: ts ++ us = all at h
    cases h with
    | nil => cases hall
    | cons _ hrest =>
      obtain ⟨rfl, rfl⟩ := List.cons.inj hall
      obtain ⟨ws, rfl, hws⟩ := ih hrest hts
      exact ⟨ws, rfl, hws⟩
    | target hk =>
      obtain ⟨rfl, -⟩ := List.cons.inj hall
      rw [ht] at hk
      cases hk

/-! ### Parts without references -/

theorem SpellsWords.noReferences {words : List String} (h : SpellsWords words ts)
    (hwords : ∀ word ∈ words, sameIgnoringAsciiCase word "REFERENCES" = false) :
    NoReferences ts := by
  induction h with
  | nil => simp [NoReferences]
  | cons ht _ ih =>
    obtain ⟨hword, hwords⟩ := List.forall_mem_cons.1 hwords
    exact List.forall_mem_cons.2 ⟨isKeyword_eq_false ht hword, ih hwords⟩

theorem ColumnType.Spelled.noReferences {type : ColumnType} (h : type.Spelled ts) :
    NoReferences ts := fun t ht =>
  startsClause_eq_false_iff.1 (h.not_startsClause t ht) _ (by decide)

/-- The keyword of references is no literal. -/
theorem isKeyword_of_literal? {v : Compile Value} (h : literal? t = some v) :
    t.isKeyword "REFERENCES" = false := by
  refine Bool.eq_false_iff.2 fun hk => ?_
  have hword (word : String) (hword : sameIgnoringAsciiCase "REFERENCES" word = false) :
      t.isKeyword word = false := isKeyword_eq_false hk hword
  cases t with
  | keyword k =>
    simp [literal?, hword "NULL" (by decide +kernel), hword "TRUE" (by decide +kernel),
      hword "FALSE" (by decide +kernel)] at h
  | _ => cases hk

theorem DefaultSyntax.Spelled.isKeyword {v : DefaultSyntax} (h : v.Spelled t) :
    t.isKeyword "REFERENCES" = false := by
  cases h with
  | null h => exact isKeyword_eq_false h (by decide +kernel)
  | literal _ h => exact isKeyword_of_literal? h
  | next | procedure => rfl

theorem SpellsTarget.isKeyword {n : String} (h : SpellsTarget n t) (word : String) :
    t.isKeyword word = false := by
  cases h with
  | name h => exact isKeyword_of_name? h word
  | call => rfl

/-- A token refers to one table. -/
theorem SpellsTarget.eq {n m : String} (h : SpellsTarget n t) (h' : SpellsTarget m t) : n = m := by
  cases h with
  | name h =>
    cases h' with
    | name h' => exact Option.some.inj (h.symm.trans h')
    | call => cases h
  | call h =>
    cases h' with
    | name h' => cases h'
    | call h' => exact (Prod.mk.inj (Option.some.inj (h.symm.trans h'))).1

theorem RuleSyntax.Spelled.noReferences {r : RuleSyntax} (h : r.Spelled ts) : NoReferences ts := by
  have words {ks : List Token} {words : List String} (h : SpellsWords words ks)
      (hwords : ∀ word ∈ words, sameIgnoringAsciiCase word "REFERENCES" = false)
      (inner : List Token) : NoReferences (ks ++ [.paren inner]) :=
    List.forall_mem_append.2 ⟨h.noReferences hwords, by simp [Token.isKeyword]⟩
  cases h with
  | primaryKey h _ => exact words h (by decide +kernel) _
  | unique hk _ => exact words (spellsWords_singleton.2 ⟨_, rfl, hk⟩) (by decide +kernel) _
  | check hk _ => exact words (spellsWords_singleton.2 ⟨_, rfl, hk⟩) (by decide +kernel) _

theorem SpellsConstraintName.noReferences {name : Option String}
    (h : SpellsConstraintName name ts) : NoReferences ts := by
  cases h with
  | none => simp [NoReferences]
  | some hk h =>
    simpa [NoReferences] using
      ⟨isKeyword_eq_false hk (by decide +kernel), isKeyword_of_name? h "REFERENCES"⟩

/-! ### What other lists leave as it is -/

/-- A clause is the same with other lists. -/
theorem ClauseSyntax.Spelled.sameButLists {c : ClauseSyntax} (hc : c.Spelled ts)
    (h : SameButLists (ts ++ us) vs) :
    ∃ ts' ws, vs = ts' ++ ws ∧ c.Spelled ts' ∧ SameButLists us ws := by
  have fixed (hts : NoReferences ts) :
      ∃ ts' ws, vs = ts' ++ ws ∧ c.Spelled ts' ∧ SameButLists us ws := by
    obtain ⟨ws, rfl, hws⟩ := h.append_left hts
    exact ⟨ts, ws, rfl, hc, hws⟩
  cases hc with
  | primaryKey hts | unique hts | notNull hts | null hts =>
    exact fixed (hts.noReferences (by decide +kernel))
  | @onDelete action ts hts =>
    exact fixed (hts.noReferences (by cases action <;> decide +kernel))
  | check hk _ | defaultInside hk _ =>
    exact fixed (by simpa [NoReferences] using ⟨isKeyword_eq_false hk (by decide +kernel), rfl⟩)
  | default hk hv =>
    exact fixed (by simpa [NoReferences] using
      ⟨isKeyword_eq_false hk (by decide +kernel), hv.isKeyword⟩)
  | @references n k t hk ht =>
    -- The target itself may be another token, but one for the same table.
    cases h with
    | cons _ h =>
      cases h with
      | @cons _ _ ws h => exact ⟨[k, t], ws, rfl, .references hk ht, h⟩
      | target hk' => rw [ht.isKeyword] at hk'; cases hk'
    | @target m _ _ u _ ws _ ht' hu h =>
      exact ⟨[k, u], ws, rfl, .references hk (ht.eq ht' ▸ hu), h⟩

/-- Other lists behind referenced tables leave the clauses spelled by what they are. -/
theorem SpellsClauses.sameButLists {cs : List ClauseSyntax} (hcs : SpellsClauses cs ts)
    (h : SameButLists (ts ++ us) vs) :
    ∃ ts' ws, vs = ts' ++ ws ∧ SpellsClauses cs ts' ∧ SameButLists us ws := by
  induction hcs generalizing vs with
  | nil => exact ⟨[], vs, rfl, .nil, h⟩
  | cons hc _ ih =>
    rw [List.append_assoc] at h
    obtain ⟨ts', _, rfl, hc', hrest⟩ := hc.sameButLists h
    obtain ⟨more', ws, rfl, hmore, hws⟩ := ih hrest
    exact ⟨ts' ++ more', ws, (List.append_assoc ..).symm, .cons hc' hmore, hws⟩

/-- Other lists behind referenced tables leave an item spelled by what it is. -/
theorem ItemSyntax.Spelled.sameButLists {x : ItemSyntax} (hx : x.Spelled ts)
    (h : SameButLists (ts ++ us) vs) :
    ∃ ts' ws, vs = ts' ++ ws ∧ x.Spelled ts' ∧ SameButLists us ws := by
  cases hx with
  | @column c t type clauses hname htype hclauses =>
    have hfixed : NoReferences (t :: type) :=
      List.forall_mem_cons.2 ⟨isKeyword_of_name? hname _, htype.noReferences⟩
    have hsplit : t :: (type ++ clauses) ++ us = (t :: type) ++ (clauses ++ us) := by simp
    rw [hsplit] at h
    obtain ⟨_, rfl, hrest⟩ := h.append_left hfixed
    obtain ⟨clauses', ws, rfl, hclauses', hws⟩ := hclauses.sameButLists hrest
    exact ⟨t :: (type ++ clauses'), ws, by simp, .column hname htype hclauses', hws⟩
  | constraint hname hrule =>
    obtain ⟨ws, rfl, hws⟩ :=
      h.append_left (List.forall_mem_append.2 ⟨hname.noReferences, hrule.noReferences⟩)
    exact ⟨_, ws, rfl, .constraint hname hrule, hws⟩

/-- A body spells the same parts with other lists. -/
theorem SpellsItems.sameButLists {items : List ItemSyntax} (hitems : SpellsItems items ts)
    (h : SameButLists ts vs) : SpellsItems items vs := by
  induction hitems generalizing vs with
  | @one x ts hx =>
    rw [← List.append_nil ts] at h
    obtain ⟨ts', ws, rfl, hx', hws⟩ := hx.sameButLists h
    cases hws
    exact .one (by simpa using hx')
  | cons hx hcomma _ ih =>
    obtain ⟨ts', _, rfl, hx', hrest⟩ := hx.sameButLists h
    cases hrest with
    | cons _ hrest => exact .cons hx' hcomma (ih hrest)
    | target hk => rw [isMark_of_isKeyword hk] at hcomma; cases hcomma

end Lists

/-! ## Which lists are checked -/

/-- A reference of the body to the named table carries the list. -/
inductive CarriesList (r : String) (arguments : List Token) : List Token → Prop
  | mk {k : Token} {before parts after : List Token} (hk : k.isKeyword "REFERENCES" = true)
      (hcall : Token.callParts? parts = some (r, arguments)) :
      CarriesList r arguments (before ++ k :: .call parts :: after)

/-- The list is one of names of columns of the table that has the given name. -/
def Schema.NamesColumns (s : Schema) (r : String) (arguments : List Token) : Prop :=
  ∃ names, SpellsNames names arguments ∧
    ∃ t ∈ s.tables, s.sameName t.name r = true ∧ ∀ n ∈ names, NamedIn t.names n

/-- What a part of a valid definition mentions is a column. -/
theorem TableSyntax.Valid.named {t : TableSyntax} {s : Schema} (h : t.Valid s) {x : ItemSyntax}
    (hx : x ∈ t.items) {n : String} (hn : n ∈ x.mentions) : NamedIn (namesOf t.items) n := by
  obtain ⟨before, after, hitems⟩ := List.append_of_mem hx
  have hparts : before ++ [x] <+: t.items := ⟨after, by simp [hitems]⟩
  obtain ⟨other, hother, hname⟩ := h.columns before x hparts n hn
  have hsub : namesOf (before ++ [x]) <+: namesOf t.items :=
    (hparts.filterMap ItemSyntax.column?).map ColumnSyntax.name
  exact ⟨other, hsub.subset hother, hname⟩

/-- What is accepted as a table definition is accepted with other lists. -/
theorem into_compileTable_of_sameButLists {s s' : Schema} {a b : Statement} {id : TableId}
    {name : String} {body body' : List Token}
    (ha : readTableHead (Token.flatten a) = .ok (name, body))
    (hb : readTableHead (Token.flatten b) = .ok (name, body'))
    (hcomment : leadingComment a = leadingComment b) (hlists : SameButLists body body')
    (h : (compileTable a).into s = (.ok id, s')) : (compileTable b).into s = (.ok id, s') := by
  obtain ⟨t, hspelled, hvalid, rfl, rfl⟩ := spelled_of_into_compileTable h
  obtain ⟨body, hhead, hitems⟩ := spelled_iff.1 hspelled
  obtain ⟨rfl, rfl⟩ := Prod.mk.inj (Except.ok.inj (hhead.symm.trans ha))
  have hspelled' : t.Spelled (Token.flatten b) :=
    spelled_iff.2 ⟨body', hb, hitems.sameButLists hlists⟩
  rw [hcomment]
  exact into_compileTable_of_spelled hspelled' hvalid

/-- Table definitions that differ in the lists of their references are accepted alike, and make the
same schema of a schema. The other lists of columns are checked: an accepted table has all columns
that its primary key, its unique constraints and its checks mention, and an accepted index is one of
columns of its table. What is refused leaves the schema as it was. -/
theorem reference_lists_ignored {s : Schema} (hs : Reachable s) (a : Statement) :
    (∀ b name body body', readTableHead (Token.flatten a) = .ok (name, body) →
      readTableHead (Token.flatten b) = .ok (name, body') → leadingComment a = leadingComment b →
      SameButLists body body' →
      ∀ id s', (compileTable a).into s = (.ok id, s') ↔ (compileTable b).into s = (.ok id, s')) ∧
    (∀ id s', (compileTable a).into s = (.ok id, s') → ∃ t : TableSyntax,
      t.Spelled (Token.flatten a) ∧ s'.tables = s.tables ++ [t.table s (leadingComment a)] ∧
        ∀ x ∈ t.items, ∀ n ∈ x.mentions, NamedIn (t.table s (leadingComment a)).names n) ∧
    (∀ s', (compileIndex a).into s = (.ok ⟨⟩, s') → DefinesIndex s (Token.flatten a) s') ∧
    ∀ e s', (compileTable a).into s = (.error e, s') → s' = s := by
  refine ⟨?lists, ?table, ?index, ?refused⟩
  case lists =>
    intro b name body body' ha hb hcomment hlists id s'
    exact ⟨into_compileTable_of_sameButLists ha hb hcomment hlists,
      into_compileTable_of_sameButLists hb ha hcomment.symm hlists.symm⟩
  case table =>
    intro id s' h
    obtain ⟨t, hspelled, hvalid, rfl, rfl⟩ := spelled_of_into_compileTable h
    refine ⟨t, hspelled, rfl, fun x hx n hn => ?_⟩
    rw [TableSyntax.table, t.names_tableOver]
    exact hvalid.named hx hn
  case index => exact fun s' => (compileIndex_eq_ok (distinct_of_reachable hs)).1
  case refused =>
    exact Compiling.Atomic.of_yields (fun _ => yields_compileTable) s

/-- The definition of a table whose column refers to the table with the given token. -/
def selfReference (target : Token) : Statement :=
  [.keyword "CREATE", .keyword "TABLE", .call [.name "t",
    .paren [.name "x", .name "integer", .keyword "REFERENCES", target]]]

/-- The table with a list that names a column which is not there. -/
def missingColumn : Token := .call [.name "t", .paren [.name "nope"]]

theorem readTableHead_selfReference {target : Token}
    (h : Token.flatten (selfReference target) = selfReference target) :
    readTableHead (Token.flatten (selfReference target)) =
      .ok ("t", [.name "x", .name "integer", .keyword "REFERENCES", target]) := by
  rw [h]
  exact readTableHead_eq_ok.2 ⟨[_, _], .cons (by decide +kernel) (.cons (by decide +kernel) .nil),
    .inl ⟨_, rfl, rfl⟩⟩

/-- The table is accepted and has one column. -/
theorem into_selfReference : ∃ s', (compileTable (selfReference missingColumn)).into
    (.empty "" .standard) = (.ok 0, s') ∧ s'.tables.map Table.names = [["x"]] := by
  have hdone : ((compileTable (selfReference missingColumn)).into
        (.empty "" .standard)).1.isOk = true ∧
      ((compileTable (selfReference missingColumn)).into
        (.empty "" .standard)).2.tables.map Table.names = [["x"]] := by
    decide +kernel
  rcases hinto : (compileTable (selfReference missingColumn)).into (.empty "" .standard) with
    ⟨e | id, s'⟩ <;> rw [hinto] at hdone
  · cases hdone.1
  · obtain ⟨_, -, -, rfl, -⟩ := spelled_of_into_compileTable hinto
    exact ⟨s', rfl, hdone.2⟩

/-- With the list and without it, the definition makes the same schema. -/
theorem reference_lists_ignored_selfReference :
    ∃ s', (compileTable (selfReference missingColumn)).into (.empty "" .standard) = (.ok 0, s') ∧
      (compileTable (selfReference (.name "t"))).into (.empty "" .standard) = (.ok 0, s') := by
  obtain ⟨s', hinto, -⟩ := into_selfReference
  have hlists : SameButLists [.name "x", .name "integer", .keyword "REFERENCES", missingColumn]
      [.name "x", .name "integer", .keyword "REFERENCES", .name "t"] :=
    .cons _ (.cons _ (.target (by decide +kernel) (.call rfl) (.name rfl) .nil))
  obtain ⟨hsame, -⟩ := reference_lists_ignored (.empty "" .standard) (selfReference missingColumn)
  exact ⟨s', hinto, (hsame (selfReference (.name "t")) _ _ _ (readTableHead_selfReference rfl)
    (readTableHead_selfReference rfl) rfl hlists 0 s').1 hinto⟩

/-- Not every list that an accepted definition carries is one of columns that are there. -/
theorem reference_list_not_checked :
    ¬ ∀ (s : Schema) (a : Statement) (id : TableId) (s' : Schema), Reachable s →
      (compileTable a).into s = (.ok id, s') → ∀ name body,
        readTableHead (Token.flatten a) = .ok (name, body) → ∀ r arguments,
          CarriesList r arguments body → s'.NamesColumns r arguments := by
  intro hall
  obtain ⟨s', hinto, htables⟩ := into_selfReference
  have hcarries : CarriesList "t" [.name "nope"]
      ([.name "x", .name "integer"] ++ [.keyword "REFERENCES", missingColumn]) :=
    .mk (by decide +kernel) rfl
  obtain ⟨names, hnames, t, ht, -, hthere⟩ := hall _ _ _ _ (.empty "" .standard) hinto _ _
    (readTableHead_selfReference rfl) _ _ hcarries
  have hmem : t.names ∈ s'.tables.map Table.names := List.mem_map_of_mem ht
  rw [htables, List.mem_singleton] at hmem
  obtain rfl : names = ["nope"] :=
    Except.ok.inj ((readNames_eq_ok.2 hnames).symm.trans (readNames_eq_ok.2 (.one rfl)))
  obtain ⟨other, hother, hname⟩ := hthere "nope" List.mem_cons_self
  rw [hmem, List.mem_singleton] at hother
  rw [hother] at hname
  exact absurd hname (by decide +kernel)

end SqlCatalog
