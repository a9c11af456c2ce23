import SqlCatalog.Proofs.Token.Leaves

/-!
# Levels of a source

Grouping works on levels: the tokens between two parentheses, or those of the whole source, in which
every other parenthesis is one token. Semicolons cut a level before or after it is grouped, with the
same outcome. So a statement of a source is a level of its own that was grouped, and the only
exception is a source that is one list.

## Main definitions

* `Token.IsNested` are the tokens of a level, before they are grouped.

## Main statements

* `isNested_nest`: nested tokens are levels.
* `splitStatements_groupFrom`: a level can be cut at its semicolons before it is grouped.
* `exists_level`: the statements of a source.
-/

namespace SqlCatalog

/-- A token of a level before it is grouped: a token of the source, which has the property `P`, or a
parenthesis around such tokens. -/
inductive Token.IsNested (P : Token → Prop) : Token → Prop
  | leaf {t : Token} (h : P t) (hopen : t.isMark '(' = false) (hclose : t.isMark ')' = false) :
      IsNested P t
  | paren {inner : List Token} (h : ∀ t ∈ inner, t.IsNested P) : IsNested P (.paren inner)

section Levels

variable {P Q : Token → Prop} {o : OpenName} {ts n level : List Token} {outer : List (List Token)}

/-! ## Nesting -/

/-- Nesting keeps a property of single tokens, at every depth. -/
theorem isNested_nestFrom (h : nestFrom level outer ts = some n) (hts : ∀ t ∈ ts, P t)
    (hlevel : ∀ t ∈ level, t.IsNested P) (houter : ∀ above ∈ outer, ∀ t ∈ above, t.IsNested P) :
    ∀ t ∈ n, t.IsNested P := by
  fun_induction nestFrom level outer ts with
  | case1 level =>
    obtain rfl := Option.some.inj h
    simpa using hlevel
  | case2 => cases h
  | case3 level outer t ts _ ih =>
    obtain ⟨-, hts⟩ := List.forall_mem_cons.1 hts
    exact ih h hts (by simp) (List.forall_mem_cons.2 ⟨hlevel, houter⟩)
  | case4 => cases h
  | case5 level t ts _ _ above outer ih =>
    obtain ⟨-, hts⟩ := List.forall_mem_cons.1 hts
    obtain ⟨habove, houter⟩ := List.forall_mem_cons.1 houter
    have hparen : (Token.paren level.reverse).IsNested P := .paren (by simpa using hlevel)
    exact ih h hts (List.forall_mem_cons.2 ⟨hparen, habove⟩) houter
  | case6 level outer t ts hopen hclose ih =>
    obtain ⟨ht, hts⟩ := List.forall_mem_cons.1 hts
    have hleaf : t.IsNested P := .leaf ht (by simpa using hopen) (by simpa using hclose)
    exact ih h hts (List.forall_mem_cons.2 ⟨hleaf, hlevel⟩) houter

/-- Nested tokens are the tokens of a level. -/
theorem isNested_nest (h : nest ts = some n) (hts : ∀ t ∈ ts, P t) : ∀ t ∈ n, t.IsNested P :=
  isNested_nestFrom h hts (by simp) (by simp)

/-! ## Grouping -/

/-- What holds of the tokens of a level and of all that grouping makes holds of the grouped
tokens. -/
theorem forall_mem_groupFrom (hidentifier : ∀ parts, Q (.identifier parts))
    (hcall : ∀ parts, Q (.call parts)) (hparen : ∀ inner, Q (.paren inner))
    (hdot : Q (.punctuation '.')) (o : OpenName) (hts : ∀ t ∈ ts, Q t) :
    ∀ t ∈ groupFrom o ts, Q t := by
  have inside {t : Token} (ht : Q t) : Q (groupInside t) := by
    cases t with
    | paren => exact hparen _
    | _ => exact ht
  induction ts generalizing o with
  | nil => cases o <;> simp [groupFrom, hidentifier, hdot]
  | cons t ts ih =>
    obtain ⟨ht, hts⟩ := List.forall_mem_cons.1 hts
    rw [groupFrom_cons]
    refine List.forall_mem_append.2 ⟨?_, ih _ hts⟩
    fun_cases OpenName.emit o t with
    | _ => simp [hidentifier, hcall, hdot, ht, inside]

/-- An identifier that is being read comes out of the rest of its level. -/
theorem groupFrom_ne_nil (h : o ≠ .none ∨ ts ≠ []) : groupFrom o ts ≠ [] := by
  induction ts generalizing o with
  | nil => cases o <;> simp_all [groupFrom]
  | cons t ts ih =>
    rw [groupFrom_cons]
    intro hnil
    obtain ⟨hemit, hrest⟩ := List.append_eq_nil_iff.1 hnil
    have hafter : o.after t = .none := by
      by_contra hne
      exact ih (.inl hne) hrest
    fun_cases OpenName.emit o t with
    | _ => simp_all [OpenName.after, OpenName.emit]

/-- Grouping makes no semicolons. -/
theorem isMark_groupFrom (o : OpenName) (h : ∀ t ∈ ts, t.isMark ';' = false) :
    ∀ t ∈ groupFrom o ts, t.isMark ';' = false :=
  forall_mem_groupFrom (Q := fun t => t.isMark ';' = false) (fun _ => rfl) (fun _ => rfl)
    (fun _ => rfl) rfl o h

/-! ## Cutting -/

/-- A level can be cut at its semicolons before it is grouped. -/
theorem splitStatements_groupFrom (n : List Token) :
    splitStatements [] (groupFrom .none n) = (splitStatements [] n).map (groupFrom .none) := by
  have all (current ts : List Token) (hcurrent : ∀ t ∈ current, t.isMark ';' = false) :
      splitStatements [] (groupFrom .none (current.reverse ++ ts)) =
        (splitStatements current ts).map (groupFrom .none) := by
    have hgrouped : ∀ t ∈ groupFrom .none current.reverse, t.isMark ';' = false :=
      isMark_groupFrom .none (by simpa using hcurrent)
    induction ts generalizing current with
    | nil =>
      cases current with
      | nil => rfl
      | cons t current =>
        rw [List.append_nil, splitStatements_of_no_semicolon (groupFrom_ne_nil (.inr _)) hgrouped]
        · rfl
        · simp
    | cons t ts ih =>
      rw [splitStatements]
      split
      · rename_i hmark
        obtain rfl := eq_of_isMark hmark
        rw [groupFrom_separates (.inl rfl), splitStatements_closed_append hgrouped]
        have hrest := ih [] (by simp) (by simp [groupFrom])
        rw [List.reverse_nil, List.nil_append] at hrest
        rw [hrest]
        rfl
      · rename_i hmark
        have hmore : ∀ u ∈ t :: current, u.isMark ';' = false :=
          List.forall_mem_cons.2 ⟨by simpa using hmark, hcurrent⟩
        have hstep := ih (t :: current) hmore
          (isMark_groupFrom .none fun u hu => hmore u (List.mem_reverse.1 hu))
        rwa [List.reverse_cons, List.append_assoc] at hstep
  exact all [] n (by simp)

/-- The statements of a level have no semicolons, and their tokens are those of the level. -/
theorem forall_mem_splitStatements {current : Statement}
    (hcurrent : ∀ t ∈ current, Q t ∧ t.isMark ';' = false) (hts : ∀ t ∈ ts, Q t) :
    ∀ statement ∈ splitStatements current ts, ∀ t ∈ statement, Q t ∧ t.isMark ';' = false := by
  induction ts generalizing current with
  | nil =>
    rw [splitStatements]
    split
    · simp
    · simpa using hcurrent
  | cons t ts ih =>
    obtain ⟨ht, hts⟩ := List.forall_mem_cons.1 hts
    rw [splitStatements]
    split
    · exact List.forall_mem_cons.2 ⟨by simpa using hcurrent, ih (by simp) hts⟩
    · rename_i hmark
      exact ih (List.forall_mem_cons.2 ⟨⟨ht, by simpa using hmark⟩, hcurrent⟩) hts

/-- A statement of a source is a level without semicolons that was grouped, or the source is one
such level, and a list. -/
theorem exists_level {source : String} {script : List Statement} {statement : Statement}
    (htokens : tokenize source = .ok ts) (hts : ∀ t ∈ ts, P t)
    (h : statements source = .ok script) (hmem : statement ∈ script) :
    ∃ level, (∀ t ∈ level, t.IsNested P) ∧ (∀ t ∈ level, t.isMark ';' = false) ∧
      (statement = groupFrom .none level ∨ isListLevel (groupFrom .none level) = true ∧
        statement = [.list (groupFrom .none level)]) := by
  obtain ⟨us, n, husource, hn, rfl⟩ := statements_eq_ok.1 h
  obtain rfl := Except.ok.inj (htokens.symm.trans husource)
  have hnested := isNested_nest hn hts
  rw [groupLevel, asList] at hmem
  split at hmem
  · rename_i hlist
    have hmark : ∀ t ∈ n, t.isMark ';' = false := by
      intro t ht
      rw [Bool.eq_false_iff]
      intro htmark
      obtain rfl := eq_of_isMark htmark
      obtain ⟨before, after, rfl⟩ := List.append_of_mem ht
      have hsemicolon := isMark_of_isListLevel hlist (.punctuation ';')
        (by rw [groupFrom_separates (.inl rfl)]; simp)
      cases hsemicolon
    have hsingle : splitStatements [] [.list (groupFrom .none n)] = [[.list (groupFrom .none n)]] :=
      splitStatements_of_no_semicolon (by simp) (by simp [Token.isMark])
    rw [hsingle, List.mem_singleton] at hmem
    exact ⟨n, hnested, hmark, .inr ⟨hlist, hmem⟩⟩
  · rw [splitStatements_groupFrom] at hmem
    obtain ⟨level, hlevel, rfl⟩ := List.mem_map.1 hmem
    have hall := forall_mem_splitStatements (Q := Token.IsNested P) (by simp) hnested level hlevel
    exact ⟨level, fun t ht => (hall t ht).1, fun t ht => (hall t ht).2, .inl rfl⟩

end Levels

end SqlCatalog
