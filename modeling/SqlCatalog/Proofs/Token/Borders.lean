import Mathlib.Data.List.Forall2
import SqlCatalog.Proofs.Token.Locality
import SqlCatalog.Proofs.Token.Phrases

/-!
# Borders between tokens

Nesting, grouping and cutting go over all tokens of a source. What they make of the tokens before a
place does not depend on those after it, unless a name there goes on beyond the place. So a source
that goes on with a semicolon and another source is cut into the statements of the one and those of
the other.

## Main definitions

* `Token.Glues` says which tokens are read together when one directly follows the other.

## Main statements

* `nest_append`: balanced tokens are nested one part after the other.
* `groupFrom_append`: levels are grouped one part after the other where nothing glues them.
* `statements_append`: the statements of two sources with a semicolon between them.
-/

namespace SqlCatalog

/-! ## Nesting -/

section Nesting

variable {level : List Token} {outer : List (List Token)} {ts us n m : List Token}

/-- One step of the nesting: a parenthesis opens a level, closes one or is put on the open level,
and every other token goes there. -/
theorem nestFrom_cons (level : List Token) (outer : List (List Token)) (t : Token)
    (ts : List Token) :
    nestFrom level outer (t :: ts) =
      if t.isMark '(' then nestFrom [] (level :: outer) ts
      else if t.isMark ')' then
        match outer with
        | [] => none
        | above :: rest => nestFrom (.paren level.reverse :: above) rest ts
      else nestFrom (t :: level) outer ts := rfl

/-- Tokens after balanced ones are nested on the level that these leave. -/
theorem nestFrom_append (h : nestFrom level outer ts = some n) :
    nestFrom level outer (ts ++ us) = nestFrom n.reverse [] us := by
  fun_induction nestFrom level outer ts with
  | case1 level outer hempty =>
    obtain rfl := List.isEmpty_iff.1 hempty
    rw [← Option.some.inj h, List.reverse_reverse, List.nil_append]
  | case2 => cases h
  | case3 level outer t ts hopen ih => rw [List.cons_append, nestFrom_cons, if_pos hopen, ih h]
  | case4 => cases h
  | case5 level t ts hopen hclose above outer ih =>
    rw [List.cons_append, nestFrom_cons, if_neg hopen, if_pos hclose]
    exact ih h
  | case6 level outer t ts hopen hclose ih =>
    rw [List.cons_append, nestFrom_cons, if_neg hopen, if_neg hclose, ih h]

/-- What stands on the outermost level before the tokens stays there. -/
theorem nestFrom_below (base : List Token) (ts : List Token) :
    (∀ level m, nestFrom level [] ts = some m →
      nestFrom (level ++ base) [] ts = some (base.reverse ++ m)) ∧
    ∀ level outer above m, nestFrom level (outer ++ [above]) ts = some m →
      nestFrom level (outer ++ [above ++ base]) ts = some (base.reverse ++ m) := by
  -- The outermost level is the one that is read or the last of those around it.
  induction ts with
  | nil => simp [nestFrom]
  | cons t ts ih =>
    obtain ⟨ihread, ihouter⟩ := ih
    refine ⟨fun level m h => ?_, fun level outer above m h => ?_⟩
    · rw [nestFrom_cons] at h ⊢
      by_cases hopen : t.isMark '(' = true
      · rw [if_pos hopen] at h ⊢
        exact ihouter [] [] level m h
      · rw [if_neg hopen] at h ⊢
        by_cases hclose : t.isMark ')' = true
        · rw [if_pos hclose] at h
          cases h
        · rw [if_neg hclose] at h ⊢
          exact ihread (t :: level) m h
    · rw [nestFrom_cons] at h ⊢
      by_cases hopen : t.isMark '(' = true
      · rw [if_pos hopen] at h ⊢
        exact ihouter [] (level :: outer) above m h
      · rw [if_neg hopen] at h ⊢
        by_cases hclose : t.isMark ')' = true
        · rw [if_pos hclose] at h ⊢
          cases outer with
          | nil => exact ihread (.paren level.reverse :: above) m h
          | cons next outer => exact ihouter (.paren level.reverse :: next) outer above m h
        · rw [if_neg hclose] at h ⊢
          exact ihouter (t :: level) outer above m h

/-- Balanced tokens are nested one part after the other. -/
theorem nest_append (hts : nest ts = some n) (hus : nest us = some m) :
    nest (ts ++ us) = some (n ++ m) := by
  have hbelow := (nestFrom_below n.reverse us).1 [] m hus
  rw [List.nil_append, List.reverse_reverse] at hbelow
  rw [nest, nestFrom_append hts, hbelow]

/-- A token that is no delimiter stays at the end of the outermost level. -/
theorem nest_concat {t : Token} (hopen : t.isMark '(' = false) (hclose : t.isMark ')' = false)
    (h : nest (ts ++ [t]) = some n) : ∃ m, nest ts = some m ∧ n = m ++ [t] := by
  have last (level : List Token) (outer : List (List Token)) :
      nestFrom level outer (ts ++ [t]) = (nestFrom level outer ts).map (· ++ [t]) := by
    clear h
    fun_induction nestFrom level outer ts with
    | case1 level outer hempty => simp [nestFrom, hopen, hclose, hempty]
    | case2 level outer hempty => simp [nestFrom, hopen, hclose, hempty]
    | case3 level outer u ts hu ih => rw [List.cons_append, nestFrom_cons, if_pos hu, ih]
    | case4 level u ts hu hu' => rw [List.cons_append, nestFrom_cons, if_neg hu, if_pos hu']; rfl
    | case5 level u ts hu hu' above outer ih =>
      rw [List.cons_append, nestFrom_cons, if_neg hu, if_pos hu']
      exact ih
    | case6 level outer u ts hu hu' ih =>
      rw [List.cons_append, nestFrom_cons, if_neg hu, if_neg hu', ih]
  rw [nest, last] at h
  obtain ⟨m, hm, rfl⟩ := Option.map_eq_some_iff.1 h
  exact ⟨m, hm, rfl⟩

end Nesting

/-! ## Grouping -/

/-- Whether grouping reads `u` together with `t` when it directly follows `t`. -/
def Token.Glues : Token → Token → Prop
  | name _, paren _ => True
  | name _, punctuation m => m = '.'
  | punctuation m, name _ | punctuation m, paren _ => m = '.'
  | _, _ => False

namespace OpenName

/-- The identifier that is being read after the next token of its level. -/
def after : OpenName → Token → OpenName
  | none, .name n | ended _, .name n => ended [.name n]
  | ended parts, .punctuation '.' => dotted parts
  | dotted parts, .name n => ended (parts ++ [.punctuation '.', .name n])
  | _, _ => none

/-- The grouped tokens that are clear after the next token of a level. -/
def emit : OpenName → Token → List Token
  | none, .name _ | dotted _, .name _ | ended _, .punctuation '.' => []
  | none, t => [groupInside t]
  | ended parts, .name _ => [.identifier parts]
  | ended parts, .paren inner => [.call [.identifier parts, groupInside (.paren inner)]]
  | ended parts, t => [.identifier parts, t]
  | dotted parts, t => [.identifier parts, .punctuation '.', t]

/-- Whether the identifier that is being read ends before the token. -/
def Ends : OpenName → Token → Prop
  | none, _ => True
  | ended _, u => ¬ (Token.name "").Glues u
  | dotted _, u => ¬ (Token.punctuation '.').Glues u

/-- After a token that does not glue to `u`, an open name ends before `u`. -/
theorem ends_after {t u : Token} (h : ¬ t.Glues u) (o : OpenName) : (o.after t).Ends u := by
  have named {n : String} (h : ¬ (Token.name n).Glues u) : ¬ (Token.name "").Glues u := by
    cases u <;> exact h
  fun_cases OpenName.after o t with
  | case1 => exact named h
  | case2 => exact named h
  | case3 => exact h
  | case4 => exact named h
  | case5 => trivial

end OpenName

section Grouping

variable {o : OpenName} {t : Token} {ts us : List Token}

/-- One step of the grouping: what the token completes, then the rest with the name that is open
now. -/
theorem groupFrom_cons (o : OpenName) (t : Token) (ts : List Token) :
    groupFrom o (t :: ts) = o.emit t ++ groupFrom (o.after t) ts := by
  fun_cases OpenName.emit o t with
  | _ => simp_all [groupFrom, OpenName.after]

/-- An identifier that ends before the next token is as it would be at the end of the level. -/
theorem groupFrom_of_ends (h : ∀ u ∈ us.head?, o.Ends u) :
    groupFrom o us = groupFrom o [] ++ groupFrom .none us := by
  cases us with
  | nil => simp [groupFrom]
  | cons u us =>
    have hu := h u rfl
    cases o with
    | none => simp [groupFrom]
    | ended parts =>
      cases u with
      | paren inner => exact absurd trivial hu
      | punctuation m =>
        have hdot : m ≠ '.' := hu
        simp [groupFrom, groupInside, hdot]
      | _ => simp [groupFrom, groupInside]
    | dotted parts =>
      cases u with
      | name n => exact absurd rfl hu
      | paren inner => exact absurd rfl hu
      | _ => simp [groupFrom, groupInside]

/-- A level is grouped one part after the other, if no identifier goes on from one to the other. -/
theorem groupFrom_append (o : OpenName) (ts : List Token)
    (h : ∀ u ∈ us.head?, (ts.foldl OpenName.after o).Ends u) :
    groupFrom o (ts ++ us) = groupFrom o ts ++ groupFrom .none us := by
  induction ts generalizing o with
  | nil => exact groupFrom_of_ends h
  | cons t ts ih => rw [List.cons_append, groupFrom_cons, groupFrom_cons, ih _ h, List.append_assoc]

/-- Whether the token belongs to nothing before and after it: a semicolon or a comment. -/
def Token.Separates (t : Token) : Prop := t = .punctuation ';' ∨ ∃ raw, t = .comment raw

/-- Grouping splits at a semicolon or a comment, before which every name ends. -/
theorem groupFrom_separates {t : Token} (ht : t.Separates) (ts us : List Token) :
    groupFrom .none (ts ++ t :: us) = groupFrom .none ts ++ t :: groupFrom .none us := by
  have hends (o : OpenName) : o.Ends t := by
    rcases ht with rfl | ⟨raw, rfl⟩ <;> cases o <;> simp [OpenName.Ends, Token.Glues]
  have hcons : groupFrom .none (t :: us) = t :: groupFrom .none us := by
    rcases ht with rfl | ⟨raw, rfl⟩ <;> simp [groupFrom, groupInside]
  rw [groupFrom_append .none ts (by simpa using hends _), hcons]

end Grouping

/-! ## Cutting -/

section Cutting

variable {current ts us : List Token}

/-- What follows a semicolon is cut apart from what stands before it. -/
theorem splitStatements_semicolon (current ts us : List Token) :
    splitStatements current (ts ++ .punctuation ';' :: us) =
      splitStatements current (ts ++ [.punctuation ';']) ++ splitStatements [] us := by
  induction ts generalizing current with
  | nil => rfl
  | cons t ts ih =>
    rw [List.cons_append, List.cons_append, splitStatements, splitStatements]
    split
    · rw [ih, List.cons_append]
    · exact ih _

/-- A semicolon at the end leaves the statements as they are, or adds one without tokens. -/
theorem splitStatements_closed (current ts : List Token) :
    splitStatements current (ts ++ [.punctuation ';']) = splitStatements current ts ∨
      splitStatements current (ts ++ [.punctuation ';']) = splitStatements current ts ++ [[]] := by
  induction ts generalizing current with
  | nil =>
    have hsemicolon : splitStatements current [.punctuation ';'] = [current.reverse] := rfl
    rw [List.nil_append, hsemicolon, splitStatements]
    cases current with
    | nil => exact .inr rfl
    | cons t current => exact .inl rfl
  | cons t ts ih =>
    rw [List.cons_append, splitStatements, splitStatements]
    split
    · exact (ih []).imp (congrArg _) (congrArg _)
    · exact ih _

/-- Tokens without a semicolon are one statement, unless there are none. -/
theorem splitStatements_of_no_semicolon (hne : ts ≠ [])
    (h : ∀ t ∈ ts, t.isMark ';' = false) : splitStatements [] ts = [ts] := by
  have hall := splitStatements_append h [] []
  rw [List.append_nil, List.append_nil] at hall
  rw [hall, splitStatements, if_neg (by simpa using hne), List.reverse_reverse]

end Cutting

/-! ## Sources -/

section Lines

variable {ts ts' : List Token}

/-- A comment that takes a line feed stays at the end of what is nested and grouped. -/
theorem EndsInLine.grouped {n : List Token} (h : EndsInLine ts ts') (hn : nest ts = some n) :
    ∃ n', nest ts' = some n' ∧ EndsInLine (groupFrom .none n) (groupFrom .none n') := by
  rcases h with rfl | ⟨before, raw, rfl, rfl⟩
  · exact ⟨n, hn, .inl rfl⟩
  · obtain ⟨m, hm, rfl⟩ := nest_concat rfl rfl hn
    have hcomment (raw : String) : groupFrom .none (m ++ [.comment raw]) =
        groupFrom .none m ++ [.comment raw] := by
      rw [groupFrom_separates (.inr ⟨raw, rfl⟩), groupFrom]
    refine ⟨m ++ [.comment (raw ++ "\n")], nest_append hm rfl, ?_⟩
    rw [hcomment, hcomment]
    exact .inr ⟨_, raw, rfl, rfl⟩

theorem EndsInLine.ne_nil (h : EndsInLine ts ts') (hne : ts ≠ []) : ts' ≠ [] := by
  rcases h with rfl | ⟨before, raw, -, rfl⟩
  · exact hne
  · simp

/-- An end to the last line adds no marks. -/
theorem EndsInLine.mem (h : EndsInLine ts ts') {c : Char} (hts : ∀ t ∈ ts, t.isMark c = false) :
    ∀ t ∈ ts', t.isMark c = false := by
  rcases h with rfl | ⟨before, raw, rfl, rfl⟩
  · exact hts
  · simp only [List.forall_mem_append, List.forall_mem_singleton] at hts ⊢
    exact ⟨hts.1, rfl⟩

/-- At most the last statement takes the line feed. -/
theorem EndsInLine.split (h : EndsInLine ts ts') (current : List Token) :
    List.Forall₂ EndsInLine (splitStatements current ts) (splitStatements current ts') := by
  rcases h with rfl | ⟨before, raw, rfl, rfl⟩
  · exact List.forall₂_same.2 fun _ _ => .inl rfl
  · induction before generalizing current with
    | nil => exact .cons (.inr ⟨current.reverse, raw, by simp, by simp⟩) .nil
    | cons t before ih =>
      rw [List.cons_append, List.cons_append, splitStatements, splitStatements]
      split
      · exact .cons (.inl rfl) (ih [])
      · exact ih _

end Lines

/-- Whether the second statement is the first one where a semicolon follows it: the line ends after
a comment at the end, and a level that is a list is no list any more. -/
inductive BeforeSemicolon : Statement → Statement → Prop
  | line {statement statement' : Statement} (h : EndsInLine statement statement') :
      BeforeSemicolon statement statement'
  | list {items items' : List Token} (hlist : isListLevel items = true)
      (h : EndsInLine items items') : BeforeSemicolon [.list items] items'

theorem eq_of_isMark {t : Token} {c : Char} (h : t.isMark c = true) : t = .punctuation c := by
  cases t with
  | punctuation m => rw [show m = c by simpa [Token.isMark] using h]
  | _ => cases h

/-- A level that is a list holds no semicolon. -/
theorem isMark_of_isListLevel {ts : List Token} (h : isListLevel ts = true) :
    ∀ t ∈ ts, t.isMark ';' = false := by
  intro t ht
  rw [Bool.eq_false_iff]
  intro hmark
  obtain rfl := eq_of_isMark hmark
  have hlist : [.list ts] = ts := by
    have hnot := asList_of_semicolon ht
    rwa [asList, if_pos h] at hnot
  rw [← hlist, List.mem_singleton] at ht
  cases ht

/-- The statements of a level, be it a list or not, are those that it has before a semicolon. -/
theorem beforeSemicolon_split {ts ts' : List Token} (h : EndsInLine ts ts') :
    List.Forall₂ BeforeSemicolon (splitStatements [] (asList ts)) (splitStatements [] ts') := by
  by_cases hlist : isListLevel ts = true
  · have hmark := isMark_of_isListLevel hlist
    have hne : ts ≠ [] := by
      rintro rfl
      cases hlist
    rw [asList, if_pos hlist, splitStatements_of_no_semicolon (h.ne_nil hne) (h.mem hmark)]
    exact .cons (.list hlist h) .nil
  · rw [asList, if_neg hlist]
    exact (h.split []).imp fun _ _ => .line

/-- A source is tokenized exactly when the reading relation takes the whole of it. -/
theorem tokenize_eq_ok {source : String} {ts : List Token} :
    tokenize source = .ok ts ↔ Reads source.toList ts [] := by
  have hend : scan [] = ([], none) := by rw [scan_eq]; rfl
  unfold tokenize scanSource
  constructor
  · intro h
    rcases hscan : scan source.toList with ⟨us, _ | fault⟩ <;> simp only [hscan] at h
    · exact .of_scan (by rw [hscan, ← Except.ok.inj h])
    · cases h
  · intro h
    simp only [h.scan_eq, hend, List.append_nil, Option.map_none]

/-- A source is a script when it is tokenized and its parentheses balance; the script is what
cutting the grouped tokens gives. -/
theorem statements_eq_ok {source : String} {script : List Statement} :
    statements source = .ok script ↔
      ∃ ts n, tokenize source = .ok ts ∧ nest ts = some n ∧
        script = splitStatements [] (groupLevel n) := by
  rw [statements]
  cases htokens : tokenize source with
  | error e => simp [bind, Except.bind]
  | ok ts => cases hn : nest ts <;> simp [bind, Except.bind, hn, eq_comm]

/-- The statements of two sources with a semicolon between them are the statements of the one,
those of the other, and maybe one without tokens between them. -/
theorem statements_append {a b : String} {as bs : List Statement} (ha : statements a = .ok as)
    (hb : statements b = .ok bs) :
    ∃ as' empty bs', statements (a ++ "\n;\n" ++ b) = .ok (as' ++ empty ++ bs') ∧
      List.Forall₂ BeforeSemicolon as as' ∧ (∀ statement ∈ empty, statement = []) ∧
        List.Forall₂ BeforeSemicolon bs bs' := by
  obtain ⟨ts, n, hts, hn, rfl⟩ := statements_eq_ok.1 ha
  obtain ⟨us, m, hus, hm, rfl⟩ := statements_eq_ok.1 hb
  -- The lexer and the nesting take one source after the other.
  obtain ⟨ts', hline, hread⟩ := (tokenize_eq_ok.1 hts).line
  have hsemicolon : Reads (';' :: '\n' :: b.toList) (.punctuation ';' :: us) [] :=
    .token (by decide) rfl (.blank (by decide) (tokenize_eq_ok.1 hus))
  have htokens : tokenize (a ++ "\n;\n" ++ b) = .ok (ts' ++ .punctuation ';' :: us) := by
    refine tokenize_eq_ok.2 ?_
    have hlist : (a ++ "\n;\n" ++ b).toList = a.toList ++ '\n' :: ';' :: '\n' :: b.toList := by
      simp
    rw [hlist]
    exact (hread _).append hsemicolon
  obtain ⟨n', hn', hgrouped⟩ := hline.grouped hn
  have hnest : nest (ts' ++ .punctuation ';' :: us) = some (n' ++ .punctuation ';' :: m) :=
    nest_append hn' (nest_append (show nest [.punctuation ';'] = some _ from rfl) hm)
  have hlevel : groupLevel (n' ++ .punctuation ';' :: m) =
      groupFrom .none n' ++ .punctuation ';' :: groupFrom .none m := by
    rw [groupLevel, groupFrom_separates (.inl rfl), asList_of_semicolon (by simp)]
  -- A semicolon after the first source adds no statement but one without tokens.
  have hclosed : ∃ empty, splitStatements [] (groupFrom .none n' ++ [.punctuation ';']) =
      splitStatements [] (groupFrom .none n') ++ empty ∧ ∀ statement ∈ empty, statement = [] := by
    rcases splitStatements_closed [] (groupFrom .none n') with h | h
    · exact ⟨[], by rw [h, List.append_nil], by simp⟩
    · exact ⟨[[]], h, by simp⟩
  obtain ⟨empty, hempty, hblank⟩ := hclosed
  refine ⟨splitStatements [] (groupFrom .none n'), empty, splitStatements [] (groupFrom .none m),
    ?_, beforeSemicolon_split hgrouped, hblank, beforeSemicolon_split (.inl rfl)⟩
  refine statements_eq_ok.2 ⟨_, _, htokens, hnest, ?_⟩
  rw [hlevel, splitStatements_semicolon, hempty]

end SqlCatalog
