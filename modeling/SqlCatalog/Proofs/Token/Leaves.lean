import SqlCatalog.Proofs.Token.NormalForm

/-!
# The leaves of grouped tokens

Nesting, grouping and cutting move tokens about, but lose none of them: the leaves of the statements
of a source, read from left to right with the parentheses around what they enclose and a semicolon
after each statement but the last one, are the tokens of the source. Only parentheses that are not
balanced keep a source from having statements.

## Main definitions

* `Token.leaves` and `Token.leavesAll` are the tokens of a source that were grouped.
* `scriptLeaves` are those of all statements, with the semicolons between these.
* `Balanced` says that parentheses are closed after they are opened, and all of them.

## Main statements

* `exists_nestFrom_iff`: tokens can be nested if and only if they are balanced.
* `leavesAll_nestFrom`, `leavesAll_groupFrom` and `scriptLeaves_splitStatements`: the leaves remain
  the same on the way to the statements.
* `leaves_statements`: the statements of a source are all of its tokens, if these are balanced.
-/

namespace SqlCatalog

/-! ## Leaves -/

namespace Token

mutual

/-- The tokens of the source that a token is made of. -/
def leaves : Token → List Token
  | paren inner => punctuation '(' :: (leavesAll inner ++ [punctuation ')'])
  | identifier parts | call parts => leavesAll parts
  | list items => leavesAll items
  | t => [t]

/-- The tokens of the source that tokens are made of. -/
def leavesAll : List Token → List Token
  | [] => []
  | t :: ts => leaves t ++ leavesAll ts

end

@[simp] theorem leavesAll_append (ts us : List Token) :
    leavesAll (ts ++ us) = leavesAll ts ++ leavesAll us := by
  induction ts with
  | nil => simp [leavesAll]
  | cons t ts ih => rw [List.cons_append, leavesAll, ih, leavesAll, List.append_assoc]

theorem IsLexical.leaves_eq {last : Prop} {t : Token} (h : t.IsLexical last) : t.leaves = [t] := by
  cases h <;> rfl

end Token

open Token

/-- What the lexer reads is its own leaves. -/
theorem leavesAll_of_allLexical {ts : List Token} (h : AllLexical ts) : leavesAll ts = ts := by
  induction ts with
  | nil => rfl
  | cons t ts ih => rw [leavesAll, h.1.leaves_eq, ih h.2, List.singleton_append]

/-- The leaves of statements, with semicolons between them. -/
def scriptLeaves (script : List Statement) : List Token :=
  [.punctuation ';'].intercalate (script.map leavesAll)

/-! ## Balanced parentheses -/

/-- No parenthesis is closed before it is opened, where `depth` of them are open at the beginning,
and in the end all are closed. -/
def BalancedFrom (depth : Nat) (ts : List Token) : Prop :=
  (∀ before, before <+: ts → before.countP (isMark ')') ≤ depth + before.countP (isMark '(')) ∧
    ts.countP (isMark ')') = depth + ts.countP (isMark '(')

/-- No parenthesis is closed before it is opened, and in the end all are closed. -/
def Balanced (ts : List Token) : Prop := BalancedFrom 0 ts

section Nesting

variable {depth : Nat} {t : Token} {ts n level : List Token} {outer : List (List Token)}

theorem balancedFrom_nil : BalancedFrom depth [] ↔ depth = 0 := by
  simp [BalancedFrom, eq_comm]

/-- Balance is counted on every beginning that holds the first token, and on the whole. -/
theorem balancedFrom_cons : BalancedFrom depth (t :: ts) ↔
    (∀ before, before <+: ts →
      (t :: before).countP (isMark ')') ≤ depth + (t :: before).countP (isMark '(')) ∧
    (t :: ts).countP (isMark ')') = depth + (t :: ts).countP (isMark '(') := by
  refine and_congr_left fun _ => ⟨fun h before hbefore => ?_, fun h before hbefore => ?_⟩
  · exact h (t :: before) (List.cons_prefix_cons.2 ⟨rfl, hbefore⟩)
  · rcases List.prefix_cons_iff.1 hbefore with rfl | ⟨more, rfl, hmore⟩
    · exact Nat.zero_le _
    · exact h more hmore

/-- An opening parenthesis leaves one more to be closed. -/
theorem balancedFrom_open :
    BalancedFrom depth (.punctuation '(' :: ts) ↔ BalancedFrom (depth + 1) ts := by
  have hcount (before : List Token) :
      (punctuation '(' :: before).countP (isMark ')') = before.countP (isMark ')') ∧
        depth + (punctuation '(' :: before).countP (isMark '(') =
          depth + 1 + before.countP (isMark '(') :=
    ⟨List.countP_cons_of_neg (by decide), by rw [List.countP_cons_of_pos rfl]; omega⟩
  rw [balancedFrom_cons, BalancedFrom]
  simp only [hcount]

/-- A closing parenthesis needs an open one. -/
theorem balancedFrom_close :
    BalancedFrom depth (.punctuation ')' :: ts) ↔ ∃ d, depth = d + 1 ∧ BalancedFrom d ts := by
  have hcount (before : List Token) :
      (punctuation ')' :: before).countP (isMark ')') = before.countP (isMark ')') + 1 ∧
        (punctuation ')' :: before).countP (isMark '(') = before.countP (isMark '(') :=
    ⟨List.countP_cons_of_pos rfl, List.countP_cons_of_neg (by decide)⟩
  rw [balancedFrom_cons]
  simp only [hcount]
  constructor
  · rintro ⟨hearlier, htotal⟩
    have hfirst : 1 ≤ depth := by simpa using hearlier [] List.nil_prefix
    obtain ⟨d, rfl⟩ := Nat.exists_eq_add_of_le' hfirst
    refine ⟨d, rfl, fun before hbefore => ?_, by omega⟩
    have hle := hearlier before hbefore
    omega
  · rintro ⟨d, rfl, hearlier, htotal⟩
    refine ⟨fun before hbefore => ?_, by omega⟩
    have hle := hearlier before hbefore
    omega

theorem balancedFrom_other (hopen : ¬ t.isMark '(' = true) (hclose : ¬ t.isMark ')' = true) :
    BalancedFrom depth (t :: ts) ↔ BalancedFrom depth ts := by
  rw [balancedFrom_cons, BalancedFrom]
  simp only [List.countP_cons_of_neg hopen, List.countP_cons_of_neg hclose]

/-- Tokens are nested if they close the levels around them, and no others. -/
theorem exists_nestFrom_iff :
    (∃ n, nestFrom level outer ts = some n) ↔ BalancedFrom outer.length ts := by
  induction ts generalizing level outer with
  | nil => cases outer <;> simp [nestFrom, balancedFrom_nil]
  | cons t ts ih =>
    rw [nestFrom_cons]
    split
    · rename_i hopen
      obtain rfl := eq_of_isMark hopen
      rw [ih, balancedFrom_open, List.length_cons]
    · rename_i hopen
      split
      · rename_i hclose
        obtain rfl := eq_of_isMark hclose
        cases outer with
        | nil => simp [balancedFrom_close]
        | cons above outer => simp [ih, balancedFrom_close]
      · rename_i hclose
        rw [ih, balancedFrom_other hopen hclose]

/-- The leaves of the levels around the one that is read, each with the parenthesis that opens the
next one. -/
def outerLeaves : List (List Token) → List Token
  | [] => []
  | above :: outer => outerLeaves outer ++ (leavesAll above.reverse ++ [.punctuation '('])

/-- What stands on the levels and what is still to be nested is all nested. -/
theorem leavesAll_nestFrom (h : nestFrom level outer ts = some n) :
    leavesAll n = outerLeaves outer ++ leavesAll (level.reverse ++ ts) := by
  fun_induction nestFrom level outer ts with
  | case1 level outer hempty =>
    obtain rfl := List.isEmpty_iff.1 hempty
    rw [← Option.some.inj h, outerLeaves, List.nil_append, List.append_nil]
  | case2 => cases h
  | case3 level outer t ts hopen ih =>
    obtain rfl := eq_of_isMark hopen
    simp [ih h, outerLeaves, leavesAll, leaves]
  | case4 => cases h
  | case5 level t ts hopen hclose above outer ih =>
    obtain rfl := eq_of_isMark hclose
    simp [ih h, outerLeaves, leavesAll, leaves]
  | case6 level outer t ts hopen hclose ih => simp [ih h, leavesAll]

end Nesting

/-! ## Grouping -/

/-- The leaves of the identifier that is being read. -/
def OpenName.leaves : OpenName → List Token
  | none => []
  | ended parts => leavesAll parts
  | dotted parts => leavesAll parts ++ [.punctuation '.']

/-- Making a level a list keeps its leaves. -/
theorem leavesAll_asList (ts : List Token) : leavesAll (asList ts) = leavesAll ts := by
  rw [asList]
  split
  · simp [leavesAll, leaves]
  · rfl

/-- The next token of a level is a part of the identifier that is being read, or it comes after
it. -/
theorem leavesAll_emit (o : OpenName) {t : Token} (h : (groupInside t).leaves = t.leaves) :
    leavesAll (o.emit t) ++ (o.after t).leaves = o.leaves ++ t.leaves := by
  fun_cases OpenName.emit o t with
  | _ => simp_all [OpenName.after, OpenName.leaves, leavesAll, leaves]

mutual

/-- Grouping inside a token keeps its leaves. -/
theorem leaves_groupInside (t : Token) : (groupInside t).leaves = t.leaves := by
  cases t with
  | paren inner =>
    rw [groupInside, leaves, leavesAll_asList, leavesAll_groupFrom .none inner]
    rfl
  | _ => rfl

/-- Grouping keeps the leaves, those of the open name before them. -/
theorem leavesAll_groupFrom (o : OpenName) (ts : List Token) :
    leavesAll (groupFrom o ts) = o.leaves ++ leavesAll ts := by
  cases ts with
  | nil => cases o <;> simp [groupFrom, OpenName.leaves, leavesAll, leaves]
  | cons t ts =>
    rw [groupFrom_cons, leavesAll_append, leavesAll_groupFrom, ← List.append_assoc,
      leavesAll_emit o (leaves_groupInside t), leavesAll, List.append_assoc]

end

/-! ## Cutting -/

/-- The semicolon that ends the tokens, if there is one. -/
def lastSemicolon (ts : List Token) : List Token :=
  if ts.getLast?.any (isMark ';') then [.punctuation ';'] else []

/-- A statement before others is followed by a semicolon. -/
theorem scriptLeaves_cons (statement : Statement) {script : List Statement} (h : script ≠ []) :
    scriptLeaves (statement :: script) =
      leavesAll statement ++ .punctuation ';' :: scriptLeaves script := by
  obtain ⟨next, script, rfl⟩ := List.exists_cons_of_ne_nil h
  simp [scriptLeaves, List.intercalate_cons_cons]

/-- Where there are tokens there is a statement. -/
theorem splitStatements_ne_nil (current : List Token) {ts : List Token} (h : ts ≠ []) :
    splitStatements current ts ≠ [] := by
  induction ts generalizing current with
  | nil => exact absurd rfl h
  | cons t ts ih =>
    rw [splitStatements]
    split
    · exact List.cons_ne_nil _ _
    · cases ts with
      | nil => simp [splitStatements]
      | cons u ts => exact ih _ (List.cons_ne_nil _ _)

/-- A level is cut at its semicolons, and only the last of them is not between two statements. -/
theorem scriptLeaves_splitStatements (current ts : List Token) :
    scriptLeaves (splitStatements current ts) ++ lastSemicolon ts =
      leavesAll (current.reverse ++ ts) := by
  induction ts generalizing current with
  | nil =>
    cases current with
    | nil => rfl
    | cons t current => simp [splitStatements, scriptLeaves, lastSemicolon]
  | cons t ts ih =>
    rw [splitStatements]
    split
    · rename_i hmark
      obtain rfl := eq_of_isMark hmark
      cases ts with
      | nil => simp [splitStatements, scriptLeaves, lastSemicolon, leavesAll, leaves, isMark]
      | cons u ts =>
        have hlast : lastSemicolon (.punctuation ';' :: u :: ts) = lastSemicolon (u :: ts) := by
          rw [lastSemicolon, List.getLast?_cons_cons, lastSemicolon]
        rw [scriptLeaves_cons _ (splitStatements_ne_nil [] (List.cons_ne_nil u ts)), hlast,
          List.append_assoc, List.cons_append, ih]
        simp [leavesAll, leaves]
    · rename_i hmark
      have hlast : lastSemicolon (t :: ts) = lastSemicolon ts := by
        cases ts with
        | nil => simp [lastSemicolon, hmark]
        | cons u ts => rw [lastSemicolon, List.getLast?_cons_cons, lastSemicolon]
      rw [hlast, ih]
      simp

/-! ## Sources -/

/-- A level ends with a semicolon if and only if its tokens do. -/
theorem lastSemicolon_groupLevel {ts n : List Token} (hleaves : leavesAll (groupLevel n) = ts)
    (h : nest ts = some n) : lastSemicolon (groupLevel n) = lastSemicolon ts := by
  have ends {ts : List Token} (h : ts.getLast?.any (isMark ';') = true) :
      ∃ before, ts = before ++ [.punctuation ';'] := by
    obtain ⟨t, ht, hmark⟩ := (Option.any_eq_true _ _).1 h
    obtain rfl := eq_of_isMark hmark
    exact List.getLast?_eq_some_iff.1 ht
  have hiff : (groupLevel n).getLast?.any (isMark ';') = ts.getLast?.any (isMark ';') := by
    rw [Bool.eq_iff_iff]
    constructor
    · intro hlast
      obtain ⟨before, hbefore⟩ := ends hlast
      rw [← hleaves, hbefore, leavesAll_append]
      simp [leavesAll, leaves, isMark]
    · intro hlast
      obtain ⟨before, rfl⟩ := ends hlast
      obtain ⟨m, -, rfl⟩ := nest_concat rfl rfl h
      rw [groupLevel, groupFrom_separates (.inl rfl), groupFrom,
        asList_of_semicolon (List.mem_append_right _ List.mem_cons_self), List.getLast?_concat]
      rfl
  rw [lastSemicolon, hiff, lastSemicolon]

/-- A source has statements if and only if its parentheses are balanced, and its statements are made
of all of its tokens. -/
theorem leaves_statements {source : String} {ts : List Token} (h : tokenize source = .ok ts) :
    ((∃ script, statements source = .ok script) ↔ Balanced ts) ∧
      (¬ Balanced ts → statements source = .error .unbalanced) ∧
      ∀ script, statements source = .ok script → scriptLeaves script ++ lastSemicolon ts = ts := by
  have hnest : (∃ n, nest ts = some n) ↔ Balanced ts := exists_nestFrom_iff
  cases hn : nest ts with
  | none =>
    have hstatements : statements source = .error .unbalanced := by
      simp [statements, h, hn, bind, Except.bind]
    have hnot : ¬ Balanced ts := by simpa [hn] using hnest
    exact ⟨by simp [hstatements, hnot], fun _ => hstatements, by simp [hstatements]⟩
  | some n =>
    have hstatements : statements source = .ok (splitStatements [] (groupLevel n)) :=
      statements_eq_ok.2 ⟨ts, n, h, hn, rfl⟩
    have hbalanced : Balanced ts := hnest.1 ⟨n, hn⟩
    have hleaves : leavesAll (groupLevel n) = ts := by
      have hflat : leavesAll ts = ts := leavesAll_of_allLexical (tokenize_eq_ok.1 h).allLexical
      rw [groupLevel, leavesAll_asList, leavesAll_groupFrom, leavesAll_nestFrom hn]
      exact hflat
    refine ⟨by simp [hstatements, hbalanced], fun hnot => absurd hbalanced hnot, ?_⟩
    rintro script hscript
    obtain rfl := Except.ok.inj (hstatements.symm.trans hscript)
    rw [← lastSemicolon_groupLevel hleaves hn, scriptLeaves_splitStatements]
    exact hleaves

/-- A parenthesis after a dot, and a dot after a call. -/
theorem leaves_statements_dotted :
    let ts : List Token := [.name "a", .punctuation '.', .punctuation '(', .name "b",
      .punctuation ',', .integer "0", .punctuation ')', .name "c", .punctuation '(', .integer "1",
      .punctuation ',', .integer "2", .punctuation ')', .punctuation '.', .punctuation ';']
    let script : List Statement := [[.identifier [.name "a"], .punctuation '.',
      .paren [.name "b", .punctuation ',', .integer "0"],
      .call [.identifier [.name "c"],
        .paren [.list [.integer "1", .punctuation ',', .integer "2"]]],
      .punctuation '.']]
    tokenize "\"a\".(\"b\",0)\"c\"(1,2).;" = .ok ts ∧
      statements "\"a\".(\"b\",0)\"c\"(1,2).;" = .ok script ∧
      Balanced ts ∧ scriptLeaves script ++ lastSemicolon ts = ts := by
  intro ts script
  have htokens : tokenize "\"a\".(\"b\",0)\"c\"(1,2).;" = .ok ts :=
    toOption_eq_some.1 (by decide +kernel)
  have hscript : statements "\"a\".(\"b\",0)\"c\"(1,2).;" = .ok script :=
    statements_eq_ok.2 ⟨ts, _, htokens, rfl, rfl⟩
  obtain ⟨hbalanced, -, hleaves⟩ := leaves_statements htokens
  exact ⟨htokens, hscript, hbalanced.1 ⟨script, hscript⟩, hleaves script hscript⟩

end SqlCatalog
