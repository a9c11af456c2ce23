import Mathlib.Logic.Relation
import SqlCatalog.Proofs.Lists
import SqlCatalog.Proofs.Token.Borders

/-!
# Comments between tokens

A comment that is put between two tokens of a source becomes a token between them. It stays where it
is when tokens are nested and grouped, and the tokens around it are nested and grouped as they were,
unless they are read together: a name with a dot or a parenthesis that directly follows it.

## Main definitions

* `CommentAt` says that a source is another one with a comment, `Commented` that the tokens around
  the comment are not read together.
* `Inserted` says the same of nested tokens, `InsertedAt` of the levels that are being nested.
* `SameTokens` says that tokens are the same but for comments, also inside.

## Main statements

* `CommentAt.tokenize`: the comment becomes a token.
* `nest_inserted`: it stays at its place when tokens are nested.
* `Inserted.sameTokens`: it leaves what is grouped the same.
* `statements_commented`: it leaves the statements the same.
-/

namespace SqlCatalog

/-! ## Comments in a source -/

/-- The characters are a comment: a line with its line feed, or a block. -/
inductive IsComment : List Char → Prop
  | line {body : List Char} (h : '\n' ∉ body) : IsComment ('-' :: '-' :: (body ++ ['\n']))
  | block {body : List Char} (h : ¬ ['*', '/'] <:+: body ++ ['*']) :
      IsComment ('/' :: '*' :: (body ++ ['*', '/']))

/-- Whether two tokens of a source are read together when the second one directly follows the first
one: a name and a dot or an opening parenthesis, a dot and a name or an opening parenthesis. -/
def Token.Joins (t u : Token) : Prop := t.Glues u ∨ u = .punctuation '(' ∧ t.Glues (.paren [])

/-- The second source is the first one with a comment between the tokens `ts` and `us`. -/
inductive CommentAt (source source' : String) (ts us : List Token) : Prop
  | mk (before after comment : List Char) (hsource : source.toList = before ++ after)
      (hsource' : source'.toList = before ++ (comment ++ after)) (hcomment : IsComment comment)
      (hbefore : Reads source.toList ts after) (hafter : Reads after us []) (hne : after ≠ [])

/-- The second source is the first one with a comment between tokens that are not read together, or
before all tokens. -/
def Commented (source source' : String) : Prop :=
  ∃ ts us, CommentAt source source' ts us ∧ ∀ t ∈ ts.getLast?, ∀ u ∈ us.head?, ¬ t.Joins u

section Sources

variable {body rest : List Char}

/-- A line comment takes everything up to the end of its line, and the end with it. -/
theorem takeLine_append (h : '\n' ∉ body) :
    takeLine (body ++ '\n' :: rest) = (body ++ ['\n'], rest) := by
  induction body with
  | nil => rfl
  | cons c body ih =>
    obtain ⟨hc, hbody⟩ := not_or.1 (mt List.mem_cons.2 h)
    rw [List.cons_append, takeLine.eq_3 _ _ (fun hline => hc hline.symm), ih hbody]
    rfl

/-- A block comment takes everything up to the first closing mark, and the mark with it. -/
theorem takeComment_append (h : ¬ ['*', '/'] <:+: body ++ ['*']) :
    takeComment (body ++ '*' :: '/' :: rest) = some (body ++ ['*', '/'], rest) := by
  induction body with
  | nil => rfl
  | cons c body ih =>
    have hbody : ¬ ['*', '/'] <:+: body ++ ['*'] :=
      fun hin => h (hin.trans (List.suffix_cons c _).isInfix)
    have hopen : ∀ more, c = '*' → body ++ '*' :: '/' :: rest = '/' :: more → False := by
      rintro more rfl hmore
      cases body with
      | nil => cases hmore
      | cons d body =>
        obtain ⟨rfl, -⟩ := List.cons.inj hmore
        exact h ⟨[], body ++ ['*'], rfl⟩
    rw [List.cons_append, takeComment.eq_3 _ _ hopen, ih hbody]
    rfl

/-- A comment is read as a token, whatever follows it. -/
theorem IsComment.reads {comment : List Char} (h : IsComment comment) (rest : List Char) :
    Reads (comment ++ rest) [.comment (String.ofList comment)] rest := by
  cases h with
  | @line body h =>
    have htoken : scanToken '-' ('-' :: (body ++ '\n' :: rest)) =
        .ok (.comment (String.ofList ('-' :: '-' :: (body ++ ['\n']))), rest) := by
      simp [scanToken, scanMinus, takeLine_append h]
    rw [List.cons_append, List.cons_append, List.append_assoc]
    exact .token (by decide) htoken (.done rest)
  | @block body h =>
    have htoken : scanToken '/' ('*' :: (body ++ '*' :: '/' :: rest)) =
        .ok (.comment (String.ofList ('/' :: '*' :: (body ++ ['*', '/']))), rest) := by
      simp [scanToken, takeComment_append h]
    rw [List.cons_append, List.cons_append, List.append_assoc]
    exact .token (by decide) htoken (.done rest)

/-- Whatever a token may be followed by, a comment may stand there. -/
theorem IsComment.mayFollow {comment : List Char} (h : IsComment comment) (rest rest' : List Char) :
    MayFollow rest (comment ++ rest') := by
  cases h with
  | line => exact .of_endsToken (by decide +kernel)
  | block => exact .of_endsToken (by decide +kernel)

/-- The comment becomes a token at its place. -/
theorem CommentAt.tokenize {source source' : String} {ts us : List Token}
    (h : CommentAt source source' ts us) : tokenize source = .ok (ts ++ us) ∧
      ∃ raw, SqlCatalog.tokenize source' = .ok (ts ++ .comment raw :: us) := by
  obtain ⟨before, after, comment, hsource, hsource', hcomment, hbefore, hafter, hne⟩ := h
  obtain ⟨before', hsame, hreplaced⟩ := hbefore.replace (.inl hne)
  obtain rfl : before = before' := List.append_cancel_right (hsource.symm.trans hsame)
  refine ⟨tokenize_eq_ok.2 (hbefore.append hafter), String.ofList comment, tokenize_eq_ok.2 ?_⟩
  rw [hsource']
  exact (hreplaced _ (hcomment.mayFollow after after)).append ((hcomment.reads after).append hafter)

/-- A comment can stand before any line of a source. -/
theorem commentAt_line {a b comment : String} {ts us : List Token} (ha : tokenize a = .ok ts)
    (hb : tokenize b = .ok us) (hne : b ≠ "") (hcomment : IsComment comment.toList) :
    ∃ ts', EndsInLine ts ts' ∧
      CommentAt (a ++ "\n" ++ b) (a ++ "\n" ++ comment ++ b) ts' us := by
  obtain ⟨ts', hline, hread⟩ := (tokenize_eq_ok.1 ha).line
  have hlist : (a ++ "\n" ++ b).toList = a.toList ++ '\n' :: b.toList := by simp
  have hbefore : Reads (a ++ "\n" ++ b).toList ts' b.toList := by
    rw [hlist]
    exact hread b.toList
  exact ⟨ts', hline, .mk (a.toList ++ ['\n']) b.toList comment.toList (by simp) (by simp) hcomment
    hbefore (tokenize_eq_ok.1 hb) (by simpa using hne)⟩

/-- A keyword joins no token before it to a name. -/
theorem Token.not_joins_of_isKeyword {t u : Token} {word : String} (h : u.isKeyword word = true) :
    ¬ t.Joins u := by
  cases u with
  | keyword k => cases t <;> simp [Token.Joins, Token.Glues]
  | _ => cases h

/-- A comment can stand before any line that begins with a keyword. -/
theorem commented_line (word : String) {a b comment : String} (ha : (tokenize a).isOk = true)
    (hb : ((tokenize b).toOption.any fun us => us.head?.any (Token.isKeyword word)) = true)
    (hcomment : IsComment comment.toList) :
    Commented (a ++ "\n" ++ b) (a ++ "\n" ++ comment ++ b) := by
  cases hts : tokenize a with
  | error e => rw [hts] at ha; cases ha
  | ok ts =>
    obtain ⟨us, hus, hhead⟩ := exists_eq_ok_of_any hb
    have hne : b ≠ "" := by
      rintro rfl
      have hempty : tokenize "" = .ok [] := tokenize_eq_ok.2 (by simpa using Reads.done [])
      obtain rfl := Except.ok.inj (hus.symm.trans hempty)
      cases hhead
    obtain ⟨ts', -, hat⟩ := commentAt_line hts hus hne hcomment
    refine ⟨ts', us, hat, fun t _ u hu => ?_⟩
    rw [hu] at hhead
    exact Token.not_joins_of_isKeyword hhead

end Sources

/-! ## Nesting -/

/-- The second tokens are the first ones with a comment on some level, where the tokens around it
are not read together. -/
inductive Inserted : List Token → List Token → Prop
  | here {before after : List Token} (raw : String)
      (h : ∀ t ∈ before.getLast?, ∀ u ∈ after.head?, ¬ t.Glues u) :
      Inserted (before ++ after) (before ++ .comment raw :: after)
  | inside {before after inner inner' : List Token} (h : Inserted inner inner') :
      Inserted (before ++ .paren inner :: after) (before ++ .paren inner' :: after)

/-- Whether the levels that are being nested are those of the first tokens with a comment on one of
them, be it the one that is read or one of those around it. -/
inductive InsertedAt : List Token → List (List Token) → List Token → List (List Token) → Prop
  | read {level level' : List Token} {outer : List (List Token)}
      (h : ∀ more, Inserted (level.reverse ++ more) (level'.reverse ++ more)) :
      InsertedAt level outer level' outer
  | around {level above above' : List Token} (inside : List (List Token))
      {outside : List (List Token)}
      (h : ∀ inner more, Inserted (above.reverse ++ .paren inner :: more)
        (above'.reverse ++ .paren inner :: more)) :
      InsertedAt level (inside ++ above :: outside) level (inside ++ above' :: outside)

namespace InsertedAt

variable {level level' above : List Token} {outer outer' : List (List Token)}

/-- At the end the comment is on the level that is read. -/
theorem ends (h : InsertedAt level [] level' outer') :
    outer' = [] ∧ Inserted level.reverse level'.reverse := by
  generalize hnil : ([] : List (List Token)) = outer at h
  cases h with
  | read h =>
    subst hnil
    exact ⟨rfl, by simpa using h []⟩
  | around => simp at hnil

/-- An insertion further back stays one when a token is put on the open level. -/
theorem follows (h : InsertedAt level outer level' outer') (t : Token) :
    InsertedAt (t :: level) outer (t :: level') outer' := by
  cases h with
  | read h => exact .read fun more => by simpa using h (t :: more)
  | around inside h => exact .around inside h

theorem opens (h : InsertedAt level outer level' outer') :
    InsertedAt [] (level :: outer) [] (level' :: outer') := by
  cases h with
  | read h => exact .around [] fun inner more => h (.paren inner :: more)
  | around inside h => exact .around (level :: inside) h

/-- A parenthesis that closes makes the level with the insertion a token of the level above. -/
theorem closes (h : InsertedAt level (above :: outer) level' outer') :
    ∃ above' outer'', outer' = above' :: outer'' ∧
      InsertedAt (.paren level.reverse :: above) outer
        (.paren level'.reverse :: above') outer'' := by
  generalize hcons : above :: outer = outers at h
  cases h with
  | read h =>
    subst hcons
    refine ⟨above, outer, rfl, .read fun more => ?_⟩
    have hinner : Inserted level.reverse level'.reverse := by simpa using h []
    have hparen : Inserted (above.reverse ++ .paren level.reverse :: more)
        (above.reverse ++ .paren level'.reverse :: more) := .inside hinner
    simpa using hparen
  | @around _ above' inside _ h =>
    cases inside with
    | nil =>
      obtain ⟨rfl, rfl⟩ := List.cons.inj hcons
      exact ⟨above', outer, rfl, .read fun more => by simpa using h level.reverse more⟩
    | cons next inside =>
      obtain ⟨rfl, rfl⟩ := List.cons.inj hcons
      exact ⟨above, _, rfl, .around inside h⟩

end InsertedAt

section Nesting

variable {level level' ts us n : List Token} {outer outer' : List (List Token)} {raw : String}

/-- A level with a comment on it keeps it to its end. -/
theorem nestFrom_of_inserted (hlevels : InsertedAt level outer level' outer')
    (h : nestFrom level outer us = some n) :
    ∃ n', nestFrom level' outer' us = some n' ∧ Inserted n n' := by
  induction us generalizing level outer level' outer' with
  | nil =>
    cases outer with
    | nil =>
      obtain ⟨rfl, hinserted⟩ := hlevels.ends
      obtain rfl := Option.some.inj h
      exact ⟨_, rfl, hinserted⟩
    | cons above outer => cases h
  | cons u us ih =>
    rw [nestFrom_cons] at h ⊢
    split at h
    · rename_i hopen
      rw [if_pos hopen]
      exact ih hlevels.opens h
    · rename_i hopen
      rw [if_neg hopen]
      split at h
      · rename_i hclose
        rw [if_pos hclose]
        cases outer with
        | nil => cases h
        | cons above outer =>
          obtain ⟨above', outer', rfl, hcloses⟩ := hlevels.closes
          exact ih hcloses h
      · rename_i hclose
        rw [if_neg hclose]
        exact ih (hlevels.follows u) h

/-- A comment after the tokens of a level, before the next token, stays at its place. -/
theorem nestFrom_comment (hjoins : ∀ t ∈ level.head?, ∀ u ∈ us.head?, ¬ t.Joins u)
    (h : nestFrom level outer us = some n) :
    ∃ n', nestFrom (.comment raw :: level) outer us = some n' ∧ Inserted n n' := by
  have hend : Inserted (level.reverse ++ []) (level.reverse ++ [.comment raw]) :=
    .here raw (by simp)
  rw [List.append_nil] at hend
  cases us with
  | nil =>
    cases outer with
    | nil =>
      obtain rfl := Option.some.inj h
      exact ⟨_, rfl, by simpa using hend⟩
    | cons above outer => cases h
  | cons u us =>
    -- The next token opens a parenthesis that follows the comment, or ends the level, or follows.
    have hglues (v : Token) (hv : ∀ t : Token, t.Glues v → t.Joins u) (more : List Token) :
        Inserted (level.reverse ++ v :: more) (level.reverse ++ .comment raw :: v :: more) := by
      refine .here raw fun t ht w hw hglues => ?_
      obtain rfl := Option.some.inj hw
      exact hjoins t (by simpa using ht) u rfl (hv t hglues)
    rw [nestFrom_cons] at h ⊢
    split at h
    · rename_i hopen
      obtain rfl := eq_of_isMark hopen
      rw [if_pos hopen]
      have hparen (inner : List Token) (t : Token) (h : t.Glues (.paren inner)) :
          t.Joins (.punctuation '(') := by
        refine .inr ⟨rfl, ?_⟩
        cases t <;> exact h
      refine nestFrom_of_inserted (.around [] fun inner more => ?_) h
      simpa using hglues (.paren inner) (hparen inner) more
    · rename_i hopen
      rw [if_neg hopen]
      split at h
      · rename_i hclose
        rw [if_pos hclose]
        cases outer with
        | nil => cases h
        | cons above outer =>
          refine nestFrom_of_inserted (.read fun more => ?_) h
          have hparen : Inserted (above.reverse ++ .paren level.reverse :: more)
              (above.reverse ++ .paren (level.reverse ++ [.comment raw]) :: more) := .inside hend
          simpa using hparen
      · rename_i hclose
        rw [if_neg hclose]
        refine nestFrom_of_inserted (.read fun more => ?_) h
        simpa using hglues u (fun _ => .inl) more

/-- A comment that parts no two tokens read together is put on the level that is open where it
stands. -/
theorem nestFrom_inserted (hlevel : ∀ t ∈ ts.getLast?.or level.head?, ∀ u ∈ us.head?, ¬ t.Joins u)
    (h : nestFrom level outer (ts ++ us) = some n) :
    ∃ n', nestFrom level outer (ts ++ .comment raw :: us) = some n' ∧ Inserted n n' := by
  induction ts generalizing level outer with
  | nil => exact nestFrom_comment (by simpa using hlevel) h
  | cons t ts ih =>
    have hlast {level' : List Token} (hlevel' : ts = [] → ∀ t ∈ level'.head?, ∀ u ∈ us.head?,
        ¬ t.Joins u) : ∀ t ∈ ts.getLast?.or level'.head?, ∀ u ∈ us.head?, ¬ t.Joins u := by
      cases ts with
      | nil => simpa using hlevel' rfl
      | cons t' ts => simpa using hlevel
    rw [List.cons_append, nestFrom_cons] at h ⊢
    split at h
    · rename_i hopen
      rw [if_pos hopen]
      exact ih (hlast (by simp)) h
    · rename_i hopen
      rw [if_neg hopen]
      split at h
      · rename_i hclose
        rw [if_pos hclose]
        cases outer with
        | nil => cases h
        | cons above outer => exact ih (hlast (by simp [Token.Joins, Token.Glues])) h
      · rename_i hclose
        rw [if_neg hclose]
        refine ih (hlast ?_) h
        rintro rfl
        simpa using hlevel

/-- A comment between tokens that are not read together stays at its place when they are nested. -/
theorem nest_inserted (hjoins : ∀ t ∈ ts.getLast?, ∀ u ∈ us.head?, ¬ t.Joins u)
    (h : nest (ts ++ us) = some n) :
    ∃ n', nest (ts ++ .comment raw :: us) = some n' ∧ Inserted n n' :=
  nestFrom_inserted (by simpa using hjoins) h

end Nesting

/-! ## Grouping -/

/-- Whether a reader finds the same in two tokens: flat tokens, a word, a mark or an item of a list,
or a comment. -/
structure Token.Same (t u : Token) : Prop where
  significant : t.isSignificant = u.isSignificant
  flat : t.flattenToken = u.flattenToken
  keyword : ∀ word, t.isKeyword word = u.isKeyword word
  mark : ∀ c, t.isMark c = u.isMark c
  item : t.isItem = u.isItem

theorem Token.Same.refl (t : Token) : t.Same t := ⟨rfl, rfl, fun _ => rfl, fun _ => rfl, rfl⟩

/-- Whether tokens are the same but for comments, also inside. -/
def SameTokens (ts us : List Token) : Prop :=
  List.Forall₂ Token.Same (ts.filter Token.isSignificant) (us.filter Token.isSignificant)

/-- Flattening drops comments, so taking them away before changes nothing. -/
theorem flatten_filter (ts : List Token) :
    Token.flatten (ts.filter Token.isSignificant) = Token.flatten ts := by
  induction ts with
  | nil => rfl
  | cons t ts ih =>
    rw [List.filter_cons]
    split
    · rw [Token.flatten, Token.flatten, ih]
    · rename_i hcomment
      cases t with
      | comment raw => rw [ih, Token.flatten, Token.flattenToken, List.nil_append]
      | _ => exact absurd rfl hcomment

namespace SameTokens

variable {ts us ts' us' : List Token}

theorem refl (ts : List Token) : SameTokens ts ts := List.forall₂_same.2 fun t _ => .refl t

/-- Tokens are the same without their comments. -/
theorem filter (ts : List Token) : SameTokens ts (ts.filter Token.isSignificant) ∧
    SameTokens (ts.filter Token.isSignificant) ts := by
  simp only [SameTokens, List.filter_filter, Bool.and_self]
  exact ⟨refl ts, refl ts⟩

theorem append (h : SameTokens ts us) (h' : SameTokens ts' us') :
    SameTokens (ts ++ ts') (us ++ us') := by
  rw [SameTokens, List.filter_append, List.filter_append]
  exact List.rel_append h h'

/-- Tokens that differ in comments only flatten to the same tokens. -/
theorem flatten_eq (h : SameTokens ts us) : Token.flatten ts = Token.flatten us := by
  have all {ts us : List Token} (h : List.Forall₂ Token.Same ts us) :
      Token.flatten ts = Token.flatten us := by
    induction h with
    | nil => rfl
    | cons ht _ ih => rw [Token.flatten, Token.flatten, ht.flat, ih]
  rw [← flatten_filter ts, ← flatten_filter us, all h]

/-- Comments do not decide whether a level is a list. -/
theorem isListLevel_eq (h : SameTokens ts us) : isListLevel ts = isListLevel us := by
  have all {ts us : List Token} (h : List.Forall₂ Token.Same ts us) :
      isCommaSeparated ts = isCommaSeparated us := by
    fun_induction isCommaSeparated ts generalizing us with
    | case1 =>
      cases h
      rfl
    | case2 item =>
      obtain ⟨item', us, hitem, hnil, rfl⟩ := List.forall₂_cons_left_iff.1 h
      cases hnil
      exact hitem.item
    | case3 item comma rest ih =>
      obtain ⟨item', us, hitem, hmore, rfl⟩ := List.forall₂_cons_left_iff.1 h
      obtain ⟨comma', rest', hcomma, hrest, rfl⟩ := List.forall₂_cons_left_iff.1 hmore
      rw [isCommaSeparated, hitem.item, hcomma.mark, ih hrest]
  rw [isListLevel, isListLevel, List.Forall₂.length_eq h, all h]

/-- A level that is a list is one with comments too. -/
theorem asList (h : SameTokens ts us) : SameTokens (asList ts) (asList us) := by
  rw [SqlCatalog.asList, SqlCatalog.asList, h.isListLevel_eq]
  split
  · refine .cons ⟨rfl, ?_, fun _ => rfl, fun _ => rfl, rfl⟩ .nil
    rw [Token.flattenToken, Token.flattenToken, h.flatten_eq]
  · exact h

end SameTokens

/-- A comment more flattens away. -/
theorem Inserted.flatten_eq {n n' : List Token} (h : Inserted n n') :
    Token.flatten n = Token.flatten n' := by
  induction h with
  | here raw h => simp [Phrase.flatten_append, Token.flatten, Token.flattenToken]
  | inside _ ih => simp [Phrase.flatten_append, Token.flatten, Token.flattenToken, ih]

/-- What is grouped after some tokens depends on these by the identifier that is being read. -/
theorem groupFrom_foldl (o : OpenName) (ts : List Token) :
    ∃ grouped, ∀ us,
      groupFrom o (ts ++ us) = grouped ++ groupFrom (ts.foldl OpenName.after o) us := by
  induction ts generalizing o with
  | nil => exact ⟨[], fun _ => rfl⟩
  | cons t ts ih =>
    obtain ⟨grouped, hgrouped⟩ := ih (o.after t)
    refine ⟨o.emit t ++ grouped, fun us => ?_⟩
    rw [List.cons_append, groupFrom_cons, hgrouped, List.append_assoc]
    rfl

/-- A comment that stays at its place when tokens are nested makes no difference to what is
grouped. -/
theorem Inserted.sameTokens {n n' : List Token} (h : Inserted n n') :
    SameTokens (groupFrom .none n) (groupFrom .none n') := by
  induction h with
  | @here before after raw h =>
    have hends : ∀ u ∈ after.head?, (before.foldl OpenName.after .none).Ends u := by
      intro u hu
      cases hlast : before.getLast? with
      | none =>
        obtain rfl := List.getLast?_eq_none_iff.1 hlast
        trivial
      | some t =>
        obtain ⟨before, rfl⟩ := List.getLast?_eq_some_iff.1 hlast
        rw [List.foldl_append]
        exact OpenName.ends_after (h t hlast u hu) _
    rw [groupFrom_append _ before hends, groupFrom_separates (.inr ⟨raw, rfl⟩)]
    exact (SameTokens.refl _).append (.refl _)
  | @inside before after inner inner' h ih =>
    obtain ⟨grouped, hgrouped⟩ := groupFrom_foldl .none before
    rw [hgrouped, hgrouped, groupFrom_cons, groupFrom_cons]
    refine (SameTokens.refl _).append (SameTokens.append ?_ ?_)
    · have hinside : (groupInside (.paren inner)).Same (groupInside (.paren inner')) := by
        rw [groupInside, groupInside]
        refine ⟨rfl, ?_, fun _ => rfl, fun _ => rfl, rfl⟩
        rw [Token.flattenToken, Token.flattenToken, ih.asList.flatten_eq]
      -- The parenthesis stands alone, is the arguments of a call or is left as it is after a dot.
      cases before.foldl OpenName.after .none with
      | none => exact .cons hinside .nil
      | ended parts =>
        refine .cons ⟨rfl, ?_, fun _ => rfl, fun _ => rfl, rfl⟩ .nil
        simp [Token.flattenToken, Token.flatten, hinside.flat]
      | dotted parts =>
        refine .cons (.refl _) (.cons (.refl _)
          (.cons ⟨rfl, ?_, fun _ => rfl, fun _ => rfl, rfl⟩ .nil))
        rw [Token.flattenToken, Token.flattenToken, h.flatten_eq]
    · cases before.foldl OpenName.after .none <;> exact .refl _

/-! ## Cutting -/

/-- A script without comments and without the statements that are nothing else. -/
def significant (script : List Statement) : List Statement :=
  (script.map (List.filter Token.isSignificant)).filter fun statement => !statement.isEmpty

/-- A statement of nothing but comments is dropped, and every other one loses its comments. -/
theorem significant_cons (statement : Statement) (script : List Statement) :
    significant (statement :: script) =
      if (statement.filter Token.isSignificant).isEmpty then significant script
      else statement.filter Token.isSignificant :: significant script := by
  rw [significant, List.map_cons, List.filter_cons]
  cases (statement.filter Token.isSignificant).isEmpty <;> rfl

/-- Comments are at most statements of their own. -/
theorem significant_splitStatements (current ts : List Token) :
    significant (splitStatements current ts) = significant (splitStatements
      (current.filter Token.isSignificant) (ts.filter Token.isSignificant)) := by
  induction ts generalizing current with
  | nil =>
    rw [List.filter_nil, splitStatements, splitStatements]
    cases hcurrent : current.filter Token.isSignificant with
    | nil =>
      split
      · rfl
      · rw [significant_cons, List.filter_reverse, hcurrent]
        rfl
    | cons t more =>
      have hne : current.isEmpty = false := by
        cases current with
        | nil => cases hcurrent
        | cons => rfl
      have hkept : current.reverse.filter Token.isSignificant = (t :: more).reverse := by
        rw [List.filter_reverse, hcurrent]
      have htwice : (t :: more).reverse.filter Token.isSignificant = (t :: more).reverse := by
        rw [← hkept, List.filter_filter]
        simp
      rw [hne, List.isEmpty_cons, if_neg Bool.false_ne_true, if_neg Bool.false_ne_true,
        significant_cons, significant_cons, hkept, htwice]
  | cons t ts ih =>
    rw [splitStatements]
    cases hsignificant : t.isSignificant with
    | false =>
      have hmark : t.isMark ';' = false := by
        cases t with
        | comment => rfl
        | _ => cases hsignificant
      rw [hmark, if_neg Bool.false_ne_true, ih, List.filter_cons, List.filter_cons, hsignificant,
        if_neg Bool.false_ne_true, if_neg Bool.false_ne_true]
    | true =>
      rw [List.filter_cons, hsignificant, if_pos rfl, splitStatements]
      split
      · rw [significant_cons, significant_cons, List.filter_reverse, List.filter_reverse,
          List.filter_filter, ih]
        simp
      · rw [ih, List.filter_cons, hsignificant, if_pos rfl]

/-- Tokens that are the same but for comments are cut into statements that are. -/
theorem SameTokens.splitStatements {ts us : List Token} (h : SameTokens ts us) :
    List.Forall₂ SameTokens (significant (splitStatements [] ts))
      (significant (splitStatements [] us)) := by
  have cut {ts us current current' : List Token} (h : List.Forall₂ Token.Same ts us)
      (hcurrent : List.Forall₂ Token.Same current current') :
      List.Forall₂ (List.Forall₂ Token.Same) (SqlCatalog.splitStatements current ts)
        (SqlCatalog.splitStatements current' us) := by
    induction h generalizing current current' with
    | nil =>
      cases hcurrent with
      | nil => exact .nil
      | cons ht hmore => exact .cons (List.rel_reverse (.cons ht hmore)) .nil
    | @cons t u ts us ht _ ih =>
      rw [SqlCatalog.splitStatements, SqlCatalog.splitStatements, ht.mark]
      split
      · exact .cons (List.rel_reverse hcurrent) (ih .nil)
      · exact ih (.cons ht hcurrent)
  have filtered {ts us : List Token} (h : List.Forall₂ Token.Same ts us) :
      List.Forall₂ Token.Same (ts.filter Token.isSignificant) (us.filter Token.isSignificant) :=
    List.rel_filter (fun _ _ hsame => iff_of_eq (congrArg (· = true) hsame.significant)) h
  have nonempty {ts us : List Token} (h : List.Forall₂ Token.Same ts us) :
      (!ts.isEmpty) = true ↔ (!us.isEmpty) = true := by
    cases h <;> simp
  rw [significant_splitStatements, significant_splitStatements [] us]
  have hall : List.Forall₂ (List.Forall₂ Token.Same)
      (significant (SqlCatalog.splitStatements [] (ts.filter Token.isSignificant)))
      (significant (SqlCatalog.splitStatements [] (us.filter Token.isSignificant))) := by
    refine List.rel_filter (R := List.Forall₂ Token.Same) (fun _ _ h => nonempty h) ?_
    rw [List.forall₂_map_left_iff, List.forall₂_map_right_iff]
    exact (cut h .nil).imp fun _ _ => filtered
  exact hall.imp fun _ _ => filtered

/-- The statements of a source with a comment are those without it, but for comments. -/
theorem statements_commented {source source' : String} {script : List Statement}
    (h : Commented source source') (hscript : statements source = .ok script) :
    ∃ script', statements source' = .ok script' ∧
      List.Forall₂ SameTokens (significant script) (significant script') := by
  obtain ⟨ts, us, hcomment, hjoins⟩ := h
  obtain ⟨htokens, raw, htokens'⟩ := hcomment.tokenize
  obtain ⟨ts', n, hsame, hn, rfl⟩ := statements_eq_ok.1 hscript
  obtain rfl := Except.ok.inj (htokens.symm.trans hsame)
  obtain ⟨n', hn', hinserted⟩ := nest_inserted hjoins hn
  exact ⟨_, statements_eq_ok.2 ⟨_, n', htokens', hn', rfl⟩,
    hinserted.sameTokens.asList.splitStatements⟩

end SqlCatalog
