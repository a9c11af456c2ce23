import SqlCatalog.Proofs.Token.Comments

/-!
# The normal form of a source

Every token that is read from a source has the shape of its kind: a keyword is a reserved word, the
quotes inside a string literal stand in pairs, an integer has digits, and a comment is closed, or it
is a line that the end of the source cuts off. Tokens of these shapes can be written with single
spaces between them, keywords as they are, names in quotes and all others by their text; what is
written is read as the same tokens. So this is a normal form of the source.

## Main definitions

* `Token.IsLexical` are the shapes of tokens, `AllLexical` says that all tokens have one.
* `Token.spelling` is how a token is written, `normalForm` writes all tokens.

## Main statements

* `scanToken_isLexical`: what is read as a token has one of the shapes.
* `Token.IsLexical.reads`: a token of such a shape is read from its spelling.
* `tokenize_normalForm`: the normal form of a source has the tokens of the source.
-/

namespace SqlCatalog

/-! ## The shapes of tokens -/

/-- The tokens that the lexer reads, where `last` says whether no token follows. -/
inductive Token.IsLexical (last : Prop) : Token → Prop
  | keyword {word : String} (h : word ∈ reservedWords) : IsLexical last (.keyword word)
  | punctuation {mark : Char} (h : mark ∈ ['(', ')', ',', ';', '.']) :
      IsLexical last (.punctuation mark)
  | name (text : String) : IsLexical last (.name text)
  /-- The quotes inside a string literal are doubled. -/
  | string (text : String) : IsLexical last (.string (enclose '\'' text))
  | integer {digits : List Char} (hne : digits ≠ []) (h : ∀ c ∈ digits, c.isDigit = true) :
      IsLexical last (.integer (String.ofList digits))
  | negative {digits : List Char} (hne : digits ≠ []) (h : ∀ c ∈ digits, c.isDigit = true) :
      IsLexical last (.integer (String.ofList ('-' :: digits)))
  | comparison {operator : String} (h : operator ∈ ["=", "<", ">", "<=", ">=", "<>", "!="]) :
      IsLexical last (.comparison operator)
  | comment {text : List Char} (h : IsComment text) :
      IsLexical last (.comment (String.ofList text))
  /-- The end of the source cuts off a comment that the end of its line would end. -/
  | cut {body : List Char} (h : '\n' ∉ body) (hlast : last) :
      IsLexical last (.comment (String.ofList ('-' :: '-' :: body)))

/-- All tokens have the shape of their kind. -/
def AllLexical : List Token → Prop
  | [] => True
  | t :: ts => t.IsLexical (ts = []) ∧ AllLexical ts

/-- A token that may stand at a stricter place in a source may stand at a looser one. -/
theorem Token.IsLexical.imp {last last' : Prop} {t : Token} (h : t.IsLexical last)
    (hlast : last → last') : t.IsLexical last' := by
  cases h with
  | keyword h => exact .keyword h
  | punctuation h => exact .punctuation h
  | name text => exact .name text
  | string text => exact .string text
  | integer hne h => exact .integer hne h
  | negative hne h => exact .negative hne h
  | comparison h => exact .comparison h
  | comment h => exact .comment h
  | cut h hend => exact .cut h (hlast hend)

/-- In a list of lexical tokens each may stand as the last one. -/
theorem AllLexical.forall_mem {ts : List Token} (h : AllLexical ts) :
    ∀ t ∈ ts, t.IsLexical True := by
  induction ts with
  | nil => simp
  | cons t ts ih =>
    exact List.forall_mem_cons.2 ⟨h.1.imp fun _ => trivial, ih h.2⟩

section Shapes

variable {c : Char} {cs rest r : List Char} {t : Token}

/-- A line comment ends with its line, or with the source where the last line has no end. -/
theorem takeLine_shape (cs : List Char) :
    ∃ body, '\n' ∉ body ∧
      ((takeLine cs).1 = body ++ ['\n'] ∨ (takeLine cs).1 = body ∧ (takeLine cs).2 = []) := by
  fun_induction takeLine cs with
  | case1 => exact ⟨[], by simp, .inr ⟨rfl, rfl⟩⟩
  | case2 cs => exact ⟨[], by simp, .inl rfl⟩
  | case3 c cs hc r ih =>
    obtain ⟨body, hbody, hline⟩ := ih
    have hne : '\n' ≠ c := fun hline => hc hline.symm
    refine ⟨c :: body, by simp [hne, hbody], ?_⟩
    rcases hline with hline | ⟨hline, hend⟩
    · exact .inl (congrArg (c :: ·) hline)
    · exact .inr ⟨congrArg (c :: ·) hline, hend⟩

/-- The end of a comment does not come before its delimiter. -/
theorem takeComment_shape (h : takeComment cs = some (r, rest)) :
    ∃ body, r = body ++ ['*', '/'] ∧ ¬ ['*', '/'] <:+: body ++ ['*'] := by
  fun_induction takeComment cs generalizing r with
  | case1 => cases h
  | case2 cs =>
    obtain ⟨rfl, -⟩ := Prod.mk.inj (Option.some.inj h)
    exact ⟨[], rfl, by decide⟩
  | case3 c cs hopen ih =>
    obtain ⟨⟨u, after⟩, hu, hr⟩ := Option.map_eq_some_iff.1 h
    obtain ⟨rfl, rfl⟩ := Prod.mk.inj hr
    obtain ⟨body, rfl, hbody⟩ := ih hu
    obtain ⟨hcs, -⟩ := takeComment_local hu
    refine ⟨c :: body, rfl, fun hin => ?_⟩
    rcases List.infix_cons_iff.1 hin with hclose | hin
    · -- A delimiter here would be read as one.
      obtain ⟨rfl, hslash⟩ := List.cons_prefix_cons.1 hclose
      cases body with
      | nil => simp at hslash
      | cons d body =>
        obtain ⟨rfl, -⟩ := List.cons_prefix_cons.1 hslash
        exact hopen _ rfl (by rw [hcs]; rfl)
    · exact hbody hin

theorem doubling_mark (mark : Char) (text : List Char) :
    doubling mark (mark :: text) = mark :: mark :: doubling mark text := by
  rw [doubling, List.flatMap_cons, if_pos (beq_self_eq_true mark)]
  rfl

theorem doubling_of_ne {mark : Char} (hc : c ≠ mark) (text : List Char) :
    doubling mark (c :: text) = c :: doubling mark text := by
  rw [doubling, List.flatMap_cons, if_neg (by simpa using hc)]
  rfl

/-- What a string takes is a text with its quotes doubled, and the closing quote. -/
theorem takeString_shape (h : takeString cs = some (r, rest)) :
    ∃ text, r = doubling '\'' text ++ ['\''] := by
  fun_induction takeString cs generalizing r with
  | case1 => cases h
  | case2 cs ih =>
    obtain ⟨⟨u, after⟩, hu, hr⟩ := Option.map_eq_some_iff.1 h
    obtain ⟨rfl, rfl⟩ := Prod.mk.inj hr
    obtain ⟨text, rfl⟩ := ih hu
    exact ⟨'\'' :: text, rfl⟩
  | case3 c cs hdouble hquote =>
    obtain ⟨rfl, -⟩ := Prod.mk.inj (Option.some.inj h)
    exact ⟨[], rfl⟩
  | case4 c cs hdouble hquote ih =>
    obtain ⟨⟨u, after⟩, hu, hr⟩ := Option.map_eq_some_iff.1 h
    obtain ⟨rfl, rfl⟩ := Prod.mk.inj hr
    obtain ⟨text, rfl⟩ := ih hu
    exact ⟨c :: text, by rw [doubling_of_ne (by simpa using hquote), List.cons_append]⟩

theorem wordToken_isLexical (last : Prop) (word : String) : (wordToken word).IsLexical last := by
  rw [wordToken]
  split
  · rename_i hreserved
    exact .keyword (List.contains_iff_mem.1 hreserved)
  · exact .name word

theorem scanComparison_isLexical (last : Prop) (hc : c ∈ ['=', '<', '>', '!'])
    (h : scanComparison c cs = .ok (t, rest)) : t.IsLexical last := by
  unfold scanComparison at h
  split at h
  all_goals try
    obtain ⟨rfl, -⟩ := Prod.mk.inj (Except.ok.inj h)
    exact .comparison (by decide)
  · cases h
  · rename_i hbang _ _ _ _
    obtain ⟨rfl, -⟩ := Prod.mk.inj (Except.ok.inj h)
    simp only [List.mem_cons, List.not_mem_nil, or_false] at hc
    rcases hc with rfl | rfl | rfl | rfl
    · exact .comparison (by decide)
    · exact .comparison (by decide)
    · exact .comparison (by decide)
    · exact absurd rfl hbang

theorem scanWord_isLexical (last : Prop) (h : scanWord c cs = .ok (t, rest)) :
    t.IsLexical last := by
  unfold scanWord at h
  split at h
  · rename_i hdigit
    obtain ⟨rfl, -⟩ := Prod.mk.inj (Except.ok.inj h)
    exact .integer (List.cons_ne_nil _ _)
      (List.forall_mem_cons.2 ⟨hdigit, fun d hd => List.mem_takeWhile_imp hd⟩)
  · split at h
    · obtain ⟨rfl, -⟩ := Prod.mk.inj (Except.ok.inj h)
      exact wordToken_isLexical last _
    · cases h

/-- A minus begins a number or a comment, which may lack the end of its line as the last token only.
-/
theorem scanMinus_isLexical (h : scanMinus cs = .ok (t, rest)) : t.IsLexical (rest = []) := by
  unfold scanMinus at h
  split at h
  · rename_i line
    obtain ⟨rfl, rfl⟩ := Prod.mk.inj (Except.ok.inj h)
    obtain ⟨body, hbody, hline | ⟨hline, hend⟩⟩ := takeLine_shape line
    · rw [hline]
      exact .comment (.line hbody)
    · rw [hline]
      exact .cut hbody hend
  · rename_i d after _
    split at h
    · rename_i hdigit
      obtain ⟨rfl, -⟩ := Prod.mk.inj (Except.ok.inj h)
      refine .negative ?_ fun e he => List.mem_takeWhile_imp he
      rw [List.takeWhile_cons, if_pos hdigit]
      exact List.cons_ne_nil _ _
    · cases h
  · cases h

/-- What is read as a token has the shape of its kind. -/
theorem scanToken_isLexical (h : scanToken c cs = .ok (t, rest)) : t.IsLexical (rest = []) := by
  unfold scanToken at h
  split at h
  · exact scanMinus_isLexical h
  split at h
  · split at h
    · split at h
      · rename_i r hr
        obtain ⟨rfl, -⟩ := Prod.mk.inj (Except.ok.inj h)
        obtain ⟨body, hbody, hclosed⟩ := takeComment_shape hr
        rw [hbody]
        exact .comment (.block hclosed)
      · cases h
    · cases h
  split at h
  · rename_i hmark
    obtain ⟨rfl, -⟩ := Prod.mk.inj (Except.ok.inj h)
    exact .punctuation (List.contains_iff_mem.1 hmark)
  split at h
  · rename_i hcomparison
    exact scanComparison_isLexical _ (List.contains_iff_mem.1 hcomparison) h
  split at h
  · split at h
    · obtain ⟨rfl, -⟩ := Prod.mk.inj (Except.ok.inj h)
      exact .name _
    · cases h
  split at h
  · split at h
    · rename_i r hr
      obtain ⟨rfl, -⟩ := Prod.mk.inj (Except.ok.inj h)
      obtain ⟨text, htext⟩ := takeString_shape hr
      have hraw : String.ofList ('\'' :: r.1) = enclose '\'' (String.ofList text) := by
        rw [htext, enclose, String.toList_ofList, List.cons_append]
      rw [hraw]
      exact .string _
    · cases h
  · exact scanWord_isLexical _ h

/-- All tokens that are read up to the end of a source have the shape of their kind. -/
theorem Reads.allLexical {ts : List Token} (h : Reads cs ts []) : AllLexical ts := by
  generalize hend : ([] : List Char) = rest at h
  induction h with
  | done => trivial
  | blank _ _ ih => exact ih hend
  | token _ ht hafter ih =>
    refine ⟨(scanToken_isLexical ht).imp ?_, ih hend⟩
    rintro rfl
    cases hafter
    rfl

end Shapes

/-! ## Spellings -/

/-- How a token is written in the normal form of a source. -/
def Token.spelling : Token → String
  | keyword word => upper word
  | name n => enclose '"' n
  | comment raw => raw
  | t => t.text

/-- The tokens of a source as a text, with single spaces between them. -/
def normalForm (ts : List Token) : String := " ".intercalate (ts.map Token.spelling)

/-- A text that is read as one token is read as that token before any boundary. -/
theorem ReadsAs.reads {text : String} {t : Token} {rest : List Char} (h : ReadsAs text t)
    (hrest : Boundary rest) : Reads (text.toList ++ rest) [t] rest := by
  obtain ⟨c, cs, htext, hc, hscan⟩ := h
  rw [htext]
  exact .token hc (hscan rest hrest) (.done rest)

/-- Each comparison operator is read as itself. -/
theorem readsAs_comparison {operator : String}
    (h : operator ∈ ["=", "<", ">", "<=", ">=", "<>", "!="]) :
    ReadsAs operator (.comparison operator) := by
  -- An operator of one character does not go on with a space.
  have alone {c : Char} (hc : c ∈ ['=', '<', '>']) {rest : List Char} (hrest : Boundary rest) :
      scanToken c ([] ++ rest) = .ok (.comparison c.toString, rest) := by
    have hnot (d : Char) (hd : d ≠ ' ') (more : List Char) : rest = d :: more → False := by
      rintro rfl
      exact hd (hrest d rfl)
    have hscan : scanToken c rest = scanComparison c rest := by
      simp only [List.mem_cons, List.not_mem_nil, or_false] at hc
      rcases hc with rfl | rfl | rfl <;> rfl
    rw [List.nil_append, hscan, scanComparison]
    · rintro rfl
      simp at hc
    · exact fun more _ => hnot '=' (by decide) more
    · exact fun more _ => hnot '=' (by decide) more
    · exact fun more _ => hnot '=' (by decide) more
    · exact fun more _ => hnot '>' (by decide) more
  simp only [List.mem_cons, List.not_mem_nil, or_false] at h
  rcases h with rfl | rfl | rfl | rfl | rfl | rfl | rfl
  · exact ⟨'=', [], rfl, by decide, fun _ => alone (by decide)⟩
  · exact ⟨'<', [], rfl, by decide, fun _ => alone (by decide)⟩
  · exact ⟨'>', [], rfl, by decide, fun _ => alone (by decide)⟩
  · exact ⟨'<', ['='], rfl, by decide, fun _ _ => rfl⟩
  · exact ⟨'>', ['='], rfl, by decide, fun _ _ => rfl⟩
  · exact ⟨'<', ['>'], rfl, by decide, fun _ _ => rfl⟩
  · exact ⟨'!', ['='], rfl, by decide, fun _ _ => rfl⟩

/-- A line that the end of the source cuts off is read as a comment. -/
theorem reads_cut {body : List Char} (h : '\n' ∉ body) :
    Reads ('-' :: '-' :: body) [.comment (String.ofList ('-' :: '-' :: body))] [] := by
  have hline : takeLine body = (body, []) := by
    fun_induction takeLine body with
    | case1 => rfl
    | case2 => simp at h
    | case3 c cs _ r ih =>
      have hcs : takeLine cs = (cs, []) := ih (List.not_mem_of_not_mem_cons h)
      simp [r, hcs]
  have htoken : scanToken '-' ('-' :: body) =
      .ok (.comment (String.ofList ('-' :: '-' :: body)), []) := by
    simp [scanToken, scanMinus, hline]
  exact .token (by decide) htoken (.done [])

/-- A token is read from its spelling, where a space or the end of the source follows. -/
theorem Token.IsLexical.reads {last : Prop} {t : Token} {rest : List Char} (h : t.IsLexical last)
    (hrest : Boundary rest) (hlast : last → rest = []) :
    Reads (t.spelling.toList ++ rest) [t] rest := by
  cases h with
  | @keyword word h =>
    have hupper : ∀ w ∈ reservedWords, upper w = w := by decide +kernel
    rw [spelling, hupper word h]
    exact (Lexeme.readsAs_reserved h).reads hrest
  | punctuation h => exact (readsAs_mark h).reads hrest
  | name text => exact (readsAs_name text).reads hrest
  | string text => exact (readsAs_string text).reads hrest
  | integer hne h => exact (readsAs_digits hne h).reads hrest
  | negative hne h => exact (readsAs_minus hne h).reads hrest
  | comparison h => exact (readsAs_comparison h).reads hrest
  | comment h =>
    rw [spelling, String.toList_ofList]
    exact h.reads rest
  | cut h hend =>
    obtain rfl := hlast hend
    rw [spelling, String.toList_ofList, List.append_nil]
    exact reads_cut h

/-- The canonical spelling of lexical tokens is read back as them. -/
theorem reads_normalForm {ts : List Token} (h : AllLexical ts) :
    Reads (normalForm ts).toList ts [] := by
  rw [normalForm, String.toList_intercalate, List.map_map]
  induction ts with
  | nil => exact .done []
  | cons t ts ih =>
    obtain ⟨ht, hts⟩ := h
    cases ts with
    | nil =>
      have hread : Reads (t.spelling.toList ++ []) [t] [] :=
        ht.reads (by simp [Boundary]) fun _ => rfl
      simpa using hread
    | cons u ts =>
      have hread (rest : List Char) : Reads (t.spelling.toList ++ ' ' :: rest) [t] (' ' :: rest) :=
        ht.reads (by simp [Boundary]) (by simp)
      exact (hread _).append (.blank (by decide) (ih hts))

/-- The tokens of a source have the shapes of their kinds, and its normal form has the same
tokens. -/
theorem tokenize_normalForm {source : String} {ts : List Token} (h : tokenize source = .ok ts) :
    tokenize (normalForm ts) = .ok ts ∧ AllLexical ts := by
  have hlexical : AllLexical ts := (tokenize_eq_ok.1 h).allLexical
  exact ⟨tokenize_eq_ok.2 (reads_normalForm hlexical), hlexical⟩

/-- The normal form of a source that ends within a comment. -/
theorem tokenize_normalForm_select :
    let ts : List Token := [.keyword "SELECT", .name "a\"b", .comparison "<=", .string "'it''s'",
      .integer "-1", .comment "/*x*/", .comment "--end"]
    tokenize "Select \"a\"\"b\"<='it''s'-1/*x*/ --end" = .ok ts ∧
      normalForm ts = "SELECT \"a\"\"b\" <= 'it''s' -1 /*x*/ --end" ∧
      tokenize (normalForm ts) = .ok ts ∧ AllLexical ts := by
  intro ts
  have htokens : tokenize "Select \"a\"\"b\"<='it''s'-1/*x*/ --end" = .ok ts :=
    toOption_eq_some.1 (by decide +kernel)
  exact ⟨htokens, by decide +kernel, tokenize_normalForm htokens⟩

end SqlCatalog
