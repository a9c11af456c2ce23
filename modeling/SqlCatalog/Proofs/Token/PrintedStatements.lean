import SqlCatalog.Proofs.Token.Levels

/-!
# The text of grouped tokens

Each kind of group is printed with other gaps: names with dots between them and the arguments of a
call with none, a list with a space after each comma, and what stands in a parenthesis with a space
before each token but a comma. In all of these gaps a token ends, so that the text of a group is
read as the leaves of the group. The leaves of a level are nested as they were, and grouping makes
the same of them. This holds where every name is written as it is, without quotes.

## Main definitions

* `EndsToken` says what follows a text that ends with a token.
* `ReadsText` says which tokens a text is read as.
* `Token.ReadsBack` says that the text of a token is read as its leaves.

## Main statements

* `readsBack_of_isNested`: the text of a level, grouped or not.
* `nest_leavesAll`: the leaves of a level are nested as the level.
* `statements_text`: the text of a statement is this one statement again.
-/

namespace SqlCatalog

open Token

/-! ## Texts that end with a token -/

/-- Whether a token before `rest` does not go on. -/
def EndsToken (rest : List Char) : Prop := ∀ c ∈ rest.head?, endsToken c = true

theorem EndsToken.append {cs rest : List Char} (hcs : EndsToken cs) (hrest : EndsToken rest) :
    EndsToken (cs ++ rest) := by
  cases cs with
  | nil => exact hrest
  | cons c cs => exact hcs

/-- No token goes on with what stands in a gap. -/
theorem EndsToken.gap {c : Char} (hc : c ∈ [' ', '(', ')', ',', '.']) {text : String}
    (h : text.toList.head? = some c) : EndsToken text.toList := by
  intro d hd
  obtain rfl : c = d := by simpa [h] using hd
  simp only [List.mem_cons, List.not_mem_nil, or_false] at hc
  rcases hc with rfl | rfl | rfl | rfl | rfl <;> decide +kernel

/-- The text is read as the tokens, where no token goes on after it. -/
def ReadsText (text : String) (ts : List Token) : Prop :=
  ∀ rest, EndsToken rest → Reads (text.toList ++ rest) ts rest

/-- A text whose last token is no comment can go on with what this token does not go on with. -/
theorem Reads.readsText {text : String} {ts : List Token} (h : Reads text.toList ts [])
    (hts : ∀ t ∈ ts, t.isSignificant = true) : ReadsText text ts := by
  intro rest hrest
  obtain ⟨before, htext, hgoesOn⟩ := h.replace (.inr hts)
  rw [htext, List.append_nil]
  exact hgoesOn rest (.inr hrest)

/-- A text that is read as one significant token is read as that token alone. -/
theorem ReadsAs.readsText {text : String} {t : Token} (h : ReadsAs text t)
    (ht : t.isSignificant = true) : ReadsText text [t] := by
  have hread : Reads (text.toList ++ []) [t] [] := h.reads (by simp [Boundary])
  rw [List.append_nil] at hread
  exact hread.readsText (by simpa using ht)

namespace ReadsText

variable {a b : String} {ts us : List Token}

theorem nil : ReadsText "" [] := fun rest _ => .done rest

theorem append (ha : ReadsText a ts) (hb : ReadsText b us) (hends : EndsToken b.toList) :
    ReadsText (a ++ b) (ts ++ us) := by
  intro rest hrest
  rw [String.toList_append, List.append_assoc]
  exact (ha _ (hends.append hrest)).append (hb rest hrest)

/-- White space is passed over. -/
theorem space (hb : ReadsText b us) : ReadsText (" " ++ b) us := by
  intro rest hrest
  rw [String.toList_append]
  exact .blank (by decide) (hb rest hrest)

/-- Two texts with a space between them are read as the tokens of both. -/
theorem spaced (ha : ReadsText a ts) (hb : ReadsText b us) :
    ReadsText (a ++ (" " ++ b)) (ts ++ us) :=
  ha.append hb.space (.gap (c := ' ') (by decide) (by simp))

/-- A mark is a token of its own, whatever follows it. -/
theorem mark {c : Char} (hc : c ∈ ['(', ')', ',', ';', '.']) (hb : ReadsText b us) :
    ReadsText (c.toString ++ b) (.punctuation c :: us) := by
  intro rest hrest
  have hscan : isBlank c = false ∧ scanToken c (b.toList ++ rest) =
      .ok (.punctuation c, b.toList ++ rest) := by
    simp only [List.mem_cons, List.not_mem_nil, or_false] at hc
    rcases hc with rfl | rfl | rfl | rfl | rfl <;> exact ⟨by decide, rfl⟩
  have hlist : (c.toString ++ b).toList = c :: b.toList := by simp
  rw [hlist]
  exact .token hscan.1 hscan.2 (hb rest hrest)

end ReadsText

/-! ## Single tokens -/

/-- A token of a source that is no comment and can be written without quotes. -/
structure Token.IsPlain (t : Token) : Prop where
  lexical : t.IsLexical True
  significant : t.isSignificant = true
  plain : ∀ n, t = .name n → isPlainName n = true ∧ upper n ∉ reservedWords

/-- The text of the token is read as its leaves. -/
def Token.ReadsBack (t : Token) : Prop := ReadsText t.text t.leaves

/-- A plain token's text is read back as the token. -/
theorem Token.IsPlain.readsBack {t : Token} (h : t.IsPlain) : t.ReadsBack := by
  obtain ⟨hlexical, hsignificant, hplain⟩ := h
  rw [ReadsBack, hlexical.leaves_eq]
  cases t with
  | name n =>
    obtain ⟨hn, hreserved⟩ := hplain n rfl
    exact (Lexeme.readsAs (l := .word n) ⟨hn, hreserved⟩).readsText rfl
  | keyword word =>
    have hreserved : word ∈ reservedWords := by
      cases hlexical
      assumption
    exact (Lexeme.readsAs_reserved hreserved).readsText rfl
  | comment => cases hsignificant
  | _ =>
    have hspelled : Reads (_ ++ []) _ [] := hlexical.reads (by simp [Boundary]) fun _ => rfl
    rw [List.append_nil] at hspelled
    exact hspelled.readsText (by simp [isSignificant])

/-! ## Groups -/

section Groups

variable {ts items parts inner : List Token}

/-- Spaced text begins with a space, so it ends whatever token stands before it. -/
theorem endsToken_textSpaced (ts : List Token) : EndsToken (textSpaced false ts).toList := by
  cases ts with
  | nil => simp [EndsToken, textSpaced]
  | cons t ts =>
    rw [textSpaced]
    by_cases hcomma : t.isMark ',' = true
    · obtain rfl := eq_of_isMark hcomma
      exact .gap (c := ',') (by decide) (by simp [text, isMark])
    · exact .gap (c := ' ') (by decide) (by simp [hcomma])

/-- The tokens of a level, with spaces between them, are read back as their leaves. -/
theorem readsText_textSpaced (first : Bool) (h : ∀ t ∈ ts, t.ReadsBack) :
    ReadsText (textSpaced first ts) (leavesAll ts) := by
  induction ts generalizing first with
  | nil => exact .nil
  | cons t ts ih =>
    obtain ⟨ht, hts⟩ := List.forall_mem_cons.1 h
    rw [textSpaced, leavesAll]
    refine ReadsText.append ?_ (ih false hts) (endsToken_textSpaced ts)
    split
    · rwa [String.empty_append]
    · exact ht.space

/-- A parenthesis around tokens that are read back is read back. -/
theorem readsBack_paren (h : ∀ t ∈ inner, t.ReadsBack) : (paren inner).ReadsBack := by
  have hclose : ReadsText ")" [.punctuation ')'] := .mark (c := ')') (by decide) .nil
  have hinner : ReadsText (textSpaced true inner ++ ")") (leavesAll inner ++ [.punctuation ')']) :=
    (readsText_textSpaced true h).append hclose (.gap (c := ')') (by decide) rfl)
  have hopen := ReadsText.mark (c := '(') (by decide) hinner
  rw [ReadsBack, text, leaves, String.append_assoc]
  exact hopen

theorem readsBack_list (h : ∀ t ∈ items, t.ReadsBack) (hlist : isCommaSeparated items = true) :
    (list items).ReadsBack := by
  have comma {item : Token} (hitem : item.isItem = true) : item.isMark ',' = false := by
    cases item <;> first | rfl | cases hitem
  rw [ReadsBack, text, leaves]
  fun_induction isCommaSeparated items with
  | case1 => exact .nil
  | case2 item =>
    have hitem := (h item (by simp)).append .nil (by simp [EndsToken])
    rw [textListed, comma hlist, textListed, leavesAll, leavesAll]
    exact hitem
  | case3 item next rest ih =>
    simp only [Bool.and_eq_true] at hlist
    obtain ⟨⟨hitem, hnext⟩, hrest⟩ := hlist
    obtain rfl := eq_of_isMark hnext
    simp only [List.forall_mem_cons] at h
    obtain ⟨hread, -, hmore⟩ := h
    have htail := ReadsText.mark (c := ',') (by decide) (ih hmore hrest).space
    have hall := hread.append htail (.gap (c := ',') (by decide) (by simp))
    have hgap : ", " ++ textListed rest = ','.toString ++ (" " ++ textListed rest) := by
      rw [← String.append_assoc]
      rfl
    rw [textListed, comma hitem, textListed, leavesAll, leavesAll]
    rw [← hgap] at hall
    exact hall

theorem textTight_append (ts us : List Token) :
    textTight (ts ++ us) = textTight ts ++ textTight us := by
  induction ts with
  | nil => simp [textTight]
  | cons t ts ih => rw [List.cons_append, textTight, ih, textTight, String.append_assoc]

/-- A dotted name goes on with a dot and a name. -/
theorem readsText_dotted (h : ReadsText (textTight parts) (leavesAll parts)) {n : String}
    (hn : (name n).ReadsBack) :
    ReadsText (textTight (parts ++ [.punctuation '.', .name n]))
      (leavesAll (parts ++ [.punctuation '.', .name n])) := by
  have hdot : ReadsText ('.'.toString ++ n) [.punctuation '.', .name n] :=
    .mark (by decide) hn
  have htail : textTight [.punctuation '.', .name n] = '.'.toString ++ n := by
    simp [textTight, text]
  rw [textTight_append, htail, leavesAll_append]
  exact h.append hdot (.gap (c := '.') (by decide) (by simp))

/-- A call is read back when its name and its arguments are. -/
theorem readsBack_call (h : ReadsText (textTight parts) (leavesAll parts))
    (hinner : (paren inner).ReadsBack) : (call [.identifier parts, .paren inner]).ReadsBack := by
  have harguments := ReadsText.append hinner .nil (by simp [EndsToken])
  have hcall := h.append harguments (.gap (c := '(') (by decide) (by simp [text]))
  simp only [ReadsBack, text, textTight, leaves, leavesAll]
  exact hcall

end Groups

/-! ## Levels -/

section Levels

variable {o : OpenName} {t : Token} {ts level : List Token}

/-- The text of the identifier that is being read is read as its leaves. -/
def OpenName.ReadsBack : OpenName → Prop
  | none => True
  | ended parts | dotted parts => ReadsText (textTight parts) (leavesAll parts)

/-- A name that is read back stays so as it grows by a token. -/
theorem OpenName.ReadsBack.after (ho : o.ReadsBack) (ht : t.ReadsBack) :
    (o.after t).ReadsBack := by
  have single {n : String} (hn : (name n).ReadsBack) :
      ReadsText (textTight [.name n]) (leavesAll [.name n]) := by
    have hname := ReadsText.append hn .nil (by simp [EndsToken])
    simpa [textTight, leavesAll] using hname
  fun_cases OpenName.after o t with
  | case1 n => exact single ht
  | case2 parts n => exact single ht
  | case3 parts => exact ho
  | case4 parts n => exact readsText_dotted ho ht
  | case5 => trivial

/-- A dotted name is read back when its parts are, written without spaces. -/
theorem readsBack_identifier {parts : List Token}
    (h : ReadsText (textTight parts) (leavesAll parts)) : (identifier parts).ReadsBack := by
  rw [Token.ReadsBack, text, leaves]
  exact h

theorem readsBack_dot : (punctuation '.').ReadsBack := .mark (c := '.') (by decide) .nil

/-- What a token completes is read back. -/
theorem OpenName.ReadsBack.emit (ho : o.ReadsBack) (ht : t.ReadsBack)
    (hinside : (groupInside t).ReadsBack) : ∀ u ∈ o.emit t, u.ReadsBack := by
  fun_cases OpenName.emit o t with
  | case1 | case2 | case3 => simp
  | case4 => simpa using hinside
  | case5 parts => simpa using readsBack_identifier ho
  | case6 parts inner =>
    rw [List.forall_mem_singleton]
    exact readsBack_call ho hinside
  | case7 parts => simpa using ⟨readsBack_identifier ho, ht⟩
  | case8 parts => simpa using ⟨readsBack_identifier ho, readsBack_dot, ht⟩

/-- What grouping gives is read back, when every token of the level is, inside and out. -/
theorem readsBack_groupFrom (ho : o.ReadsBack)
    (hts : ∀ t ∈ ts, t.ReadsBack ∧ (groupInside t).ReadsBack) :
    ∀ u ∈ groupFrom o ts, u.ReadsBack := by
  induction ts generalizing o with
  | nil =>
    cases o with
    | none => simp [groupFrom]
    | ended parts => simpa [groupFrom] using readsBack_identifier ho
    | dotted parts => simpa [groupFrom] using ⟨readsBack_identifier ho, readsBack_dot⟩
  | cons t ts ih =>
    obtain ⟨⟨ht, hinside⟩, hts⟩ := List.forall_mem_cons.1 hts
    rw [groupFrom_cons]
    exact List.forall_mem_append.2 ⟨ho.emit ht hinside, ih (ho.after ht) hts⟩

/-- The tokens of a level are no comments, grouped or not. -/
theorem isSignificant_groupFrom (h : ∀ t ∈ level, t.IsNested Token.IsPlain) :
    ∀ u ∈ groupFrom .none level, u.isSignificant = true := by
  refine forall_mem_groupFrom (Q := fun t => t.isSignificant = true) (fun _ => rfl) (fun _ => rfl)
    (fun _ => rfl) rfl .none fun t ht => ?_
  cases h t ht with
  | leaf hleaf => exact hleaf.significant
  | paren => rfl

/-- A level without comments that grouping takes for a list has commas between its items. -/
theorem isCommaSeparated_of_isListLevel (h : ∀ t ∈ level, t.IsNested Token.IsPlain)
    (hlist : isListLevel (groupFrom .none level) = true) :
    isCommaSeparated (groupFrom .none level) = true := by
  have hseparated := (Bool.and_eq_true_iff.1 hlist).2
  rwa [List.filter_eq_self.2 (isSignificant_groupFrom h)] at hseparated

/-- The text of a token of a level is read as its leaves, and also what is grouped inside. -/
theorem readsBack_of_isNested (h : t.IsNested Token.IsPlain) :
    t.ReadsBack ∧ (groupInside t).ReadsBack := by
  induction h with
  | @leaf t h =>
    have hinside : groupInside t = t := by
      cases t with
      | paren => cases h.lexical
      | _ => rfl
    rw [hinside]
    exact ⟨h.readsBack, h.readsBack⟩
  | @paren inner h ih =>
    refine ⟨readsBack_paren fun t ht => (ih t ht).1, readsBack_paren ?_⟩
    have hgrouped := readsBack_groupFrom (o := .none) trivial ih
    rw [asList]
    split
    · rename_i hlist
      simpa using readsBack_list hgrouped (isCommaSeparated_of_isListLevel h hlist)
    · exact hgrouped

/-- Nesting the leaves of tokens puts those tokens back on the open level. -/
theorem nestFrom_leavesAll {us : List Token} {outer : List (List Token)}
    (h : ∀ t ∈ ts, ∀ level outer us,
      nestFrom level outer (t.leaves ++ us) = nestFrom (t :: level) outer us) :
    nestFrom level outer (leavesAll ts ++ us) = nestFrom (ts.reverse ++ level) outer us := by
  induction ts generalizing level with
  | nil => rfl
  | cons t ts ih =>
    obtain ⟨ht, hts⟩ := List.forall_mem_cons.1 h
    rw [leavesAll, List.append_assoc, ht, ih hts, List.reverse_cons, List.append_assoc,
      List.singleton_append]

/-- The leaves of a token of a level are nested as the token. -/
theorem nestFrom_leaves (h : t.IsNested Token.IsPlain) (level : List Token)
    (outer : List (List Token)) (us : List Token) :
    nestFrom level outer (t.leaves ++ us) = nestFrom (t :: level) outer us := by
  induction h generalizing level outer us with
  | leaf h hopen hclose =>
    rw [h.lexical.leaves_eq, List.singleton_append, nestFrom_cons, hopen, hclose,
      if_neg Bool.false_ne_true, if_neg Bool.false_ne_true]
  | @paren inner h ih =>
    rw [leaves, List.cons_append, Phrase.nestFrom_open, List.append_assoc,
      nestFrom_leavesAll fun t ht => ih t ht, List.singleton_append, Phrase.nestFrom_close,
      List.append_nil, List.reverse_reverse]

/-- The leaves of a level are nested as the level. -/
theorem nest_leavesAll (h : ∀ t ∈ level, t.IsNested Token.IsPlain) :
    nest (leavesAll level) = some level := by
  have hall : nestFrom [] [] (leavesAll level ++ []) = nestFrom (level.reverse ++ []) [] [] :=
    nestFrom_leavesAll fun t ht => nestFrom_leaves (h t ht)
  rw [List.append_nil] at hall
  rw [nest, hall]
  simp [nestFrom]

/-! ## Statements -/

/-- Tokens with single spaces between them are read as their leaves. -/
theorem readsText_intercalate (h : ∀ t ∈ ts, t.ReadsBack) :
    ReadsText (" ".intercalate (ts.map text)) (leavesAll ts) := by
  induction ts with
  | nil => exact .nil
  | cons t ts ih =>
    obtain ⟨ht, hts⟩ := List.forall_mem_cons.1 h
    cases ts with
    | nil =>
      have hsingle := ReadsText.append ht .nil (by simp [EndsToken])
      simpa [leavesAll] using hsingle
    | cons u ts =>
      have hall := ReadsText.spaced ht (ih hts)
      have htext : " ".intercalate ((t :: u :: ts).map text) =
          t.text ++ (" " ++ " ".intercalate ((u :: ts).map text)) := by
        simp [String.append_assoc]
      rw [htext]
      exact hall

/-- A level without semicolons is the one statement of a text that is read as its leaves. -/
theorem statements_of_level {source : String} (h : ∀ t ∈ level, t.IsNested Token.IsPlain)
    (hmark : ∀ t ∈ level, t.isMark ';' = false) (hne : level ≠ [])
    (hread : ReadsText source (leavesAll level)) :
    statements source = .ok [asList (groupFrom .none level)] := by
  have htokens : tokenize source = .ok (leavesAll level) := by
    have hsource := hread [] (by simp [EndsToken])
    rw [List.append_nil] at hsource
    exact tokenize_eq_ok.2 hsource
  have hsplit : splitStatements [] (groupLevel level) = [asList (groupFrom .none level)] := by
    rw [groupLevel, asList]
    split
    · exact splitStatements_of_no_semicolon (by simp) (by simp [isMark])
    · exact splitStatements_of_no_semicolon (groupFrom_ne_nil (.inr hne))
        (isMark_groupFrom .none hmark)
  rw [← hsplit]
  exact statements_eq_ok.2 ⟨_, level, htokens, nest_leavesAll h, rfl⟩

/-- The text of a statement, with single spaces between its tokens, has one statement, which has the
same flat tokens and the same leaves: the statement itself, or the list that it is on its own. The
source has no comments and no names but those that are written without quotes. -/
theorem statements_text {source : String} {script : List Statement} {statement : Statement}
    (htokens : tokenize source = .ok ts) (hcomments : ∀ t ∈ ts, t.isSignificant = true)
    (hnames : ∀ n, name n ∈ ts → isPlainName n = true ∧ upper n ∉ reservedWords)
    (hscript : statements source = .ok script) (hmem : statement ∈ script)
    (hne : statement ≠ []) :
    statements (" ".intercalate (statement.map text)) = .ok [asList statement] ∧
      flatten (asList statement) = flatten statement ∧
        leavesAll (asList statement) = leavesAll statement := by
  refine ⟨?_, Phrase.flatten_asList statement, leavesAll_asList statement⟩
  have hplain : ∀ t ∈ ts, t.IsPlain := by
    refine fun t ht => ⟨(tokenize_eq_ok.1 htokens).allLexical.forall_mem t ht, hcomments t ht, ?_⟩
    rintro n rfl
    exact hnames n ht
  obtain ⟨level, hnested, hmark, hlevel⟩ := exists_level htokens hplain hscript hmem
  have hgrouped := readsBack_groupFrom (o := .none) trivial fun t ht =>
    readsBack_of_isNested (hnested t ht)
  have hleaves : leavesAll (groupFrom .none level) = leavesAll level :=
    leavesAll_groupFrom .none level
  have hsome (hgroups : groupFrom .none level ≠ []) : level ≠ [] := by
    rintro rfl
    exact hgroups rfl
  rcases hlevel with rfl | ⟨hlist, rfl⟩
  · have hread := readsText_intercalate hgrouped
    rw [hleaves] at hread
    exact statements_of_level hnested hmark (hsome hne) hread
  · have hitems := readsBack_list hgrouped (isCommaSeparated_of_isListLevel hnested hlist)
    have hread := readsText_intercalate (List.forall_mem_singleton.2 hitems)
    have hsame : leavesAll [list (groupFrom .none level)] = leavesAll level := by
      simp [leavesAll, leaves, hleaves]
    rw [hsame] at hread
    have hgroups : groupFrom .none level ≠ [] := by
      intro hnil
      simp [hnil, isListLevel] at hlist
    rw [statements_of_level hnested hmark (hsome hgroups) hread]
    have hanswer : asList (groupFrom .none level) = [list (groupFrom .none level)] := if_pos hlist
    rw [hanswer]
    rfl

end Levels

/-- Names that are in quotes but need none, a list of arguments, a parenthesis after a dot and a dot
that nothing follows. -/
theorem statements_text_dotted :
    let source := "\"f\"(\"a\".\"b\",-1,'x''y')<=1;;\"g\".(\"h\",2)\"i\"."
    let script : List Statement := [[.call [.identifier [.name "f"],
        .paren [.list [.identifier [.name "a", .punctuation '.', .name "b"], .punctuation ',',
          .integer "-1", .punctuation ',', .string "'x''y'"]]], .comparison "<=", .integer "1"],
      [], [.identifier [.name "g"], .punctuation '.', .paren [.name "h", .punctuation ',',
        .integer "2"], .identifier [.name "i"], .punctuation '.']]
    statements source = .ok script ∧ ∀ statement ∈ script, statement ≠ [] →
      statements (" ".intercalate (statement.map text)) = .ok [asList statement] ∧
        flatten (asList statement) = flatten statement ∧
          leavesAll (asList statement) = leavesAll statement := by
  intro source script
  let ts : List Token := [.name "f", .punctuation '(', .name "a",
    .punctuation '.', .name "b", .punctuation ',', .integer "-1", .punctuation ',',
    .string "'x''y'", .punctuation ')', .comparison "<=", .integer "1", .punctuation ';',
    .punctuation ';', .name "g", .punctuation '.', .punctuation '(', .name "h", .punctuation ',',
    .integer "2", .punctuation ')', .name "i", .punctuation '.']
  have htokens : tokenize source = .ok ts :=
    toOption_eq_some.1 (by decide +kernel)
  have hscript : statements source = .ok script := statements_eq_ok.2 ⟨ts, _, htokens, rfl, rfl⟩
  have hnames : ∀ n, name n ∈ ts → isPlainName n = true ∧ upper n ∉ reservedWords := by
    have hall : ∀ n ∈ ["f", "a", "b", "g", "h", "i"],
        isPlainName n = true ∧ upper n ∉ reservedWords := by
      decide +kernel
    exact fun n hn => hall n (by simpa [ts] using hn)
  exact ⟨hscript, fun _ hmem hne => statements_text htokens (by decide) hnames hscript hmem hne⟩

end SqlCatalog
