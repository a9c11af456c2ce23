import SqlCatalog.Proofs.Token.LetterCase

/-!
# The case of letters in a source

The letters of a source that are not in string literals, quoted names or comments belong to words.
Sources that are the same but for the case of these letters have the same statements but for the
case of words, or the same fault at the same place.

## Main definitions

* `foldSource` puts the ASCII letters outside literals, quoted names and comments in lower case.
* `Recased` says that two sources are the same when this is done.

## Main statements

* `scanToken_foldSource`, `scan_foldSource`: tokens are the same but for the case of words.
* `statements_recased`: so are statements.
-/

namespace SqlCatalog

/-! ## The letters of words -/

/-- What a character of a source is part of. -/
inductive Region where
  | code
  | string
  | name
  | line
  | block
deriving DecidableEq

/-- The characters with the ASCII letters of words in lower case, when the first one is in the given
region. Two quotes in a row end a region and begin another one of its kind. -/
def foldSource : Region → List Char → List Char
  | _, [] => []
  | .code, '-' :: '-' :: cs => '-' :: '-' :: foldSource .line cs
  | .code, '/' :: '*' :: cs => '/' :: '*' :: foldSource .block cs
  | .code, '\'' :: cs => '\'' :: foldSource .string cs
  | .code, '"' :: cs => '"' :: foldSource .name cs
  | .code, c :: cs => c.toLower :: foldSource .code cs
  | .string, c :: cs => c :: foldSource (if c = '\'' then .code else .string) cs
  | .name, c :: cs => c :: foldSource (if c = '"' then .code else .name) cs
  | .line, c :: cs => c :: foldSource (if c = '\n' then .code else .line) cs
  | .block, '*' :: '/' :: cs => '*' :: '/' :: foldSource .code cs
  | .block, c :: cs => c :: foldSource .block cs

/-- Whether the sources are the same but for the case of ASCII letters outside string literals,
quoted names and comments. -/
def Recased (a b : String) : Prop := foldSource .code a.toList = foldSource .code b.toList

/-- The change of a character in a region. -/
def Region.change : Region → Char → Char
  | code => Char.toLower
  | _ => id

theorem head?_foldSource (r : Region) (cs : List Char) :
    (foldSource r cs).head? = cs.head?.map r.change := by
  fun_cases foldSource r cs with
  | _ => rfl

/-- A mark stands first after folding only if it did before. -/
theorem foldSource_ne {r : Region} {cs : List Char} {mark : Char} (hmark : mark.isAlpha = false)
    {P : Prop} (h : ∀ es, P → cs = mark :: es → False) :
    ∀ ds, P → foldSource r cs = mark :: ds → False := by
  intro ds hP hds
  have hhead := head?_foldSource r cs
  rw [hds] at hhead
  obtain ⟨c, hc, hchange⟩ := Option.map_eq_some_iff.1 hhead.symm
  have hsame : (r.change c == mark) = (c == mark) := by
    cases r with
    | code => exact toLower_beq hmark c
    | _ => rfl
  rw [hchange, beq_self_eq_true] at hsame
  rw [eq_of_beq hsame.symm] at hc
  obtain ⟨es, hes⟩ := List.head?_eq_some_iff.1 hc
  exact h es hP hes

theorem length_foldSource (r : Region) (cs : List Char) :
    (foldSource r cs).length = cs.length := by
  fun_induction foldSource r cs with
  | _ => simp [*]

/-- A character that begins nothing else is part of a word or stands alone. -/
theorem foldSource_code {c : Char} (hdash : c ≠ '-') (hslash : c ≠ '/') (hquote : c ≠ '\'')
    (hname : c ≠ '"') (cs : List Char) :
    foldSource .code (c :: cs) = c.toLower :: foldSource .code cs := by
  rw [foldSource] <;> simp_all

/-! ## Regions that end -/

/-- A line comment ends at the same place in the folded source, with the same text. -/
theorem takeLine_foldSource (cs : List Char) :
    takeLine (foldSource .line cs) = ((takeLine cs).1, foldSource .code (takeLine cs).2) := by
  fun_induction takeLine cs with
  | case1 => rfl
  | case2 cs => rfl
  | case3 c cs hc r ih =>
    rw [foldSource, if_neg hc, takeLine, ih]
    exact hc

theorem takeComment_foldSource (cs : List Char) :
    takeComment (foldSource .block cs) =
      (takeComment cs).map fun r => (r.1, foldSource .code r.2) := by
  fun_induction takeComment cs with
  | case1 => rfl
  | case2 cs => rfl
  | case3 c cs hc ih =>
    rw [foldSource, takeComment, ih, Option.map_map, Option.map_map]
    · rfl
    · exact foldSource_ne (by decide) hc
    · exact hc

theorem takeString_foldSource (cs : List Char) :
    takeString (foldSource .string cs) =
      (takeString cs).map fun r => (r.1, foldSource .code r.2) := by
  fun_induction takeString cs with
  | case1 => rfl
  | case2 cs ih =>
    rw [foldSource, if_pos rfl, foldSource, takeString, ih, Option.map_map, Option.map_map]
    rfl
  | case3 c cs hc hquote =>
    obtain rfl := eq_of_beq hquote
    rw [foldSource, if_pos rfl, takeString, if_pos hquote]
    · rfl
    · exact foldSource_ne (by decide) hc
  | case4 c cs hc hquote ih =>
    have hne : c ≠ '\'' := by simpa using hquote
    rw [foldSource, if_neg hne, takeString, if_neg hquote, ih, Option.map_map, Option.map_map]
    · rfl
    · exact fun _ h _ => hne h

theorem takeName_foldSource (cs : List Char) :
    takeName (foldSource .name cs) =
      (takeName cs).map fun r => (r.1, foldSource .code r.2) := by
  fun_induction takeName cs with
  | case1 => rfl
  | case2 cs ih =>
    rw [foldSource, if_pos rfl, foldSource, takeName, ih, Option.map_map, Option.map_map]
    rfl
  | case3 c cs hc hquote =>
    obtain rfl := eq_of_beq hquote
    rw [foldSource, if_pos rfl, takeName, if_pos hquote]
    · rfl
    · exact foldSource_ne (by decide) hc
  | case4 c cs hc hquote ih =>
    have hne : c ≠ '"' := by simpa using hquote
    rw [foldSource, if_neg hne, takeName, if_neg hquote, ih, Option.map_map, Option.map_map]
    · rfl
    · exact fun _ h _ => hne h

/-! ## Runs of characters -/

/-- Whether a character begins no region and is not changed in kind by lowering. -/
structure IsWordKind (p : Char → Bool) : Prop where
  lower : ∀ c, p c.toLower = p c
  dash : p '-' = false
  slash : p '/' = false
  quote : p '\'' = false
  name : p '"' = false

/-- A run of one kind of character is as long in the folded source, and lower case there. -/
theorem span_foldSource {p : Char → Bool} (h : IsWordKind p) (cs : List Char) :
    (foldSource .code cs).takeWhile p = (cs.takeWhile p).map Char.toLower ∧
      (foldSource .code cs).dropWhile p = foldSource .code (cs.dropWhile p) := by
  induction cs with
  | nil => exact ⟨rfl, rfl⟩
  | cons c cs ih =>
    cases hc : p c with
    | true =>
      have hne {mark : Char} (hmark : p mark = false) : c ≠ mark := by
        rintro rfl
        rw [hc] at hmark
        cases hmark
      rw [foldSource_code (hne h.dash) (hne h.slash) (hne h.quote) (hne h.name),
        List.takeWhile_cons, List.dropWhile_cons, h.lower, hc, List.takeWhile_cons,
        List.dropWhile_cons, hc]
      exact ⟨congrArg _ ih.1, ih.2⟩
    | false =>
      obtain ⟨ds, hds⟩ := List.head?_eq_some_iff.1 (head?_foldSource .code (c :: cs))
      have hlower : p c.toLower = false := (h.lower c).trans hc
      have hrest : foldSource .code ((c :: cs).dropWhile p) = c.toLower :: ds := by
        rw [List.dropWhile_cons, hc]
        exact hds
      have hfirst : ¬ p (Region.code.change c) = true := by simpa [Region.change] using hlower
      rw [hrest, hds, List.takeWhile_cons_of_neg hfirst, List.dropWhile_cons_of_neg hfirst,
        List.takeWhile_cons_of_neg (by simpa using hc)]
      exact ⟨rfl, rfl⟩

theorem isWordKind_isBlank : IsWordKind isBlank := ⟨isBlank_toLower, rfl, rfl, rfl, rfl⟩

theorem isWordKind_isDigit : IsWordKind Char.isDigit := ⟨isDigit_toLower, rfl, rfl, rfl, rfl⟩

theorem isWordKind_isWordChar : IsWordKind isWordChar :=
  ⟨isWordChar_toLower, by decide, by decide, by decide, by decide⟩

/-! ## Tokens -/

/-- What reading a token gives, with the token folded and what follows changed. -/
abbrev foldedScan (rest : List Char → List Char) (x : Except LexFault (Token × List Char)) :
    Except LexFault (Token × List Char) :=
  Prod.map (Token.folded false) rest <$> x

/-- A word and its lower case fold to the same token. -/
theorem wordToken_asciiLower (word : String) :
    (wordToken (asciiLower word)).folded false = (wordToken word).folded false := by
  rw [wordToken, upper_asciiLower, wordToken]
  split
  · rfl
  · exact congrArg Token.name (asciiLower_asciiLower word)

theorem takeWhile_isDigit_toLower (cs : List Char) :
    (cs.takeWhile Char.isDigit).map Char.toLower = cs.takeWhile Char.isDigit := by
  refine (List.map_congr_left fun c hc => ?_).trans (List.map_id _)
  exact toLower_of_isDigit (List.mem_takeWhile_imp hc)

/-- Scanning a word commutes with folding, up to the letters of the word. -/
theorem scanWord_foldSource (c : Char) (cs : List Char) :
    foldedScan id (scanWord c.toLower (foldSource .code cs)) =
      foldedScan (foldSource .code) (scanWord c cs) := by
  have hunderscore : (c.toLower == '_') = (c == '_') := toLower_beq rfl c
  obtain ⟨hdigits, hafterDigits⟩ := span_foldSource isWordKind_isDigit cs
  obtain ⟨hword, hafterWord⟩ := span_foldSource isWordKind_isWordChar cs
  rw [scanWord, isDigit_toLower, isAlphabetic_toLower, hunderscore, hdigits, hafterDigits, hword,
    hafterWord, takeWhile_isDigit_toLower, scanWord]
  split
  · rename_i hdigit
    rw [toLower_of_isDigit hdigit]
    rfl
  split
  · have htoken := wordToken_asciiLower (String.ofList (c :: cs.takeWhile isWordChar))
    rw [asciiLower, String.toList_ofList] at htoken
    exact congrArg (fun t => Except.ok (t, foldSource .code (cs.dropWhile isWordChar))) htoken
  · rename_i hletter
    have hletter := (Bool.or_eq_false_iff.1 (Bool.eq_false_iff.2 hletter)).1
    rw [toLower_of_not_isAlphabetic hletter]
    rfl

theorem scanComparison_foldSource (c : Char) (cs : List Char) :
    foldedScan id (scanComparison c (foldSource .code cs)) =
      foldedScan (foldSource .code) (scanComparison c cs) := by
  fun_cases scanComparison c cs with
  | case1 rest | case2 rest | case3 rest | case4 rest =>
    rw [foldSource_code (by decide) (by decide) (by decide) (by decide)]
    rfl
  | case5 cs hbang =>
    rw [scanComparison]
    · rfl
    · exact fun ds => foldSource_ne (by decide) (fun es (_ : True) => hbang es) ds trivial
  | case6 c cs hless hgreater hbang hless' hbang' =>
    rw [scanComparison]
    · rfl
    · exact hbang'
    · exact foldSource_ne (by decide) hless
    · exact foldSource_ne (by decide) hgreater
    · exact foldSource_ne (by decide) hbang
    · exact foldSource_ne (by decide) hless'

/-- A minus sign that begins no comment. -/
theorem scanMinus_of_head {c : Char} {cs : List Char} (hc : c ≠ '-') (h : cs.head? = some c) :
    scanMinus cs =
      if c.isDigit then
        .ok (.integer (String.ofList ('-' :: cs.takeWhile Char.isDigit)), cs.dropWhile Char.isDigit)
      else .error (.unexpected '-') := by
  obtain ⟨rest, rfl⟩ := List.head?_eq_some_iff.1 h
  rw [scanMinus]
  exact hc

/-- What a minus begins commutes with folding; a comment keeps its letters. -/
theorem scanMinus_foldSource (cs : List Char) :
    foldedScan id (scanMinus (foldSource .code ('-' :: cs)).tail) =
      foldedScan (foldSource .code) (scanMinus cs) := by
  cases cs with
  | nil => rfl
  | cons c rest =>
    by_cases hc : c = '-'
    · subst hc
      rw [foldSource, List.tail_cons, scanMinus, takeLine_foldSource]
      rfl
    · have hcode : foldSource .code ('-' :: c :: rest) = '-' :: foldSource .code (c :: rest) := by
        rw [foldSource] <;> simp_all
      have hc' : c.toLower ≠ '-' := toLower_ne (by decide) hc
      obtain ⟨hdigits, hafter⟩ := span_foldSource isWordKind_isDigit (c :: rest)
      rw [hcode, List.tail_cons, scanMinus_of_head hc' (head?_foldSource .code (c :: rest)),
        scanMinus_of_head hc rfl, hdigits, hafter, takeWhile_isDigit_toLower, isDigit_toLower]
      split <;> rfl

theorem scanSlash_foldSource (cs : List Char) :
    foldedScan id (scanToken '/' (foldSource .code ('/' :: cs)).tail) =
      foldedScan (foldSource .code) (scanToken '/' cs) := by
  cases cs with
  | nil => rfl
  | cons c rest =>
    by_cases hc : c = '*'
    · subst hc
      have hrest := takeComment_foldSource rest
      rw [foldSource, List.tail_cons]
      cases hr : takeComment rest with
      | none => simp [scanToken, hrest, hr]
      | some r => simp [scanToken, hrest, hr, Token.folded]
    · have hcode : foldSource .code ('/' :: c :: rest) = '/' :: foldSource .code (c :: rest) := by
        rw [foldSource] <;> simp_all
      have hc' : c.toLower ≠ '*' := toLower_ne (by decide) hc
      obtain ⟨ds, hds⟩ := List.head?_eq_some_iff.1 (head?_foldSource .code (c :: rest))
      rw [hcode, List.tail_cons, hds]
      simp [scanToken, hc, hc', Region.change]

/-- A token that begins with none of four characters is a mark, a comparison, a word or a number. -/
theorem scanToken_of_ne {c : Char} (hdash : c ≠ '-') (hslash : c ≠ '/') (hquote : c ≠ '\'')
    (hname : c ≠ '"') (cs : List Char) :
    scanToken c cs =
      if ['(', ')', ',', ';', '.'].contains c then .ok (.punctuation c, cs)
      else if ['=', '<', '>', '!'].contains c then scanComparison c cs
      else scanWord c cs := by
  simp [scanToken, hdash, hslash, hquote, hname]

/-- A token is the same but for the case of words, and what follows it is changed likewise. -/
theorem scanToken_foldSource (c : Char) (cs : List Char) :
    foldedScan id (scanToken c.toLower (foldSource .code (c :: cs)).tail) =
      foldedScan (foldSource .code) (scanToken c cs) := by
  by_cases hdash : c = '-'
  · subst hdash
    exact scanMinus_foldSource cs
  by_cases hslash : c = '/'
  · subst hslash
    exact scanSlash_foldSource cs
  by_cases hquote : c = '\''
  · subst hquote
    have hrest := takeString_foldSource cs
    rw [foldSource, List.tail_cons]
    cases hr : takeString cs with
    | none => simp [scanToken, hrest, hr]
    | some r => simp [scanToken, hrest, hr, Token.folded]
  by_cases hname : c = '"'
  · subst hname
    have hrest := takeName_foldSource cs
    rw [foldSource, List.tail_cons]
    cases hr : takeName cs with
    | none => simp [scanToken, hrest, hr]
    | some r => simp [scanToken, hrest, hr, Token.folded]
  have hmarks : ['(', ')', ',', ';', '.'].contains c.toLower =
      ['(', ')', ',', ';', '.'].contains c := contains_toLower (by decide)
  have hoperators : ['=', '<', '>', '!'].contains c.toLower = ['=', '<', '>', '!'].contains c :=
    contains_toLower (by decide)
  rw [foldSource_code hdash hslash hquote hname, List.tail_cons,
    scanToken_of_ne (toLower_ne (by decide) hdash) (toLower_ne (by decide) hslash)
      (toLower_ne (by decide) hquote) (toLower_ne (by decide) hname),
    scanToken_of_ne hdash hslash hquote hname, hmarks, hoperators]
  split
  · rename_i hmark
    rw [toLower_of_contains (by decide) hmark]
    rfl
  split
  · rename_i hoperator
    rw [toLower_of_contains (by decide) hoperator]
    exact scanComparison_foldSource c cs
  · exact scanWord_foldSource c cs

/-! ## Sources -/

/-- The tokens of a source are the same but for the case of words, and so is what a fault leaves. -/
theorem scan_foldSource (cs : List Char) :
    Token.foldedAll false (scan (foldSource .code cs)).1 = Token.foldedAll false (scan cs).1 ∧
      (scan (foldSource .code cs)).2 =
        (scan cs).2.map fun fault => (fault.1, foldSource .code fault.2) := by
  induction cs using scan.induct with
  | case1 cs hblank =>
    rw [scan_eq, scan_eq cs, (span_foldSource isWordKind_isBlank cs).2, hblank]
    exact ⟨rfl, rfl⟩
  | case2 cs c after hblank cause hfault =>
    obtain ⟨ds, hds⟩ := List.head?_eq_some_iff.1 (head?_foldSource .code (c :: after))
    have hscan := scanToken_foldSource c after
    rw [hds, hfault, List.tail_cons] at hscan
    rw [scan_eq, scan_eq cs, (span_foldSource isWordKind_isBlank cs).2, hblank, hds]
    cases hscan' : scanToken c.toLower ds with
    | error cause' =>
      obtain rfl : cause' = cause := by simpa [foldedScan, hscan'] using hscan
      simp only [Region.change, hscan', hfault]
      exact ⟨trivial, by rw [Option.map_some, hds]; rfl⟩
    | ok r => simp [foldedScan, hscan'] at hscan
  | case3 cs c after hblank t rest htoken ih =>
    obtain ⟨ds, hds⟩ := List.head?_eq_some_iff.1 (head?_foldSource .code (c :: after))
    have hscan := scanToken_foldSource c after
    rw [hds, htoken, List.tail_cons] at hscan
    rw [scan_eq, scan_eq cs, (span_foldSource isWordKind_isBlank cs).2, hblank, hds]
    cases hscan' : scanToken c.toLower ds with
    | error cause' => simp [foldedScan, hscan'] at hscan
    | ok r =>
      obtain ⟨t', rest'⟩ := r
      obtain ⟨ht, rfl⟩ :
          t'.folded false = t.folded false ∧ rest' = foldSource .code rest := by
        simpa [foldedScan, hscan'] using hscan
      simp only [Region.change, hscan', htoken]
      exact ⟨by rw [Token.foldedAll, Token.foldedAll, ht, ih.1], ih.2⟩

/-- Recased sources have the same tokens but for the case of words, or the same fault. -/
theorem tokenize_recased {a b : String} (h : Recased a b) :
    Token.foldedAll false <$> tokenize a = Token.foldedAll false <$> tokenize b := by
  obtain ⟨htokens, hfault⟩ := scan_foldSource a.toList
  obtain ⟨htokens', hfault'⟩ := scan_foldSource b.toList
  rw [h, htokens'] at htokens
  rw [h, hfault'] at hfault
  have hlength : a.toList.length = b.toList.length := by
    rw [← length_foldSource .code, h, length_foldSource]
  unfold tokenize scanSource
  rcases hscan : scan a.toList with ⟨ts, _ | ⟨cause, rest⟩⟩ <;>
    rcases hscan' : scan b.toList with ⟨ts', _ | ⟨cause', rest'⟩⟩ <;>
    rw [hscan, hscan'] at hfault htokens <;> simp only [hscan, hscan']
  · exact congrArg Except.ok htokens.symm
  · cases hfault
  · cases hfault
  · obtain ⟨rfl, hrest⟩ : cause' = cause ∧ foldSource .code rest' = foldSource .code rest := by
      simpa using hfault
    have hrest : rest'.length = rest.length := by
      rw [← length_foldSource .code, hrest, length_foldSource]
    simp [hlength, hrest]

/-- The statements that tokens make, if their parentheses are balanced. -/
def script? (ts : List Token) : Option (List Statement) :=
  (nest ts).map fun n => splitStatements [] (groupLevel n)

/-- The statements of a source are those of its tokens, or the parentheses do not balance. -/
theorem statements_eq (source : String) :
    statements source =
      tokenize source >>= fun ts => (script? ts).elim (.error .unbalanced) .ok := by
  rw [statements]
  cases tokenize source with
  | error e => rfl
  | ok ts =>
    show _ = ((nest ts).map _).elim _ _
    cases hn : nest ts <;> simp [bind, Except.bind, hn]

/-- Folding the tokens folds each statement and cuts at the same places. -/
theorem script?_folded (ts : List Token) :
    script? (Token.foldedAll false ts) = (script? ts).map (List.map (Token.foldedAll false)) := by
  rw [script?, nest_folded, script?, Option.map_map, Option.map_map]
  refine congrArg (Option.map · (nest ts)) (funext fun n => ?_)
  exact (congrArg (splitStatements []) (groupLevel_folded n)).trans (splitStatements_folded [] _)

/-- Recased sources have the same statements but for the case of words, or the same fault. -/
theorem statements_recased {a b : String} (h : Recased a b) :
    List.map (Token.foldedAll false) <$> statements a =
      List.map (Token.foldedAll false) <$> statements b := by
  have htokens := tokenize_recased h
  rw [statements_eq, statements_eq]
  rcases ha : tokenize a with e | ts <;> rcases hb : tokenize b with e' | ts' <;>
    rw [ha, hb] at htokens
  · obtain rfl : e = e' := by simpa using htokens
    rfl
  · cases htokens
  · cases htokens
  · have hscript := congrArg script? (Except.ok.inj htokens)
    rw [script?_folded, script?_folded] at hscript
    show _ <$> (script? ts).elim _ _ = _ <$> (script? ts').elim _ _
    rcases hs : script? ts with _ | script <;> rcases hs' : script? ts' with _ | script' <;>
      rw [hs, hs'] at hscript
    · cases hscript
    · cases hscript
    · exact congrArg Except.ok (Option.some.inj hscript)

end SqlCatalog
