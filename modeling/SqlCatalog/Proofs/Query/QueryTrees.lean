import SqlCatalog.Proofs.Query.QueryTokens

/-!
# The trees of a query

What a layout spells is read as the tokens of its pieces, and these are nested by their parentheses,
if all texts in it that are written as they are, names of functions among them, are words. So a
rendered expression, condition or selection stands for trees of tokens, wherever it is written.

These words are any words: none is reserved, and whether one is a name, a keyword or an operator is
left to where it stands among the trees. A selection is told from a column called `select` by what
comes next.

## Main definitions

* `Layout.tokens` are the tokens of a layout, `Layout.Lexes` says that they are read from its text.
* `Layout.Readable` says that, and that its tokens can be nested; `Layout.Clause` also that what
  stands before it ends there.
* `Expression.Spelled` and its companions say that all texts are words.
* `isSelection` tells selections between parentheses from everything else.

## Main statements

* `Layout.Lexes.tokens_spell`: the tokens of what a layout spells are those of the layout.
* `readable_expression` and its companions: the four kinds of syntax are readable.
* `readable_select`: the trees of a selection are seen to be one.
-/

namespace SqlCatalog

/-! ## The tokens of layouts -/

/-- The tokens of a reference. -/
def Reference.tokens : Reference → List QueryToken
  | bare column => [nameToken column]
  | qualified table column => [nameToken table, .symbol ".", nameToken column]

/-- The tokens of a piece. -/
def Piece.tokens : Piece → List QueryToken
  | text s => lexText s
  | name s => [nameToken s]
  | column c scopes => (c.reference (scopes.headD [])).tokens
  | argument a => placeTokens a.slots

/-- The slots of the places of a piece. -/
def Piece.slots : Piece → List Slot
  | argument a => a.slots
  | _ => []

namespace Layout

/-- The tokens of a layout. -/
def tokens (l : Layout) : List QueryToken := l.flatMap Piece.tokens

/-- The slots of the places of a layout. -/
def slots (l : Layout) : List Slot := l.flatMap Piece.slots

/-- The text of a layout is read as its tokens, wherever something follows that stops a name. -/
def Lexes (l : Layout) : Prop :=
  ∀ (L : QueryLexer) (count : Nat) (rest : List Char), L.placeholder.IsReadable →
    L.Holds count l.slots → Stops rest →
    L.lexFrom 0 count ((l.spell quoteName ⟨L.placeholder, count⟩).text.toList ++ rest) =
      l.tokens ++ L.lexFrom 0 (count + l.slots.length) rest

/-- What stands before the layout is stopped by it. -/
def Starts (l : Layout) : Prop :=
  ∀ g rest, Stops rest → Stops ((l.spell quoteName g).text.toList ++ rest)

/-- The text of a layout is read as its tokens, and these are nested. -/
def Readable (l : Layout) : Prop := l.Lexes ∧ ∃ trees, Nests l.tokens trees

/-- A layout that is readable and stops what stands before it. -/
structure Clause (l : Layout) : Prop where
  readable : l.Readable
  starts : l.Starts

end Layout

theorem length_slots (a : Argument) : a.slots.length = a.places := by
  simp [Argument.slots]

section Layouts

variable {l m : Layout} {s : String}

theorem Layout.slots_append : (l ++ m).slots = l.slots ++ m.slots := List.flatMap_append

theorem Layout.tokens_append : (l ++ m).tokens = l.tokens ++ m.tokens := List.flatMap_append

/-- A layout has a slot for each of its places. -/
theorem Layout.length_slots (l : Layout) : l.slots.length = l.places := by
  induction l with
  | nil => rfl
  | cons p l ih =>
    have hpiece : p.slots.length = p.places := by
      cases p with
      | argument a => exact SqlCatalog.length_slots a
      | _ => rfl
    rw [Layout.places_cons, ← ih, ← hpiece, slots, List.flatMap_cons, List.length_append]
    rfl

/-- The slots of a spelled layout are those of its places. -/
theorem Layout.slots_spell (g : Speller) : (l.spell quoteName g).slots = l.slots := by
  induction l generalizing g with
  | nil => rfl
  | cons p l ih =>
    have hpiece : (p.spell quoteName g).slots = p.slots := by
      cases p with
      | argument a => simp [Piece.spell, Fragment.slots, Fragment.pushArgument, Fragment.empty,
          Piece.slots]
      | _ => rfl
    rw [Layout.spell_cons, Fragment.append, Fragment.slots, List.flatMap_append]
    show (p.spell quoteName g).slots ++ Fragment.slots _ = p.slots ++ Layout.slots l
    rw [hpiece, ih]

/-- A layout is read from the fragment that it spells. -/
theorem Layout.Lexes.tokens_spell (h : l.Lexes) {g : Speller} (hstyle : g.placeholder.IsReadable) :
    (l.spell quoteName g).tokens g = l.tokens := by
  have hholds : QueryLexer.Holds ⟨g.placeholder, g.used, l.slots⟩ g.used l.slots :=
    ⟨0, rfl, List.prefix_refl _⟩
  have hread := h ⟨g.placeholder, g.used, l.slots⟩ g.used [] hstyle hholds (by simp [Stops])
  rw [List.append_nil] at hread
  rw [Fragment.tokens, slots_spell, hread]
  exact List.append_nil _

namespace Layout

theorem Lexes.nil : Lexes [] := fun _ _ _ _ _ _ => rfl

/-- Layouts of which the second stops the first are read one after the other. -/
theorem Lexes.append (hl : l.Lexes) (hm : m.Lexes) (hstarts : m.Starts) : (l ++ m).Lexes := by
  intro L count rest hstyle hholds hrest
  rw [slots_append] at hholds ⊢
  obtain ⟨hfirst, hsecond⟩ := hholds.append
  have htext : ((l ++ m).spell quoteName ⟨L.placeholder, count⟩).text.toList =
      (l.spell quoteName ⟨L.placeholder, count⟩).text.toList ++
        (m.spell quoteName ⟨L.placeholder, count + l.slots.length⟩).text.toList := by
    rw [spell_append, Fragment.append, String.toList_append, length_slots]
    rfl
  rw [htext, List.append_assoc, hl L count _ hstyle hfirst (hstarts _ _ hrest),
    hm L _ rest hstyle hsecond hrest, tokens_append, List.append_assoc, List.length_append,
    Nat.add_assoc]

/-- A closed text before a layout is read by itself. -/
theorem Lexes.text_cons (hs : ClosedText s) (hm : m.Lexes) : Lexes (.text s :: m) := by
  intro L count rest hstyle hholds hrest
  have htext : (spell quoteName ⟨L.placeholder, count⟩ (.text s :: m)).text.toList =
      s.toList ++ (m.spell quoteName ⟨L.placeholder, count⟩).text.toList := by
    rw [spell_text_cons, Fragment.append, String.toList_append]
    rfl
  rw [htext, List.append_assoc, hs, hm L count rest hstyle hholds hrest, ← List.append_assoc]
  rfl

theorem Starts.nil : Starts [] := fun _ _ h => h

theorem Starts.text_cons {c : Char} {cs : List Char} (hs : s.toList = c :: cs)
    (hc : isNameChar c = false ∧ c ≠ '"') (m : Layout) : Starts (.text s :: m) := by
  intro g rest _
  rw [spell_text_cons, Fragment.append, String.toList_append]
  show Stops (s.toList ++ _ ++ rest)
  rw [hs]
  intro d hd
  obtain rfl := Option.some.inj hd
  exact hc

theorem Starts.append (hl : l.Starts) (hm : m.Starts) : (l ++ m).Starts := by
  intro g rest hrest
  rw [spell_append, Fragment.append, String.toList_append, List.append_assoc]
  exact hl g _ (hm _ _ hrest)

end Layout

/-! ## Fixed texts -/

/-- The text has no parentheses and is read as its tokens, whatever follows. -/
structure FixedText (s : String) : Prop where
  closed : ClosedText s
  leaves : ∀ t ∈ lexText s, t.IsLeaf

/-- A plain word is read as one token. -/
theorem lexText_word {word : String} (h : isPlainName word = true) :
    lexText word = [.word word] := by
  have hread : lexText word = .word word :: _ :=
    (congrArg _ (List.append_nil word.toList).symm).trans (lexFrom_word h (by simp [Stops]))
  exact hread

/-- A word is read after a text that does not go on with it. -/
theorem FixedText.lexText_append {word : String} (h : FixedText s)
    (hword : isPlainName word = true) : lexText (s ++ word) = lexText s ++ [.word word] := by
  rw [lexText, String.toList_append, h.closed]
  exact congrArg _ (lexText_word hword)

/-- The words of an operator, with spaces around them, are read whatever follows. -/
theorem Operator.fixedText (o : Operator) : FixedText o.between := by
  cases o <;> exact ⟨fun _ _ _ => rfl, by decide⟩

theorem Operator.toList_between (o : Operator) :
    o.between.toList = ' ' :: (o.text ++ " ").toList := by
  cases o <;> rfl

theorem JoinKind.toList_between (k : JoinKind) :
    k.between.toList = ' ' :: (k.text ++ "join ").toList := by
  cases k <;> rfl

theorem JoinKind.fixedText (k : JoinKind) : FixedText k.between := by
  cases k <;> exact ⟨fun _ _ _ => rfl, by decide⟩

namespace Layout

theorem Readable.nil : Readable [] := ⟨.nil, [], .nil⟩

/-- A clause behind a readable layout leaves it readable. -/
theorem Readable.append (hl : l.Readable) (hm : m.Clause) : (l ++ m).Readable := by
  obtain ⟨hl, trees, htrees⟩ := hl
  obtain ⟨⟨hm, trees', htrees'⟩, hstarts⟩ := hm
  refine ⟨hl.append hm hstarts, trees ++ trees', ?_⟩
  rw [tokens_append]
  exact htrees.append htrees'

theorem Readable.text_cons (hs : FixedText s) (hm : m.Readable) : Readable (.text s :: m) := by
  obtain ⟨hm, trees, htrees⟩ := hm
  exact ⟨hm.text_cons hs.closed, _, (Nests.leaves hs.leaves).append htrees⟩

/-- A word after a fixed text stands before what stops it. -/
theorem Lexes.words {word : String} (hs : FixedText s) (hword : isPlainName word = true) :
    Lexes [.text (s ++ word)] := by
  intro L count rest _ _ hrest
  have htokens : tokens [.text (s ++ word)] = lexText s ++ [.word word] :=
    (List.append_nil _).trans (hs.lexText_append hword)
  have htext : (spell quoteName ⟨L.placeholder, count⟩ [.text (s ++ word)]).text.toList =
      s.toList ++ word.toList := by
    simp [spell_cons, Piece.spell, Fragment.append, Fragment.ofText, Fragment.empty]
  rw [htokens, htext, List.append_assoc, hs.closed, lexFrom_word hword hrest, List.append_assoc]
  rfl

/-- A fixed text that ends in a word is readable. -/
theorem Readable.words {word : String} (hs : FixedText s) (hword : isPlainName word = true) :
    Readable [.text (s ++ word)] := by
  refine ⟨.words hs hword, (lexText s ++ [QueryToken.word word]).map .leaf, ?_⟩
  have htokens : tokens [.text (s ++ word)] = lexText s ++ [.word word] :=
    (List.append_nil _).trans (hs.lexText_append hword)
  rw [htokens]
  refine Nests.leaves fun t ht => ?_
  rcases List.mem_append.1 ht with ht | ht
  · exact hs.leaves t ht
  · rw [List.mem_singleton.1 ht]
    exact ⟨by simp, by simp⟩

theorem Lexes.inParens (h : l.Lexes) : l.inParens.Lexes :=
  .text_cons (fun _ _ _ => rfl) (h.append (.text_cons (fun _ _ _ => rfl) .nil)
    (.text_cons rfl ⟨by decide, by decide⟩ []))

/-- The tokens of a layout between parentheses are nested as one group. -/
theorem nests_inParens {trees : List QueryTree} (h : Nests l.tokens trees) :
    Nests l.inParens.tokens [.group trees] := by
  have htokens : l.inParens.tokens = .symbol "(" :: (l.tokens ++ [.symbol ")"]) := by
    rw [Layout.inParens, List.cons_append, tokens, List.flatMap_cons, List.flatMap_append]
    rfl
  rw [htokens]
  exact h.group

/-- Parentheses keep a layout readable. -/
theorem Readable.inParens (h : l.Readable) : l.inParens.Readable :=
  ⟨h.1.inParens, _, nests_inParens h.2.choose_spec⟩

theorem Readable.inParensIf (h : l.Readable) (needed : Bool) : (l.inParensIf needed).Readable := by
  cases needed
  · exact h
  · exact h.inParens

theorem Clause.nil : Clause [] := ⟨.nil, .nil⟩

/-- Two clauses make a clause. -/
theorem Clause.append (hl : l.Clause) (hm : m.Clause) : (l ++ m).Clause :=
  ⟨hl.readable.append hm, hl.starts.append hm.starts⟩

/-- A fixed text that begins with a space makes a clause of a readable layout. -/
theorem Clause.text_cons {cs : List Char} (hs : FixedText s) (hlist : s.toList = ' ' :: cs)
    (hm : m.Readable) : Clause (.text s :: m) :=
  ⟨hm.text_cons hs, .text_cons hlist ⟨by decide, by decide⟩ m⟩

theorem Clause.comma (hm : m.Readable) : Clause (.text ", " :: m) :=
  ⟨hm.text_cons ⟨fun _ _ _ => rfl, by decide⟩, .text_cons rfl ⟨by decide, by decide⟩ m⟩

/-- Readable layouts with commas between them are readable. -/
theorem Readable.join {ls : List Layout} (h : ∀ l ∈ ls, l.Readable) :
    (Layout.join ", " ls).Readable := by
  induction ls with
  | nil => exact .nil
  | cons l ls ih =>
    obtain ⟨hl, hls⟩ := List.forall_mem_cons.1 h
    cases ls with
    | nil => exact hl
    | cons m ls => exact hl.append (.comma (ih hls))

theorem Clause.words {word : String} {cs : List Char} (hs : FixedText s)
    (hlist : s.toList = ' ' :: cs) (hword : isPlainName word = true) :
    Clause [.text (s ++ word)] := by
  have hspace : (s ++ word).toList = ' ' :: (cs ++ word.toList) := by
    rw [String.toList_append, hlist]
    rfl
  exact ⟨.words hs hword, .text_cons hspace ⟨by decide, by decide⟩ []⟩

/-- A list after its words is a clause, or leaves nothing. -/
theorem Clause.listAfter {words : String} {cs : List Char} {ls : List Layout}
    (hwords : FixedText words) (hlist : words.toList = ' ' :: cs) (h : ∀ l ∈ ls, l.Readable) :
    (Layout.listAfter words ls).Clause := by
  cases ls with
  | nil => exact .nil
  | cons l ls => exact .text_cons hwords hlist (.join h)

theorem clause_nullTest (negated : Bool) : Clause [.text (nullTest negated)] := by
  have hfixed : FixedText " is " ∧ FixedText " is not " :=
    ⟨⟨fun _ _ _ => rfl, by decide⟩, ⟨fun _ _ _ => rfl, by decide⟩⟩
  have hnull : isPlainName "null" = true := by decide
  cases negated
  · exact .words hfixed.1 rfl hnull
  · exact .words hfixed.2 rfl hnull

theorem clause_order (unordered : Bool) (d : Option Direction) :
    Clause [.text (if unordered then "" else directionWords d)] := by
  have hnone : Clause [.text ""] := ⟨.text_cons ⟨fun _ _ _ => rfl, by decide⟩ .nil, .nil⟩
  have hspace : FixedText " " := ⟨fun _ _ _ => rfl, by decide⟩
  have hascending : isPlainName "asc" = true := by decide
  have hdescending : isPlainName "desc" = true := by decide
  cases unordered
  · rcases d with - | - | -
    · exact hnone
    · exact .words hspace rfl hascending
    · exact .words hspace rfl hdescending
  · exact hnone

theorem clause_lock (lock : Option RowLock) : Clause [.text (lockWords lock)] := by
  have hfixed : FixedText " for " ∧ FixedText " for update " :=
    ⟨⟨fun _ _ _ => rfl, by decide⟩, ⟨fun _ _ _ => rfl, by decide⟩⟩
  have hupdate : isPlainName "update" = true := by decide
  have hnowait : isPlainName "nowait" = true := by decide
  rcases lock with - | - | -
  · exact ⟨.text_cons ⟨fun _ _ _ => rfl, by decide⟩ .nil, .nil⟩
  · exact .words hfixed.1 rfl hupdate
  · exact .words hfixed.2 rfl hnowait

end Layout

/-! ## Names and places -/

theorem isLeaf_nameToken (name : String) : (nameToken name).IsLeaf := by
  rw [nameToken]
  split <;> exact ⟨by simp, by simp⟩

theorem Reference.isLeaf_tokens (r : Reference) : ∀ t ∈ r.tokens, t.IsLeaf := by
  cases r with
  | bare column => simpa [Reference.tokens] using isLeaf_nameToken column
  | qualified table column =>
    simp only [Reference.tokens, List.forall_mem_cons]
    exact ⟨isLeaf_nameToken table, ⟨by simp, by simp⟩, isLeaf_nameToken column, by simp⟩

theorem isLeaf_placeTokens (slots : List Slot) : ∀ t ∈ placeTokens slots, t.IsLeaf := by
  have hplace (slot : Slot) : (QueryToken.place slot).IsLeaf := ⟨by simp, by simp⟩
  induction slots with
  | nil => simp [placeTokens]
  | cons slot slots ih =>
    cases slots with
    | nil => simpa [placeTokens] using hplace slot
    | cons next slots =>
      have hcons : placeTokens (slot :: next :: slots) =
          .place slot :: .symbol "," :: placeTokens (next :: slots) := rfl
      rw [hcons, List.forall_mem_cons, List.forall_mem_cons]
      exact ⟨hplace slot, by decide, ih⟩

namespace Layout

theorem readable_name (name : String) : Readable [.name name] := by
  refine ⟨fun L count rest _ _ hrest => ?_, _, Nests.leaf (isLeaf_nameToken name)⟩
  have htext : (spell quoteName ⟨L.placeholder, count⟩ [.name name]).text = quoteName name := by
    simp [spell_cons, Piece.spell, Fragment.ofText]
  rw [htext, lexFrom_quoteName name hrest]
  rfl

theorem tokens_column (c : ColumnRef) (scopes : List Scope) :
    tokens [.column c scopes] = (c.reference (scopes.headD [])).tokens := List.append_nil _

theorem nests_column (c : ColumnRef) (scopes : List Scope) :
    Nests (tokens [.column c scopes]) ((c.reference (scopes.headD [])).tokens.map .leaf) := by
  rw [tokens_column]
  exact Nests.leaves (Reference.isLeaf_tokens _)

theorem lexes_column (c : ColumnRef) (scopes : List Scope) : Lexes [.column c scopes] := by
  intro L count rest _ _ hrest
  have htext : (spell quoteName ⟨L.placeholder, count⟩ [.column c scopes]).text =
      (c.reference (scopes.headD [])).text quoteName := by
    simp [spell_cons, Piece.spell, Fragment.ofText, ColumnRef.text]
  rw [htext, tokens_column]
  cases c.reference (scopes.headD []) with
  | bare column => exact lexFrom_quoteName column hrest
  | qualified table column =>
    have hdot (more : List Char) : L.lexFrom 0 count ('.' :: more) =
        .symbol "." :: L.lexFrom 0 count more := rfl
    rw [Reference.text, String.toList_append, String.toList_append, List.append_assoc,
      List.append_assoc, lexFrom_quoteName table (by simp [Stops]; decide)]
    show _ :: L.lexFrom 0 count ('.' :: ((quoteName column).toList ++ rest)) = _
    rw [hdot, lexFrom_quoteName column hrest]
    rfl

theorem tokens_argument (a : Argument) : tokens [.argument a] = placeTokens a.slots :=
  List.append_nil _

theorem nests_argument (a : Argument) :
    Nests (tokens [.argument a]) ((placeTokens a.slots).map .leaf) := by
  rw [tokens_argument]
  exact Nests.leaves (isLeaf_placeTokens a.slots)

theorem lexes_argument (a : Argument) : Lexes [.argument a] := by
  intro L count rest hstyle hholds hrest
  have hslots : slots [.argument a] = a.slots := List.append_nil _
  have htext : (spell quoteName ⟨L.placeholder, count⟩ [.argument a]).text =
      ", ".intercalate ((Speller.mk L.placeholder count).places a.slots.length) := by
    rw [SqlCatalog.length_slots, spell_cons, spell_nil, Fragment.append_empty]
    exact String.empty_append
  rw [hslots] at hholds
  rw [htext, tokens_argument, hslots, lexFrom_places hstyle hholds hrest]

end Layout

end Layouts

/-! ## Texts that are words -/

/-- Whether a text that is written as it is is read as one token: a word or an asterisk. -/
def IsVerbatim (text : String) : Prop := isPlainName text = true ∨ text = "*"

mutual

/-- The names of functions in an expression are words, and so are all texts that are written as they
are. -/
def Expression.Spelled : Expression → Prop
  | .column _ | .constant _ | .parameter _ => True
  | .tuple items => Expression.AllSpelled items
  | .call name arguments => isPlainName name = true ∧ Expression.AllSpelled arguments
  | .verbatim text => IsVerbatim text
  | .subquery select => select.Spelled
  | .binary _ lhs rhs => lhs.Spelled ∧ rhs.Spelled

/-- All texts in several expressions are words. -/
def Expression.AllSpelled : List Expression → Prop
  | [] => True
  | e :: es => e.Spelled ∧ Expression.AllSpelled es

/-- All texts in a condition are words. -/
def Comparison.Spelled : Comparison → Prop
  | .null operand _ => operand.Spelled
  | .columns _ _ _ => True
  | .operands _ lhs rhs => lhs.Spelled ∧ rhs.Spelled
  | .compound _ lhs rhs => lhs.Spelled ∧ rhs.Spelled

/-- All texts in a source are words. -/
def Source.Spelled : Source → Prop
  | .table _ => True
  | .join _ left right on => left.Spelled ∧ right.Spelled ∧ on.Spelled
  | .crossJoin left right => left.Spelled ∧ right.Spelled

/-- All texts in a selection are words. -/
def Select.Spelled : Select → Prop
  | ⟨columns, source, condition, groupBy, having, orderBy, _, _, limit, _⟩ =>
    Expression.AllSpelled columns ∧ source.Spelled ∧ Comparison.SpelledIn condition ∧
      Expression.AllSpelled groupBy ∧ Comparison.SpelledIn having ∧
      Expression.AllSpelled orderBy ∧ Expression.SpelledIn limit

/-- All texts in a condition are words, if there is one. -/
def Comparison.SpelledIn : Option Comparison → Prop
  | none => True
  | some c => c.Spelled

/-- All texts in an expression are words, if there is one. -/
def Expression.SpelledIn : Option Expression → Prop
  | none => True
  | some e => e.Spelled

end

/-! ## The trees of syntax -/

/-- Whether an operand can begin with the tree. -/
def QueryTree.opensOperand : QueryTree → Bool
  | leaf (.symbol s) => s == "*"
  | _ => true

/-- Whether the trees between parentheses are a selection: after a name there would be a symbol, or
nothing. -/
def isSelection : List QueryTree → Bool
  | .leaf (.word "select") :: next :: _ => next.opensOperand
  | _ => false

/-- Whether the text of an expression begins with that of an operand: a parameter without places
leaves no trace in the text. -/
def Expression.opens : Expression → Bool
  | .parameter p => (Argument.parameter p).places != 0
  | .binary _ lhs _ => lhs.isOperation || lhs.opens
  | _ => true

/-- A readable layout that begins with an operand, if it is said to open with one. -/
def Layout.ReadsOperand (l : Layout) (opens : Bool) : Prop :=
  l.Lexes ∧ ∃ trees, Nests l.tokens trees ∧
    (opens = true → ∃ t ts, trees = t :: ts ∧ t.opensOperand = true)

section ReadsOperand

variable {l m : Layout} {opens : Bool}

theorem Layout.ReadsOperand.readable (h : l.ReadsOperand opens) : l.Readable :=
  ⟨h.1, h.2.choose, h.2.choose_spec.1⟩

/-- Parentheses keep a layout one that begins with an operand. -/
theorem Layout.ReadsOperand.inParensIf (h : l.ReadsOperand opens) (needed : Bool) :
    (l.inParensIf needed).ReadsOperand (needed || opens) := by
  cases needed
  · exact h
  · obtain ⟨hlexes, trees, htrees, -⟩ := h
    exact ⟨hlexes.inParens, _, Layout.nests_inParens htrees, fun _ => ⟨_, _, rfl, rfl⟩⟩

/-- What begins with an operand does so when something follows that stops it. -/
theorem Layout.ReadsOperand.append (h : l.ReadsOperand opens) (hm : m.Clause) :
    (l ++ m).ReadsOperand opens := by
  obtain ⟨hlexes, trees, htrees, hopens⟩ := h
  obtain ⟨⟨hm, trees', htrees'⟩, hstarts⟩ := hm
  refine ⟨hlexes.append hm hstarts, trees ++ trees', ?_, fun hne => ?_⟩
  · rw [tokens_append]
    exact htrees.append htrees'
  · obtain ⟨t, ts, rfl, ht⟩ := hopens hne
    exact ⟨t, ts ++ trees', rfl, ht⟩

end ReadsOperand

theorem opensOperand_nameToken (name : String) :
    (QueryTree.leaf (nameToken name)).opensOperand = true := by
  rw [nameToken]
  split <;> rfl

section Operands

variable (scopes : List Scope)

/-- A column begins with an operand. -/
theorem readsOperand_column (c : ColumnRef) : Layout.ReadsOperand [.column c scopes] true := by
  refine ⟨Layout.lexes_column c scopes, _, Layout.nests_column c scopes, fun _ => ?_⟩
  cases c.reference (scopes.headD []) with
  | bare column => exact ⟨_, _, rfl, opensOperand_nameToken column⟩
  | qualified table column => exact ⟨_, _, rfl, opensOperand_nameToken table⟩

/-- An argument begins with an operand if it has places. -/
theorem readsOperand_argument (a : Argument) :
    Layout.ReadsOperand [.argument a] (a.places != 0) := by
  refine ⟨Layout.lexes_argument a, _, Layout.nests_argument a, fun hne => ?_⟩
  have hslots : a.slots ≠ [] := by
    rw [← List.length_pos_iff, length_slots]
    exact Nat.pos_of_ne_zero (bne_iff_ne.1 hne)
  obtain ⟨slot, slots, hslots⟩ := List.exists_cons_of_ne_nil hslots
  rw [hslots]
  cases slots <;> exact ⟨_, _, rfl, rfl⟩

/-- A text that is one token begins with an operand. -/
theorem readsOperand_verbatim {text : String} (h : IsVerbatim text) :
    Layout.ReadsOperand [.text text] true := by
  rcases h with h | rfl
  · have hword : Layout.tokens [.text text] = [.word text] :=
      (List.append_nil _).trans (lexText_word h)
    have hlexes : Layout.Lexes [.text ("" ++ text)] :=
      .words ⟨fun _ _ _ => rfl, by decide⟩ h
    rw [String.empty_append] at hlexes
    refine ⟨hlexes, [.leaf (.word text)], ?_, fun _ => ⟨_, _, rfl, rfl⟩⟩
    rw [hword]
    exact Nests.leaf ⟨by simp, by simp⟩
  · exact ⟨.text_cons (fun _ _ _ => rfl) .nil, _, Nests.leaf (by decide),
      fun _ => ⟨_, _, rfl, rfl⟩⟩

/-- An operator makes a clause of a readable layout. -/
theorem Layout.Clause.operator {m : Layout} (o : Operator) (hm : m.Readable) :
    Layout.Clause (.text o.between :: m) :=
  .text_cons o.fixedText o.toList_between hm

end Operands

/-- A list begins with an operand if its first item does. -/
theorem Layout.ReadsOperand.join {l : Layout} {ls : List Layout} {opens : Bool}
    (h : l.ReadsOperand opens) (hall : ∀ m ∈ l :: ls, m.Readable) :
    (Layout.join ", " (l :: ls)).ReadsOperand opens := by
  cases ls with
  | nil => exact h
  | cons m ls =>
    exact h.append (.comma (Readable.join fun k hk => hall k (List.mem_cons_of_mem _ hk)))

/-- The words of a selection, the list of its columns, and its clauses. -/
theorem readable_selectWords (distinct : Bool) {l m : Layout} {opens : Bool}
    (hl : l.ReadsOperand opens) (hm : m.Clause) :
    Layout.Lexes (.text (selectWords distinct) :: (l ++ m)) ∧
      ∃ trees, Nests (Layout.tokens (.text (selectWords distinct) :: (l ++ m))) trees ∧
        (opens = true → isSelection trees = true) := by
  obtain ⟨hlexes, trees, htrees, hopens⟩ := hl.append hm
  have hwords : FixedText (selectWords distinct) := by
    cases distinct <;> exact ⟨fun _ _ _ => rfl, by decide⟩
  refine ⟨hlexes.text_cons hwords.closed, _, (Nests.leaves hwords.leaves).append htrees, ?_⟩
  intro ho
  obtain ⟨t, ts, rfl, ht⟩ := hopens ho
  -- After `select` comes the first column or `distinct`.
  cases distinct
  · exact ht
  · rfl

mutual

/-- An expression is readable. -/
theorem readable_expression (scopes : List Scope) :
    ∀ e : Expression, e.Spelled → (e.layout scopes).ReadsOperand e.opens
  | .column c, _ => readsOperand_column scopes c
  | .constant value, _ => readsOperand_argument (.value value)
  | .parameter p, _ => readsOperand_argument (.parameter p)
  | .tuple items, h => by
    obtain ⟨hlexes, trees, htrees⟩ := Layout.Readable.join (readable_expressions scopes items h)
    exact ⟨hlexes.inParens, _, Layout.nests_inParens htrees, fun _ => ⟨_, _, rfl, rfl⟩⟩
  | .call name arguments, h => by
    have hlist := Layout.Readable.join (readable_expressions scopes arguments h.2)
    exact (readsOperand_verbatim (.inl h.1)).append
      ⟨hlist.inParens, .text_cons rfl ⟨by decide, by decide⟩ _⟩
  | .verbatim text, h => readsOperand_verbatim h
  | .subquery select, h => by
    obtain ⟨hlexes, trees, htrees, -⟩ := readable_select scopes select h
    exact ⟨hlexes.inParens, _, Layout.nests_inParens htrees, fun _ => ⟨_, _, rfl, rfl⟩⟩
  | .binary o lhs rhs, h => by
    have hlhs := (readable_expression scopes lhs h.1).inParensIf lhs.isOperation
    have hrhs := (readable_expression scopes rhs h.2).readable.inParensIf rhs.isOperation
    exact hlhs.append (.operator o hrhs)

/-- Expressions are readable. -/
theorem readable_expressions (scopes : List Scope) :
    ∀ es : List Expression, Expression.AllSpelled es →
      ∀ l ∈ Expression.layouts scopes es, l.Readable
  | [], _ => by simp [Expression.layouts]
  | e :: es, h => List.forall_mem_cons.2
    ⟨(readable_expression scopes e h.1).readable, readable_expressions scopes es h.2⟩

/-- A condition is readable. -/
theorem readable_comparison (scopes : List Scope) :
    ∀ c : Comparison, c.Spelled → (c.layout scopes).Readable
  | .null operand negated, h => by
    have hoperand := (readable_expression scopes operand h).readable.inParensIf operand.isOperation
    exact hoperand.append (Layout.clause_nullTest negated)
  | .columns o lhs rhs, _ =>
    ((readsOperand_column scopes lhs).append
      (.operator o (readsOperand_column scopes rhs).readable)).readable
  | .operands o lhs rhs, h => by
    have hlhs := (readable_expression scopes lhs h.1).inParensIf lhs.isOperation
    have hrhs := (readable_expression scopes rhs h.2).readable.inParensIf rhs.isOperation
    exact (hlhs.append (.operator o hrhs)).readable
  | .compound o lhs rhs, h => by
    have hlhs := (readable_comparison scopes lhs h.1).inParensIf (o == .and && lhs.isAlternative)
    have hrhs := (readable_comparison scopes rhs h.2).inParensIf (o == .and && rhs.isAlternative)
    exact hlhs.append (.operator o hrhs)

/-- A source is readable. -/
theorem readable_source (scopes : List Scope) :
    ∀ s : Source, s.Spelled → (s.layout scopes).Readable
  | .table t, _ => Layout.readable_name t.name
  | .join kind left right on, h => by
    have hleft := readable_source scopes left h.1
    have hright := (readable_source scopes right h.2.1).inParensIf right.isJoin
    have hon : FixedText " on " := ⟨fun _ _ _ => rfl, by decide⟩
    have hcondition := Layout.Clause.text_cons hon rfl (readable_comparison scopes on h.2.2)
    have hjoin := Layout.Clause.text_cons kind.fixedText kind.toList_between hright
    exact (hleft.append hjoin).append hcondition
  | .crossJoin left right, h => by
    have hleft := readable_source scopes left h.1
    have hright := (readable_source scopes right h.2).inParensIf right.isJoin
    have hcross : FixedText " cross join " := ⟨fun _ _ _ => rfl, by decide⟩
    have hjoin := Layout.Clause.text_cons hcross rfl hright
    exact hleft.append hjoin

/-- A selection is readable, and seen to be one if its columns do not begin with nothing. -/
theorem readable_select (outer : List Scope) :
    ∀ s : Select, s.Spelled → (s.layout outer).Lexes ∧
      ∃ trees, Nests (s.layout outer).tokens trees ∧
        (s.columns.head?.all Expression.opens = true → isSelection trees = true)
  | ⟨columns, source, condition, groupBy, having, orderBy, direction, distinct, limit, lock⟩,
    h => by
    obtain ⟨hcolumns, hsource, hcondition, hgroups, hhaving, horder, hlimit⟩ := h
    let scopes := source.tables :: outer
    have hlist : (Layout.listOr "*" (Expression.layouts scopes columns)).ReadsOperand
        (columns.head?.all Expression.opens) := by
      have hall := readable_expressions scopes columns hcolumns
      cases columns with
      | nil => exact readsOperand_verbatim (.inr rfl)
      | cons e es => exact .join (readable_expression scopes e hcolumns.1) hall
    have hfixed : FixedText " from " ∧ FixedText " where " ∧ FixedText " group by " ∧
        FixedText " having " ∧ FixedText " order by " ∧ FixedText " limit " :=
      ⟨⟨fun _ _ _ => rfl, by decide⟩, ⟨fun _ _ _ => rfl, by decide⟩, ⟨fun _ _ _ => rfl, by decide⟩,
        ⟨fun _ _ _ => rfl, by decide⟩, ⟨fun _ _ _ => rfl, by decide⟩, ⟨fun _ _ _ => rfl, by decide⟩⟩
    obtain ⟨hfrom, hwhere, hgroup, hhas, hord, hlim⟩ := hfixed
    have hsource := Layout.Clause.text_cons hfrom rfl (readable_source scopes source hsource)
    have hcondition := clause_comparison scopes hwhere rfl condition hcondition
    have hgroups := Layout.Clause.listAfter hgroup rfl (readable_expressions scopes groupBy hgroups)
    have hhaving := clause_comparison scopes hhas rfl having hhaving
    have horder := Layout.Clause.listAfter hord rfl (readable_expressions scopes orderBy horder)
    have hmarks := (Layout.clause_order orderBy.isEmpty direction).append (Layout.clause_lock lock)
    have hlimit := clause_expression scopes hlim rfl limit hlimit
    have hclauses := (((((hsource.append hcondition).append hgroups).append hhaving).append
      horder).append hmarks).append hlimit
    simpa only [Select.layout, List.cons_append, List.append_assoc, List.nil_append] using
      readable_selectWords distinct hlist hclauses

/-- A condition after its words begins a clause. -/
theorem clause_comparison (scopes : List Scope) {words : String} {cs : List Char}
    (hwords : FixedText words) (hlist : words.toList = ' ' :: cs) :
    ∀ c : Option Comparison, Comparison.SpelledIn c →
      (Comparison.layoutAfter scopes words c).Clause
  | none, _ => .nil
  | some c, h => .text_cons hwords hlist (readable_comparison scopes c h)

/-- An expression after its words begins a clause. -/
theorem clause_expression (scopes : List Scope) {words : String} {cs : List Char}
    (hwords : FixedText words) (hlist : words.toList = ' ' :: cs) :
    ∀ e : Option Expression, Expression.SpelledIn e →
      (Expression.layoutAfter scopes words e).Clause
  | none, _ => .nil
  | some e, h => .text_cons hwords hlist (readable_expression scopes e h).readable

end

end SqlCatalog
