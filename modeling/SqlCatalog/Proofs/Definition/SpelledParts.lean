import SqlCatalog.Proofs.Definition.PhraseReaders
import SqlCatalog.Proofs.Definition.TableMeaning

/-!
# Reading by the grammar: names, checks and types

Each reader succeeds exactly on the tokens that the grammar gives for what it reads. A type is the
only part that could go on with the tokens after it, so that it is read back where these do not.

## Main statements

* `readNames_eq_ok` and `readCheck_eq_ok`: lists of names and checks.
* `spelled_of_readColumnType` and `readColumnType_of_spelled`: types.
-/

namespace SqlCatalog

/-! ## Single tokens -/

section Tokens

variable {ts rest : List Token} {t : Token}

/-- A keyword is read exactly where it stands. -/
theorem readKeyword_eq_ok {word : String} :
    readKeyword word ts = .ok rest ↔ ∃ t, ts = t :: rest ∧ t.isKeyword word = true := by
  cases ts with
  | nil => simp [readKeyword, violated]
  | cons t ts => cases h : t.isKeyword word <;> simp [readKeyword, violated, h]

theorem readName_eq_ok {expected n : String} :
    readName expected ts = .ok (n, rest) ↔ ∃ t, ts = t :: rest ∧ t.name? = some n := by
  cases ts with
  | nil => simp [readName, violated]
  | cons t ts => cases h : t.name? <;> simp [readName, violated, h, and_comm]

theorem readParen_eq_ok {inner : List Token} :
    readParen ts = .ok (inner, rest) ↔ ts = .paren inner :: rest := by
  unfold readParen
  split
  · simp
  · rename_i hparen
    simpa [violated] using hparen inner rest

theorem readEnd_eq_ok : readEnd ts = .ok () ↔ ts = [] := by
  cases ts <;> simp [readEnd, violated]

theorem readCall_eq_ok {expected : String} {parts : List Token} {call : String × List Token} :
    readCall expected t parts = .ok call ↔ Token.callParts? parts = some call := by
  cases h : Token.callParts? parts <;> simp [readCall, violated, h]

theorem readWord_eq_ok {word : String} :
    readWord word ts = .ok rest ↔ ∃ t, ts = t :: rest ∧ t.isWord word = true := by
  cases ts with
  | nil => simp [readWord, violated]
  | cons t ts => cases h : t.isWord word <;> simp [readWord, violated, h]

/-- A literal is read exactly where one with a value stands. -/
theorem readLiteral_eq_ok {expected : String} {v : Value} :
    readLiteral expected t = .ok v ↔ literal? t = some (.ok v) := by
  cases h : literal? t <;> simp [readLiteral, violated, h]

theorem readString_eq_ok {raw text : String} :
    readString raw = .ok text ↔ unquote? raw = some text := by
  cases h : unquote? raw <;> simp [readString, h]

/-- The length of a type is read exactly from one integer in its range. -/
theorem readTypeLength_eq_ok {n : UInt32} :
    readTypeLength ts = .ok n ↔ ∃ raw, ts = [.integer raw] ∧ readUInt32? raw = some n := by
  unfold readTypeLength
  split
  · rename_i raw
    cases h : readUInt32? raw <;> simp [h]
  · rename_i hother
    simp only [violated, reduceCtorEq, false_iff, not_exists, not_and]
    exact fun raw h => absurd h (hother raw)

@[simp] theorem spellsWords_nil : SpellsWords [] ts ↔ ts = [] := List.forall₂_nil_left_iff

/-- The first keyword is spelled by the first token. -/
@[simp] theorem spellsWords_cons {word : String} {words : List String} :
    SpellsWords (word :: words) ts ↔
      ∃ t us, ts = t :: us ∧ t.isKeyword word = true ∧ SpellsWords words us := by
  rw [SpellsWords, List.forall₂_cons_left_iff]
  constructor
  · rintro ⟨t, us, ht, hus, rfl⟩
    exact ⟨t, us, rfl, ht, hus⟩
  · rintro ⟨t, us, rfl, ht, hus⟩
    exact ⟨t, us, ht, hus, rfl⟩

theorem spellsWords_singleton {word : String} :
    SpellsWords [word] ts ↔ ∃ t, ts = [t] ∧ t.isKeyword word = true := by
  simp

theorem spellsWords_pair {word word' : String} :
    SpellsWords [word, word'] ts ↔
      ∃ t u, ts = [t, u] ∧ t.isKeyword word = true ∧ u.isKeyword word' = true := by
  simp only [spellsWords_cons, spellsWords_nil]
  constructor
  · rintro ⟨t, _, rfl, ht, u, _, rfl, hu, rfl⟩
    exact ⟨t, u, rfl, ht, hu⟩
  · rintro ⟨t, u, rfl, ht, hu⟩
    exact ⟨t, _, rfl, ht, u, _, rfl, hu, rfl⟩

end Tokens

/-! ## Names -/

/-- Further names are read exactly where they stand, each after a comma. -/
theorem readMoreNames_eq_ok {ts : List Token} {names : List String} :
    readMoreNames ts = .ok names ↔ ts = [] ∧ names = [] ∨
      ∃ comma us, ts = comma :: us ∧ comma.isMark ',' = true ∧ SpellsNames names us := by
  fun_induction readMoreNames ts generalizing names with
  | case1 => simp [@eq_comm _ [] names]
  | case2 comma hcomma =>
    simp only [violated, reduceCtorEq, false_and, false_or, false_iff, List.cons.injEq]
    rintro ⟨_, us, ⟨rfl, rfl⟩, -, hnames⟩
    cases hnames
  | case3 comma hcomma t rest n hname ih =>
    rw [map_eq_ok]
    constructor
    · rintro ⟨ns, hns, rfl⟩
      refine .inr ⟨comma, t :: rest, rfl, hcomma, ?_⟩
      rcases ih.1 hns with ⟨rfl, rfl⟩ | ⟨next, us, rfl, hnext, hus⟩
      · exact .one hname
      · exact .cons hname hnext hus
    · rintro (⟨h, -⟩ | ⟨_, us, h, -, hnames⟩)
      · cases h
      · obtain ⟨rfl, rfl⟩ := List.cons.inj h
        cases hnames with
        | one hn =>
          obtain rfl := Option.some.inj (hname.symm.trans hn)
          exact ⟨[], ih.2 (.inl ⟨rfl, rfl⟩), rfl⟩
        | cons hn hnext hrest =>
          obtain rfl := Option.some.inj (hname.symm.trans hn)
          exact ⟨_, ih.2 (.inr ⟨_, _, rfl, hnext, hrest⟩), rfl⟩
  | case4 comma hcomma t rest hname =>
    simp only [violated, reduceCtorEq, false_and, false_or, false_iff, List.cons.injEq]
    rintro ⟨_, us, ⟨rfl, rfl⟩, -, hnames⟩
    cases hnames <;> simp_all
  | case5 comma rest hcomma =>
    simp only [violated, reduceCtorEq, false_and, false_or, false_iff, List.cons.injEq]
    rintro ⟨_, us, ⟨rfl, rfl⟩, hmark, -⟩
    exact hcomma hmark

/-- Names are read where they are spelled. -/
theorem readNames_eq_ok {inner : List Token} {names : List String} :
    readNames inner = .ok names ↔ SpellsNames names inner := by
  unfold readNames
  constructor
  · intro h
    obtain ⟨⟨first, rest⟩, hfirst, h⟩ := bind_eq_ok.1 h
    obtain ⟨more, hmore, h⟩ := bind_eq_ok.1 h
    obtain rfl := Except.ok.inj h
    obtain ⟨t, rfl, hname⟩ := readName_eq_ok.1 hfirst
    rcases readMoreNames_eq_ok.1 hmore with ⟨rfl, rfl⟩ | ⟨comma, us, rfl, hcomma, hus⟩
    · exact .one hname
    · exact .cons hname hcomma hus
  · intro h
    cases h with
    | one hname =>
      exact bind_eq_ok.2 ⟨_, readName_eq_ok.2 ⟨_, rfl, hname⟩,
        bind_eq_ok.2 ⟨_, readMoreNames_eq_ok.2 (.inl ⟨rfl, rfl⟩), rfl⟩⟩
    | cons hname hcomma hrest =>
      exact bind_eq_ok.2 ⟨_, readName_eq_ok.2 ⟨_, rfl, hname⟩,
        bind_eq_ok.2 ⟨_, readMoreNames_eq_ok.2 (.inr ⟨_, _, rfl, hcomma, hrest⟩), rfl⟩⟩

/-! ## Columns -/

namespace Table

variable (t : Table)

/-- The names of the columns. -/
def names : List String := t.columns.map Column.name

variable {t}

/-- A column is found under a name exactly when the table has one of that name, at its place. -/
theorem columnIndex_eq_ok {n : String} {i : Nat} :
    t.columnIndex n = .ok i ↔ NamedIn t.names n ∧ i = placeIn t.names n := by
  have hplace : placeIn t.names n = t.columns.findIdx fun c => sameIgnoringCase c.name n := by
    rw [placeIn, names, List.findIdx_map]
    rfl
  have hnamed : NamedIn t.names n ↔
      (t.columns.findIdx fun c => sameIgnoringCase c.name n) < t.columns.length := by
    simp [NamedIn, names, List.findIdx_lt_length, sameIgnoringCase_iff]
  rw [hplace, hnamed, columnIndex]
  cases hfind : t.columns.findIdx? fun c => sameIgnoringCase c.name n with
  | none =>
    have hlength := List.findIdx?_eq_none_iff_findIdx_eq.1 hfind
    simp [hlength]
  | some j =>
    obtain ⟨hlt, hj⟩ := List.findIdx?_eq_some_iff_findIdx_eq.1 hfind
    simp [hj, hlt, eq_comm]

/-- Columns are found under names exactly when the table has them all, each at its place. -/
theorem columnIndexes_eq_ok {names : List String} {is : List Nat} :
    t.columnIndexes names = .ok is ↔
      (∀ n ∈ names, NamedIn t.names n) ∧ is = names.map (placeIn t.names) := by
  rw [columnIndexes]
  induction names generalizing is with
  | nil => simp [pure, Except.pure, @eq_comm _ [] is]
  | cons n names ih =>
    rw [List.mapM_cons, List.forall_mem_cons, List.map_cons]
    constructor
    · intro h
      cases hi : t.columnIndex n with
      | error e => simp [hi, bind, Except.bind] at h
      | ok i =>
        cases his : names.mapM t.columnIndex with
        | error e => simp [hi, his, bind, Except.bind] at h
        | ok more =>
          obtain rfl : i :: more = is := by
            simpa [hi, his, bind, Except.bind, pure, Except.pure] using h
          obtain ⟨hn, rfl⟩ := columnIndex_eq_ok.1 hi
          obtain ⟨hnames, rfl⟩ := ih.1 his
          exact ⟨⟨hn, hnames⟩, rfl⟩
    · rintro ⟨⟨hn, hnames⟩, rfl⟩
      rw [columnIndex_eq_ok.2 ⟨hn, rfl⟩]
      have hmore := ih.2 ⟨hnames, rfl⟩
      simp only [hmore, bind, Except.bind, pure, Except.pure]

/-- Columns are read where names of columns are spelled. -/
theorem readColumns_eq_ok {inner : List Token} {is : List Nat} :
    t.readColumns inner = .ok is ↔ ∃ names, SpellsNames names inner ∧
      (∀ n ∈ names, NamedIn t.names n) ∧ is = names.map (placeIn t.names) := by
  simp only [readColumns, bind_eq_ok, readNames_eq_ok, fromCatalog_eq_ok, columnIndexes_eq_ok]

/-- A table has a column exactly when its name is among theirs. -/
theorem hasColumn_eq_true_iff {n : String} : t.hasColumn n = true ↔ NamedIn t.names n := by
  simp [hasColumn_iff, NamedIn, names]

end Table

/-! ## Checks -/

section Checks

variable {t : Table}

theorem name?_eq_some {token : Token} {n : String} (h : token.name? = some n) :
    token = .name n ∨ ∃ parts, token = .identifier parts := by
  cases token with
  | name text => exact .inl (congrArg Token.name (Option.some.inj h))
  | identifier parts => exact .inr ⟨parts, rfl⟩
  | _ => cases h

/-- An operand is read exactly as it is spelled, provided the table has the column. -/
theorem readOperand_eq_ok {token : Token} {e : CheckExpr} :
    readOperand t token = .ok e ↔ ∃ o : OperandSyntax, o.Spelled token ∧
      (∀ n ∈ o.mentions, NamedIn t.names n) ∧ e = o.expr t.names := by
  constructor
  · have column {n : String} (hname : token.name? = some n)
        (h : CheckExpr.column <$> fromCatalog (t.columnIndex n) = .ok e) :
        ∃ o : OperandSyntax, o.Spelled token ∧
          (∀ n ∈ o.mentions, NamedIn t.names n) ∧ e = o.expr t.names := by
      obtain ⟨i, hi, rfl⟩ := map_eq_ok.1 h
      obtain ⟨hn, rfl⟩ := Table.columnIndex_eq_ok.1 (fromCatalog_eq_ok.1 hi)
      exact ⟨.column n, .column hname, by simpa [OperandSyntax.mentions] using hn, rfl⟩
    intro h
    unfold readOperand at h
    split at h
    · split at h
      · rename_i hname
        exact column hname h
      · cases h
    · split at h
      · rename_i hname
        exact column hname h
      · cases h
    · obtain ⟨⟨f, arguments⟩, hcall, h⟩ := bind_eq_ok.1 h
      obtain ⟨is, his, h⟩ := bind_eq_ok.1 h
      obtain rfl := Except.ok.inj h
      obtain ⟨names, hspelled, hnames, rfl⟩ := Table.readColumns_eq_ok.1 his
      refine ⟨.call f names, .call (readCall_eq_ok.1 hcall) hspelled, hnames, ?_⟩
      simp [OperandSyntax.expr]
    · obtain ⟨v, hv, rfl⟩ := map_eq_ok.1 h
      exact ⟨.literal v, .literal (readLiteral_eq_ok.1 hv), by simp [OperandSyntax.mentions], rfl⟩
  · rintro ⟨o, hspelled, hmentions, rfl⟩
    cases hspelled with
    | @column n _ hname =>
      have hi : fromCatalog (t.columnIndex n) = .ok (placeIn t.names n) :=
        fromCatalog_eq_ok.2 (Table.columnIndex_eq_ok.2 ⟨hmentions n List.mem_cons_self, rfl⟩)
      rcases name?_eq_some hname with rfl | ⟨parts, rfl⟩ <;>
        simp only [readOperand, hname] <;> rw [hi] <;> rfl
    | @literal v _ hv =>
      have hread : readOperand t token =
          CheckExpr.constant <$> readLiteral "column, literal or function" token := by
        cases token with
        | name | identifier | call => cases hv
        | _ => rfl
      rw [hread, readLiteral_eq_ok.2 hv]
      rfl
    | @call f columns parts arguments hcall hcolumns =>
      have his := Table.readColumns_eq_ok.2 ⟨columns, hcolumns, hmentions, rfl⟩
      refine bind_eq_ok.2 ⟨_, readCall_eq_ok.2 hcall, bind_eq_ok.2 ⟨_, his, ?_⟩⟩
      simp [OperandSyntax.expr, pure, Except.pure]

/-- The operand that comes next is the next token. -/
theorem readNextOperand_eq_ok {ts rest : List Token} {e : CheckExpr} :
    readNextOperand t ts = .ok (e, rest) ↔
      ∃ token, ts = token :: rest ∧ readOperand t token = .ok e := by
  cases ts with
  | nil => simp [readNextOperand, violated]
  | cons token ts => cases h : readOperand t token <;> simp [readNextOperand, h, Functor.map,
      Except.map, and_comm]

/-- Checks are read where checks of columns are spelled. -/
theorem readCheck_eq_ok {inner : List Token} {e : CheckExpr} :
    readCheck t inner = .ok e ↔ ∃ c : CheckSyntax, c.Spelled inner ∧
      (∀ n ∈ c.mentions, NamedIn t.names n) ∧ e = c.expr t.names := by
  constructor
  · intro h
    obtain ⟨⟨lhs, rest⟩, hlhs, h⟩ := bind_eq_ok.1 h
    dsimp only at h
    split at h
    · rename_i operator rest
      obtain ⟨⟨rhs, rest'⟩, hrhs, h⟩ := bind_eq_ok.1 h
      dsimp only at h
      split at h
      · obtain rfl := Except.ok.inj h
        obtain ⟨l, rfl, hl⟩ := readNextOperand_eq_ok.1 hlhs
        obtain ⟨r, rfl, hr⟩ := readNextOperand_eq_ok.1 hrhs
        obtain ⟨o, ho, hmentions, rfl⟩ := readOperand_eq_ok.1 hl
        obtain ⟨o', ho', hmentions', rfl⟩ := readOperand_eq_ok.1 hr
        refine ⟨⟨o, operator, o'⟩, .mk ho ho', ?_, rfl⟩
        exact List.forall_mem_append.2 ⟨hmentions, hmentions'⟩
      · cases h
    · cases h
  · rintro ⟨c, hspelled, hmentions, rfl⟩
    obtain ⟨hlhs, hrhs⟩ := hspelled
    obtain ⟨hl, hr⟩ := List.forall_mem_append.1 hmentions
    refine bind_eq_ok.2 ⟨_, readNextOperand_eq_ok.2 ⟨_, rfl, readOperand_eq_ok.2
      ⟨_, hlhs, hl, rfl⟩⟩, ?_⟩
    exact bind_eq_ok.2 ⟨_, readNextOperand_eq_ok.2 ⟨_, rfl, readOperand_eq_ok.2
      ⟨_, hrhs, hr, rfl⟩⟩, rfl⟩

end Checks

/-! ## Types -/

section Types

variable {t : Token} {ts rest : List Token}

/-- The first word of a type is read exactly as it is spelled. -/
theorem readTypeHead_eq_ok {type : String × Option UInt32} :
    readTypeHead t = .ok type ↔ SpellsTypeHead ⟨type.1, type.2⟩ t := by
  constructor
  · intro h
    unfold readTypeHead at h
    split at h
    · obtain ⟨⟨a, arguments⟩, hcall, h⟩ := bind_eq_ok.1 h
      obtain ⟨n, hn, h⟩ := bind_eq_ok.1 h
      obtain rfl := Except.ok.inj h
      obtain ⟨raw, rfl, hraw⟩ := readTypeLength_eq_ok.1 hn
      exact .call (readCall_eq_ok.1 hcall) hraw
    · split at h
      · rename_i hname
        obtain rfl := Except.ok.inj h
        exact .word hname
      · cases h
    · split at h
      · rename_i hname
        obtain rfl := Except.ok.inj h
        exact .word hname
      · cases h
    · cases h
  · obtain ⟨a, length⟩ := type
    intro h
    cases h with
    | word hname =>
      rcases name?_eq_some hname with rfl | ⟨parts, rfl⟩ <;> simp [readTypeHead, hname]
    | call hcall hn =>
      exact bind_eq_ok.2 ⟨_, readCall_eq_ok.2 hcall, bind_eq_ok.2
        ⟨_, readTypeLength_eq_ok.2 ⟨_, rfl, hn⟩, rfl⟩⟩

/-- The words that are read after the first one go on with a type as it is spelled. -/
theorem spelled_of_readTypeWords {type type' : String × Option UInt32}
    (hhead : SpellsTypeHead ⟨type.1, type.2⟩ t) (h : readTypeWords type ts = .ok (type', rest)) :
    ∃ us, t :: ts = us ++ rest ∧ SpellsTypeWords ⟨type'.1, type'.2⟩ us := by
  obtain ⟨a, length⟩ := type
  have zone {u : Token} {more : List Token} (ha : lower a = "timestamp" ∨ lower a = "time")
      (h : (if u.isWord "with" || u.isWord "without" then do
        let rest ← readWord "time" more
        let rest ← readWord "zone" rest
        return ((s!"{a} {u.text} time zone", length), rest)
      else .ok ((a, length), u :: more)) = (.ok (type', rest) : Compile _)) :
      ∃ us, t :: u :: more = us ++ rest ∧ SpellsTypeWords ⟨type'.1, type'.2⟩ us := by
    split at h
    · rename_i hu
      obtain ⟨afterTime, htime, h⟩ := bind_eq_ok.1 h
      obtain ⟨afterZone, hzone, h⟩ := bind_eq_ok.1 h
      obtain ⟨rfl, rfl⟩ := Prod.mk.inj (Except.ok.inj h)
      obtain ⟨v, rfl, hv⟩ := readWord_eq_ok.1 htime
      obtain ⟨w, rfl, hw⟩ := readWord_eq_ok.1 hzone
      exact ⟨[t, u, v, w], rfl, .zone hhead ha (by simpa using hu) hv hw⟩
    · obtain ⟨rfl, rfl⟩ := Prod.mk.inj (Except.ok.inj h)
      exact ⟨[t], rfl, .one hhead⟩
  unfold readTypeWords at h
  split at h
  · rename_i ha
    split at h
    · rename_i hu
      obtain ⟨rfl, rfl⟩ := Prod.mk.inj (Except.ok.inj h)
      exact ⟨[t, _], rfl, .double hhead ha hu⟩
    · obtain ⟨rfl, rfl⟩ := Prod.mk.inj (Except.ok.inj h)
      exact ⟨[t], rfl, .one hhead⟩
  · rename_i ha
    split at h
    · split at h
      · rename_i hfilter
        obtain ⟨n, hn, h⟩ := bind_eq_ok.1 h
        obtain ⟨rfl, rfl⟩ := Prod.mk.inj (Except.ok.inj h)
        obtain ⟨raw, rfl, hraw⟩ := readTypeLength_eq_ok.1 hn
        obtain ⟨hcall, hword⟩ := Option.filter_eq_some_iff.1 hfilter
        exact ⟨[t, _], rfl, .varyingCall hhead ha hcall hword hraw⟩
      · cases h
    · split at h
      · rename_i hu
        obtain ⟨rfl, rfl⟩ := Prod.mk.inj (Except.ok.inj h)
        exact ⟨[t, _], rfl, .varying hhead ha hu⟩
      · obtain ⟨rfl, rfl⟩ := Prod.mk.inj (Except.ok.inj h)
        exact ⟨[t], rfl, .one hhead⟩
  · rename_i ha
    exact zone (.inl ha) h
  · rename_i ha
    exact zone (.inr ha) h
  · obtain ⟨rfl, rfl⟩ := Prod.mk.inj (Except.ok.inj h)
    exact ⟨[t], rfl, .one hhead⟩

/-- The words of a type are read as far as they go, unless another one goes on with them. -/
theorem readTypeWords_of_spelled {type : ColumnType} {us : List Token} (h : SpellsTypeWords type us)
    (hrest : StopsWords rest) :
    ∃ t ts head, us = t :: ts ∧ readTypeHead t = .ok head ∧
      readTypeWords head (ts ++ rest) = .ok ((type.name, type.length), rest) := by
  cases h with
  | @one type t hhead =>
    exact ⟨t, [], _, rfl, readTypeHead_eq_ok.2 hhead, readTypeWords_stops hrest _⟩
  | @double a length t u hhead ha hu =>
    refine ⟨t, [u], (a, length), rfl, readTypeHead_eq_ok.2 hhead, ?_⟩
    simp only [readTypeWords, ha, List.singleton_append, hu, if_true]
  | @varying a length t u hhead ha hu =>
    refine ⟨t, [u], (a, length), rfl, readTypeHead_eq_ok.2 hhead, ?_⟩
    have hcall : ∀ parts, u ≠ .call parts := by
      rintro parts rfl
      cases hu
    simp only [readTypeWords, ha, List.singleton_append]
    simp only [hu, if_true]
  | @varyingCall a b raw length n t parts hhead ha hcall hb hn =>
    refine ⟨t, [.call parts], (a, length), rfl, readTypeHead_eq_ok.2 hhead, ?_⟩
    have hlength : readTypeLength [.integer raw] = .ok n := readTypeLength_eq_ok.2 ⟨raw, rfl, hn⟩
    simp only [readTypeWords, ha, List.singleton_append, hcall, Option.filter_some, hb, if_true,
      hlength, bind, Except.bind]
    rfl
  | @zone a length t u v w hhead ha hu hv hw =>
    refine ⟨t, [u, v, w], (a, length), rfl, readTypeHead_eq_ok.2 hhead, ?_⟩
    have hword : (u.isWord "with" || u.isWord "without") = true := by simpa using hu
    have htime : readWord "time" (v :: w :: rest) = .ok (w :: rest) :=
      readWord_eq_ok.2 ⟨v, rfl, hv⟩
    have hzone : readWord "zone" (w :: rest) = .ok rest := readWord_eq_ok.2 ⟨w, rfl, hw⟩
    rcases ha with ha | ha <;>
      simp only [readTypeWords, ha, List.cons_append, List.nil_append, hword, if_true, htime, hzone,
        bind, Except.bind] <;> rfl

/-- A type is read as it is spelled, and it is known. -/
theorem spelled_of_readColumnType {type : ColumnType} (h : readColumnType ts = .ok (type, rest)) :
    isKnownType type.name = true ∧ ∃ us, ts = us ++ rest ∧ type.Spelled us := by
  cases ts with
  | nil => cases h
  | cons t ts =>
    obtain ⟨head, hhead, h⟩ := bind_eq_ok.1 h
    obtain ⟨⟨⟨a, before⟩, afterWords⟩, hwords, h⟩ := bind_eq_ok.1 h
    obtain ⟨⟨length, afterLength⟩, hlength, h⟩ := bind_eq_ok.1 h
    obtain ⟨us, hus, hspelled⟩ := spelled_of_readTypeWords (readTypeHead_eq_ok.1 hhead) hwords
    dsimp only at h hlength hspelled
    split at h
    · rename_i hknown
      obtain ⟨rfl, rfl⟩ := Prod.mk.inj (Except.ok.inj h)
      refine ⟨hknown, ?_⟩
      unfold readLengthAfter at hlength
      split at hlength
      · obtain ⟨n, hn, hlength⟩ := bind_eq_ok.1 hlength
        obtain ⟨rfl, rfl⟩ := Prod.mk.inj (Except.ok.inj hlength)
        obtain ⟨raw, rfl, hraw⟩ := readTypeLength_eq_ok.1 hn
        exact ⟨us ++ [.paren [.integer raw]], by simp [hus], .length hspelled hraw⟩
      · obtain ⟨rfl, rfl⟩ := Prod.mk.inj (Except.ok.inj hlength)
        exact ⟨us, hus, .words hspelled⟩
    · cases h

/-- A known type is read back from how it is spelled, if nothing after it goes on with it. -/
theorem readColumnType_of_spelled {type : ColumnType} {us : List Token} (h : type.Spelled us)
    (hknown : isKnownType type.name = true) (hrest : StopsType rest) :
    readColumnType (us ++ rest) = .ok (type, rest) := by
  cases h with
  | words hwords =>
    obtain ⟨t, ts, head, rfl, hhead, hread⟩ := readTypeWords_of_spelled hwords hrest.1
    exact readColumnType_ok hhead hread (readLengthAfter_stops hrest _) hknown
  | @length a raw n us hwords hn =>
    have hparen : StopsWords (.paren [.integer raw] :: rest) := by
      rintro t ⟨⟩
      exact ⟨by simp, fun _ _ => rfl⟩
    obtain ⟨t, ts, head, rfl, hhead, hread⟩ := readTypeWords_of_spelled hwords hparen
    have hlength : readLengthAfter none (.paren [.integer raw] :: rest) = .ok (some n, rest) :=
      bind_eq_ok.2 ⟨n, readTypeLength_eq_ok.2 ⟨raw, rfl, hn⟩, rfl⟩
    rw [List.append_assoc]
    exact readColumnType_ok hhead hread hlength hknown

end Types

end SqlCatalog
