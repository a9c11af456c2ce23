import SqlCatalog.Proofs.Token.Borders

/-!
# Quoted names

A name is written as it is if it is plain, and between double quotes otherwise. Whether a name is
plain does not depend on the words that the lexer reserves, so that a plain name that is one of them
is read as a keyword. Every other name is read back as itself, and as a single token, wherever it is
written: what follows must only not go on with it.

## Main definitions

* `isReservedName` says that a name is plain and yet no name to the lexer.
* `quotedToken` is the token that a name is read as after it was quoted.

## Main statements

* `reads_quoteName`: a quoted name is read as that token, whatever follows it.
* `tokenize_quoteName`: quoting is undone by the lexer exactly for names that are not reserved.
-/

namespace SqlCatalog

/-- Whether a name is written without quotes although it is a reserved word. -/
def isReservedName (name : String) : Bool :=
  isPlainName name && reservedWords.contains (upper name)

/-- The token that a quoted name is read as. -/
def quotedToken (name : String) : Token :=
  if isReservedName name then .keyword (upper name) else .name name

/-- A plain name reads the same with quotes as without, reserved or not. -/
theorem wordToken_of_isPlainName {name : String} (h : isPlainName name = true) :
    wordToken name = quotedToken name := by
  rw [wordToken, quotedToken, isReservedName, h, Bool.true_and]

theorem quotedToken_of_not_isPlainName {name : String} (h : isPlainName name = false) :
    quotedToken name = .name name := by
  rw [quotedToken, isReservedName, h, Bool.false_and, if_neg Bool.false_ne_true]

/-- The quoting of names gives a name back exactly when the name is not reserved. -/
theorem quotedToken_eq_name_iff {name : String} :
    quotedToken name = .name name ↔ isReservedName name = false := by
  cases h : isReservedName name <;> simp [quotedToken, h]

/-- Neither a word nor a name in quotes goes on with what follows. -/
def EndsName (rest : List Char) : Prop := ∀ c ∈ rest.head?, isWordChar c = false ∧ c ≠ '"'

theorem endsName_nil : EndsName [] := by simp [EndsName]

/-- A quoted name is read as one token, wherever it is written. -/
theorem reads_quoteName (name : String) {rest : List Char} (hrest : EndsName rest) :
    Reads ((quoteName name).toList ++ rest) [quotedToken name] rest := by
  unfold quoteName
  split
  · rename_i hplain
    obtain ⟨c, cs, hlist⟩ := List.exists_cons_of_ne_nil (isNameChar_of_isPlainName hplain).1
    obtain ⟨hblank, hscan⟩ := scanToken_plainName hplain hlist fun d hd => (hrest d hd).1
    rw [wordToken_of_isPlainName hplain] at hscan
    rw [hlist]
    exact .token hblank hscan (.done rest)
  · rename_i hquoted
    have hhead : rest.head? ≠ some '"' := fun hhead => (hrest '"' hhead).2 rfl
    rw [quotedToken_of_not_isPlainName (eq_false_of_ne_true hquoted), enclose,
      String.toList_ofList]
    exact .token (by decide) (scanToken_quotedName name hhead) (.done rest)

/-- A name as the code quotes it is read as one token, a keyword where the name is reserved. -/
theorem tokenize_quoteName_eq (name : String) :
    tokenize (quoteName name) = .ok [quotedToken name] := by
  rw [tokenize_eq_ok]
  simpa using reads_quoteName name endsName_nil

/-- A quoted name is read as one token, which is the name exactly if it is not reserved; a reserved
name is read as the keyword. -/
theorem tokenize_quoteName (name : String) :
    tokenize (quoteName name) =
        .ok [if isReservedName name then .keyword (upper name) else .name name] ∧
      (tokenize (quoteName name) = .ok [.name name] ↔ isReservedName name = false) := by
  refine ⟨tokenize_quoteName_eq name, ?_⟩
  rw [tokenize_quoteName_eq, ← quotedToken_eq_name_iff]
  simp

/-- The name of a table that is called `select` is written without quotes and read as a keyword. -/
theorem quoted_select_keyword :
    quoteName "select" = "select" ∧ tokenize (quoteName "select") = .ok [.keyword "SELECT"] ∧
      tokenize (quoteName "select") ≠ .ok [.name "select"] := by
  have hreserved : isReservedName "select" = true := by decide +kernel
  have hupper : upper "select" = "SELECT" := by decide +kernel
  have htoken : quotedToken "select" = .keyword "SELECT" := by
    rw [quotedToken, if_pos hreserved, hupper]
  rw [tokenize_quoteName_eq, htoken]
  exact ⟨by decide, rfl, by simp⟩

end SqlCatalog
