import SqlCatalog.Query.Rendering
import SqlCatalog.Token.Lexer

/-!
# Reading references back

A column is written by its name, or by that of its table and its own with a full stop between
them. A name that is not plain stands between double quotes with the quotes inside it doubled, so
the text of a reference says which names it is made of.

## Main definitions

* `splitName` reads the name at the beginning of a text.
* `Reference.ofText?` reads a reference.

## Main statements

* `takeName_doubling`: what stands between double quotes is read back.
* `Reference.ofText?_text`: the text of a reference is read back as that reference.
-/

namespace SqlCatalog

/-! ## Names -/

/-- The name at the beginning of `cs`, between double quotes or up to a full stop, and what
follows it. -/
def splitName : List Char → Option (String × List Char)
  | '"' :: cs => (takeName cs).map fun r => (String.ofList r.1, r.2)
  | cs => some (String.ofList (cs.takeWhile (· != '.')), cs.dropWhile (· != '.'))

/-- Doubled quotes are read as one, up to the quote that ends the name. -/
theorem takeName_doubling (cs : List Char) {rest : List Char} (hrest : rest.head? ≠ some '"') :
    takeName (doubling '"' cs ++ '"' :: rest) = some (cs, rest) := by
  induction cs with
  | nil =>
    cases rest with
    | nil => rfl
    | cons c rest =>
      have hc : c ≠ '"' := by simpa using hrest
      rw [doubling, List.flatMap_nil, List.nil_append, takeName]
      · rfl
      · intro cs _ h
        exact hc (List.cons.inj h).1
  | cons c cs ih =>
    by_cases hc : c = '"'
    · subst hc
      show takeName ('"' :: '"' :: (doubling '"' cs ++ '"' :: rest)) = _
      rw [takeName, ih]
      rfl
    · -- Neither case of `takeName` for a quote applies to a character that is none.
      have hplain : doubling '"' (c :: cs) = c :: doubling '"' cs := by simp [doubling, hc]
      rw [hplain, List.cons_append, takeName]
      · simp [hc, ih]
      · intro cs h
        exact absurd h hc

/-- A plain name has no full stop and does not begin with a quote. -/
theorem toList_of_isPlainName {name : String} (h : isPlainName name = true) :
    ∃ c cs, name.toList = c :: cs ∧ c ≠ '"' ∧ ∀ d ∈ c :: cs, d ≠ '.' := by
  unfold isPlainName at h
  split at h
  · cases h
  · rename_i c cs hname
    rw [Bool.and_eq_true, List.all_eq_true] at h
    obtain ⟨hfirst, hrest⟩ := h
    refine ⟨c, cs, hname, ?_, ?_⟩
    · rintro rfl
      exact absurd hfirst (by decide)
    · intro d hd hdot
      subst hdot
      rcases List.mem_cons.1 hd with rfl | hd
      · exact absurd hfirst (by decide)
      · exact absurd (hrest _ hd) (by decide)

/-- A quoted name is read back if it is all of the text or a full stop follows it. -/
theorem splitName_quoteName (name : String) {rest : List Char}
    (hrest : ∀ c ∈ rest.head?, c = '.') :
    splitName ((quoteName name).toList ++ rest) = some (name, rest) := by
  unfold quoteName
  split
  · rename_i hplain
    obtain ⟨c, cs, hname, hquote, hdot⟩ := toList_of_isPlainName hplain
    have hall : ∀ d ∈ name.toList, (d != '.') = true := by
      intro d hd
      simpa using hdot d (hname ▸ hd)
    have hstop : rest.takeWhile (· != '.') = [] ∧ rest.dropWhile (· != '.') = rest := by
      cases rest with
      | nil => exact ⟨rfl, rfl⟩
      | cons d rest =>
        obtain rfl : d = '.' := hrest d rfl
        exact ⟨rfl, rfl⟩
    have hsplit : splitName (name.toList ++ rest) =
        some (String.ofList ((name.toList ++ rest).takeWhile (· != '.')),
          (name.toList ++ rest).dropWhile (· != '.')) := by
      rw [hname, List.cons_append, splitName]
      intro cs h
      exact hquote (List.cons.inj h).1
    rw [hsplit, List.takeWhile_append_of_pos hall, List.dropWhile_append_of_pos hall, hstop.1,
      hstop.2, List.append_nil, String.ofList_toList]
  · have hquote : rest.head? ≠ some '"' := by
      intro h
      exact absurd (hrest '"' h) (by decide)
    have htext : (enclose '"' name).toList ++ rest =
        '"' :: (doubling '"' name.toList ++ '"' :: rest) := by
      simp [enclose]
    rw [htext, splitName, takeName_doubling _ hquote]
    simp

/-! ## References -/

/-- The reference that a text spells. -/
def Reference.ofText? (text : String) : Option Reference :=
  match splitName text.toList with
  | some (column, []) => some (.bare column)
  | some (table, '.' :: cs) =>
    match splitName cs with
    | some (column, []) => some (.qualified table column)
    | _ => none
  | _ => none

/-- The text of a reference is read back as that reference. -/
theorem Reference.ofText?_text (r : Reference) : ofText? (r.text quoteName) = some r := by
  have last (name : String) : splitName (quoteName name).toList = some (name, []) := by
    have h : splitName ((quoteName name).toList ++ []) = some (name, []) :=
      splitName_quoteName name (by simp)
    rwa [List.append_nil] at h
  cases r with
  | bare column => rw [ofText?, text, last]
  | qualified table column =>
    have hsplit : splitName (quoteName table ++ "." ++ quoteName column).toList =
        some (table, '.' :: (quoteName column).toList) := by
      rw [String.toList_append, String.toList_append, List.append_assoc]
      exact splitName_quoteName table (by simp)
    rw [ofText?, text, hsplit]
    show (match splitName (quoteName column).toList with
      | some (column, []) => some (qualified table column)
      | _ => none) = _
    rw [last]

end SqlCatalog
