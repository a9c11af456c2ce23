import Mathlib.Data.List.Infix
import SqlCatalog.Proofs.Query.Writing

/-!
# Patterns

A condition can ask whether a text begins with another one, ends with it or contains it. The server
is asked whether the text matches a pattern, which is put together from the given text and `%`. In a
pattern `%` stands for any text and `_` for any character, and there is no way to write either of
them for itself. The given text is therefore a pattern itself: it is looked for as it is written
exactly if neither character stands in it.

## Main definitions

* `likeMatches` says which texts match a pattern.
* `Comparison.Admits` says that a text matches the pattern of a condition.
* `HasNoWildcard` says that a text stands for itself in a pattern.

## Main statements

* `likeMatches_append`: a pattern made of two is matched part by part.
* `Expression.arguments_of_text?`: what is put together from texts is written with these.
* `admits_iff_hasNoWildcard`: what the conditions that are built from a text admit.
-/

namespace SqlCatalog

/-! ## Matching -/

/-- Whether a text matches a pattern: `%` stands for any text, `_` for any character, and every
other character for itself. -/
def likeMatches : List Char → List Char → Bool
  | [], cs => cs.isEmpty
  | p :: ps, cs =>
    if p == '%' then cs.tails.any (likeMatches ps)
    else
      match cs with
      | [] => false
      | c :: cs => (p == '_' || p == c) && likeMatches ps cs

section Matching

variable {p : Char} {ps qs cs : List Char}

theorem likeMatches_nil_iff : likeMatches [] cs = true ↔ cs = [] := List.isEmpty_iff

/-- A percent sign takes any beginning of the text. -/
theorem likeMatches_any_iff : likeMatches ('%' :: ps) cs = true ↔
    ∃ before rest, cs = before ++ rest ∧ likeMatches ps rest = true := by
  have hany : likeMatches ('%' :: ps) cs = cs.tails.any (likeMatches ps) := rfl
  rw [hany, List.any_eq_true]
  constructor
  · rintro ⟨rest, hrest, hmatches⟩
    obtain ⟨before, hbefore⟩ := (List.mem_tails _ _).1 hrest
    exact ⟨before, rest, hbefore.symm, hmatches⟩
  · rintro ⟨before, rest, rfl, hmatches⟩
    exact ⟨rest, (List.mem_tails _ _).2 (List.suffix_append _ _), hmatches⟩

/-- Any other character of a pattern takes one character, an underscore whichever it is. -/
theorem likeMatches_cons_iff (hp : p ≠ '%') : likeMatches (p :: ps) cs = true ↔
    ∃ c rest, cs = c :: rest ∧ (p = '_' ∨ p = c) ∧ likeMatches ps rest = true := by
  have hp' : ¬(p == '%') = true := by simpa using hp
  cases cs with
  | nil => simp [likeMatches, hp']
  | cons c cs => simp [likeMatches, hp']

/-- Any text matches `%`. -/
theorem likeMatches_percent (cs : List Char) : likeMatches ['%'] cs = true :=
  likeMatches_any_iff.2 ⟨cs, [], (List.append_nil cs).symm, rfl⟩

/-- A pattern made of two is matched by what is made of texts that match these. -/
theorem likeMatches_append : likeMatches (ps ++ qs) cs = true ↔
    ∃ as bs, cs = as ++ bs ∧ likeMatches ps as = true ∧ likeMatches qs bs = true := by
  induction ps generalizing cs with
  | nil => simp [likeMatches_nil_iff]
  | cons p ps ih =>
    rw [List.cons_append]
    by_cases hp : p = '%'
    · subst hp
      simp only [likeMatches_any_iff, ih]
      constructor
      · rintro ⟨before, _, rfl, as, bs, rfl, has, hbs⟩
        exact ⟨before ++ as, bs, (List.append_assoc _ _ _).symm, ⟨before, as, rfl, has⟩, hbs⟩
      · rintro ⟨_, bs, rfl, ⟨before, as, rfl, has⟩, hbs⟩
        exact ⟨before, as ++ bs, List.append_assoc _ _ _, as, bs, rfl, has, hbs⟩
    · simp only [likeMatches_cons_iff hp, ih]
      constructor
      · rintro ⟨c, _, rfl, hc, as, bs, rfl, has, hbs⟩
        exact ⟨c :: as, bs, rfl, ⟨c, as, rfl, hc, has⟩, hbs⟩
      · rintro ⟨_, bs, rfl, ⟨c, as, rfl, hc, has⟩, hbs⟩
        exact ⟨c, as ++ bs, rfl, hc, as, bs, rfl, has, hbs⟩

end Matching

/-! ## Wildcards -/

/-- Every character of the text stands for itself in a pattern. -/
def HasNoWildcard (ps : List Char) : Prop := '%' ∉ ps ∧ '_' ∉ ps

instance (ps : List Char) : Decidable (HasNoWildcard ps) := inferInstanceAs (Decidable (_ ∧ _))

/-- A text that matches the pattern: nothing in the place of `%`, a letter in that of `_`. -/
def filled (ps : List Char) : List Char :=
  ps.filterMap fun p => if p = '%' then none else if p = '_' then some 'a' else some p

section Wildcards

variable {ps cs : List Char}

/-- Only the text itself matches a pattern without wildcards. -/
theorem HasNoWildcard.likeMatches_iff (h : HasNoWildcard ps) :
    likeMatches ps cs = true ↔ cs = ps := by
  induction ps generalizing cs with
  | nil => exact likeMatches_nil_iff
  | cons p ps ih =>
    obtain ⟨hany, hone⟩ := h
    rw [List.mem_cons, not_or] at hany hone
    rw [likeMatches_cons_iff (Ne.symm hany.1)]
    simp [ih ⟨hany.2, hone.2⟩, Ne.symm hone.1, eq_comm]

/-- A text in which the wildcards are filled in matches its pattern. -/
theorem likeMatches_filled (ps : List Char) : likeMatches ps (filled ps) = true := by
  induction ps with
  | nil => rfl
  | cons p ps ih =>
    by_cases hp : p = '%'
    · subst hp
      exact likeMatches_any_iff.2 ⟨[], filled ps, rfl, ih⟩
    · rw [likeMatches_cons_iff hp]
      by_cases hone : p = '_'
      · exact ⟨'a', filled ps, by simp [filled, hone], .inl hone, ih⟩
      · exact ⟨p, filled ps, by simp [filled, hp, hone], .inr rfl, ih⟩

theorem hasNoWildcard_filled (ps : List Char) : HasNoWildcard (filled ps) := by
  have hfilled {c : Char} (hc : c ∈ filled ps) : c ≠ '%' ∧ c ≠ '_' := by
    obtain ⟨p, -, hp⟩ := List.mem_filterMap.1 hc
    split at hp
    · cases hp
    · split at hp
      · obtain rfl := Option.some.inj hp
        decide
      · obtain rfl := Option.some.inj hp
        exact ⟨‹_›, ‹_›⟩
  exact ⟨fun h => (hfilled h).1 rfl, fun h => (hfilled h).2 rfl⟩

/-- The text that matches a pattern does not contain the pattern, unless there are no wildcards. -/
theorem hasNoWildcard_of_infix_filled (h : ps <:+: filled ps) : HasNoWildcard ps := by
  have hlength : ps.length = (filled ps).length :=
    Nat.le_antisymm h.length_le (List.length_filterMap_le _ _)
  rw [h.eq_of_length hlength]
  exact hasNoWildcard_filled ps

end Wildcards

/-! ## The texts of expressions -/

/-- The text of a value that is one. -/
def Value.text? : Value → Option String
  | text s => some s
  | _ => none

/-- The values of a fragment one after the other, if they are texts. -/
def Fragment.joinedTexts? (f : Fragment) : Option String :=
  match f.values with
  | .ok vs => (vs.mapM Value.text?).map String.join
  | .error _ => none

/-- The text of an expression that is put together from texts. -/
def Expression.text? : Expression → Option String
  | .constant value => value.text?
  | .binary .concat lhs rhs => do return (← lhs.text?) ++ (← rhs.text?)
  | _ => none

section Texts

/-- The texts of constant arguments are joined in order. -/
theorem Fragment.joinedTexts?_of_arguments {f : Fragment} {texts : List String}
    (h : f.arguments = texts.map fun t => .value (.text t)) :
    f.joinedTexts? = some (String.join texts) := by
  have hvalues : f.values = .ok (texts.map .text) := by
    rw [Fragment.values, h, List.mapM_map]
    exact List.mapM_pure
  have htexts : (texts.map .text).mapM Value.text? = some texts := by
    rw [List.mapM_map]
    exact List.mapM_pure.trans (congrArg some (List.map_id texts))
  rw [joinedTexts?, hvalues]
  simp only [htexts, Option.map_some]

theorem Fragment.arguments_inParensIf (needed : Bool) (f : Fragment) :
    (f.inParensIf needed).arguments = f.arguments := by
  cases needed <;> rfl

variable (quote : String → String) (scope : Scope) (g : Speller)

/-- An operation is written with the arguments of its operands. -/
theorem Expression.arguments_render_binary (operator : Operator) (lhs rhs : Expression) :
    ((binary operator lhs rhs).render quote scope g).1.arguments =
      (lhs.render quote scope g).1.arguments ++
        (rhs.render quote scope (lhs.render quote scope g).2).1.arguments := by
  rw [render]
  simp only [spelling_bind, spelling_pure, Fragment.append, Fragment.pushText,
    Fragment.arguments_inParensIf]

/-- What is put together from texts is written with these texts in its places, in order. -/
theorem Expression.arguments_of_text? {e : Expression} {s : String} (h : e.text? = some s) :
    ∃ texts, (e.render quote scope g).1.arguments = texts.map (fun t => .value (.text t)) ∧
      String.join texts = s := by
  fun_induction Expression.text? e generalizing s g with
  | case1 value =>
    cases value with
    | text t =>
      obtain rfl : t = s := Option.some.inj h
      refine ⟨[t], ?_, rfl⟩
      rw [Expression.render]
      rfl
    | null | bool | int | float => cases h
  | case2 lhs rhs ihl ihr =>
    obtain ⟨t, ht, h⟩ := Option.bind_eq_some_iff.1 h
    obtain ⟨u, hu, h⟩ := Option.bind_eq_some_iff.1 h
    obtain rfl : t ++ u = s := Option.some.inj h
    obtain ⟨left, hleft, rfl⟩ := ihl g ht
    obtain ⟨right, hright, rfl⟩ := ihr (lhs.render quote scope g).2 hu
    refine ⟨left ++ right, ?_, String.join_append⟩
    rw [arguments_render_binary, hleft, hright, List.map_append]
  | case3 => cases h

end Texts

/-! ## The patterns of conditions -/

section Conditions

variable (quote : String → String) (scope : Scope) (g : Speller)

/-- The pattern that the condition compares its operand with, put together from the values that are
passed for it. -/
def Comparison.pattern? : Comparison → Option String
  | .operands .like _ pattern => (pattern.render quote scope g).1.joinedTexts?
  | _ => none

/-- The text matches the pattern of the condition. -/
def Comparison.Admits (c : Comparison) (s : String) : Prop :=
  ∃ pattern, c.pattern? quote scope g = some pattern ∧
    likeMatches pattern.toList s.toList = true

variable (a : Expression) (p s : String)

/-- A condition with a pattern of known text admits the texts that match it. -/
theorem admits_like_iff {e : Expression} {pattern : String} (h : e.text? = some pattern) :
    (Comparison.operands .like a e).Admits quote scope g s ↔
      likeMatches pattern.toList s.toList = true := by
  obtain ⟨texts, htexts, rfl⟩ := Expression.arguments_of_text? quote scope g h
  simp [Comparison.Admits, Comparison.pattern?, Fragment.joinedTexts?_of_arguments htexts]

/-- The condition admits a text whose beginning matches the given text as a pattern. -/
theorem admits_startsWith_iff : (a.startsWith (.text p)).Admits quote scope g s ↔
    ∃ u, u <+: s.toList ∧ likeMatches p.toList u = true := by
  have hpattern : (Expression.concat (.constant (.text p)) .anyText).text? = some (p ++ "%") := rfl
  rw [Expression.startsWith, admits_like_iff quote scope g a s hpattern, String.toList_append,
    likeMatches_append]
  constructor
  · rintro ⟨u, v, hs, hu, -⟩
    exact ⟨u, ⟨v, hs.symm⟩, hu⟩
  · rintro ⟨u, ⟨v, hs⟩, hu⟩
    exact ⟨u, v, hs.symm, hu, likeMatches_percent v⟩

/-- The condition admits a text whose end matches the given text as a pattern. -/
theorem admits_endsWith_iff : (a.endsWith (.text p)).Admits quote scope g s ↔
    ∃ u, u <:+ s.toList ∧ likeMatches p.toList u = true := by
  have hpattern : (Expression.concat .anyText (.constant (.text p))).text? = some ("%" ++ p) := rfl
  rw [Expression.endsWith, admits_like_iff quote scope g a s hpattern, String.toList_append,
    likeMatches_append]
  constructor
  · rintro ⟨v, u, hs, -, hu⟩
    exact ⟨u, ⟨v, hs.symm⟩, hu⟩
  · rintro ⟨u, ⟨v, hs⟩, hu⟩
    exact ⟨v, u, hs.symm, likeMatches_percent v, hu⟩

/-- The condition admits a text of which some part matches the given text as a pattern. -/
theorem admits_contains_iff : (a.contains (.text p)).Admits quote scope g s ↔
    ∃ u, u <:+: s.toList ∧ likeMatches p.toList u = true := by
  have hpattern : (Expression.concat (.concat .anyText (.constant (.text p))) .anyText).text? =
      some ("%" ++ p ++ "%") := rfl
  rw [Expression.contains, admits_like_iff quote scope g a s hpattern, String.toList_append,
    String.toList_append, likeMatches_append]
  constructor
  · rintro ⟨front, w, hs, hfront, -⟩
    obtain ⟨v, u, rfl, -, hu⟩ := likeMatches_append.1 hfront
    exact ⟨u, ⟨v, w, hs.symm⟩, hu⟩
  · rintro ⟨u, ⟨v, w, hs⟩, hu⟩
    have hfront := likeMatches_append.2 ⟨v, u, rfl, likeMatches_percent v, hu⟩
    exact ⟨v ++ u, w, hs.symm, hfront, likeMatches_percent w⟩

/-- What holds of the texts with a part that matches `p` holds of those with the part `p` itself
exactly if there are no wildcards in it. -/
theorem exact_iff_hasNoWildcard {part : List Char → List Char → Prop} (hrefl : ∀ u, part u u)
    (hwithin : ∀ u v, part u v → u <:+: v) {admits : String → Prop}
    (h : ∀ s, admits s ↔ ∃ u, part u s.toList ∧ likeMatches p.toList u = true) :
    (∀ s, admits s ↔ part p.toList s.toList) ↔ HasNoWildcard p.toList := by
  constructor
  · intro hexact
    have hfilled : part (filled p.toList) (String.ofList (filled p.toList)).toList := by
      rw [String.toList_ofList]
      exact hrefl _
    have hpart := (hexact _).1 ((h _).2 ⟨_, hfilled, likeMatches_filled p.toList⟩)
    rw [String.toList_ofList] at hpart
    exact hasNoWildcard_of_infix_filled (hwithin _ _ hpart)
  · intro hnone s
    rw [h]
    simp only [hnone.likeMatches_iff, exists_eq_right]

/-- A condition that is built from a text holds of what begins with, ends with or contains a text
that matches it as a pattern. It means the text itself exactly if that has no wildcards. -/
theorem admits_iff_hasNoWildcard :
    (∀ s, (a.startsWith (.text p)).Admits quote scope g s ↔
      ∃ u, u <+: s.toList ∧ likeMatches p.toList u = true) ∧
    (∀ s, (a.endsWith (.text p)).Admits quote scope g s ↔
      ∃ u, u <:+ s.toList ∧ likeMatches p.toList u = true) ∧
    (∀ s, (a.contains (.text p)).Admits quote scope g s ↔
      ∃ u, u <:+: s.toList ∧ likeMatches p.toList u = true) ∧
    ((∀ s, (a.startsWith (.text p)).Admits quote scope g s ↔ p.toList <+: s.toList) ↔
      HasNoWildcard p.toList) ∧
    ((∀ s, (a.endsWith (.text p)).Admits quote scope g s ↔ p.toList <:+ s.toList) ↔
      HasNoWildcard p.toList) ∧
    ((∀ s, (a.contains (.text p)).Admits quote scope g s ↔ p.toList <:+: s.toList) ↔
      HasNoWildcard p.toList) := by
  have hstarts := admits_startsWith_iff quote scope g a p
  have hends := admits_endsWith_iff quote scope g a p
  have hcontains := admits_contains_iff quote scope g a p
  refine ⟨hstarts, hends, hcontains, ?_, ?_, ?_⟩
  · exact exact_iff_hasNoWildcard p List.prefix_refl (fun _ _ h => h.isInfix) hstarts
  · exact exact_iff_hasNoWildcard p List.suffix_refl (fun _ _ h => h.isInfix) hends
  · exact exact_iff_hasNoWildcard p List.infix_refl (fun _ _ h => h) hcontains

end Conditions

/-- The text `50%` is not found in `500`, and yet a test for it holds of `500`, be it at the
beginning, at the end or anywhere. -/
theorem wildcard_admitted :
    let operand : Expression := .constant (.text "500")
    let speller : Speller := .fresh (.fixed "%s")
    (operand.startsWith (.text "50%")).Admits quoteName [] speller "500" ∧
      (operand.endsWith (.text "50%")).Admits quoteName [] speller "500" ∧
      (operand.contains (.text "50%")).Admits quoteName [] speller "500" ∧
      ¬"50%".toList <:+: "500".toList := by
  have hmatches : likeMatches "50%".toList "500".toList = true := by decide
  refine ⟨?_, ?_, ?_, by decide⟩
  · exact (admits_startsWith_iff ..).2 ⟨_, List.prefix_refl _, hmatches⟩
  · exact (admits_endsWith_iff ..).2 ⟨_, List.suffix_refl _, hmatches⟩
  · exact (admits_contains_iff ..).2 ⟨_, List.infix_refl _, hmatches⟩

end SqlCatalog
