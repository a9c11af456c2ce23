import Mathlib.Data.List.Chain
import SqlCatalog.Proofs.Lists
import SqlCatalog.Proofs.Token.Levels

/-!
# The shapes of groups

What grouping makes has the shape of its kind, at every depth of a statement: an identifier is names
with dots between them, a call an identifier and a parenthesis, and a list stands alone. Names are
parts of identifiers, with one exception. Where a parenthesis comes after a name and a dot, the dot
belongs to no identifier and what stands between the parentheses is not grouped, so that the names
there are left as they are.

## Main definitions

* `Level` is tokens that stand next to each other, `Level.Everywhere` what holds at every depth.
* `Level.Shaped` are the shapes of the groups on a level, `Level.NamesEnclosed` says that names are
  parts of identifiers.
* `Level.NoNameBehindDot` says of nested tokens that no name is left as it is.
* `Token.ComesFrom` says what a grouped token is made of.

## Main statements

* `comesFrom_of_mem_groupFrom`: the tokens of a level are made of those before grouping.
* `everywhere_shaped_groupInside`, `namesEnclosed_inside_iff`: what holds inside a parenthesis when
  it is grouped.
* `shapes_of_statements`: the shapes of the groups in a source.
-/

namespace SqlCatalog

/-! ## Levels at every depth -/

/-- The tokens that a token is put together from. -/
def Token.children : Token → List Token
  | identifier parts | call parts => parts
  | list items => items
  | paren inner => inner
  | _ => []

/-- Tokens that stand next to each other, and the token that they are inside of, if there is one. -/
structure Level where
  owner : Option Token
  tokens : List Token

namespace Level

/-- The tokens of a statement or of a source. -/
def outermost (ts : List Token) : Level := ⟨none, ts⟩

/-- The tokens inside a token. -/
def inside (t : Token) : Level := ⟨some t, t.children⟩

/-- The first level is the second one, or inside one of its tokens at some depth. -/
inductive Within (l : Level) : Level → Prop
  | refl : Within l l
  | inside {m : Level} {t : Token} (ht : t ∈ m.tokens) (h : Within l (.inside t)) : Within l m

/-- Whether something holds of a level and of all levels inside its tokens. -/
def Everywhere (P : Level → Prop) (l : Level) : Prop := ∀ m, m.Within l → P m

section Everywhere

variable {P Q : Level → Prop} {l : Level}

/-- What holds everywhere holds on the level and everywhere inside each of its tokens. -/
theorem everywhere_iff : l.Everywhere P ↔ P l ∧ ∀ t ∈ l.tokens, (inside t).Everywhere P := by
  constructor
  · exact fun h => ⟨h l .refl, fun t ht m hm => h m (.inside ht hm)⟩
  · rintro ⟨hl, hinside⟩ m hm
    cases hm with
    | refl => exact hl
    | inside ht hm => exact hinside _ ht m hm

/-- A token without parts has one level inside, which is empty. -/
theorem everywhere_inside_iff {t : Token} (h : t.children = []) :
    (inside t).Everywhere P ↔ P ⟨some t, []⟩ := by
  rw [everywhere_iff, inside, h]
  simp

theorem Everywhere.imp (h : l.Everywhere P) (hPQ : ∀ m, P m → Q m) : l.Everywhere Q :=
  fun m hm => hPQ m (h m hm)

end Everywhere

end Level

/-! ## Shapes -/

/-- Names with dots between them. -/
def IsDottedName (ts : List Token) : Prop :=
  ∃ names : List String, names ≠ [] ∧ ts = (names.map .name).intersperse (.punctuation '.')

/-- Two items or more, with commas between them and maybe comments. -/
def IsItemList (ts : List Token) : Prop :=
  ∃ items : List Token, 2 ≤ items.length ∧ (∀ t ∈ items, t.isItem = true) ∧
    ts.filter Token.isSignificant = items.intersperse (.punctuation ',')

/-- Whether a token can stand before another one: an identifier does not before a parenthesis. -/
def Token.MayPrecede : Token → Token → Prop
  | identifier _, paren _ => False
  | _, _ => True

namespace Level

/-- Whether the level is not inside the parts of a call. -/
def OutsideCalls (l : Level) : Prop := ∀ parts, l.owner ≠ some (.call parts)

/-- Whether the level is not inside the parts of an identifier. -/
def OutsideIdentifiers (l : Level) : Prop := ∀ parts, l.owner ≠ some (.identifier parts)

/-- All groups on the level have the shape of their kind. -/
structure Shaped (l : Level) : Prop where
  identifiers : ∀ parts, .identifier parts ∈ l.tokens → IsDottedName parts
  calls : ∀ parts, .call parts ∈ l.tokens →
    ∃ names inner, parts = [.identifier names, .paren inner]
  lists : ∀ items, .list items ∈ l.tokens → l.tokens = [.list items] ∧ IsItemList items
  parens : l.OutsideCalls → l.tokens.IsChain Token.MayPrecede

/-- Names stand on the level only as the parts of an identifier. -/
def NamesEnclosed (l : Level) : Prop := l.OutsideIdentifiers → ∀ n, .name n ∉ l.tokens

/-- There are no names on the level. -/
def Nameless (l : Level) : Prop := ∀ n, .name n ∉ l.tokens

/-- There are no names, at any depth, in a parenthesis that comes after a name and a dot. -/
def NoNameBehindDot (l : Level) : Prop :=
  ∀ before a inner after,
    l.tokens = before ++ .name a :: .punctuation '.' :: .paren inner :: after →
      (inside (.paren inner)).Everywhere Nameless

end Level

open Level

section Dotted

variable {parts : List Token}

theorem isDottedName_singleton (n : String) : IsDottedName [.name n] := ⟨[n], by simp, rfl⟩

/-- A dotted name with a dot and a name behind it is a dotted name. -/
theorem IsDottedName.append (h : IsDottedName parts) (n : String) :
    IsDottedName (parts ++ [.punctuation '.', .name n]) := by
  obtain ⟨names, hne, rfl⟩ := h
  refine ⟨names ++ [n], by simp, ?_⟩
  rw [List.map_append, List.map_singleton, intersperse_concat (by simpa using hne)]

theorem IsDottedName.mem (h : IsDottedName parts) {t : Token} (ht : t ∈ parts) :
    t = .punctuation '.' ∨ ∃ n, t = .name n := by
  obtain ⟨names, -, rfl⟩ := h
  rcases eq_or_mem_of_mem_intersperse ht with ht | ht
  · exact .inl ht
  · obtain ⟨n, -, rfl⟩ := List.mem_map.1 ht
    exact .inr ⟨n, rfl⟩

end Dotted

section Lists

variable {ts : List Token}

/-- What the check for a list accepts is items with a comma between any two. -/
theorem exists_items_of_isCommaSeparated (h : isCommaSeparated ts = true) :
    ∃ items : List Token, items ≠ [] ∧ (∀ t ∈ items, t.isItem = true) ∧
      ts = items.intersperse (.punctuation ',') := by
  fun_induction isCommaSeparated ts with
  | case1 => cases h
  | case2 item => exact ⟨[item], by simp, by simpa using h, rfl⟩
  | case3 item comma rest ih =>
    obtain ⟨⟨hitem, hcomma⟩, hrest⟩ : (item.isItem = true ∧ comma.isMark ',' = true) ∧
      isCommaSeparated rest = true := by simpa using h
    obtain ⟨items, hne, hitems, rfl⟩ := ih hrest
    obtain rfl := eq_of_isMark hcomma
    refine ⟨item :: items, by simp, List.forall_mem_cons.2 ⟨hitem, hitems⟩, ?_⟩
    obtain ⟨next, items, rfl⟩ := List.exists_cons_of_ne_nil hne
    rw [List.intersperse_cons_cons]

/-- A level that is taken for a list is two items or more. -/
theorem isItemList_of_isListLevel (h : isListLevel ts = true) : IsItemList ts := by
  obtain ⟨hlength, hseparated⟩ := Bool.and_eq_true_iff.1 h
  obtain ⟨items, -, hitems, hsplit⟩ := exists_items_of_isCommaSeparated hseparated
  refine ⟨items, ?_, hitems, hsplit⟩
  -- One item alone would be one token, and there are three at least.
  rw [hsplit] at hlength
  rcases items with - | ⟨item, - | ⟨next, items⟩⟩
  · simp at hlength
  · simp at hlength
  · simp

end Lists

/-! ## What grouped tokens are made of -/

/-- What a token of a grouped level is made of, where `ts` are the tokens before grouping. -/
inductive Token.ComesFrom (ts : List Token) : Token → Prop
  | identifier {parts : List Token} (h : IsDottedName parts) : ComesFrom ts (.identifier parts)
  | call {parts inner : List Token} (h : IsDottedName parts) (hinner : .paren inner ∈ ts) :
      ComesFrom ts (.call [.identifier parts, groupInside (.paren inner)])
  | inside {t : Token} (ht : t ∈ ts) (hname : ∀ n, t ≠ .name n) : ComesFrom ts (groupInside t)
  /-- A parenthesis after a name and a dot is left as it is. -/
  | behindDot {before inner after : List Token} {a : String}
      (h : ts = before ++ .name a :: .punctuation '.' :: .paren inner :: after) :
      ComesFrom ts (.paren inner)

/-- The identifier that is being read after `before`: its last name ends these tokens, or a dot
after it does. -/
def OpenName.ReadFrom (before : List Token) : OpenName → Prop
  | none => True
  | ended parts => IsDottedName parts ∧ ∃ earlier a, before = earlier ++ [.name a]
  | dotted parts =>
    IsDottedName parts ∧ ∃ earlier a, before = earlier ++ [.name a, .punctuation '.']

section Grouping

variable {before ts : List Token} {o : OpenName} {t u : Token}

/-- The identifier that is being read is made of the tokens read last. -/
theorem OpenName.ReadFrom.after (h : o.ReadFrom before) (t : Token) :
    (o.after t).ReadFrom (before ++ [t]) := by
  fun_cases OpenName.after o t with
  | case1 n => exact ⟨isDottedName_singleton n, before, n, rfl⟩
  | case2 parts n => exact ⟨isDottedName_singleton n, before, n, rfl⟩
  | case3 parts =>
    obtain ⟨hparts, earlier, a, rfl⟩ := h
    exact ⟨hparts, earlier, a, by simp⟩
  | case4 parts n => exact ⟨h.1.append n, before, n, rfl⟩
  | case5 => trivial

/-- What a token completes comes from the tokens read so far. -/
theorem comesFrom_of_mem_emit (ho : o.ReadFrom before) (t : Token) (ts : List Token) :
    ∀ u ∈ o.emit t, u.ComesFrom (before ++ t :: ts) := by
  have hmem : t ∈ before ++ t :: ts := by simp
  have inside (hname : ∀ n, t ≠ .name n) : (groupInside t).ComesFrom (before ++ t :: ts) :=
    .inside hmem hname
  -- A token that is no name and no parenthesis is as it is inside.
  have other (hname : ∀ n, t ≠ .name n) (hparen : ∀ inner, t ≠ .paren inner) :
      t.ComesFrom (before ++ t :: ts) := by
    have hinside : groupInside t = t := by
      cases t with
      | paren inner => exact absurd rfl (hparen inner)
      | _ => rfl
    simpa only [hinside] using inside hname
  fun_cases OpenName.emit o t with
  | case1 | case2 | case3 => simp
  | case4 =>
    rename_i hname
    exact List.forall_mem_singleton.2 (inside hname)
  | case5 parts n => exact List.forall_mem_singleton.2 (.identifier ho.1)
  | case6 parts inner => exact List.forall_mem_singleton.2 (.call ho.1 hmem)
  | case7 parts _ _ hname =>
    rename_i hparen
    simp only [List.forall_mem_cons]
    exact ⟨.identifier ho.1, other hname hparen, by simp⟩
  | case8 parts =>
    rename_i hname
    obtain ⟨hparts, earlier, a, rfl⟩ := ho
    have hdot : Token.ComesFrom (earlier ++ [.name a, .punctuation '.'] ++ t :: ts)
        (.punctuation '.') := .inside (t := .punctuation '.') (by simp) (by simp)
    have ht : t.ComesFrom (earlier ++ [.name a, .punctuation '.'] ++ t :: ts) := by
      by_cases hparen : ∃ inner, t = .paren inner
      · obtain ⟨inner, rfl⟩ := hparen
        exact .behindDot (List.append_assoc _ _ _)
      · exact other hname fun inner h => hparen ⟨inner, h⟩
    simp only [List.forall_mem_cons]
    exact ⟨.identifier hparts, hdot, ht, by simp⟩

/-- What grouping gives, behind the tokens already read, comes from all of them. -/
theorem comesFrom_of_mem_groupFrom (before : List Token) (ho : o.ReadFrom before) :
    ∀ u ∈ groupFrom o ts, u.ComesFrom (before ++ ts) := by
  induction ts generalizing o before with
  | nil =>
    rw [List.append_nil]
    cases o with
    | none => simp [groupFrom]
    | ended parts => simpa [groupFrom] using Token.ComesFrom.identifier ho.1
    | dotted parts =>
      obtain ⟨hparts, earlier, a, rfl⟩ := ho
      have hdot : Token.ComesFrom (earlier ++ [.name a, .punctuation '.']) (.punctuation '.') :=
        .inside (t := .punctuation '.') (by simp) (by simp)
      simpa [groupFrom] using ⟨Token.ComesFrom.identifier hparts, hdot⟩
  | cons t ts ih =>
    rw [groupFrom_cons]
    refine List.forall_mem_append.2 ⟨comesFrom_of_mem_emit ho t ts, ?_⟩
    have hrest := ih _ (ho.after t)
    rwa [List.append_assoc] at hrest

/-- Grouping goes on after a name, a dot and a parenthesis with the parenthesis as it is. -/
theorem mem_groupFrom_behindDot (o : OpenName) (before after inner : List Token) (a : String) :
    .paren inner ∈
      groupFrom o (before ++ .name a :: .punctuation '.' :: .paren inner :: after) := by
  obtain ⟨grouped, hgrouped⟩ := groupFrom_foldl o before
  rw [hgrouped]
  refine List.mem_append_right _ ?_
  cases before.foldl OpenName.after o <;> simp [groupFrom]

/-- A parenthesis is grouped inside, alone or in a call, or it is left as it is. -/
theorem exists_mem_groupFrom_paren (o : OpenName) {inner : List Token} (h : .paren inner ∈ ts) :
    groupInside (.paren inner) ∈ groupFrom o ts ∨
      (∃ parts, .call [.identifier parts, groupInside (.paren inner)] ∈ groupFrom o ts) ∨
      .paren inner ∈ groupFrom o ts := by
  obtain ⟨before, after, rfl⟩ := List.append_of_mem h
  obtain ⟨grouped, hgrouped⟩ := groupFrom_foldl o before
  rw [hgrouped]
  cases before.foldl OpenName.after o with
  | none => exact .inl (by simp [groupFrom])
  | ended parts => exact .inr (.inl ⟨parts, by simp [groupFrom]⟩)
  | dotted parts => exact .inr (.inr (by simp [groupFrom]))

end Grouping

/-! ## Shapes at every depth -/

/-- A token of a source, or a parenthesis around such tokens. -/
abbrev Token.IsUngrouped : Token → Prop := Token.IsNested (Token.IsLexical True)

section Neighbours

variable {o : OpenName} {ts : List Token} {t : Token}

/-- A token that was not grouped is neither an identifier nor a call nor a list. -/
theorem Token.IsUngrouped.ne (h : t.IsUngrouped) : (∀ parts, t ≠ .identifier parts) ∧
    (∀ parts, t ≠ .call parts) ∧ ∀ items, t ≠ .list items := by
  cases h with
  | leaf h => cases h <;> simp
  | paren => simp

/-- What the lexer reads has no parts. -/
theorem Token.IsLexical.children_eq {last : Prop} (h : t.IsLexical last) : t.children = [] := by
  cases h <;> rfl

/-- What the lexer reads has nothing inside to be grouped. -/
theorem Token.IsLexical.groupInside_eq {last : Prop} (h : t.IsLexical last) :
    groupInside t = t := by
  cases h <;> rfl

/-- Grouping inside a token makes no identifier of it. -/
theorem groupInside_ne_identifier (h : ∀ parts, t ≠ .identifier parts) (parts : List Token) :
    groupInside t ≠ .identifier parts := by
  cases t with
  | paren => simp [groupInside]
  | _ => exact h parts

/-- Only an identifier may not stand before some token. -/
theorem mayPrecede_of_ne (h : ∀ parts, t ≠ .identifier parts) (u : Token) : t.MayPrecede u := by
  cases t with
  | identifier parts => exact absurd rfl (h parts)
  | _ => trivial

theorem mayPrecede_of_ne_paren (h : ∀ inner, t ≠ .paren inner) (u : Token) : u.MayPrecede t := by
  cases u with
  | identifier parts =>
    cases t with
    | paren inner => exact absurd rfl (h inner)
    | _ => trivial
  | _ => trivial

/-- An identifier that is being read comes out as an identifier or in a call. -/
theorem head?_groupFrom_ne_paren (ho : o ≠ .none) :
    ∀ u ∈ (groupFrom o ts).head?, ∀ inner, u ≠ .paren inner := by
  induction ts generalizing o with
  | nil => cases o <;> simp_all [groupFrom]
  | cons t ts ih =>
    have hrest := ih (o := o.after t)
    rw [groupFrom_cons]
    fun_cases OpenName.emit o t with
    | case1 | case4 => exact absurd rfl ho
    | case2 | case3 => exact hrest (by simp [OpenName.after])
    | case5 | case6 | case7 | case8 => simp

/-- What comes out before the next token is no identifier at the end, unless that token goes on with
one. -/
theorem isChain_emit (o : OpenName) (ht : t.IsUngrouped) :
    (o.emit t).IsChain Token.MayPrecede ∧
      (o.after t = .none → ∀ u ∈ (o.emit t).getLast?, ∀ parts, u ≠ .identifier parts) := by
  obtain ⟨hidentifier, -⟩ := ht.ne
  fun_cases OpenName.emit o t with
  | case1 | case2 | case3 | case5 => simp [OpenName.after]
  | case4 => simpa using fun _ => groupInside_ne_identifier hidentifier
  | case6 => simp
  | case7 =>
    rename_i hparen
    simpa using ⟨mayPrecede_of_ne_paren hparen _, fun _ => hidentifier⟩
  | case8 => simpa [Token.MayPrecede] using fun _ => hidentifier

/-- No parenthesis follows an identifier: the two are a call. -/
theorem isChain_groupFrom (o : OpenName) (hts : ∀ t ∈ ts, t.IsUngrouped) :
    (groupFrom o ts).IsChain Token.MayPrecede := by
  induction ts generalizing o with
  | nil => cases o <;> simp [groupFrom, Token.MayPrecede]
  | cons t ts ih =>
    obtain ⟨ht, hts⟩ := List.forall_mem_cons.1 hts
    obtain ⟨hemit, hlast⟩ := isChain_emit o ht
    rw [groupFrom_cons, List.isChain_append]
    refine ⟨hemit, ih _ hts, fun u hu v hv => ?_⟩
    by_cases hafter : o.after t = .none
    · exact mayPrecede_of_ne (hlast hafter u hu) v
    · exact mayPrecede_of_ne_paren (head?_groupFrom_ne_paren hafter v hv) u

end Neighbours

section Depth

variable {ts parts inner : List Token} {t u : Token} {owner : Option Token}

theorem IsDottedName.isUngrouped (h : IsDottedName parts) : ∀ t ∈ parts, t.IsUngrouped := by
  intro t ht
  rcases h.mem ht with rfl | ⟨n, rfl⟩
  · exact .leaf (.punctuation (by simp)) rfl rfl
  · exact .leaf (.name n) rfl rfl

theorem shaped_of_isUngrouped (hts : ∀ t ∈ ts, t.IsUngrouped) : (Level.mk owner ts).Shaped where
  identifiers parts h := absurd rfl ((hts _ h).ne.1 parts)
  calls parts h := absurd rfl ((hts _ h).ne.2.1 parts)
  lists items h := absurd rfl ((hts _ h).ne.2.2 items)
  parens _ := (List.pairwise_of_forall_mem_list fun t ht u _ =>
    mayPrecede_of_ne (hts t ht).ne.1 u).isChain

/-- What is not grouped has no groups that could have another shape. -/
theorem everywhere_shaped_of_isUngrouped (ht : t.IsUngrouped) : (inside t).Everywhere Shaped := by
  induction ht with
  | leaf h => exact (everywhere_inside_iff h.children_eq).2 (shaped_of_isUngrouped (by simp))
  | paren h ih => exact everywhere_iff.2 ⟨shaped_of_isUngrouped h, ih⟩

/-- An identifier that is a dotted name has nothing ill-shaped inside. -/
theorem everywhere_shaped_identifier (h : IsDottedName parts) :
    (inside (.identifier parts)).Everywhere Shaped :=
  everywhere_iff.2 ⟨shaped_of_isUngrouped h.isUngrouped,
    fun t ht => everywhere_shaped_of_isUngrouped (h.isUngrouped t ht)⟩

/-- A call is well-shaped at every depth when its name is dotted and its parenthesis is
well-shaped. -/
theorem everywhere_shaped_call (h : IsDottedName parts)
    (hinner : (inside (.paren inner)).Everywhere Shaped) :
    (inside (.call [.identifier parts, .paren inner])).Everywhere Shaped := by
  have htokens : (inside (.call [.identifier parts, .paren inner])).tokens =
      [.identifier parts, .paren inner] := rfl
  refine everywhere_iff.2 ⟨⟨?_, ?_, ?_, ?_⟩, ?_⟩
  · intro names hnames
    obtain rfl : names = parts := by simpa [htokens] using hnames
    exact h
  · simp [htokens]
  · simp [htokens]
  · exact fun houtside => absurd rfl (houtside _)
  · rw [htokens]
    simpa using ⟨everywhere_shaped_identifier h, hinner⟩

/-- Grouping inside a token changes parentheses only. -/
theorem groupInside_eq_or_paren (t : Token) :
    groupInside t = t ∨ ∃ level, groupInside t = .paren level := by
  cases t with
  | paren => exact .inr ⟨_, rfl⟩
  | _ => exact .inl rfl

/-- A group on a grouped level has the shape of its kind, and there are no lists. -/
theorem Token.ComesFrom.shape (h : u.ComesFrom ts) (hts : ∀ t ∈ ts, t.IsUngrouped) :
    (∀ parts, u = .identifier parts → IsDottedName parts) ∧
    (∀ parts, u = .call parts → ∃ names inner, parts = [.identifier names, .paren inner]) ∧
    ∀ items, u ≠ .list items := by
  cases h with
  | identifier h => simpa using h
  | @call parts inner h hinner =>
    refine ⟨by simp, fun parts' hparts => ?_, by simp⟩
    exact ⟨parts, _, (Token.call.inj hparts).symm⟩
  | @inside t ht =>
    rcases groupInside_eq_or_paren t with heq | ⟨level, heq⟩ <;> rw [heq]
    · obtain ⟨hidentifier, hcall, hlist⟩ := (hts t ht).ne
      exact ⟨fun parts h => absurd h (hidentifier parts), fun parts h => absurd h (hcall parts),
        hlist⟩
    · simp
  | behindDot => simp

/-- Inside a token of a grouped level all groups are shaped, if those inside the parentheses of the
level are. -/
theorem Token.ComesFrom.everywhere_shaped (h : u.ComesFrom ts) (hts : ∀ t ∈ ts, t.IsUngrouped)
    (hinside : ∀ t ∈ ts, (Level.inside (groupInside t)).Everywhere Shaped) :
    (Level.inside u).Everywhere Shaped := by
  cases h with
  | identifier h => exact everywhere_shaped_identifier h
  | call h hinner => exact everywhere_shaped_call h (hinside _ hinner)
  | inside ht => exact hinside _ ht
  | behindDot h => exact everywhere_shaped_of_isUngrouped (hts _ (by simp [h]))

/-- What grouping gives comes from the tokens that were grouped. -/
theorem comesFrom_groupFrom (ts : List Token) : ∀ u ∈ groupFrom .none ts, u.ComesFrom ts :=
  comesFrom_of_mem_groupFrom [] trivial

/-- All groups of a level are shaped when it is grouped, if those inside its parentheses are. -/
theorem everywhere_shaped_groupFrom (hts : ∀ t ∈ ts, t.IsUngrouped)
    (hinside : ∀ t ∈ ts, (inside (groupInside t)).Everywhere Shaped) :
    (Level.mk owner (groupFrom .none ts)).Everywhere Shaped := by
  have hshape (u : Token) (hu : u ∈ groupFrom .none ts) := (comesFrom_groupFrom ts u hu).shape hts
  refine everywhere_iff.2 ⟨⟨fun parts h => ?_, fun parts h => ?_, fun items h => ?_, fun _ => ?_⟩,
    fun u hu => (comesFrom_groupFrom ts u hu).everywhere_shaped hts hinside⟩
  · exact (hshape _ h).1 parts rfl
  · exact (hshape _ h).2.1 parts rfl
  · exact absurd rfl ((hshape _ h).2.2 items)
  · exact isChain_groupFrom .none hts

/-- A level that is a list stays shaped when the list is made. -/
theorem everywhere_shaped_asList (owner : Option Token)
    (h : ∀ owner, (Level.mk owner ts).Everywhere Shaped) :
    (Level.mk owner (asList ts)).Everywhere Shaped := by
  rw [asList]
  split
  · rename_i hlist
    refine everywhere_iff.2 ⟨⟨by simp, by simp, ?_, by simp⟩, ?_⟩
    · rintro items hitems
      obtain rfl : items = ts := by simpa using hitems
      exact ⟨rfl, isItemList_of_isListLevel hlist⟩
    · exact List.forall_mem_singleton.2 (h _)
  · exact h owner

/-- What stands inside a parenthesis is shaped when it is grouped. -/
theorem everywhere_shaped_groupInside (ht : t.IsUngrouped) :
    (inside (groupInside t)).Everywhere Shaped := by
  induction ht with
  | leaf h hopen hclose =>
    rw [h.groupInside_eq]
    exact everywhere_shaped_of_isUngrouped (.leaf h hopen hclose)
  | paren h ih => exact everywhere_shaped_asList _ fun _ => everywhere_shaped_groupFrom h ih

end Depth

/-! ## Names outside identifiers -/

/-- Whether a token is no name, and no name is outside an identifier inside it. -/
def Token.EnclosesNames (t : Token) : Prop :=
  (∀ n, t ≠ .name n) ∧ (inside t).Everywhere NamesEnclosed

section Names

variable {ts parts inner : List Token} {t u : Token} {owner : Option Token}

/-- Outside an identifier, names are enclosed at every depth exactly when each token encloses its
own. -/
theorem everywhere_namesEnclosed_iff (howner : ∀ parts, owner ≠ some (.identifier parts)) :
    (Level.mk owner ts).Everywhere NamesEnclosed ↔ ∀ t ∈ ts, t.EnclosesNames := by
  have hlevel : (Level.mk owner ts).NamesEnclosed ↔ ∀ t ∈ ts, ∀ n, t ≠ .name n := by
    constructor
    · rintro h t ht n rfl
      exact h howner n ht
    · exact fun h _ n hn => h _ hn n rfl
  rw [everywhere_iff, hlevel, ← forall₂_and]
  rfl

/-- Where nothing is grouped there are no identifiers, so enclosed names are no names at all. -/
theorem everywhere_nameless_of_isUngrouped (ht : t.IsUngrouped)
    (h : (inside t).Everywhere NamesEnclosed) : (inside t).Everywhere Nameless := by
  induction ht with
  | leaf ht => exact (everywhere_inside_iff ht.children_eq).2 (by simp [Nameless])
  | @paren inner hinner ih =>
    have hall := (everywhere_namesEnclosed_iff (by simp)).1 h
    exact everywhere_iff.2 ⟨fun n hn => (hall _ hn).1 n rfl, fun t ht => ih t ht (hall t ht).2⟩

theorem enclosesNames_identifier (h : IsDottedName parts) :
    (Token.identifier parts).EnclosesNames := by
  refine ⟨by simp, everywhere_iff.2 ⟨fun houtside => absurd rfl (houtside parts), fun t ht => ?_⟩⟩
  have hchildren : t.children = [] := by
    rcases h.mem ht with rfl | ⟨n, rfl⟩ <;> rfl
  exact (everywhere_inside_iff hchildren).2 (by simp [NamesEnclosed])

/-- A token that is no name and no identifier encloses names as the tokens in it do. -/
theorem enclosesNames_iff (hname : ∀ n, t ≠ .name n)
    (hidentifier : ∀ parts, t ≠ .identifier parts) :
    t.EnclosesNames ↔ ∀ u ∈ t.children, u.EnclosesNames := by
  have hinside : (inside t).Everywhere NamesEnclosed ↔ ∀ u ∈ t.children, u.EnclosesNames :=
    everywhere_namesEnclosed_iff fun parts h => hidentifier parts (Option.some.inj h)
  rw [Token.EnclosesNames, hinside, and_iff_right hname]

/-- A list encloses names as its items do. -/
theorem forall_mem_asList_enclosesNames :
    (∀ t ∈ asList ts, t.EnclosesNames) ↔ ∀ t ∈ ts, t.EnclosesNames := by
  rw [asList]
  split
  · rw [List.forall_mem_singleton, enclosesNames_iff (by simp) (by simp)]
    rfl
  · rfl

theorem Level.Nameless.noNameBehindDot {l : Level} (h : l.Nameless) : l.NoNameBehindDot := by
  intro before a inner after htokens
  exact absurd (by simp [htokens]) (h a)

/-- When a level is grouped, a name remains outside identifiers exactly if it is behind a dot. -/
theorem forall_mem_groupFrom_enclosesNames (owner : Option Token) (hts : ∀ t ∈ ts, t.IsUngrouped)
    (hinside : ∀ t ∈ ts, (inside (groupInside t)).Everywhere NamesEnclosed ↔
      (inside t).Everywhere NoNameBehindDot) :
    (∀ u ∈ groupFrom .none ts, u.EnclosesNames) ↔
      (Level.mk owner ts).Everywhere NoNameBehindDot := by
  constructor
  · intro h
    refine everywhere_iff.2 ⟨?_, fun t ht => (hinside t ht).1 ?_⟩
    · rintro before a inner after rfl
      have hraw := h _ (mem_groupFrom_behindDot .none before after inner a)
      exact everywhere_nameless_of_isUngrouped (hts _ (by simp)) hraw.2
    · cases hts t ht with
      | leaf hlexical =>
        rw [hlexical.groupInside_eq]
        exact (everywhere_inside_iff hlexical.children_eq).2 (by simp [NamesEnclosed])
      | @paren inner hinner =>
        rcases exists_mem_groupFrom_paren .none ht with hmem | ⟨parts, hmem⟩ | hmem
        · exact (h _ hmem).2
        · have hcall := (enclosesNames_iff (by simp) (by simp)).1 (h _ hmem)
          exact (hcall _ (by simp [Token.children])).2
        · have hnameless := everywhere_nameless_of_isUngrouped (.paren hinner) (h _ hmem).2
          exact (hinside _ ht).2 (hnameless.imp fun _ => Nameless.noNameBehindDot)
  · intro h u hu
    obtain ⟨hlevel, hmore⟩ := everywhere_iff.1 h
    have hgrouped {t : Token} (ht : t ∈ ts) (hname : ∀ n, t ≠ .name n) :
        (groupInside t).EnclosesNames := by
      refine ⟨fun n hn => ?_, (hinside t ht).2 (hmore t ht)⟩
      rcases groupInside_eq_or_paren t with heq | ⟨level, heq⟩ <;> rw [heq] at hn
      · exact hname n hn
      · cases hn
    cases comesFrom_groupFrom ts u hu with
    | identifier h => exact enclosesNames_identifier h
    | @call parts inner h hinner =>
      have hparen := hgrouped hinner (by simp)
      refine (enclosesNames_iff (by simp) (by simp)).2 ?_
      simpa [Token.children] using ⟨enclosesNames_identifier h, hparen⟩
    | inside ht hname => exact hgrouped ht hname
    | @behindDot before inner after a h =>
      refine ⟨by simp, (hlevel before a inner after h).imp fun m hm _ => hm⟩

/-- What stands inside a parenthesis encloses its names when it is grouped, except behind dots. -/
theorem namesEnclosed_inside_iff (ht : t.IsUngrouped) :
    (inside (groupInside t)).Everywhere NamesEnclosed ↔ (inside t).Everywhere NoNameBehindDot := by
  induction ht with
  | leaf h =>
    rw [h.groupInside_eq, everywhere_inside_iff h.children_eq, everywhere_inside_iff h.children_eq]
    simp [NamesEnclosed, NoNameBehindDot]
  | @paren inner h ih =>
    have hlevel : (inside (groupInside (.paren inner))).Everywhere NamesEnclosed ↔
        ∀ u ∈ asList (groupFrom .none inner), u.EnclosesNames :=
      everywhere_namesEnclosed_iff (by simp [groupInside])
    rw [hlevel, forall_mem_asList_enclosesNames]
    exact forall_mem_groupFrom_enclosesNames _ h ih

end Names

/-! ## Sources -/

section Sources

variable {Q : Token → Prop} {ts : List Token}

/-- The tokens of the statements are those of the level that is cut, semicolons apart. -/
theorem forall_mem_splitStatements_iff (hsemicolon : Q (.punctuation ';')) (current : Statement) :
    (∀ statement ∈ splitStatements current ts, ∀ t ∈ statement, Q t) ↔
      (∀ t ∈ current, Q t) ∧ ∀ t ∈ ts, Q t := by
  induction ts generalizing current with
  | nil => cases current <;> simp [splitStatements, or_imp, forall_and, and_comm]
  | cons t ts ih =>
    rw [splitStatements]
    split
    · rename_i hmark
      obtain rfl := eq_of_isMark hmark
      simp [ih, hsemicolon]
    · simp [ih, and_assoc, and_left_comm]

/-- In the statements of a source every group has the shape of its kind, at every depth. Names are
parts of identifiers exactly if no name stands, at any depth, in a parenthesis that comes after a
name and a dot. -/
theorem shapes_of_statements {source : String} {script : List Statement}
    (h : statements source = .ok script) :
    (∀ statement ∈ script, (outermost statement).Everywhere Shaped) ∧
    ∃ ts nested, tokenize source = .ok ts ∧ nest ts = some nested ∧
      ((∀ statement ∈ script, (outermost statement).Everywhere NamesEnclosed) ↔
        (outermost nested).Everywhere NoNameBehindDot) := by
  obtain ⟨ts, nested, htokens, hnested, rfl⟩ := statements_eq_ok.1 h
  have hlexical : ∀ t ∈ ts, t.IsLexical True := (tokenize_eq_ok.1 htokens).allLexical.forall_mem
  refine ⟨fun statement hmem => ?_, ts, nested, htokens, hnested, ?_⟩
  · obtain ⟨level, hlevel, -, hstatement⟩ := exists_level htokens hlexical h hmem
    have hgrouped (owner : Option Token) :
        (Level.mk owner (groupFrom .none level)).Everywhere Shaped :=
      everywhere_shaped_groupFrom hlevel fun t ht => everywhere_shaped_groupInside (hlevel t ht)
    have hlist := everywhere_shaped_asList none hgrouped
    rcases hstatement with rfl | ⟨hislist, rfl⟩
    · exact hgrouped none
    · rwa [asList, if_pos hislist] at hlist
  · have hungrouped := isNested_nest hnested hlexical
    have hlevel (statement : Statement) : (outermost statement).Everywhere NamesEnclosed ↔
        ∀ t ∈ statement, t.EnclosesNames := everywhere_namesEnclosed_iff (by simp)
    have hsemicolon : (Token.punctuation ';').EnclosesNames :=
      (enclosesNames_iff (by simp) (by simp)).2 (by simp [Token.children])
    simp only [hlevel]
    rw [forall_mem_splitStatements_iff hsemicolon, groupLevel, forall_mem_asList_enclosesNames,
      forall_mem_groupFrom_enclosesNames none hungrouped fun t ht =>
        namesEnclosed_inside_iff (hungrouped t ht)]
    simp [outermost]

/-- A call by a dotted name, with a list of arguments. -/
theorem shapes_of_statements_call :
    ∃ script, statements "\"a\".\"b\"(-1,\"c\")" = .ok script ∧
      ∀ statement ∈ script, (outermost statement).Everywhere Shaped ∧
        (outermost statement).Everywhere NamesEnclosed := by
  let arguments : List Token := [.integer "-1", .punctuation ',', .name "c"]
  have htokens : tokenize "\"a\".\"b\"(-1,\"c\")" = .ok [.name "a", .punctuation '.', .name "b",
      .punctuation '(', .integer "-1", .punctuation ',', .name "c", .punctuation ')'] :=
    toOption_eq_some.1 (by decide +kernel)
  have hscript : statements "\"a\".\"b\"(-1,\"c\")" = .ok _ :=
    statements_eq_ok.2 ⟨_, _, htokens, rfl, rfl⟩
  obtain ⟨hshaped, ts, nested, hts, hnested, hnames⟩ := shapes_of_statements hscript
  obtain rfl := Except.ok.inj (htokens.symm.trans hts)
  obtain rfl := Option.some.inj hnested
  have hleaf (t : Token) (ht : t.children = []) : (inside t).Everywhere NoNameBehindDot :=
    (everywhere_inside_iff ht).2 (by simp [NoNameBehindDot])
  -- The only dot is before a name.
  have hparen : (inside (.paren arguments)).Everywhere NoNameBehindDot := by
    refine everywhere_iff.2 ⟨fun before a inner after h => ?_, ?_⟩
    · simp [Level.inside, Token.children, List.cons_eq_append_iff, arguments] at h
    · simpa [Level.inside, Token.children, arguments] using ⟨hleaf _ rfl, hleaf _ rfl, hleaf _ rfl⟩
  have hnested : (outermost [.name "a", .punctuation '.', .name "b", .paren arguments]).Everywhere
      NoNameBehindDot := by
    refine everywhere_iff.2 ⟨fun before a inner after h => ?_, ?_⟩
    · simp [outermost, List.cons_eq_append_iff] at h
    · simpa [outermost] using ⟨hleaf _ rfl, hleaf _ rfl, hleaf _ rfl, hparen⟩
  exact ⟨_, hscript, fun statement hmem =>
    ⟨hshaped statement hmem, hnames.2 hnested statement hmem⟩⟩

/-- A parenthesis after a name and a dot is not grouped inside: its names are not enclosed. -/
theorem name_outside_identifier :
    ∃ script, statements "\"a\".(\"b\")" = .ok script ∧
      ¬ ∀ statement ∈ script, (outermost statement).Everywhere NamesEnclosed := by
  have htokens : tokenize "\"a\".(\"b\")" = .ok [.name "a", .punctuation '.', .punctuation '(',
      .name "b", .punctuation ')'] :=
    toOption_eq_some.1 (by decide +kernel)
  have hscript : statements "\"a\".(\"b\")" =
      .ok [[.identifier [.name "a"], .punctuation '.', .paren [.name "b"]]] :=
    statements_eq_ok.2 ⟨_, _, htokens, rfl, rfl⟩
  refine ⟨_, hscript, fun h => ?_⟩
  have hlevel : (inside (.paren [.name "b"])).NamesEnclosed :=
    h _ List.mem_cons_self _ (.inside (t := .paren [.name "b"]) (by simp [outermost]) .refl)
  exact hlevel (by simp [OutsideIdentifiers, inside]) "b" (by simp [inside, Token.children])

end Sources

end SqlCatalog
