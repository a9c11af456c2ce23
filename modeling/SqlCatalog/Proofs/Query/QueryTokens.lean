import SqlCatalog.Proofs.Query.Places
import SqlCatalog.Proofs.Query.References
import SqlCatalog.Proofs.Text.PlainNames

/-!
# The tokens of a query

The text of a fragment is read as words, names between quotes, places of arguments, and symbols. A
place is known by its spelling: where all places are spelled alike they are counted, otherwise the
number is read. What stands for a place is the slot that the arguments of the fragment have there.
Names, words and places are read back wherever something follows that does not go on with them.

## Main definitions

* `Slot` is one of the values that an argument stands for, `QueryToken` a token of a query.
* `QueryLexer` reads tokens from characters, `Fragment.tokens` those of a fragment.
* `QueryTree` is a token or what stands between parentheses, and `nestTokens` nests tokens.
* `Placeholder.IsReadable` says that places are told apart from everything else.

## Main statements

* `lexFrom_word`, `lexFrom_quoteName` and `lexFrom_places`: words, names and places are read back.
* `Nests.append`, `Nests.group`: tokens are nested part by part.
-/

namespace SqlCatalog

/-! ## Slots -/

/-- One of the values that an argument stands for. -/
structure Slot where
  argument : Argument
  index : Nat
deriving DecidableEq

/-- The slots of an argument, one for each of its places. -/
def Argument.slots (a : Argument) : List Slot := (List.range a.places).map (Slot.mk a)

/-- The slots of the arguments of a fragment, in the order of their places. -/
def Fragment.slots (f : Fragment) : List Slot := f.arguments.flatMap Argument.slots

/-! ## Tokens -/

/-- A token of a query. -/
inductive QueryToken where
  /-- A keyword or a plain name. -/
  | word (text : String)
  /-- A name that stands between quotes. -/
  | quoted (name : String)
  | place (slot : Slot)
  | symbol (text : String)
  /-- A character with which no token begins. -/
  | unknown (c : Char)
deriving DecidableEq

/-- Whether the token is the place of an argument. -/
def QueryToken.isPlace : QueryToken → Bool
  | place _ => true
  | _ => false

/-- Whether a word can begin with the character. -/
def opensWord (c : Char) : Bool := c.isAlpha || c == '_'

/-- The symbols of queries, the longer ones first. -/
def querySymbols : List String :=
  ["!=", ">=", "<=", "||", "=", ">", "<", "+", "-", "*", "(", ")", ",", "."]

/-- What is known of the places of a fragment before it is read: how they are spelled, how many
were spelled before, and what they stand for. -/
structure QueryLexer where
  placeholder : Placeholder
  used : Nat
  slots : List Slot

namespace QueryLexer

variable (L : QueryLexer)

/-- The place with the given number, which begins with the character `c`. -/
def place (c : Char) (number : Nat) : QueryToken :=
  match number - L.used with
  | 0 => .unknown c
  | k + 1 => (L.slots[k]?).elim (.unknown c) .place

/-- The number and the length of the place at the beginning of `cs`, where `count` places came
before it. -/
def placeAt (count : Nat) (cs : List Char) : Option (Nat × Nat) :=
  match L.placeholder with
  | .fixed text => if text.toList.isPrefixOf cs then some (count + 1, text.length) else none
  | .numbered lead =>
    if lead.toList.isPrefixOf cs then
      let digits := (cs.drop lead.length).takeWhile Char.isDigit
      some (Nat.ofDigitChars 10 digits 0, lead.length + digits.length)
    else none

/-- The token that begins with `c` and goes on in `cs`, and the number of characters that it takes
from `cs`. -/
def tokenAt (count : Nat) (c : Char) (cs : List Char) : QueryToken × Nat :=
  if opensWord c then
    let more := cs.takeWhile isNameChar
    (.word (String.ofList (c :: more)), more.length)
  else if c == '"' then
    match takeName cs with
    | some (name, rest) => (.quoted (String.ofList name), cs.length - rest.length)
    | none => (.unknown c, 0)
  else
    match querySymbols.find? fun s => s.toList.isPrefixOf (c :: cs) with
    | some s => (.symbol s, s.length - 1)
    | none =>
      match L.placeAt count (c :: cs) with
      | some (number, length) => (L.place c number, length - 1)
      | none => (.unknown c, 0)

/-- The tokens of a text, where the first `skip` characters belong to the token before and `count`
places came before. -/
def lexFrom (skip count : Nat) : List Char → List QueryToken
  | [] => []
  | c :: cs =>
    match skip with
    | skip + 1 => lexFrom skip count cs
    | 0 =>
      if c == ' ' then lexFrom 0 count cs
      else
        let r := L.tokenAt count c cs
        r.1 :: lexFrom r.2 (if r.1.isPlace then count + 1 else count) cs

end QueryLexer

/-- The tokens of a fragment that the speller wrote. -/
def Fragment.tokens (f : Fragment) (g : Speller) : List QueryToken :=
  QueryLexer.lexFrom ⟨g.placeholder, g.used, f.slots⟩ 0 g.used f.text.toList

/-! ## Parentheses -/

/-- A token of a query, or what stands between parentheses. -/
inductive QueryTree where
  | leaf (t : QueryToken)
  | group (inner : List QueryTree)

/-- Nests tokens by parentheses, where `level` are the trees of the current level and `outer` those
of the levels around it, all last first. -/
def nestTokens (level : List QueryTree) (outer : List (List QueryTree)) :
    List QueryToken → Option (List QueryTree)
  | [] => if outer.isEmpty then some level.reverse else none
  | .symbol "(" :: ts => nestTokens [] (level :: outer) ts
  | .symbol ")" :: ts =>
    match outer with
    | [] => none
    | above :: rest => nestTokens (.group level.reverse :: above) rest ts
  | t :: ts => nestTokens (.leaf t :: level) outer ts

/-- The nested tokens of a fragment that the speller wrote, if its parentheses are balanced. -/
def Fragment.trees (f : Fragment) (g : Speller) : Option (List QueryTree) :=
  nestTokens [] [] (f.tokens g)

/-- The tokens are nested as the trees, wherever they stand. -/
def Nests (ts : List QueryToken) (trees : List QueryTree) : Prop :=
  ∀ level outer rest, nestTokens level outer (ts ++ rest) =
    nestTokens (trees.reverse ++ level) outer rest

section Nesting

variable {ts us : List QueryToken} {trees trees' : List QueryTree}

theorem Nests.nil : Nests [] [] := fun _ _ _ => rfl

/-- Tokens that are nested apart are nested together. -/
theorem Nests.append (h : Nests ts trees) (h' : Nests us trees') :
    Nests (ts ++ us) (trees ++ trees') := by
  intro level outer rest
  rw [List.append_assoc, h, h', List.reverse_append, List.append_assoc]

/-- Tokens between parentheses are nested as one group. -/
theorem Nests.group (h : Nests ts trees) :
    Nests (.symbol "(" :: (ts ++ [.symbol ")"])) [.group trees] := by
  intro level outer rest
  have hinner := h [] (level :: outer) (.symbol ")" :: rest)
  rw [List.append_nil] at hinner
  rw [List.cons_append, List.append_assoc, nestTokens, List.singleton_append, hinner, nestTokens,
    List.reverse_reverse]
  rfl

/-- Whether the token is neither of the parentheses. -/
def QueryToken.IsLeaf (t : QueryToken) : Prop := t ≠ .symbol "(" ∧ t ≠ .symbol ")"

instance (t : QueryToken) : Decidable t.IsLeaf := inferInstanceAs (Decidable (_ ∧ _))

theorem Nests.leaf {t : QueryToken} (h : t.IsLeaf) : Nests [t] [.leaf t] := by
  intro level outer rest
  rw [List.singleton_append, nestTokens]
  · rfl
  · exact h.1
  · exact h.2

theorem Nests.leaves (h : ∀ t ∈ ts, t.IsLeaf) : Nests ts (ts.map .leaf) := by
  induction ts with
  | nil => exact .nil
  | cons t ts ih =>
    obtain ⟨ht, hts⟩ := List.forall_mem_cons.1 h
    exact (Nests.leaf ht).append (ih hts)

/-- The trees of tokens are what they are nested as. -/
theorem Nests.nestTokens_eq (h : Nests ts trees) : nestTokens [] [] ts = some trees := by
  have hall := h [] [] []
  rw [List.append_nil, List.append_nil] at hall
  rw [hall, nestTokens, List.reverse_reverse]
  rfl

end Nesting

/-! ## Reading names and words -/

/-- Whether a name, a word or a place ends before `rest`. -/
def Stops (rest : List Char) : Prop := ∀ c ∈ rest.head?, isNameChar c = false ∧ c ≠ '"'

/-- The token of a name. -/
def nameToken (name : String) : QueryToken :=
  if isPlainName name then .word name else .quoted name

/-- The tokens of a text without places. -/
def lexText (s : String) : List QueryToken :=
  QueryLexer.lexFrom ⟨.fixed "", 0, []⟩ 0 0 s.toList

/-- The text is read as its tokens, whatever follows. -/
def ClosedText (s : String) : Prop :=
  ∀ (L : QueryLexer) (count : Nat) (rest : List Char),
    L.lexFrom 0 count (s.toList ++ rest) = lexText s ++ L.lexFrom 0 count rest

section Names

variable {L : QueryLexer} {count : Nat} {rest : List Char}

/-- Characters that belong to a token already read are passed over. -/
theorem lexFrom_skip (body rest : List Char) :
    L.lexFrom body.length count (body ++ rest) = L.lexFrom 0 count rest := by
  induction body with
  | nil => rfl
  | cons c body ih => exact ih

/-- A token takes the characters that belong to it. -/
theorem lexFrom_token {c : Char} {body : List Char} {t : QueryToken} (hc : c ≠ ' ')
    (h : L.tokenAt count c (body ++ rest) = (t, body.length)) :
    L.lexFrom 0 count (c :: (body ++ rest)) =
      t :: L.lexFrom 0 (if t.isPlace then count + 1 else count) rest := by
  rw [QueryLexer.lexFrom]
  simp only [beq_iff_eq, if_neg hc, h, lexFrom_skip]

theorem span_nameChars {cs : List Char} (hcs : ∀ c ∈ cs, isNameChar c = true)
    (hrest : Stops rest) : (cs ++ rest).takeWhile isNameChar = cs := by
  rw [List.takeWhile_append_of_pos hcs]
  cases rest with
  | nil => simp
  | cons c rest => simp [(hrest c rfl).1]

/-- A plain word is read as one token where what follows stops it. -/
theorem lexFrom_word {word : String} (hword : isPlainName word = true) (hrest : Stops rest) :
    L.lexFrom 0 count (word.toList ++ rest) = .word word :: L.lexFrom 0 count rest := by
  obtain ⟨hne, hchars⟩ := isNameChar_of_isPlainName hword
  obtain ⟨c, cs, hlist⟩ := List.exists_cons_of_ne_nil hne
  rw [hlist] at hchars
  have hcs := (List.forall_mem_cons.1 hchars).2
  have hc : opensWord c = true := by
    rw [isPlainName, hlist] at hword
    exact (Bool.and_eq_true_iff.1 hword).1
  have htoken : L.tokenAt count c (cs ++ rest) = (.word word, cs.length) := by
    rw [QueryLexer.tokenAt, if_pos hc, span_nameChars hcs hrest]
    show (QueryToken.word (String.ofList (c :: cs)), cs.length) = _
    rw [← hlist, String.ofList_toList]
  have hspace : c ≠ ' ' := by
    rintro rfl
    exact absurd hc (by decide)
  rw [hlist, List.cons_append, lexFrom_token hspace htoken]
  rfl

/-- A name is read as its token, be it plain or not. -/
theorem lexFrom_quoteName (name : String) (hrest : Stops rest) :
    L.lexFrom 0 count ((quoteName name).toList ++ rest) =
      nameToken name :: L.lexFrom 0 count rest := by
  rw [quoteName, nameToken]
  split
  · rename_i hplain
    exact lexFrom_word hplain hrest
  · have htext : (enclose '"' name).toList ++ rest =
        '"' :: ((doubling '"' name.toList ++ ['"']) ++ rest) := by
      simp [enclose]
    have hquote : rest.head? ≠ some '"' := fun h => (hrest '"' h).2 rfl
    have htoken : L.tokenAt count '"' ((doubling '"' name.toList ++ ['"']) ++ rest) =
        (.quoted name, (doubling '"' name.toList ++ ['"']).length) := by
      have htake := takeName_doubling name.toList hquote
      rw [← List.singleton_append, ← List.append_assoc] at htake
      rw [QueryLexer.tokenAt, if_neg (by decide), if_pos (by decide), htake]
      simp only [String.ofList_toList, List.length_append, Nat.add_sub_cancel]
    rw [htext, lexFrom_token (by decide) htoken]
    rfl

end Names

/-! ## Reading places -/

/-- Whether no word, no quoted name and no symbol begins with the character. -/
def opensPlace (c : Char) : Bool := !opensWord c && !" \"!<>=|+-*(),.".toList.contains c

/-- Whether the spelling of a place is told apart from words, names and symbols. -/
def Placeholder.IsReadable : Placeholder → Prop
  | .fixed text => ∃ c cs, text.toList = c :: cs ∧ opensPlace c = true
  | .numbered lead => ∃ c cs, lead.toList = c :: cs ∧ opensPlace c = true

/-- The places of every dialect can be told from other tokens. -/
theorem Dialect.isReadable_placeholder (d : Dialect) : d.placeholder.IsReadable := by
  cases d with
  | postgres => exact ⟨'%', ['s'], rfl, by decide⟩
  | oracle => exact ⟨':', [], rfl, by decide⟩
  | sqlite => exact ⟨'?', [], rfl, by decide⟩

/-- The places after the first `count` ones stand for the slots. -/
def QueryLexer.Holds (L : QueryLexer) (count : Nat) (slots : List Slot) : Prop :=
  ∃ k, count = L.used + k ∧ slots <+: L.slots.drop k

section Places

variable {L : QueryLexer} {count : Nat} {slots more : List Slot} {rest : List Char}

/-- A lexer that holds two runs of slots holds each of them at its own count. -/
theorem QueryLexer.Holds.append (h : L.Holds count (slots ++ more)) :
    L.Holds count slots ∧ L.Holds (count + slots.length) more := by
  obtain ⟨k, rfl, hslots⟩ := h
  refine ⟨⟨k, rfl, (List.prefix_append _ _).trans hslots⟩, k + slots.length, by omega, ?_⟩
  obtain ⟨after, hafter⟩ := hslots
  rw [← List.drop_drop, ← hafter, List.append_assoc, List.drop_left]
  exact List.prefix_append more after

/-- The next place is that of the first slot. -/
theorem QueryLexer.Holds.place {slot : Slot} (h : L.Holds count (slot :: slots)) (c : Char) :
    L.place c (count + 1) = .place slot := by
  obtain ⟨k, rfl, hslots⟩ := h
  have hslot : L.slots[k]? = some slot := by
    obtain ⟨after, hafter⟩ := hslots
    have hget := congrArg (·[0]?) hafter
    simpa using hget.symm
  have hnumber : L.used + k + 1 - L.used = k + 1 := by omega
  rw [QueryLexer.place, hnumber]
  simp only [hslot, Option.elim_some]

/-- A character that opens a place begins no other token. -/
theorem tokenAt_of_opensPlace {c : Char} (hc : opensPlace c = true) (cs : List Char) :
    L.tokenAt count c cs =
      match L.placeAt count (c :: cs) with
      | some (number, length) => (L.place c number, length - 1)
      | none => (.unknown c, 0) := by
  obtain ⟨hname, hsymbol⟩ := Bool.and_eq_true_iff.1 hc
  rw [Bool.not_eq_true'] at hname hsymbol
  have hnot : ∀ d ∈ " \"!<>=|+-*(),.".toList, (d == c) = false := by
    intro d hd
    rw [beq_eq_false_iff_ne]
    rintro rfl
    rw [List.contains_iff_mem.2 hd] at hsymbol
    cases hsymbol
  have hfirst : querySymbols.find? (fun s => s.toList.isPrefixOf (c :: cs)) = none := by
    rw [List.find?_eq_none]
    have hbegin : ∀ s ∈ querySymbols,
        s.toList.head?.any (" \"!<>=|+-*(),.".toList.contains ·) = true := by decide
    intro s hs
    have hfirst := hbegin s hs
    cases hlist : s.toList with
    | nil =>
      rw [hlist] at hfirst
      cases hfirst
    | cons d more =>
      rw [hlist] at hfirst
      rw [List.isPrefixOf, hnot d (List.contains_iff_mem.1 hfirst)]
      simp
  have hquote : (c == '"') = false := by
    rw [beq_eq_false_iff_ne]
    exact fun h => by simpa [h] using hnot '"' (by decide)
  rw [QueryLexer.tokenAt, hname, hquote, hfirst]
  rfl

/-- A place begins with a character that opens places only. -/
theorem Placeholder.IsReadable.toList_spell {p : Placeholder} (h : p.IsReadable) (n : Nat) :
    ∃ c cs, (p.spell n).toList = c :: cs ∧ opensPlace c = true := by
  cases p with
  | fixed text => exact h
  | numbered lead =>
    obtain ⟨c, cs, hlead, hc⟩ := h
    refine ⟨c, cs ++ (toString n).toList, ?_, hc⟩
    rw [Placeholder.spell, String.toList_append, hlead]
    rfl

/-- The number of a place ends where something follows that stops a name. -/
theorem takeWhile_isDigit_toDigits (n : Nat) (hrest : Stops rest) :
    (Nat.toDigits 10 n ++ rest).takeWhile Char.isDigit = Nat.toDigits 10 n := by
  rw [List.takeWhile_append_of_pos fun d hd =>
    Nat.isDigit_of_mem_toDigits (by omega) (by omega) hd]
  cases rest with
  | nil => simp
  | cons d rest =>
    have hd : d.isDigit = false := by
      have hname := (hrest d rfl).1
      rw [Bool.eq_false_iff] at hname ⊢
      exact fun h => hname (by simp [isNameChar, Char.isAlphanum, h])
    simp [hd]

/-- A place that is spelled is found, with its number and its length. -/
theorem placeAt_spell (hrest : Stops rest) :
    L.placeAt count ((L.placeholder.spell (count + 1)).toList ++ rest) =
      some (count + 1, (L.placeholder.spell (count + 1)).length) := by
  rw [QueryLexer.placeAt]
  cases L.placeholder with
  | fixed text => exact if_pos (List.isPrefixOf_iff_prefix.2 (List.prefix_append _ _))
  | numbered lead =>
    have hdigits : (toString (count + 1)).toList = Nat.toDigits 10 (count + 1) := by
      rw [Nat.toString_eq_ofList_toDigits, String.toList_ofList]
    have hdrop : (lead.toList ++ (Nat.toDigits 10 (count + 1) ++ rest)).drop lead.length =
        Nat.toDigits 10 (count + 1) ++ rest := by
      rw [← String.length_toList, List.drop_left]
    have hlength : (lead ++ toString (count + 1)).length =
        lead.length + (Nat.toDigits 10 (count + 1)).length := by
      rw [String.length_append, ← hdigits, String.length_toList]
    rw [Placeholder.spell, String.toList_append, hdigits, List.append_assoc, hlength]
    simp only [List.isPrefixOf_iff_prefix.2 (List.prefix_append _ _), if_true, hdrop,
      takeWhile_isDigit_toDigits _ hrest,
      Nat.ofDigitChars_toDigits (by omega : 1 < 10) (by omega : 10 ≤ 10)]

/-- The spelling of the next place is read as what the place stands for. -/
theorem lexFrom_place {slot : Slot} (hstyle : L.placeholder.IsReadable)
    (hslots : L.Holds count (slot :: slots)) (hrest : Stops rest) :
    L.lexFrom 0 count ((L.placeholder.spell (count + 1)).toList ++ rest) =
      .place slot :: L.lexFrom 0 (count + 1) rest := by
  obtain ⟨c, cs, hspell, hc⟩ := hstyle.toList_spell (count + 1)
  have hspace : c ≠ ' ' := by
    rintro rfl
    exact absurd hc (by decide)
  have hlength : (L.placeholder.spell (count + 1)).length = cs.length + 1 := by
    rw [← String.length_toList, hspell]
    rfl
  have hat : L.placeAt count _ = _ := placeAt_spell hrest
  rw [hspell, hlength] at hat
  have htoken : L.tokenAt count c (cs ++ rest) = (.place slot, cs.length) := by
    rw [tokenAt_of_opensPlace hc, ← List.cons_append, hat]
    show (L.place c (count + 1), cs.length) = _
    rw [hslots.place]
  rw [hspell, List.cons_append, lexFrom_token hspace htoken]
  rfl

/-- The tokens of the places of an argument. -/
def placeTokens (slots : List Slot) : List QueryToken :=
  (slots.map .place).intersperse (.symbol ",")

/-- The places of an argument are read as its slots, with commas between them. -/
theorem lexFrom_places (hstyle : L.placeholder.IsReadable) (hslots : L.Holds count slots)
    (hrest : Stops rest) :
    L.lexFrom 0 count
        ((", ".intercalate ((Speller.mk L.placeholder count).places slots.length)).toList ++ rest) =
      placeTokens slots ++ L.lexFrom 0 (count + slots.length) rest := by
  induction slots generalizing count with
  | nil => rfl
  | cons slot slots ih =>
    have hplaces : (Speller.mk L.placeholder count).places (slots.length + 1) =
        L.placeholder.spell (count + 1) ::
          (Speller.mk L.placeholder (count + 1)).places slots.length := by
      rw [Nat.add_comm, Speller.places_add]
      rfl
    have hsplit : L.Holds count ([slot] ++ slots) := hslots
    have hmore : L.Holds (count + 1) slots := hsplit.append.2
    rw [List.length_cons, hplaces]
    cases slots with
    | nil => exact lexFrom_place hstyle hslots hrest
    | cons next slots =>
      have hnext : ∃ p ps, (Speller.mk L.placeholder (count + 1)).places (next :: slots).length =
          p :: ps :=
        List.exists_cons_of_ne_nil (by simp [Speller.places])
      obtain ⟨p, ps, hnext⟩ := hnext
      have hcomma (more : List Char) : L.lexFrom 0 (count + 1) (", ".toList ++ more) =
          .symbol "," :: L.lexFrom 0 (count + 1) more := rfl
      have hafter := ih hmore
      rw [hnext] at hafter
      rw [hnext, String.intercalate_cons_cons, String.toList_append, String.toList_append,
        List.append_assoc, List.append_assoc, lexFrom_place hstyle hslots (by simp [Stops]; decide),
        hcomma, hafter]
      simp [placeTokens, Nat.add_assoc, Nat.add_comm 1]

end Places

end SqlCatalog
