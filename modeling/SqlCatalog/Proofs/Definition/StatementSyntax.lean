import SqlCatalog.Definition.Index
import SqlCatalog.Definition.SeedRow
import SqlCatalog.Proofs.Definition.SpelledParts

/-!
# The grammar of sequences, indexes and seed rows

The statements that are written on one line: which flat tokens each of them is written as, and that
its reader succeeds exactly on these. The list of columns of an index is the argument of a call, of
the table or of the method; the literals of a seed row stand in a parenthesis of their own.

## Main definitions

* `SpellsSequence`, `IndexHead.Spelled` and `SeedRowDefinition.Spelled` say which tokens the three
  statements are written as.

## Main statements

* `readSequenceDefinition_eq_ok`, `readIndexHead_eq_ok`, `readSeedRow_eq_ok`: each statement is read
  exactly from the tokens that it is written as.
-/

namespace SqlCatalog

/-! ## How they are written -/

/-- The tokens define a sequence of the given name. -/
inductive SpellsSequence (name : String) : List Token → Prop
  | mk {ts : List Token} {t : Token} (h : SpellsWords ["CREATE", "SEQUENCE"] ts)
      (hname : t.name? = some name) : SpellsSequence name (ts ++ [t])

namespace IndexHead

/-- The keywords before the name of an index. -/
def words (d : IndexHead) : List String :=
  if d.unique then ["CREATE", "UNIQUE", "INDEX"] else ["CREATE", "INDEX"]

/-- The tokens are the table of an index with its columns, with or without a method. -/
inductive TargetSpelled : IndexHead → List Token → Prop
  | table {name table : String} {unique : Bool} {parts columns : List Token}
      (hcall : Token.callParts? parts = some (table, columns)) :
      TargetSpelled ⟨name, unique, table, none, columns⟩ [.call parts]
  | method {name table method : String} {unique : Bool} {t k : Token} {parts columns : List Token}
      (htable : t.name? = some table) (hk : k.isKeyword "USING" = true)
      (hcall : Token.callParts? parts = some (method, columns)) :
      TargetSpelled ⟨name, unique, table, some method, columns⟩ [t, k, .call parts]

/-- The tokens are the given index definition, whose list of columns is not looked into. -/
inductive Spelled : IndexHead → List Token → Prop
  | mk {d : IndexHead} {t k : Token} {ts us : List Token} (h : SpellsWords d.words ts)
      (hname : t.name? = some d.name) (hk : k.isKeyword "ON" = true)
      (htarget : d.TargetSpelled us) : Spelled d (ts ++ t :: k :: us)

end IndexHead

/-- The tokens are the given literals with commas between them, one literal at least. -/
inductive SpellsLiterals : List Value → List Token → Prop
  | one {v : Value} {t : Token} (h : literal? t = some (.ok v)) : SpellsLiterals [v] [t]
  | cons {v : Value} {vs : List Value} {t comma : Token} {ts : List Token}
      (h : literal? t = some (.ok v)) (hcomma : comma.isMark ',' = true)
      (hrest : SpellsLiterals vs ts) : SpellsLiterals (v :: vs) (t :: comma :: ts)

/-- The tokens are the given seed row. -/
inductive SeedRowDefinition.Spelled : SeedRowDefinition → List Token → Prop
  | mk {d : SeedRowDefinition} {t k : Token} {ts inner : List Token}
      (h : SpellsWords ["INSERT", "INTO"] ts) (hname : t.name? = some d.table)
      (hk : k.isKeyword "VALUES" = true) (hvalues : SpellsLiterals d.values inner) :
      Spelled d (ts ++ [t, k, .paren inner])

/-! ## How they are read -/

section Readers

variable {ts : List Token}

/-- A sequence definition is read where it is spelled. -/
theorem readSequenceDefinition_eq_ok {name : String} :
    readSequenceDefinition ts = .ok name ↔ SpellsSequence name ts := by
  constructor
  · intro h
    obtain ⟨_, hcreate, h⟩ := bind_eq_ok.1 h
    obtain ⟨_, hsequence, h⟩ := bind_eq_ok.1 h
    obtain ⟨⟨n, rest⟩, hname, h⟩ := bind_eq_ok.1 h
    obtain ⟨⟨⟩, hend, h⟩ := bind_eq_ok.1 h
    obtain rfl := Except.ok.inj h
    obtain ⟨t, rfl, ht⟩ := readKeyword_eq_ok.1 hcreate
    obtain ⟨u, rfl, hu⟩ := readKeyword_eq_ok.1 hsequence
    obtain ⟨v, rfl, hv⟩ := readName_eq_ok.1 hname
    obtain rfl := readEnd_eq_ok.1 hend
    exact .mk (spellsWords_pair.2 ⟨t, u, rfl, ht, hu⟩) hv
  · rintro ⟨hwords, hname⟩
    obtain ⟨t, u, rfl, ht, hu⟩ := spellsWords_pair.1 hwords
    refine bind_eq_ok.2 ⟨_, readKeyword_eq_ok.2 ⟨t, rfl, ht⟩, ?_⟩
    refine bind_eq_ok.2 ⟨_, readKeyword_eq_ok.2 ⟨u, rfl, hu⟩, ?_⟩
    exact bind_eq_ok.2 ⟨_, readName_eq_ok.2 ⟨_, rfl, hname⟩, rfl⟩

/-- The method of an index is read from a call. -/
theorem readIndexMethod_eq_ok {method : String × List Token} {rest : List Token} :
    readIndexMethod ts = .ok (method, rest) ↔
      ∃ parts, ts = .call parts :: rest ∧ Token.callParts? parts = some method := by
  constructor
  · intro h
    unfold readIndexMethod at h
    split at h
    · split at h
      · rename_i parts
        obtain ⟨call, hcall, hsame⟩ := map_eq_ok.1 h
        obtain ⟨rfl, rfl⟩ := Prod.mk.inj hsame
        exact ⟨parts, rfl, readCall_eq_ok.1 hcall⟩
      · cases h
    · cases h
  · rintro ⟨parts, rfl, hcall⟩
    exact map_eq_ok.2 ⟨_, readCall_eq_ok.2 hcall, rfl⟩

/-- What follows `ON` is read where it is spelled. -/
theorem readIndexTarget_eq_ok {name : String} {unique : Bool} {d : IndexHead} :
    readIndexTarget name unique ts = .ok d ↔
      d.name = name ∧ d.unique = unique ∧ d.TargetSpelled ts := by
  constructor
  · have named {t : Token} {us : List Token} (h : (readName "table name" (t :: us) >>= fun p =>
        readKeyword "USING" p.2 >>= fun rest => readIndexMethod rest >>= fun q =>
          readEnd q.2 >>= fun _ => pure ⟨name, unique, p.1, some q.1.1, q.1.2⟩) = .ok d) :
        d.name = name ∧ d.unique = unique ∧ d.TargetSpelled (t :: us) := by
      obtain ⟨⟨table, _⟩, htable, h⟩ := bind_eq_ok.1 h
      obtain ⟨_, husing, h⟩ := bind_eq_ok.1 h
      obtain ⟨⟨⟨method, columns⟩, rest⟩, hmethod, h⟩ := bind_eq_ok.1 h
      obtain ⟨⟨⟩, hend, h⟩ := bind_eq_ok.1 h
      obtain rfl := Except.ok.inj h
      obtain ⟨u, hu, hname⟩ := readName_eq_ok.1 htable
      obtain ⟨k, rfl, hk⟩ := readKeyword_eq_ok.1 husing
      obtain ⟨parts, rfl, hcall⟩ := readIndexMethod_eq_ok.1 hmethod
      obtain rfl := readEnd_eq_ok.1 hend
      rw [hu]
      exact ⟨rfl, rfl, .method hname hk hcall⟩
    intro h
    unfold readIndexTarget at h
    split at h
    · split at h
      · rename_i parts
        obtain ⟨⟨table, columns⟩, hcall, h⟩ := bind_eq_ok.1 h
        obtain ⟨⟨⟩, hend, h⟩ := bind_eq_ok.1 h
        obtain rfl := Except.ok.inj h
        obtain rfl := readEnd_eq_ok.1 hend
        exact ⟨rfl, rfl, .table (readCall_eq_ok.1 hcall)⟩
      · exact named h
      · exact named h
      · cases h
    · cases h
  · rintro ⟨rfl, rfl, htarget⟩
    cases htarget with
    | table hcall => exact bind_eq_ok.2 ⟨_, readCall_eq_ok.2 hcall, rfl⟩
    | @method name table method unique t k parts columns hname hk hcall =>
      have hread : readName "table name" [t, k, .call parts] = _ := readName_eq_ok.2 ⟨t, rfl, hname⟩
      have husing : readKeyword "USING" [k, .call parts] = _ := readKeyword_eq_ok.2 ⟨k, rfl, hk⟩
      have hmethod : readIndexMethod [.call parts] = _ :=
        readIndexMethod_eq_ok.2 ⟨parts, rfl, hcall⟩
      rcases name?_eq_some hname with rfl | ⟨parts, rfl⟩ <;>
        exact bind_eq_ok.2 ⟨_, hread, bind_eq_ok.2 ⟨_, husing, bind_eq_ok.2 ⟨_, hmethod, rfl⟩⟩⟩

/-- An index definition is read up to its list of columns where it is spelled. -/
theorem readIndexHead_eq_ok {d : IndexHead} : readIndexHead ts = .ok d ↔ d.Spelled ts := by
  constructor
  · intro h
    obtain ⟨rest, hcreate, h⟩ := bind_eq_ok.1 h
    obtain ⟨afterIndex, hindex, h⟩ := bind_eq_ok.1 h
    obtain ⟨⟨name, afterName⟩, hname, h⟩ := bind_eq_ok.1 h
    obtain ⟨target, hon, h⟩ := bind_eq_ok.1 h
    obtain ⟨rfl, hunique, htarget⟩ := readIndexTarget_eq_ok.1 h
    obtain ⟨c, rfl, hc⟩ := readKeyword_eq_ok.1 hcreate
    obtain ⟨t, rfl, ht⟩ := readName_eq_ok.1 hname
    obtain ⟨k, rfl, hk⟩ := readKeyword_eq_ok.1 hon
    rw [← hunique] at hindex
    -- Whether `UNIQUE` stands there decides which token `INDEX` has to be.
    cases hd : d.unique with
    | true =>
      rw [hd, if_pos rfl] at hindex
      obtain ⟨i, hrest, hi⟩ := readKeyword_eq_ok.1 hindex
      cases rest with
      | nil => cases hrest
      | cons u us =>
        obtain rfl : us = i :: t :: k :: target := hrest
        have hu : u.isKeyword "UNIQUE" = true := hunique.symm.trans hd
        have hwords : SpellsWords d.words [c, u, i] := by
          rw [IndexHead.words, hd]
          exact .cons hc (.cons hu (.cons hi .nil))
        exact .mk hwords ht hk htarget
    | false =>
      rw [hd, if_neg Bool.false_ne_true] at hindex
      obtain ⟨i, rfl, hi⟩ := readKeyword_eq_ok.1 hindex
      have hwords : SpellsWords d.words [c, i] := by
        rw [IndexHead.words, hd]
        exact .cons hc (.cons hi .nil)
      exact .mk hwords ht hk htarget
  · rintro ⟨hwords, hname, hk, htarget⟩
    rename_i t k ts us
    have hrest : (readName "index name" (t :: k :: us) >>= fun p =>
        readKeyword "ON" p.2 >>= fun rest => readIndexTarget p.1 d.unique rest) = .ok d :=
      bind_eq_ok.2 ⟨_, readName_eq_ok.2 ⟨t, rfl, hname⟩,
        bind_eq_ok.2 ⟨_, readKeyword_eq_ok.2 ⟨k, rfl, hk⟩,
          readIndexTarget_eq_ok.2 ⟨rfl, rfl, htarget⟩⟩⟩
    cases hd : d.unique with
    | true =>
      rw [IndexHead.words, hd, if_pos rfl] at hwords
      obtain ⟨c, _, rfl, hc, hwords⟩ := spellsWords_cons.1 hwords
      obtain ⟨u, i, rfl, hu, hi⟩ := spellsWords_pair.1 hwords
      rw [hd, ← hu] at hrest
      refine bind_eq_ok.2 ⟨u :: i :: t :: k :: us, readKeyword_eq_ok.2 ⟨c, rfl, hc⟩, ?_⟩
      refine bind_eq_ok.2 ⟨t :: k :: us, readKeyword_eq_ok.2 ⟨i, ?_, hi⟩, hrest⟩
      exact if_pos hu
    | false =>
      rw [IndexHead.words, hd, if_neg Bool.false_ne_true] at hwords
      obtain ⟨c, i, rfl, hc, hi⟩ := spellsWords_pair.1 hwords
      have hu : i.isKeyword "UNIQUE" = false := isKeyword_eq_false hi (by decide +kernel)
      rw [hd, ← hu] at hrest
      refine bind_eq_ok.2 ⟨i :: t :: k :: us, readKeyword_eq_ok.2 ⟨c, rfl, hc⟩, ?_⟩
      refine bind_eq_ok.2 ⟨t :: k :: us, readKeyword_eq_ok.2 ⟨i, ?_, hi⟩, hrest⟩
      exact if_neg (by simp [hu])

/-- Literals are read where they are spelled. -/
theorem readLiterals_eq_ok {values : List Value} :
    readLiterals ts = .ok values ↔ SpellsLiterals values ts := by
  constructor
  · intro h
    fun_induction readLiterals ts generalizing values with
    | case1 => cases h
    | case2 t ts ih =>
      obtain ⟨v, hv, h⟩ := bind_eq_ok.1 h
      have hliteral := readLiteral_eq_ok.1 hv
      cases ts with
      | nil =>
        obtain rfl := Except.ok.inj h
        exact .one hliteral
      | cons comma rest =>
        dsimp only at h
        split at h
        · rename_i hcomma
          obtain ⟨vs, hvs, rfl⟩ := map_eq_ok.1 h
          exact .cons hliteral hcomma (ih hvs)
        · cases h
  · intro h
    induction h with
    | one h => exact bind_eq_ok.2 ⟨_, readLiteral_eq_ok.2 h, rfl⟩
    | @cons v vs t comma ts h hcomma _ ih =>
      refine bind_eq_ok.2 ⟨_, readLiteral_eq_ok.2 h, ?_⟩
      simp only [hcomma, if_true, ih]
      rfl

/-- A seed row is read where it is spelled. -/
theorem readSeedRow_eq_ok {d : SeedRowDefinition} : readSeedRow ts = .ok d ↔ d.Spelled ts := by
  constructor
  · intro h
    obtain ⟨_, hinsert, h⟩ := bind_eq_ok.1 h
    obtain ⟨_, hinto, h⟩ := bind_eq_ok.1 h
    obtain ⟨⟨table, _⟩, hname, h⟩ := bind_eq_ok.1 h
    obtain ⟨_, hvalues, h⟩ := bind_eq_ok.1 h
    obtain ⟨⟨inner, rest⟩, hparen, h⟩ := bind_eq_ok.1 h
    obtain ⟨values, hliterals, h⟩ := bind_eq_ok.1 h
    obtain ⟨⟨⟩, hend, h⟩ := bind_eq_ok.1 h
    obtain rfl := Except.ok.inj h
    obtain ⟨t, rfl, ht⟩ := readKeyword_eq_ok.1 hinsert
    obtain ⟨u, rfl, hu⟩ := readKeyword_eq_ok.1 hinto
    obtain ⟨v, rfl, hv⟩ := readName_eq_ok.1 hname
    obtain ⟨k, rfl, hk⟩ := readKeyword_eq_ok.1 hvalues
    obtain rfl := readParen_eq_ok.1 hparen
    obtain rfl := readEnd_eq_ok.1 hend
    exact .mk (spellsWords_pair.2 ⟨t, u, rfl, ht, hu⟩) hv hk (readLiterals_eq_ok.1 hliterals)
  · rintro ⟨hwords, hname, hk, hvalues⟩
    obtain ⟨t, u, rfl, ht, hu⟩ := spellsWords_pair.1 hwords
    refine bind_eq_ok.2 ⟨_, readKeyword_eq_ok.2 ⟨t, rfl, ht⟩, ?_⟩
    refine bind_eq_ok.2 ⟨_, readKeyword_eq_ok.2 ⟨u, rfl, hu⟩, ?_⟩
    refine bind_eq_ok.2 ⟨_, readName_eq_ok.2 ⟨_, rfl, hname⟩, ?_⟩
    refine bind_eq_ok.2 ⟨_, readKeyword_eq_ok.2 ⟨_, rfl, hk⟩, ?_⟩
    refine bind_eq_ok.2 ⟨_, readParen_eq_ok.2 rfl, ?_⟩
    exact bind_eq_ok.2 ⟨_, readLiterals_eq_ok.2 hvalues, rfl⟩

end Readers

end SqlCatalog
