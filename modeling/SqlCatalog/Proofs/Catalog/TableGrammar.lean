import SqlCatalog.Proofs.Catalog.Compiling
import SqlCatalog.Proofs.Definition.TableDrafts

/-!
# Table definitions by their grammar

A statement is compiled as a table definition exactly if its flat tokens are spelled as one that the
schema admits, and the schema becomes the one with the table that is defined.

## Main statements

* `readTable_eq_ok`: reading a table definition to its end.
* `withDraft_of_drafted`: the draft that is read adds the table that is defined.
* `compileTable_by_grammar`: which statements are compiled, and what they do to a schema.
-/

namespace SqlCatalog

section Heads

variable {s : Schema} {ts body : List Token} {name : String}

/-- The head of a table definition is read where the whole statement is spelled as two keywords, the
name and the body. -/
theorem readTableHead_eq_ok : readTableHead ts = .ok (name, body) ↔
    ∃ us, SpellsWords ["CREATE", "TABLE"] us ∧
      ((∃ parts, ts = us ++ [.call parts] ∧ Token.callParts? parts = some (name, body)) ∨
        ∃ t, ts = us ++ [t, .paren body] ∧ t.name? = some name) := by
  constructor
  · intro h
    obtain ⟨rest, hcreate, hrest⟩ := bind_eq_ok.1 h
    obtain ⟨rest', htable, hhead⟩ := bind_eq_ok.1 hrest
    obtain ⟨t, rfl, ht⟩ := readKeyword_eq_ok.1 hcreate
    obtain ⟨u, rfl, hu⟩ := readKeyword_eq_ok.1 htable
    refine ⟨[t, u], .cons ht (.cons hu .nil), ?_⟩
    have named {v : Token} {more : List Token} (h : (readName "table name" (v :: more) >>= fun p =>
        readParen p.2 >>= fun q => readEnd q.2 >>= fun _ => pure (p.1, q.1)) = .ok (name, body)) :
        ∃ t, v :: more = [t, .paren body] ∧ t.name? = some name := by
      obtain ⟨⟨n, rest⟩, hname, h⟩ := bind_eq_ok.1 h
      obtain ⟨⟨inner, rest'⟩, hparen, h⟩ := bind_eq_ok.1 h
      obtain ⟨⟨⟩, hend, h⟩ := bind_eq_ok.1 h
      obtain ⟨rfl, rfl⟩ := Prod.mk.inj (Except.ok.inj h)
      obtain ⟨w, hw, hn⟩ := readName_eq_ok.1 hname
      obtain rfl := readParen_eq_ok.1 hparen
      obtain rfl := readEnd_eq_ok.1 hend
      exact ⟨w, hw, hn⟩
    split at hhead
    · split at hhead
      · rename_i parts
        obtain ⟨head, hcall, hmore⟩ := bind_eq_ok.1 hhead
        obtain ⟨⟨⟩, hend, hsame⟩ := bind_eq_ok.1 hmore
        obtain rfl := Except.ok.inj hsame
        obtain rfl := readEnd_eq_ok.1 hend
        exact .inl ⟨parts, rfl, readCall_eq_ok.1 hcall⟩
      · obtain ⟨w, hw, hn⟩ := named hhead
        exact .inr ⟨w, by rw [hw]; rfl, hn⟩
      · obtain ⟨w, hw, hn⟩ := named hhead
        exact .inr ⟨w, by rw [hw]; rfl, hn⟩
      · cases hhead
    · cases hhead
  · rintro ⟨us, hus, hrest⟩
    obtain ⟨t, u, rfl, ht, hu⟩ := spellsWords_pair.1 hus
    rcases hrest with ⟨parts, rfl, hcall⟩ | ⟨v, rfl, hname⟩
    · refine bind_eq_ok.2 ⟨_, readKeyword_eq_ok.2 ⟨t, rfl, ht⟩, ?_⟩
      refine bind_eq_ok.2 ⟨_, readKeyword_eq_ok.2 ⟨u, rfl, hu⟩, ?_⟩
      exact bind_eq_ok.2 ⟨_, readCall_eq_ok.2 hcall, rfl⟩
    · refine bind_eq_ok.2 ⟨_, readKeyword_eq_ok.2 ⟨t, rfl, ht⟩, ?_⟩
      refine bind_eq_ok.2 ⟨_, readKeyword_eq_ok.2 ⟨u, rfl, hu⟩, ?_⟩
      have hread : readName "table name" [v, .paren body] = _ :=
        readName_eq_ok.2 ⟨v, rfl, hname⟩
      rcases name?_eq_some hname with rfl | ⟨parts, rfl⟩
      · exact bind_eq_ok.2 ⟨_, hread, rfl⟩
      · exact bind_eq_ok.2 ⟨_, hread, rfl⟩

/-- A table is begun exactly under a name that is free. -/
theorem Schema.freshTable_eq_ok {t : Table} : s.freshTable name = .ok t ↔
    (∀ u ∈ s.tables, s.sameName u.name name = false) ∧ t = .empty s.tables.length name := by
  constructor
  · intro h
    refine ⟨?_, freshTable_ok h⟩
    unfold freshTable at h
    split at h
    · cases h
    · rename_i e hfree
      exact tableNamed_error hfree
  · rintro ⟨hfree, rfl⟩
    exact freshTable_of_free hfree

end Heads

section Tables

variable {s s' : Schema} {statement : Statement} {d : Draft} {id : TableId} {t : TableSyntax}
  {comment : String}

/-- A statement is spelled as a table definition if its head is read and its body is spelled. -/
theorem spelled_iff {ts : List Token} : t.Spelled ts ↔
    ∃ body, readTableHead ts = .ok (t.name, body) ∧ SpellsItems t.items body := by
  constructor
  · intro h
    cases h with
    | call h hcall hbody => exact ⟨_, readTableHead_eq_ok.2 ⟨_, h, .inl ⟨_, rfl, hcall⟩⟩, hbody⟩
    | paren h hname hbody => exact ⟨_, readTableHead_eq_ok.2 ⟨_, h, .inr ⟨_, rfl, hname⟩⟩, hbody⟩
  · rintro ⟨body, hhead, hbody⟩
    obtain ⟨us, hus, ⟨parts, rfl, hcall⟩ | ⟨u, rfl, hname⟩⟩ := readTableHead_eq_ok.1 hhead
    · exact .call hus hcall hbody
    · exact .paren hus hname hbody

/-- A table definition is read to its end exactly if it is spelled and the schema admits it. -/
theorem readTable_eq_ok : s.readTable statement = .ok (d, none) ↔
    ∃ t : TableSyntax, t.Spelled (Token.flatten statement) ∧ t.Valid s ∧
      d = t.items.foldl (ItemSyntax.apply s) (.initial s t.name (leadingComment statement)) := by
  constructor
  · intro h
    obtain ⟨⟨name, body⟩, hhead, hbody⟩ := bind_eq_ok.1 h
    obtain ⟨fresh, hfresh, hbody⟩ := bind_eq_ok.1 hbody
    obtain ⟨hfree, rfl⟩ := Schema.freshTable_eq_ok.1 (fromCatalog_eq_ok.1 hfresh)
    obtain ⟨items, hitems, hall, rfl⟩ := readBody_eq_ok.1 (Except.ok.inj hbody)
    refine ⟨⟨name, items⟩, spelled_iff.2 ⟨body, hhead, hitems⟩, ?_, rfl⟩
    exact (allAccepted_items _ hfree List.prefix_rfl).1.1 hall
  · rintro ⟨t, hspelled, hvalid, rfl⟩
    obtain ⟨body, hhead, hitems⟩ := spelled_iff.1 hspelled
    refine bind_eq_ok.2 ⟨_, hhead, bind_eq_ok.2
      ⟨_, fromCatalog_eq_ok.2 (Schema.freshTable_eq_ok.2 ⟨hvalid.free, rfl⟩), ?_⟩⟩
    have hall :=
      (allAccepted_items (leadingComment statement) hvalid.free List.prefix_rfl).1.2 hvalid
    exact congrArg Except.ok (readBody_eq_ok.2 ⟨t.items, hitems, hall, rfl⟩)

/-- The draft of a valid definition is that of the table that is defined. -/
theorem drafted_of_valid (comment : String) (h : t.Valid s) : t.Drafted s (namesOf t.items) comment
    (t.items.foldl (ItemSyntax.apply s) (.initial s t.name comment)) :=
  (allAccepted_items _ h.free List.prefix_rfl).2 h

/-- The draft of a definition adds to the schema what the definition says. -/
theorem withDraft_of_drafted (h : t.Drafted s (namesOf t.items) comment d) :
    s.withDraft d = t.addedTo s comment := by
  refine Schema.ext ?source ?dialect ?tables ?indexes ?sequences
  case source => exact source_withDraft s d
  case dialect => exact dialect_withDraft s d
  case tables => rw [tables_withDraft, h.table]; rfl
  case indexes => exact indexes_withDraft s d
  case sequences =>
    ext id : 1
    rw [sequences_withDraft, Draft.usersOf, h.users, h.table]
    simp [TableSyntax.addedTo, List.getElem?_mapIdx, TableSyntax.tableOver]

/-- What is compiled as a table definition is spelled as one that the schema admits. -/
theorem spelled_of_into_compileTable (h : (compileTable statement).into s = (.ok id, s')) :
    ∃ t : TableSyntax, t.Spelled (Token.flatten statement) ∧ t.Valid s ∧
      id = s.tables.length ∧ s' = t.addedTo s (leadingComment statement) := by
  obtain ⟨d, hread, rfl, rfl, hplace, -⟩ := yields_readTable.of_ok h
  obtain ⟨t, hspelled, hvalid, rfl⟩ := readTable_eq_ok.1 hread
  exact ⟨t, hspelled, hvalid, hplace, withDraft_of_drafted (drafted_of_valid _ hvalid)⟩

/-- What is spelled as a table definition that the schema admits is compiled. -/
theorem into_compileTable_of_spelled (h : t.Spelled (Token.flatten statement))
    (hvalid : t.Valid s) :
    (compileTable statement).into s =
      (.ok s.tables.length, t.addedTo s (leadingComment statement)) := by
  have hdrafted := drafted_of_valid (leadingComment statement) hvalid
  have hplace := congrArg Table.id hdrafted.table
  have hname := congrArg Table.name hdrafted.table
  have hcompiled := into_compileTable (readTable_eq_ok.2 ⟨t, h, hvalid, rfl⟩) hplace
    (by rw [hname]; exact hvalid.free)
  rw [hcompiled, hplace, withDraft_of_drafted hdrafted]
  rfl

/-- A statement is compiled as a table definition exactly if its flat tokens are spelled as one that
the schema admits, and the schema becomes the one with the table that is defined. -/
theorem compileTable_by_grammar (s : Schema) (statement : Statement) (id : TableId) (s' : Schema) :
    (compileTable statement).into s = (.ok id, s') ↔
      ∃ t : TableSyntax, t.Spelled (Token.flatten statement) ∧ t.Valid s ∧
        id = s.tables.length ∧ s' = t.addedTo s (leadingComment statement) := by
  constructor
  · exact spelled_of_into_compileTable
  · rintro ⟨t, hspelled, hvalid, rfl, rfl⟩
    exact into_compileTable_of_spelled hspelled hvalid

end Tables

end SqlCatalog
