import SqlCatalog.Proofs.Definition.SpelledParts

/-!
# Reading by the grammar: clauses and bodies

A clause or a constraint is read exactly where it is spelled and the draft admits it, and does to
the draft what it says. So a body is read to its end exactly if it is spelled by items that are
admitted one after the other.

## Main definitions

* `ClauseSyntax.Accepted` and `ClauseSyntax.apply`: when a draft admits a clause, and what the
  clause does to it; the same for rules and for items.
* `AllAccepted` says that things are admitted one after the other.

## Main statements

* `readModifier_eq_ok`, `readConstraintBody_eq_ok`: reading a clause or a rule.
* `readBody_eq_ok`: reading a body.
-/

namespace SqlCatalog

/-! ## What is admitted and what it does -/

/-- Makes the column `i` refer to the table with the given name. -/
def Draft.setReference (s : Schema) (d : Draft) (i : Nat) (name : String) : Draft :=
  match d.findTable s name with
  | .ok target =>
    let notices := match d.table.columns[i]? with
      | some c => keyNotices s.dialect d.table c target
      | none => []
    { d with
      table := d.table.modifyColumn i fun c => { c with references := some target.id }
      notices := d.notices ++ notices }
  | .error _ => d

/-- Whether things are admitted one after the other, each by the draft that those before make. -/
def AllAccepted {α : Type} (accepted : Draft → α → Prop) (apply : Draft → α → Draft) :
    Draft → List α → Prop
  | _, [] => True
  | d, a :: as => accepted d a ∧ AllAccepted accepted apply (apply d a) as

namespace ClauseSyntax

variable (s : Schema)

/-- Whether a draft admits a clause of the column that is read. -/
def Accepted (d : Draft) : ClauseSyntax → Prop
  | primaryKey => d.table.primaryKey = none
  | check c => ∀ n ∈ c.mentions, NamedIn d.table.names n
  | default v => ∀ q ∈ v.sequence?, s.HasSequence q
  | references r => s.HasTarget d.table.name r
  | _ => True

/-- What a clause of the column `i` does to a draft. -/
def apply (i : Nat) (d : Draft) : ClauseSyntax → Draft
  | primaryKey => d.withTable { d.table with primaryKey := some [i] }
  | unique => d.withTable (d.table.addConstraint (.unique none [i]))
  | notNull => d.withTable (d.table.addConstraint (.notNull i))
  | null => d
  | check c => d.withTable (d.table.addConstraint (.check none (c.expr d.table.names)))
  | default v => d.setDefault i (v.value s)
  | references r => d.setReference s i r
  | onDelete action =>
    d.withTable (d.table.modifyColumn i fun c => { c with onDelete := some action })

end ClauseSyntax

namespace RuleSyntax

/-- Whether a draft admits a rule. -/
def Accepted (d : Draft) : RuleSyntax → Prop
  | primaryKey columns => d.table.primaryKey = none ∧ ∀ n ∈ columns, NamedIn d.table.names n
  | unique columns => ∀ n ∈ columns, NamedIn d.table.names n
  | check c => ∀ n ∈ c.mentions, NamedIn d.table.names n

/-- What a rule of the given name does to a draft. -/
def apply (name : Option String) (d : Draft) : RuleSyntax → Draft
  | primaryKey columns =>
    d.withTable { d.table with primaryKey := some (columns.map (placeIn d.table.names)) }
  | unique columns =>
    d.withTable (d.table.addConstraint (.unique name (columns.map (placeIn d.table.names))))
  | check c => d.withTable (d.table.addConstraint (.check name (c.expr d.table.names)))

end RuleSyntax

/-- The draft with one more column. -/
def Draft.addColumn (d : Draft) (c : ColumnSyntax) : Draft :=
  d.withTable { d.table with columns := d.table.columns ++
    [⟨c.name, d.table.id, d.table.columns.length, c.type, none, none, none⟩] }

namespace ItemSyntax

variable (s : Schema)

/-- Whether a draft admits a part of a body. -/
def Accepted (d : Draft) : ItemSyntax → Prop
  | column c =>
    isKnownType c.type.name = true ∧ ¬ NamedIn d.table.names c.name ∧
      AllAccepted (ClauseSyntax.Accepted s) (ClauseSyntax.apply s d.table.columns.length)
        (d.addColumn c) c.clauses
  | constraint c => c.rule.Accepted d

/-- What a part of a body does to a draft. -/
def apply (d : Draft) : ItemSyntax → Draft
  | column c => c.clauses.foldl (ClauseSyntax.apply s d.table.columns.length) (d.addColumn c)
  | constraint c => c.rule.apply c.name d

end ItemSyntax

/-! ## Defaults -/

section Clauses

variable {s : Schema} {d d' : Draft} {i : Nat} {t : Token} {ts rest : List Token}

/-- A sequence is found under a name exactly when the schema has one of that name, and it is that
one. -/
theorem Schema.sequenceNamed_eq_ok {n : String} {id : SequenceId} :
    (∃ q, s.sequenceNamed n = .ok q ∧ q.id = id) ↔ s.HasSequence n ∧ id = s.sequenceId n := by
  simp only [sequenceNamed, HasSequence, sequenceId, ← List.find?_isSome]
  cases s.sequences.find? fun q => s.sameName q.name n <;> simp [eq_comm]

/-- What a default is read as is what it spells, provided the sequence it names is there. -/
theorem readDefaultValue_eq_ok {v : DefaultValue} :
    readDefaultValue s t = .ok v ↔ ∃ x : DefaultSyntax, x.Spelled t ∧
      (∀ q ∈ x.sequence?, s.HasSequence q) ∧ v = x.value s := by
  constructor
  · intro h
    unfold readDefaultValue at h
    split at h
    · rename_i parts
      obtain ⟨⟨f, arguments⟩, hcall, h⟩ := bind_eq_ok.1 h
      have hcall := readCall_eq_ok.1 hcall
      dsimp only at h
      split at h
      · rename_i hf
        obtain ⟨name, hname, h⟩ := bind_eq_ok.1 h
        obtain ⟨q, hq, h⟩ := bind_eq_ok.1 h
        obtain rfl := Except.ok.inj h
        unfold readSequenceName at hname
        split at hname
        · rename_i raw
          obtain ⟨hhas, hid⟩ :=
            Schema.sequenceNamed_eq_ok.1 ⟨q, fromCatalog_eq_ok.1 hq, rfl⟩
          refine ⟨.next name, .next hcall hf (readString_eq_ok.1 hname), ?_, ?_⟩
          · simpa [DefaultSyntax.sequence?] using hhas
          · rw [DefaultSyntax.value, ← hid]
        · cases hname
      · rename_i hf
        obtain rfl := Except.ok.inj h
        exact ⟨.procedure f arguments, .procedure hcall (by simpa using hf),
          by simp [DefaultSyntax.sequence?], rfl⟩
    · split at h
      · rename_i hnull
        obtain rfl := Except.ok.inj h
        exact ⟨.null, .null hnull, by simp [DefaultSyntax.sequence?], rfl⟩
      · rename_i hnull
        obtain ⟨v, hv, rfl⟩ := map_eq_ok.1 h
        exact ⟨.literal v, .literal (by simpa using hnull) (readLiteral_eq_ok.1 hv),
          by simp [DefaultSyntax.sequence?], rfl⟩
  · rintro ⟨x, hspelled, hsequence, rfl⟩
    cases hspelled with
    | null hnull =>
      cases t with
      | keyword k => simp [readDefaultValue, hnull, DefaultSyntax.value]
      | _ => cases hnull
    | @literal v _ hnull hv =>
      have hread :
          readDefaultValue s t = DefaultValue.literal <$> readLiteral "default value" t := by
        cases t with
        | call parts => cases hv
        | _ => simp [readDefaultValue, hnull]
      rw [hread, readLiteral_eq_ok.2 hv]
      rfl
    | @next f raw name parts hcall hf hraw =>
      obtain ⟨q, hq, hid⟩ := Schema.sequenceNamed_eq_ok.2 ⟨hsequence name rfl, rfl⟩
      refine bind_eq_ok.2 ⟨_, readCall_eq_ok.2 hcall, ?_⟩
      simp only [hf, if_true]
      refine bind_eq_ok.2 ⟨name, readString_eq_ok.2 hraw, ?_⟩
      refine bind_eq_ok.2 ⟨q, fromCatalog_eq_ok.2 hq, ?_⟩
      rw [DefaultSyntax.value, ← hid]
      rfl
    | @procedure f parts arguments hcall hf =>
      refine bind_eq_ok.2 ⟨_, readCall_eq_ok.2 hcall, ?_⟩
      simp only [hf, Bool.false_eq_true, if_false]
      rfl

theorem DefaultSyntax.not_spelled_paren {x : DefaultSyntax} {inner : List Token} :
    ¬ x.Spelled (.paren inner) := by
  intro h
  cases h with
  | null h => cases h
  | literal _ h => cases h

/-- A default stands alone or alone in a parenthesis. -/
theorem readDefault_eq_ok : readDefault s d i ts = .ok (d', rest) ↔
    ∃ x : DefaultSyntax, ∃ t, ts = t :: rest ∧
      (x.Spelled t ∨ ∃ single, t = .paren [single] ∧ x.Spelled single) ∧
        (∀ q ∈ x.sequence?, s.HasSequence q) ∧ d' = d.setDefault i (x.value s) := by
  constructor
  · intro h
    cases ts with
    | nil => cases h
    | cons t ts =>
      obtain ⟨single, hsingle, h⟩ := bind_eq_ok.1 h
      obtain ⟨v, hv, h⟩ := bind_eq_ok.1 h
      obtain ⟨rfl, rfl⟩ := Prod.mk.inj (Except.ok.inj h)
      obtain ⟨x, hspelled, hsequence, rfl⟩ := readDefaultValue_eq_ok.1 hv
      refine ⟨x, t, rfl, ?_, hsequence, rfl⟩
      unfold unwrapDefault at hsingle
      split at hsingle
      · obtain rfl := Except.ok.inj hsingle
        exact .inr ⟨_, rfl, hspelled⟩
      · cases hsingle
      · obtain rfl := Except.ok.inj hsingle
        exact .inl hspelled
  · rintro ⟨x, t, rfl, hspelled, hsequence, rfl⟩
    have hunwrap : ∃ single, unwrapDefault t = .ok single ∧ x.Spelled single := by
      rcases hspelled with hspelled | ⟨single, rfl, hspelled⟩
      · refine ⟨t, ?_, hspelled⟩
        cases t with
        | paren inner => exact absurd hspelled DefaultSyntax.not_spelled_paren
        | _ => rfl
      · exact ⟨single, rfl, hspelled⟩
    obtain ⟨single, hsingle, hspelled⟩ := hunwrap
    exact bind_eq_ok.2 ⟨single, hsingle, bind_eq_ok.2
      ⟨_, readDefaultValue_eq_ok.2 ⟨x, hspelled, hsequence, rfl⟩, rfl⟩⟩

/-! ## References and actions -/

theorem readTarget_eq_ok {n : String} : readTarget t = .ok n ↔ SpellsTarget n t := by
  have name (h : t.name? = some n) : readTarget t = .ok n := by
    rcases name?_eq_some h with rfl | ⟨parts, rfl⟩ <;> simp [readTarget, h]
  constructor
  · intro h
    cases t with
    | call parts =>
      cases hcall : Token.callParts? parts with
      | none => simp [readTarget, hcall, violated] at h
      | some call =>
        obtain rfl : call.1 = n := by simpa [readTarget, hcall] using h
        exact .call hcall
    | name text =>
      obtain rfl : text = n := Except.ok.inj h
      exact .name rfl
    | identifier parts =>
      cases hname : (Token.identifier parts).name? with
      | none => simp [readTarget, hname, violated] at h
      | some text =>
        obtain rfl : text = n := by simpa [readTarget, hname] using h
        exact .name hname
    | _ => cases h
  · intro h
    cases h with
    | name h => exact name h
    | call hcall => simp [readTarget, hcall]

/-- A table is found exactly when the schema or the draft itself has that name. -/
theorem findTable_isOk {n : String} :
    (∃ target, d.findTable s n = .ok target) ↔ s.HasTarget d.table.name n := by
  unfold Draft.findTable Schema.HasTarget
  cases hown : s.sameName n d.table.name with
  | true => simp
  | false =>
    simp only [Bool.false_eq_true, if_false, false_or, fromCatalog_eq_ok, Schema.tableNamed,
      ← List.find?_isSome]
    cases s.tables.find? fun t => s.sameName t.name n <;> simp

/-- With the table found, a reference is set to its place, and the notices are those about its
key. -/
theorem setReference_of_findTable {n : String} {target : Table} (h : d.findTable s n = .ok target) :
    d.setReference s i n = { d with
      table := d.table.modifyColumn i fun c => { c with references := some target.id }
      notices := d.notices ++ match d.table.columns[i]? with
        | some c => keyNotices s.dialect d.table c target
        | none => [] } := by
  unfold Draft.setReference
  split
  · rename_i found hfound
    obtain rfl := Except.ok.inj (hfound.symm.trans h)
    rfl
  · rename_i e hfound
    cases hfound.symm.trans h

/-- A reference is read exactly as it is spelled, provided the table is there. -/
theorem readReference_eq_ok : readReference s d i ts = .ok (d', rest) ↔
    ∃ n t, ts = t :: rest ∧ SpellsTarget n t ∧ s.HasTarget d.table.name n ∧
      d' = d.setReference s i n := by
  cases ts with
  | nil => simp [readReference, violated]
  | cons t ts =>
    constructor
    · intro h
      obtain ⟨n, hn, h⟩ := bind_eq_ok.1 h
      obtain ⟨target, htarget, h⟩ := bind_eq_ok.1 h
      obtain ⟨rfl, rfl⟩ := Prod.mk.inj (Except.ok.inj h)
      exact ⟨n, t, rfl, readTarget_eq_ok.1 hn, findTable_isOk.1 ⟨target, htarget⟩,
        (setReference_of_findTable htarget).symm⟩
    · rintro ⟨n, u, h, hspelled, htarget, rfl⟩
      obtain ⟨rfl, rfl⟩ := List.cons.inj h
      obtain ⟨target, htarget⟩ := findTable_isOk.2 htarget
      refine bind_eq_ok.2 ⟨n, readTarget_eq_ok.2 hspelled, bind_eq_ok.2 ⟨target, htarget, ?_⟩⟩
      rw [setReference_of_findTable htarget]
      rfl

theorem readDeleteAction_eq_ok {action : DeleteAction} :
    readDeleteAction ts = .ok (action, rest) ↔
      ∃ us, ts = us ++ rest ∧ SpellsWords ("DELETE" :: action.words) us := by
  constructor
  · intro h
    obtain ⟨more, hdelete, hmore⟩ := bind_eq_ok.1 h
    obtain ⟨t, rfl, ht⟩ := readKeyword_eq_ok.1 hdelete
    split at hmore
    · cases hmore
    · rename_i u rest
      split at hmore
      · rename_i hu
        obtain ⟨rfl, rfl⟩ := Prod.mk.inj (Except.ok.inj hmore)
        exact ⟨[t, u], rfl, .cons ht (.cons hu .nil)⟩
      · split at hmore
        · rename_i hu
          split at hmore
          · cases hmore
          · rename_i v rest
            split at hmore
            · rename_i hv
              obtain ⟨rfl, rfl⟩ := Prod.mk.inj (Except.ok.inj hmore)
              exact ⟨[t, u, v], rfl, .cons ht (.cons hu (.cons hv .nil))⟩
            · split at hmore
              · rename_i hv
                obtain ⟨rfl, rfl⟩ := Prod.mk.inj (Except.ok.inj hmore)
                exact ⟨[t, u, v], rfl, .cons ht (.cons hu (.cons hv .nil))⟩
              · cases hmore
        · cases hmore
  · rintro ⟨us, rfl, hus⟩
    obtain ⟨t, us, rfl, ht, hus⟩ := spellsWords_cons.1 hus
    refine bind_eq_ok.2 ⟨us ++ rest, readKeyword_eq_ok.2 ⟨t, rfl, ht⟩, ?_⟩
    cases action with
    | cascade =>
      obtain ⟨u, rfl, hu⟩ := spellsWords_singleton.1 hus
      simp [hu, pure, Except.pure]
    | setNull =>
      obtain ⟨u, v, rfl, hu, hv⟩ := spellsWords_pair.1 hus
      simp [isKeyword_of_isKeyword hu, sameIgnoringAsciiCase, hv, pure, Except.pure]
    | setDefault =>
      obtain ⟨u, v, rfl, hu, hv⟩ := spellsWords_pair.1 hus
      simp [isKeyword_of_isKeyword hu, isKeyword_of_isKeyword hv, sameIgnoringAsciiCase, pure,
        Except.pure]

/-! ## Clauses -/

/-- What is read as a clause is spelled as one that the draft admits. -/
theorem spelled_of_readModifier (h : readModifier s d i t ts = .ok (d', rest)) :
    ∃ c : ClauseSyntax, ∃ us, t :: ts = us ++ rest ∧ c.Spelled us ∧ c.Accepted s d ∧
      d' = c.apply s i d := by
  unfold readModifier at h
  split at h
  · rename_i ht
    obtain ⟨more, hkey, h⟩ := bind_eq_ok.1 h
    obtain ⟨d₁, hprimary, h⟩ := bind_eq_ok.1 h
    obtain ⟨rfl, rfl⟩ := Prod.mk.inj (Except.ok.inj h)
    obtain ⟨u, rfl, hu⟩ := readKeyword_eq_ok.1 hkey
    obtain ⟨hnone, rfl⟩ := setPrimaryKey_eq_ok.1 hprimary
    exact ⟨.primaryKey, [t, u], rfl, .primaryKey (.cons ht (.cons hu .nil)), hnone, rfl⟩
  split at h
  · rename_i ht
    obtain ⟨rfl, rfl⟩ := Prod.mk.inj (Except.ok.inj h)
    exact ⟨.unique, [t], rfl, .unique (.cons ht .nil), trivial, rfl⟩
  split at h
  · rename_i ht
    obtain ⟨more, hnull, h⟩ := bind_eq_ok.1 h
    obtain ⟨rfl, rfl⟩ := Prod.mk.inj (Except.ok.inj h)
    obtain ⟨u, rfl, hu⟩ := readKeyword_eq_ok.1 hnull
    exact ⟨.notNull, [t, u], rfl, .notNull (.cons ht (.cons hu .nil)), trivial, rfl⟩
  split at h
  · rename_i ht
    obtain ⟨rfl, rfl⟩ := Prod.mk.inj (Except.ok.inj h)
    exact ⟨.null, [t], rfl, .null (.cons ht .nil), trivial, rfl⟩
  split at h
  · rename_i ht
    obtain ⟨⟨inner, more⟩, hparen, h⟩ := bind_eq_ok.1 h
    obtain ⟨e, he, h⟩ := bind_eq_ok.1 h
    obtain ⟨rfl, rfl⟩ := Prod.mk.inj (Except.ok.inj h)
    obtain rfl := readParen_eq_ok.1 hparen
    obtain ⟨c, hspelled, hmentions, rfl⟩ := readCheck_eq_ok.1 he
    exact ⟨.check c, [t, .paren inner], rfl, .check ht hspelled, hmentions, rfl⟩
  split at h
  · rename_i ht
    obtain ⟨x, u, rfl, hspelled, hsequence, rfl⟩ := readDefault_eq_ok.1 h
    refine ⟨.default x, [t, u], rfl, ?_, hsequence, rfl⟩
    rcases hspelled with hspelled | ⟨single, rfl, hspelled⟩
    · exact .default ht hspelled
    · exact .defaultInside ht hspelled
  split at h
  · rename_i ht
    obtain ⟨n, u, rfl, hspelled, htarget, rfl⟩ := readReference_eq_ok.1 h
    exact ⟨.references n, [t, u], rfl, .references ht hspelled, htarget, rfl⟩
  split at h
  · rename_i ht
    obtain ⟨⟨action, more⟩, haction, h⟩ := bind_eq_ok.1 h
    obtain ⟨rfl, rfl⟩ := Prod.mk.inj (Except.ok.inj h)
    obtain ⟨us, rfl, hus⟩ := readDeleteAction_eq_ok.1 haction
    exact ⟨.onDelete action, t :: us, rfl, .onDelete (.cons ht hus), trivial, rfl⟩
  · cases h

/-- A clause that the draft admits is read where it is spelled. -/
theorem readModifier_of_spelled {c : ClauseSyntax} {us : List Token} (hts : t :: ts = us ++ rest)
    (hspelled : c.Spelled us) (haccepted : c.Accepted s d) :
    readModifier s d i t ts = .ok (c.apply s i d, rest) := by
  -- The first keyword says which clause it is, as a token is one keyword at most.
  cases hspelled with
  | primaryKey h =>
    obtain ⟨k, u, rfl, hk, hu⟩ := spellsWords_pair.1 h
    obtain ⟨rfl, rfl⟩ := List.cons.inj hts
    have hkey : d.setPrimaryKey [i] t = .ok _ := setPrimaryKey_eq_ok.2 ⟨haccepted, rfl⟩
    simp [readModifier, hk, readKeyword, hu, hkey, bind, Except.bind, pure, Except.pure,
      ClauseSyntax.apply]
  | unique h =>
    obtain ⟨k, rfl, hk⟩ := spellsWords_singleton.1 h
    obtain ⟨rfl, rfl⟩ := List.cons.inj hts
    simp [readModifier, isKeyword_of_isKeyword hk, sameIgnoringAsciiCase, ClauseSyntax.apply]
  | notNull h =>
    obtain ⟨k, u, rfl, hk, hu⟩ := spellsWords_pair.1 h
    obtain ⟨rfl, rfl⟩ := List.cons.inj hts
    simp [readModifier, isKeyword_of_isKeyword hk, sameIgnoringAsciiCase, readKeyword, hu, bind,
      Except.bind, pure, Except.pure, ClauseSyntax.apply]
  | null h =>
    obtain ⟨k, rfl, hk⟩ := spellsWords_singleton.1 h
    obtain ⟨rfl, rfl⟩ := List.cons.inj hts
    simp [readModifier, isKeyword_of_isKeyword hk, sameIgnoringAsciiCase, ClauseSyntax.apply]
  | @check c k inner hk hc =>
    obtain ⟨rfl, rfl⟩ := List.cons.inj hts
    have hcheck := readCheck_eq_ok.2 ⟨c, hc, haccepted, rfl⟩
    simp [readModifier, isKeyword_of_isKeyword hk, sameIgnoringAsciiCase, readParen, hcheck, bind,
      Except.bind, pure, Except.pure, ClauseSyntax.apply]
  | @default x k u hk hx =>
    obtain ⟨rfl, rfl⟩ := List.cons.inj hts
    have hread : readDefault s d i (u :: rest) = .ok _ :=
      readDefault_eq_ok.2 ⟨x, u, rfl, .inl hx, haccepted, rfl⟩
    simp [readModifier, isKeyword_of_isKeyword hk, sameIgnoringAsciiCase, hread,
      ClauseSyntax.apply]
  | @defaultInside x k u hk hx =>
    obtain ⟨rfl, rfl⟩ := List.cons.inj hts
    have hread : readDefault s d i (.paren [u] :: rest) = .ok _ :=
      readDefault_eq_ok.2 ⟨x, .paren [u], rfl, .inr ⟨u, rfl, hx⟩, haccepted, rfl⟩
    simp [readModifier, isKeyword_of_isKeyword hk, sameIgnoringAsciiCase, hread,
      ClauseSyntax.apply]
  | @references n k u hk hn =>
    obtain ⟨rfl, rfl⟩ := List.cons.inj hts
    have hread : readReference s d i (u :: rest) = .ok _ :=
      readReference_eq_ok.2 ⟨n, u, rfl, hn, haccepted, rfl⟩
    simp [readModifier, isKeyword_of_isKeyword hk, sameIgnoringAsciiCase, hread,
      ClauseSyntax.apply]
  | @onDelete action ts h =>
    obtain ⟨k, us, rfl, hk, hus⟩ := spellsWords_cons.1 h
    obtain ⟨rfl, rfl⟩ := List.cons.inj hts
    have hread : readDeleteAction (us ++ rest) = .ok (action, rest) :=
      readDeleteAction_eq_ok.2 ⟨us, rfl, hus⟩
    simp [readModifier, isKeyword_of_isKeyword hk, sameIgnoringAsciiCase, hread, bind,
      Except.bind, pure, Except.pure, ClauseSyntax.apply]

/-- A clause is read exactly where it is spelled, if the draft admits it. -/
theorem readModifier_eq_ok : readModifier s d i t ts = .ok (d', rest) ↔
    ∃ c : ClauseSyntax, ∃ us, t :: ts = us ++ rest ∧ c.Spelled us ∧ c.Accepted s d ∧
      d' = c.apply s i d := by
  constructor
  · exact spelled_of_readModifier
  · rintro ⟨c, us, hts, hspelled, haccepted, rfl⟩
    exact readModifier_of_spelled hts hspelled haccepted

/-- The keywords that clauses begin with. -/
def clauseWords : List String :=
  ["PRIMARY", "UNIQUE", "NOT", "NULL", "CHECK", "DEFAULT", "REFERENCES", "ON"]

/-- The tokens of a clause begin with one of the keywords for it. -/
theorem ClauseSyntax.Spelled.head {c : ClauseSyntax} (h : c.Spelled ts) :
    ∃ k us, ts = k :: us ∧ ∃ word ∈ clauseWords, k.isKeyword word = true := by
  have first {word : String} {words : List String} (hword : word ∈ clauseWords)
      (h : SpellsWords (word :: words) ts) :
      ∃ k us, ts = k :: us ∧ ∃ word ∈ clauseWords, k.isKeyword word = true := by
    obtain ⟨k, us, rfl, hk, -⟩ := spellsWords_cons.1 h
    exact ⟨k, us, rfl, word, hword, hk⟩
  cases h with
  | primaryKey h | unique h | notNull h | null h | onDelete h => exact first (by decide) h
  | check hk _ | default hk _ | defaultInside hk _ | references hk _ =>
    exact ⟨_, _, rfl, _, by decide, hk⟩

/-! ## Rules -/

/-- The name of a constraint is read exactly as it is spelled, or there is none. -/
theorem readConstraintName_eq_ok {name : Option String} {kind : Token} :
    readConstraintName t ts = .ok (name, kind, rest) ↔
      t.isKeyword "CONSTRAINT" = false ∧ name = none ∧ kind = t ∧ rest = ts ∨
        ∃ us, t :: ts = us ++ kind :: rest ∧ us ≠ [] ∧ SpellsConstraintName name us := by
  unfold readConstraintName
  constructor
  · intro h
    split at h
    · rename_i ht
      obtain ⟨⟨n, more⟩, hname, hmore⟩ := bind_eq_ok.1 h
      obtain ⟨u, rfl, hu⟩ := readName_eq_ok.1 hname
      cases more with
      | nil => cases hmore
      | cons kind more =>
        obtain ⟨rfl, hrest⟩ := Prod.mk.inj (Except.ok.inj hmore)
        obtain ⟨rfl, rfl⟩ := Prod.mk.inj hrest
        exact .inr ⟨[t, u], rfl, by simp, .some ht hu⟩
    · rename_i ht
      obtain ⟨rfl, hrest⟩ := Prod.mk.inj (Except.ok.inj h)
      obtain ⟨rfl, rfl⟩ := Prod.mk.inj hrest
      exact .inl ⟨by simpa using ht, rfl, rfl, rfl⟩
  · rintro (⟨ht, rfl, rfl, rfl⟩ | ⟨us, hts, hne, hspelled⟩)
    · rw [ht, if_neg Bool.false_ne_true]
    · cases hspelled with
      | none => exact absurd rfl hne
      | @some n k u hk hu =>
        obtain ⟨rfl, rfl⟩ := List.cons.inj hts
        rw [if_pos hk]
        exact bind_eq_ok.2 ⟨(n, kind :: rest), readName_eq_ok.2 ⟨u, rfl, hu⟩, rfl⟩

/-- A rule is read exactly where it is spelled, if the draft admits it. -/
theorem readConstraintBody_eq_ok {name : Option String} :
    readConstraintBody d name t ts = .ok (d', rest) ↔
      ∃ r : RuleSyntax, ∃ us, t :: ts = us ++ rest ∧ r.Spelled us ∧ r.Accepted d ∧
        d' = r.apply name d := by
  constructor
  · intro h
    unfold readConstraintBody at h
    split at h
    · rename_i ht
      obtain ⟨more, hkey, h⟩ := bind_eq_ok.1 h
      obtain ⟨⟨inner, more'⟩, hparen, h⟩ := bind_eq_ok.1 h
      obtain ⟨columns, hcolumns, h⟩ := bind_eq_ok.1 h
      obtain ⟨d₁, hprimary, h⟩ := bind_eq_ok.1 h
      obtain ⟨rfl, rfl⟩ := Prod.mk.inj (Except.ok.inj h)
      obtain ⟨u, rfl, hu⟩ := readKeyword_eq_ok.1 hkey
      obtain rfl := readParen_eq_ok.1 hparen
      obtain ⟨names, hspelled, hnames, rfl⟩ := Table.readColumns_eq_ok.1 hcolumns
      obtain ⟨hnone, rfl⟩ := setPrimaryKey_eq_ok.1 hprimary
      exact ⟨.primaryKey names, [t, u] ++ [.paren inner], rfl,
        .primaryKey (.cons ht (.cons hu .nil)) hspelled, ⟨hnone, hnames⟩, rfl⟩
    split at h
    · rename_i ht
      obtain ⟨⟨inner, more⟩, hparen, h⟩ := bind_eq_ok.1 h
      obtain ⟨columns, hcolumns, h⟩ := bind_eq_ok.1 h
      obtain ⟨rfl, rfl⟩ := Prod.mk.inj (Except.ok.inj h)
      obtain rfl := readParen_eq_ok.1 hparen
      obtain ⟨names, hspelled, hnames, rfl⟩ := Table.readColumns_eq_ok.1 hcolumns
      exact ⟨.unique names, [t, .paren inner], rfl, .unique ht hspelled, hnames, rfl⟩
    split at h
    · rename_i ht
      obtain ⟨⟨inner, more⟩, hparen, h⟩ := bind_eq_ok.1 h
      obtain ⟨e, he, h⟩ := bind_eq_ok.1 h
      obtain ⟨rfl, rfl⟩ := Prod.mk.inj (Except.ok.inj h)
      obtain rfl := readParen_eq_ok.1 hparen
      obtain ⟨c, hspelled, hmentions, rfl⟩ := readCheck_eq_ok.1 he
      exact ⟨.check c, [t, .paren inner], rfl, .check ht hspelled, hmentions, rfl⟩
    · cases h
  · rintro ⟨r, us, hts, hspelled, haccepted, rfl⟩
    cases hspelled with
    | @primaryKey names ks inner h hnames =>
      obtain ⟨k, u, rfl, hk, hu⟩ := spellsWords_pair.1 h
      obtain ⟨rfl, rfl⟩ := List.cons.inj hts
      have hcolumns := Table.readColumns_eq_ok.2 ⟨names, hnames, haccepted.2, rfl⟩
      have hkey : d.setPrimaryKey (names.map (placeIn d.table.names)) t = .ok _ :=
        setPrimaryKey_eq_ok.2 ⟨haccepted.1, rfl⟩
      simp [readConstraintBody, hk, readKeyword, hu, readParen, hcolumns, hkey, bind, Except.bind,
        pure, Except.pure, RuleSyntax.apply]
    | @unique names k inner hk hnames =>
      obtain ⟨rfl, rfl⟩ := List.cons.inj hts
      have hcolumns := Table.readColumns_eq_ok.2 ⟨names, hnames, haccepted, rfl⟩
      simp [readConstraintBody, isKeyword_of_isKeyword hk, sameIgnoringAsciiCase, readParen,
        hcolumns, bind, Except.bind, pure, Except.pure, RuleSyntax.apply]
    | @check c k inner hk hc =>
      obtain ⟨rfl, rfl⟩ := List.cons.inj hts
      have hcheck := readCheck_eq_ok.2 ⟨c, hc, haccepted, rfl⟩
      simp [readConstraintBody, isKeyword_of_isKeyword hk, sameIgnoringAsciiCase, readParen,
        hcheck, bind, Except.bind, pure, Except.pure, RuleSyntax.apply]

/-! ## Items -/

/-- Whether what follows an item is the end, with the draft as it is, or a comma and items that make
the draft another one. -/
def GoesOn (s : Schema) (d : Draft) (rest : List Token) (d' : Draft) : Prop :=
  rest = [] ∧ d' = d ∨
    ∃ comma us, rest = comma :: us ∧ comma.isMark ',' = true ∧ readBody s d .item us = (d', none)

/-- The reader of a body goes on with a part exactly if the part is read. -/
theorem readBody_cons_eq {place : BodyPlace} :
    readBody s d place (t :: ts) = (d', none) ↔
      ∃ step, readBodyStep s d place t ts = .ok step ∧
        (match step.next with
          | none => (step.draft, none)
          | some place => readBody s step.draft place step.rest) = (d', none) := by
  rw [readBody_cons]
  cases readBodyStep s d place t ts with
  | error e => simp
  | ok step => cases hnext : step.next <;> simp [hnext]

/-- Clauses of a column are read up to a comma or the end. -/
theorem readBody_column_eq : readBody s d (.column i) ts = (d', none) ↔
    ∃ cs us rest, ts = us ++ rest ∧ SpellsClauses cs us ∧
      AllAccepted (ClauseSyntax.Accepted s) (ClauseSyntax.apply s i) d cs ∧
        GoesOn s (cs.foldl (ClauseSyntax.apply s i) d) rest d' := by
  constructor
  · intro h
    -- The induction is on the length of the tokens, since a clause takes several of them.
    induction hn : ts.length using Nat.strongRecOn generalizing d ts with
    | ind n ih =>
      cases ts with
      | nil =>
        rw [readBody] at h
        exact ⟨[], [], [], rfl, .nil, trivial, .inl ⟨rfl, (Prod.mk.inj h).1.symm⟩⟩
      | cons t ts =>
        obtain ⟨step, hstep, hnext⟩ := readBody_cons_eq.1 h
        rw [readBodyStep] at hstep
        split at hstep
        · rename_i hcomma
          obtain rfl := Except.ok.inj hstep
          exact ⟨[], [], t :: ts, rfl, .nil, trivial, .inr ⟨t, ts, rfl, hcomma, hnext⟩⟩
        · obtain ⟨⟨d₁, more⟩, hmodifier, hok⟩ := bind_eq_ok.1 hstep
          obtain rfl := Except.ok.inj hok
          obtain ⟨c, us, hts, hspelled, haccepted, rfl⟩ := readModifier_eq_ok.1 hmodifier
          have hlength : more.length ≤ ts.length := length_of_readModifier hmodifier
          obtain ⟨cs, vs, rest, rfl, hcs, hall, hrest⟩ :=
            ih more.length (by rw [← hn, List.length_cons]; omega) hnext rfl
          refine ⟨c :: cs, us ++ vs, rest, ?_, .cons hspelled hcs, ⟨haccepted, hall⟩, hrest⟩
          rw [hts, List.append_assoc]
  · rintro ⟨cs, us, rest, rfl, hcs, hall, hrest⟩
    induction hcs generalizing d with
    | nil =>
      rcases hrest with ⟨rfl, rfl⟩ | ⟨comma, us, rfl, hcomma, hus⟩
      · simp [readBody]
      · refine readBody_cons_eq.2 ⟨⟨d, some .item, us⟩, ?_, hus⟩
        rw [readBodyStep, if_pos hcomma]
    | @cons c cs us vs hspelled hcs ih =>
      obtain ⟨haccepted, hall⟩ := hall
      obtain ⟨k, ks, rfl, word, hword, hk⟩ := hspelled.head
      have hcomma : k.isMark ',' = false := by
        cases k with
        | keyword w => rfl
        | _ => cases hk
      have hmodifier : readModifier s d i k (ks ++ (vs ++ rest)) =
          .ok (c.apply s i d, vs ++ rest) :=
        readModifier_eq_ok.2 ⟨c, k :: ks, rfl, hspelled, haccepted, rfl⟩
      rw [List.cons_append, List.cons_append, List.append_assoc,
        readBody_modifier hcomma hmodifier]
      exact ih hall hrest

/-- What goes on after an item begins with a comma. -/
theorem GoesOn.head (h : GoesOn s d rest d') : ∀ t ∈ rest.head?, t.isMark ',' = true := by
  rcases h with ⟨rfl, -⟩ | ⟨comma, us, rfl, hcomma, -⟩
  · simp
  · simpa using hcomma

/-- A type is over before clauses, a comma or the end. -/
theorem stopsType_of_clauses {cs : List ClauseSyntax} {us : List Token} (hcs : SpellsClauses cs us)
    (hrest : ∀ t ∈ rest.head?, t.isMark ',' = true) : StopsType (us ++ rest) := by
  cases hcs with
  | nil =>
    constructor
    · intro t ht
      have hcomma := hrest t ht
      cases t with
      | punctuation m => exact ⟨by simp, fun _ _ => rfl⟩
      | _ => cases hcomma
    · rintro inner hinner
      cases hrest _ hinner
  | cons hspelled _ =>
    obtain ⟨k, ks, rfl, word, hword, hk⟩ := hspelled.head
    cases k with
    | keyword w =>
      have hsame (other : String) :
          (Token.keyword w).isWord other = sameIgnoringAsciiCase word other :=
        isKeyword_of_isKeyword hk other
      have hnot : ∀ word ∈ clauseWords, ∀ other ∈ ["precision", "varying", "with", "without"],
          sameIgnoringAsciiCase word other = false := by decide +kernel
      constructor
      · rintro t ⟨⟩
        exact ⟨by simp, fun other hother => (hsame other).trans (hnot word hword other hother)⟩
      · simp
    | _ => cases hk

/-- A rule begins with a keyword, which does not give a constraint its name. -/
theorem RuleSyntax.Spelled.head {r : RuleSyntax} (h : r.Spelled ts) :
    ∃ k us, ts = .keyword k :: us ∧ (Token.keyword k).isKeyword "CONSTRAINT" = false := by
  have first {word : String} {k : Token} {us : List Token}
      (hword : sameIgnoringAsciiCase word "CONSTRAINT" = false) (hk : k.isKeyword word = true) :
      ∃ k' us', k :: us = .keyword k' :: us' ∧
        (Token.keyword k').isKeyword "CONSTRAINT" = false := by
    cases k with
    | keyword w => exact ⟨w, us, rfl, isKeyword_eq_false hk hword⟩
    | _ => cases hk
  cases h with
  | primaryKey h _ =>
    obtain ⟨k, us, rfl, hk, -⟩ := spellsWords_cons.1 h
    exact first (by decide +kernel) hk
  | unique hk _ => exact first (by decide +kernel) hk
  | check hk _ => exact first (by decide +kernel) hk

/-- After a constraint the body ends, or goes on with an item after a comma. -/
theorem afterConstraint_eq_ok {step : BodyStep} :
    afterConstraint d ts = .ok step ↔ ts = [] ∧ step = ⟨d, none, []⟩ ∨
      ∃ comma us, ts = comma :: us ∧ comma.isMark ',' = true ∧ step = ⟨d, some .item, us⟩ := by
  cases ts with
  | nil => simp [afterConstraint, @eq_comm _ step]
  | cons t ts => cases h : t.isMark ',' <;> simp [afterConstraint, violated, h, @eq_comm _ step]

/-- A column is added exactly when its name is new. -/
theorem addColumn_eq_ok {name : String} {type : ColumnType} {table : Table} :
    d.table.addColumn name type = .ok table ↔ ¬ NamedIn d.table.names name ∧
      table = (d.addColumn ⟨name, type, []⟩).table := by
  rw [← Table.hasColumn_eq_true_iff, Table.addColumn]
  cases d.table.hasColumn name <;> simp [Draft.addColumn, Draft.withTable, eq_comm]

/-- A column begins with its name. -/
theorem readItem_name {name : String} (h : t.name? = some name) :
    readItem d t ts = readColumnStart d name ts := by
  rcases name?_eq_some h with rfl | ⟨parts, rfl⟩ <;> simp only [readItem, h]

/-- The definition of a column is read up to a comma or the end. -/
theorem readColumnStart_eq_ok {name : String} {step : BodyStep} :
    readColumnStart d name ts = .ok step ↔ ∃ type rest, readColumnType ts = .ok (type, rest) ∧
      ¬ NamedIn d.table.names name ∧
        step = ⟨d.addColumn ⟨name, type, []⟩, some (.column d.table.columns.length), rest⟩ := by
  constructor
  · intro h
    obtain ⟨⟨type, rest⟩, htype, h⟩ := bind_eq_ok.1 h
    obtain ⟨table, htable, h⟩ := bind_eq_ok.1 h
    obtain rfl := Except.ok.inj h
    obtain ⟨hnot, rfl⟩ := addColumn_eq_ok.1 (fromCatalog_eq_ok.1 htable)
    exact ⟨type, rest, htype, hnot, rfl⟩
  · rintro ⟨type, rest, htype, hnot, rfl⟩
    exact bind_eq_ok.2 ⟨_, htype, bind_eq_ok.2
      ⟨_, fromCatalog_eq_ok.2 (addColumn_eq_ok.2 ⟨hnot, rfl⟩), rfl⟩⟩

/-- A constraint is read up to a comma or the end, where the rest of the body begins. -/
theorem goesOn_of_readConstraint {step : BodyStep} (h : readConstraint d t ts = .ok step)
    (hnext : (match step.next with
      | none => (step.draft, none)
      | some place => readBody s step.draft place step.rest) = (d', none)) :
    ∃ c : ConstraintSyntax, ∃ us rest, t :: ts = us ++ rest ∧ (ItemSyntax.constraint c).Spelled us ∧
      c.rule.Accepted d ∧ GoesOn s (c.rule.apply c.name d) rest d' := by
  obtain ⟨⟨name, kind, more⟩, hname, h⟩ := bind_eq_ok.1 h
  obtain ⟨⟨d₁, rest⟩, hbody, h⟩ := bind_eq_ok.1 h
  obtain ⟨r, us, hus, hrule, haccepted, rfl⟩ := readConstraintBody_eq_ok.1 hbody
  have hgoes : GoesOn s (r.apply name d) rest d' := by
    rcases afterConstraint_eq_ok.1 h with ⟨rfl, rfl⟩ | ⟨comma, vs, rfl, hcomma, rfl⟩
    · exact .inl ⟨rfl, (Prod.mk.inj hnext).1.symm⟩
    · exact .inr ⟨comma, vs, rfl, hcomma, hnext⟩
  refine ⟨⟨name, r⟩, ?_⟩
  rcases readConstraintName_eq_ok.1 hname with ⟨-, rfl, rfl, rfl⟩ | ⟨vs, hvs, -, hspelled⟩
  · have hspelled : (ItemSyntax.constraint ⟨none, r⟩).Spelled ([] ++ us) := .constraint .none hrule
    exact ⟨us, rest, hus, hspelled, haccepted, hgoes⟩
  · refine ⟨vs ++ us, rest, ?_, .constraint hspelled hrule, haccepted, hgoes⟩
    rw [hvs, hus, List.append_assoc]

/-- A constraint that is spelled is read. -/
theorem readConstraint_of_spelled {c : ConstraintSyntax} {us vs : List Token}
    (hname : SpellsConstraintName c.name us) (hrule : c.rule.Spelled vs)
    (haccepted : c.rule.Accepted d) (hts : t :: ts = us ++ vs ++ rest) :
    readConstraint d t ts = afterConstraint (c.rule.apply c.name d) rest := by
  obtain ⟨k, ks, rfl, hk⟩ := hrule.head
  have hread : readConstraintName t ts = .ok (c.name, .keyword k, ks ++ rest) := by
    refine readConstraintName_eq_ok.2 ?_
    generalize c.name = name at hname
    cases hname with
    | none =>
      obtain ⟨rfl, rfl⟩ := List.cons.inj hts
      exact .inl ⟨hk, rfl, rfl, rfl⟩
    | some hconstraint h => exact .inr ⟨_, by rw [hts]; rfl, by simp, .some hconstraint h⟩
  have hbody : readConstraintBody d c.name (.keyword k) (ks ++ rest) = .ok (_, rest) :=
    readConstraintBody_eq_ok.2 ⟨c.rule, .keyword k :: ks, rfl, hrule, haccepted, rfl⟩
  simp only [readConstraint, hread, hbody, bind, Except.bind]

/-- A part of a body is read up to a comma or the end. -/
theorem readBody_item_eq : readBody s d .item ts = (d', none) ↔
    ∃ x : ItemSyntax, ∃ us rest, ts = us ++ rest ∧ x.Spelled us ∧ x.Accepted s d ∧
      GoesOn s (x.apply s d) rest d' := by
  constructor
  · intro h
    cases ts with
    | nil => simp [readBody] at h
    | cons t ts =>
      obtain ⟨step, hstep, hnext⟩ := readBody_cons_eq.1 h
      have hitem : readItem d t ts = .ok step := hstep
      cases hname : t.name? with
      | some name =>
        rw [readItem_name hname] at hitem
        obtain ⟨type, rest, htype, hnot, rfl⟩ := readColumnStart_eq_ok.1 hitem
        obtain ⟨hknown, us, rfl, hspelled⟩ := spelled_of_readColumnType htype
        obtain ⟨cs, vs, rest, rfl, hcs, hall, hgoes⟩ := readBody_column_eq.1 hnext
        exact ⟨.column ⟨name, type, cs⟩, t :: (us ++ vs), rest, by simp,
          .column hname hspelled hcs, ⟨hknown, hnot, hall⟩, hgoes⟩
      | none =>
        have hconstraint : readConstraint d t ts = .ok step := by
          unfold readItem at hitem
          split at hitem
          · simp only [hname] at hitem
            cases hitem
          · simp only [hname] at hitem
            cases hitem
          · exact hitem
        obtain ⟨c, us, rest, hts, hspelled, haccepted, hgoes⟩ :=
          goesOn_of_readConstraint hconstraint hnext
        exact ⟨.constraint c, us, rest, hts, hspelled, haccepted, hgoes⟩
  · rintro ⟨x, us, rest, rfl, hspelled, haccepted, hgoes⟩
    cases hspelled with
    | @column c t us vs hname htype hclauses =>
      obtain ⟨hknown, hnot, hall⟩ := haccepted
      have hread := readColumnType_of_spelled htype hknown
        (stopsType_of_clauses hclauses hgoes.head)
      have hstep : readBodyStep s d .item t (us ++ (vs ++ rest)) = .ok _ :=
        (readItem_name hname).trans (readColumnStart_eq_ok.2 ⟨c.type, _, hread, hnot, rfl⟩)
      rw [List.cons_append, List.append_assoc]
      refine readBody_cons_eq.2 ⟨_, hstep, ?_⟩
      exact readBody_column_eq.2 ⟨c.clauses, vs, rest, rfl, hclauses, hall, hgoes⟩
    | @constraint c us vs hname hrule =>
      have hkeyword : ∃ k more, us ++ vs ++ rest = .keyword k :: more := by
        obtain ⟨k, ks, rfl, -⟩ := hrule.head
        generalize c.name = name at hname
        cases hname with
        | none => exact ⟨k, _, rfl⟩
        | @some n t _ ht _ =>
          cases t with
          | keyword w => exact ⟨w, _, rfl⟩
          | _ => cases ht
      obtain ⟨k, more, hts⟩ := hkeyword
      have hread : readItem d (.keyword k) more = _ :=
        readConstraint_of_spelled hname hrule haccepted hts.symm
      rw [hts]
      refine readBody_cons_eq.2 ?_
      rcases hgoes with ⟨rfl, rfl⟩ | ⟨comma, ws, rfl, hcomma, hws⟩
      · exact ⟨_, hread.trans (afterConstraint_eq_ok.2 (.inl ⟨rfl, rfl⟩)), rfl⟩
      · exact ⟨_, hread.trans (afterConstraint_eq_ok.2 (.inr ⟨comma, ws, rfl, hcomma, rfl⟩)), hws⟩

/-- A body is read to its end exactly where it is spelled by items that are admitted one after the
other. -/
theorem readBody_eq_ok : readBody s d .item ts = (d', none) ↔
    ∃ items, SpellsItems items ts ∧
      AllAccepted (ItemSyntax.Accepted s) (ItemSyntax.apply s) d items ∧
        d' = items.foldl (ItemSyntax.apply s) d := by
  constructor
  · intro h
    induction hn : ts.length using Nat.strongRecOn generalizing d ts with
    | ind n ih =>
      obtain ⟨x, us, rest, rfl, hspelled, haccepted, hrest⟩ := readBody_item_eq.1 h
      rcases hrest with ⟨rfl, rfl⟩ | ⟨comma, more, rfl, hcomma, hmore⟩
      · rw [List.append_nil]
        exact ⟨[x], .one hspelled, ⟨haccepted, trivial⟩, rfl⟩
      · obtain ⟨items, hitems, hall, rfl⟩ :=
          ih more.length (by simp [← hn]; omega) hmore rfl
        exact ⟨x :: items, .cons hspelled hcomma hitems, ⟨haccepted, hall⟩, rfl⟩
  · rintro ⟨items, hitems, hall, rfl⟩
    induction hitems generalizing d with
    | one hspelled =>
      exact readBody_item_eq.2
        ⟨_, _, [], (List.append_nil _).symm, hspelled, hall.1, .inl ⟨rfl, rfl⟩⟩
    | cons hspelled hcomma _ ih =>
      exact readBody_item_eq.2 ⟨_, _, _, rfl, hspelled, hall.1, .inr ⟨_, _, rfl, hcomma, ih hall.2⟩⟩

end Clauses

end SqlCatalog
