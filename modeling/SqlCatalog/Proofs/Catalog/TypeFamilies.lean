import Mathlib.Data.List.Nodup
import SqlCatalog.Proofs.Text.SmallForms
import SqlCatalog.Schema.Discrepancy

/-!
# Families of types

A type is assigned to a family by its text before the first parenthesis, without white space around
it and in lower case. No name belongs to two families, and the name of a family is assigned to this
family, also where the family does not list it. So families are classes of names, each with its own
name as the representative, and columns are reported exactly if the names of their types are in
different classes.

## Main definitions

* `typeText` is the text of a declared type before its arguments.
* `SameFamily` says of two names that they are equal or belong to one listed family.

## Main statements

* `bareTypeName_eq`: types are cut and trimmed before or after they are lowered.
* `familyOf_eq_iff`: names have the same family exactly if they are in one class.
* `typeFamily_typeFamily`: the name of a family is in the family.
* `columns_compared_by_family`: what is reported about two columns.
-/

namespace SqlCatalog

/-! ## Texts of types -/

/-- The text of a declared type before its arguments, without white space around it. -/
def typeText (name : String) : String := trim (takeUntil '(' name)

/-- The text of a type commutes with lower case. -/
theorem typeText_lower (name : String) : typeText (lower name) = lower (typeText name) := by
  rw [typeText, typeText, lower_trim, lower_takeUntil (by decide +kernel) (by decide +kernel)]

/-- The bare name of a type is its text without the length, trimmed and in lower case. -/
theorem bareTypeName_eq (name : String) : bareTypeName name = lower (typeText name) :=
  typeText_lower name

/-- The text of a type has no length left to take away. -/
theorem typeText_typeText (name : String) : typeText (typeText name) = typeText name := by
  have hcut : takeUntil '(' (typeText name) = typeText name := by
    obtain ⟨front, back, htext, -⟩ := trim_eq_iff.1 (rfl : typeText name = typeText name)
    refine takeUntil_eq_self fun hmark => ?_
    refine not_mem_takeUntil '(' name ?_
    rw [htext]
    simp [hmark]
  rw [typeText, hcut, typeText, trim_trim]

/-- A name in lower case, without arguments and white space around it, stays as it is. -/
theorem bareTypeName_lower_typeText (name : String) :
    bareTypeName (lower (typeText name)) = lower (typeText name) := by
  rw [bareTypeName_eq, typeText_lower, typeText_typeText, lower_lower]

/-! ## Families -/

/-- Whether two names are equal or are both names of one family: its own name or one it lists. -/
def SameFamily (d : Dialect) (a b : String) : Prop :=
  a = b ∨ ∃ family ∈ typeFamilies d, a ∈ family.1 :: family.2 ∧ b ∈ family.1 :: family.2

instance (d : Dialect) (a b : String) : Decidable (SameFamily d a b) :=
  inferInstanceAs (Decidable (_ ∨ _))

section Families

variable {d : Dialect} {family : String × List String} {a b : String}

/-- No two families have the same name. -/
theorem nodup_families (d : Dialect) : ((typeFamilies d).map Prod.fst).Nodup := by
  cases d <;> decide +kernel

/-- The names of a family are all assigned to it. -/
theorem familyOf_of_mem (h : family ∈ typeFamilies d) (ha : a ∈ family.1 :: family.2) :
    familyOf d a = family.1 := by
  have hall : ((typeFamilies d).all fun family =>
      (family.1 :: family.2).all fun a => familyOf d a == family.1) = true := by
    cases d <;> decide +kernel
  exact eq_of_beq (List.all_eq_true.1 (List.all_eq_true.1 hall family h) a ha)

/-- The names of the families are bare. -/
theorem bareTypeName_family (h : family ∈ typeFamilies d) : bareTypeName family.1 = family.1 := by
  have hall : ((typeFamilies d).all fun family => bareTypeName family.1 == family.1) = true := by
    cases d <;> decide +kernel
  exact eq_of_beq (List.all_eq_true.1 hall family h)

/-- A name is assigned to a family that lists it, or it is a family of its own. -/
theorem familyOf_cases (d : Dialect) (a : String) : familyOf d a = a ∨
    ∃ family ∈ typeFamilies d, a ∈ family.2 ∧ familyOf d a = family.1 := by
  rw [familyOf]
  split
  · rename_i family hfind
    have hlists := List.find?_some hfind
    exact .inr ⟨family, List.mem_of_find?_eq_some hfind, List.contains_iff_mem.1 hlists, rfl⟩
  · exact .inl rfl

/-- Names are assigned to the same family exactly if they are equal or are names of one family. -/
theorem familyOf_eq_iff : familyOf d a = familyOf d b ↔ SameFamily d a b := by
  constructor
  · intro h
    rcases familyOf_cases d a with ha | ⟨family, hfamily, hlisted, ha⟩ <;>
      rcases familyOf_cases d b with hb | ⟨family', hfamily', hlisted', hb⟩ <;> rw [ha, hb] at h
    · exact .inl h
    · exact .inr ⟨family', hfamily', h ▸ List.mem_cons_self, List.mem_cons_of_mem _ hlisted'⟩
    · exact .inr ⟨family, hfamily, List.mem_cons_of_mem _ hlisted, h ▸ List.mem_cons_self⟩
    · obtain rfl := List.inj_on_of_nodup_map (nodup_families d) hfamily hfamily' h
      exact .inr ⟨family, hfamily, List.mem_cons_of_mem _ hlisted, List.mem_cons_of_mem _ hlisted'⟩
  · rintro (rfl | ⟨family, hfamily, ha, hb⟩)
    · rfl
    · rw [familyOf_of_mem hfamily ha, familyOf_of_mem hfamily hb]

end Families

/-- The name of a family is in the family. -/
theorem typeFamily_typeFamily (d : Dialect) (name : String) :
    typeFamily d (typeFamily d name) = typeFamily d name := by
  have hname : typeFamily d name = familyOf d (lower (typeText name)) := by
    rw [typeFamily, bareTypeName_eq]
  rcases familyOf_cases d (lower (typeText name)) with hself | ⟨family, hfamily, -, hlisted⟩
  · rw [hname, hself, typeFamily, bareTypeName_lower_typeText, hself]
  · rw [hname, hlisted, typeFamily, bareTypeName_family hfamily,
      familyOf_of_mem hfamily List.mem_cons_self]

/-! ## Columns -/

/-- The name of a family is in this family, and the family of a type depends on nothing but its text
before the first parenthesis, trimmed and in lower case. Two columns are reported exactly if these
texts are in different families, from both sides, and never for a type and its family. -/
theorem columns_compared_by_family (d : Dialect) (name owner : String) (mine theirs : Column)
    (length : Option UInt32) :
    typeFamily d (typeFamily d name) = typeFamily d name ∧
      typeFamily d name = typeFamily d (lower (typeText name)) ∧
      mine.discrepancies d owner theirs =
        (if SameFamily d (lower (typeText mine.type.name)) (lower (typeText theirs.type.name))
          then [] else [.columnType owner mine.name mine.type theirs.type]) ∧
      (mine.discrepancies d owner theirs = [] ↔ theirs.discrepancies d owner mine = []) ∧
      mine.discrepancies d owner { theirs with type := ⟨typeFamily d mine.type.name, length⟩ } =
        [] ∧
      Column.discrepancies d owner { theirs with type := ⟨typeFamily d mine.type.name, length⟩ }
        mine = [] := by
  refine ⟨typeFamily_typeFamily d name, ?_, ?_, ?_, ?_, ?_⟩
  · rw [typeFamily, typeFamily, bareTypeName_lower_typeText, bareTypeName_eq]
  · have hsame : typeFamily d mine.type.name = typeFamily d theirs.type.name ↔
        SameFamily d (lower (typeText mine.type.name)) (lower (typeText theirs.type.name)) := by
      rw [typeFamily, typeFamily, bareTypeName_eq, bareTypeName_eq, familyOf_eq_iff]
    rw [Column.discrepancies]
    simp only [beq_iff_eq, hsame]
  · rw [Column.discrepancies_eq_nil_iff, Column.discrepancies_eq_nil_iff, eq_comm]
  · exact Column.discrepancies_eq_nil_iff.2 (typeFamily_typeFamily d mine.type.name).symm
  · exact Column.discrepancies_eq_nil_iff.2 (typeFamily_typeFamily d mine.type.name)

end SqlCatalog
