import Mathlib.Data.List.Induction
import Mathlib.Data.List.Nodup
import Mathlib.Data.List.Perm.Basic
import Mathlib.Data.String.Basic
import SqlCatalog.Proofs.Catalog.Growth
import SqlCatalog.Query.Assignments

/-!
# Lists in the order of names

Things are put into a list one by one, each at the place of its name and instead of what had the
name before. The list that comes out has each name once, in increasing order, with the last thing
that was given the name. Such a list is determined by what is in it, so that it is the same for
all orders of things with different names.

## Main definitions

* `LastGiven` says that a thing is the last one with its key in a list.
* `OrderedByName` says that the names of a list increase.

## Main statements

* `orderedByName_sortByName`: sorting orders by name.
* `mem_sortByName`: sorting keeps of each name what was given last.
* `sortByName_perm`: things with different names are sorted alike in any order.
-/

namespace SqlCatalog

/-! ## The last of a key -/

/-- The thing is the last one with its key in the list. -/
def LastGiven {α κ : Type} (key : α → κ) (items : List α) (a : α) : Prop :=
  ∃ before after, items = before ++ a :: after ∧ ∀ b ∈ after, key b ≠ key a

namespace LastGiven

variable {α κ : Type} {key : α → κ} {items : List α} {a b : α}

theorem mem (h : LastGiven key items a) : a ∈ items := by
  obtain ⟨before, after, rfl, -⟩ := h
  exact List.mem_append_right before List.mem_cons_self

/-- A thing that follows is the last of its key, and the others stay so unless they have its
key. -/
theorem concat_iff :
    LastGiven key (items ++ [b]) a ↔ a = b ∨ LastGiven key items a ∧ key b ≠ key a := by
  constructor
  · rintro ⟨before, after, hitems, hafter⟩
    rcases List.eq_nil_or_concat after with rfl | ⟨after, c, rfl⟩
    · obtain ⟨-, hlast⟩ := List.append_inj' hitems rfl
      exact .inl (List.cons.inj hlast).1.symm
    · rw [List.concat_eq_append] at hitems hafter
      rw [← List.cons_append, ← List.append_assoc] at hitems
      obtain ⟨rfl, hlast⟩ := List.append_inj' hitems rfl
      obtain rfl := (List.cons.inj hlast).1
      refine .inr ⟨⟨before, after, rfl, ?_⟩, hafter b (mem_concat.2 (.inr rfl))⟩
      intro c hc
      exact hafter c (mem_concat.2 (.inl hc))
  · rintro (rfl | ⟨⟨before, after, rfl, hafter⟩, hkey⟩)
    · exact ⟨items, [], rfl, by simp⟩
    · refine ⟨before, after ++ [b], by simp, ?_⟩
      intro c hc
      rcases mem_concat.1 hc with hc | rfl
      · exact hafter c hc
      · exact hkey

/-- Something is the last with the key of a thing in the list. -/
theorem exists_of_mem (key : α → κ) (h : a ∈ items) :
    ∃ b, LastGiven key items b ∧ key b = key a := by
  induction items using List.reverseRecOn with
  | nil => cases h
  | append_singleton items c ih =>
    by_cases hkey : key c = key a
    · exact ⟨c, concat_iff.2 (.inl rfl), hkey⟩
    · rcases mem_concat.1 h with h | rfl
      · obtain ⟨b, hb, hba⟩ := ih h
        exact ⟨b, concat_iff.2 (.inr ⟨hb, hba ▸ hkey⟩), hba⟩
      · exact absurd rfl hkey

/-- Where all keys are different, everything is the last with its key. -/
theorem iff_mem_of_nodup (h : (items.map key).Nodup) : LastGiven key items a ↔ a ∈ items := by
  refine ⟨mem, fun ha => ?_⟩
  obtain ⟨b, hb, hba⟩ := exists_of_mem key ha
  rwa [← List.inj_on_of_nodup_map h hb.mem ha hba]

/-- The last things of a list that is mapped come from the last things of the list. -/
theorem map_iff {β : Type} {f : β → α} {items : List β} :
    LastGiven key (items.map f) a ↔ ∃ b, LastGiven (key ∘ f) items b ∧ f b = a := by
  induction items using List.reverseRecOn with
  | nil => simp [LastGiven]
  | append_singleton items c ih =>
    rw [List.map_append, List.map_singleton, concat_iff, ih]
    constructor
    · rintro (rfl | ⟨⟨b, hb, rfl⟩, hkey⟩)
      · exact ⟨c, concat_iff.2 (.inl rfl), rfl⟩
      · exact ⟨b, concat_iff.2 (.inr ⟨hb, hkey⟩), rfl⟩
    · rintro ⟨b, hb, rfl⟩
      rcases concat_iff.1 hb with rfl | ⟨hb, hkey⟩
      · exact .inl rfl
      · exact .inr ⟨⟨b, hb, rfl⟩, hkey⟩

/-- Keys that tell the same things apart have the same last things. -/
theorem congr_key {κ' : Type} {key' : α → κ'}
    (h : ∀ b ∈ items, ∀ c ∈ items, key b = key c ↔ key' b = key' c) :
    LastGiven key items a ↔ LastGiven key' items a := by
  constructor
  all_goals
    rintro ⟨before, after, rfl, hafter⟩
    refine ⟨before, after, rfl, fun b hb => ?_⟩
    have hsame := h b (by simp [hb]) a (by simp)
  · exact fun hkey => hafter b hb (hsame.2 hkey)
  · exact fun hkey => hafter b hb (hsame.1 hkey)

end LastGiven

/-! ## Ordered lists -/

/-- The names increase, so that no name occurs twice. Texts are ordered by the code points of their
characters. -/
def OrderedByName {α : Type} (items : List (String × α)) : Prop :=
  items.Pairwise fun x y => x.1 < y.1

section ByName

variable {α : Type} {name : String} {a : α} {x y : String × α} {items others : List (String × α)}

theorem mem_of_mem_putByName (h : x ∈ putByName name a items) : x = (name, a) ∨ x ∈ items := by
  induction items with
  | nil => exact .inl (List.mem_singleton.1 h)
  | cons z items ih =>
    obtain ⟨other, b⟩ := z
    rw [putByName] at h
    split at h
    · rcases List.mem_cons.1 h with rfl | h
      · exact .inl rfl
      · exact .inr (List.mem_cons_of_mem _ h)
    split at h
    · exact List.mem_cons.1 h
    · rcases List.mem_cons.1 h with rfl | h
      · exact .inr List.mem_cons_self
      · exact (ih h).imp id (List.mem_cons_of_mem _)

/-- Putting an item among ordered ones keeps them ordered. -/
theorem OrderedByName.putByName (h : OrderedByName items) :
    OrderedByName (putByName name a items) := by
  induction items with
  | nil => exact List.pairwise_singleton _ _
  | cons z items ih =>
    obtain ⟨other, b⟩ := z
    obtain ⟨hfirst, hrest⟩ := List.pairwise_cons.1 h
    rw [SqlCatalog.putByName]
    split
    · rename_i heq
      obtain rfl : name = other := by simpa using heq
      exact List.pairwise_cons.2 ⟨hfirst, hrest⟩
    rename_i hne
    split
    · rename_i hlt
      refine List.pairwise_cons.2 ⟨?_, h⟩
      intro y hy
      rcases List.mem_cons.1 hy with rfl | hy
      · exact hlt
      · exact lt_trans hlt (hfirst y hy)
    · rename_i hlt
      refine List.pairwise_cons.2 ⟨?_, ih hrest⟩
      intro y hy
      rcases mem_of_mem_putByName hy with rfl | hy
      · have hother : other ≠ name := fun heq => hne (beq_iff_eq.2 heq.symm)
        exact lt_of_le_of_ne (not_lt.1 hlt) hother
      · exact hfirst y hy

/-- What is put into an ordered list takes the place of what had its name, if anything had. -/
theorem OrderedByName.mem_putByName (h : OrderedByName items) :
    x ∈ SqlCatalog.putByName name a items ↔ x = (name, a) ∨ x ∈ items ∧ name ≠ x.1 := by
  induction items with
  | nil => simp [SqlCatalog.putByName]
  | cons z items ih =>
    obtain ⟨other, b⟩ := z
    obtain ⟨hfirst, hrest⟩ := List.pairwise_cons.1 h
    -- The name is not among those that follow a name that is not smaller.
    have hlater (hle : name ≤ other) (hx : x ∈ items) : name ≠ x.1 :=
      ne_of_lt (lt_of_le_of_lt hle (hfirst x hx))
    rw [SqlCatalog.putByName]
    split
    · rename_i heq
      obtain rfl : name = other := by simpa using heq
      rw [List.mem_cons, List.mem_cons]
      constructor
      · exact Or.imp id fun hx => ⟨.inr hx, hlater le_rfl hx⟩
      · rintro (rfl | ⟨rfl | hx, hne⟩)
        · exact .inl rfl
        · exact absurd rfl hne
        · exact .inr hx
    rename_i hne
    split
    · rename_i hlt
      rw [List.mem_cons]
      refine or_congr_right ⟨fun hx => ⟨hx, ?_⟩, And.left⟩
      rcases List.mem_cons.1 hx with rfl | hx
      · exact ne_of_lt hlt
      · exact hlater (le_of_lt hlt) hx
    · rw [List.mem_cons, List.mem_cons, ih hrest]
      have hother : name ≠ other := fun heq => hne (beq_iff_eq.2 heq)
      constructor
      · rintro (rfl | rfl | ⟨hx, hname⟩)
        · exact .inr ⟨.inl rfl, hother⟩
        · exact .inl rfl
        · exact .inr ⟨.inr hx, hname⟩
      · rintro (rfl | ⟨rfl | hx, hname⟩)
        · exact .inr (.inl rfl)
        · exact .inl rfl
        · exact .inr (.inr ⟨hx, hname⟩)

/-- Sorting takes the items one after the other, so that the last of a name stays. -/
theorem sortByName_concat : sortByName (items ++ [y]) = putByName y.1 y.2 (sortByName items) := by
  simp [sortByName, List.foldl_append]

/-- Sorting orders by name. -/
theorem orderedByName_sortByName (items : List (String × α)) :
    OrderedByName (sortByName items) := by
  induction items using List.reverseRecOn with
  | nil => exact List.Pairwise.nil
  | append_singleton items y ih =>
    rw [sortByName_concat]
    exact ih.putByName

/-- Sorting keeps of each name what was given last. -/
theorem mem_sortByName : x ∈ sortByName items ↔ LastGiven Prod.fst items x := by
  induction items using List.reverseRecOn with
  | nil => simp [sortByName, LastGiven]
  | append_singleton items y ih =>
    rw [sortByName_concat, (orderedByName_sortByName items).mem_putByName, LastGiven.concat_iff, ih]

/-- Ordered items are distinct. -/
theorem OrderedByName.nodup (h : OrderedByName items) : items.Nodup :=
  h.imp fun hlt heq => absurd (heq ▸ hlt) (lt_irrefl _)

/-- Ordered lists of the same things are the same. -/
theorem OrderedByName.eq_of_mem_iff (h : OrderedByName items) (hothers : OrderedByName others)
    (hmem : ∀ x, x ∈ items ↔ x ∈ others) : items = others := by
  have hperm := (List.perm_ext_iff_of_nodup h.nodup hothers.nodup).2 hmem
  refine hperm.eq_of_pairwise (fun x y _ _ hxy hyx => ?_) h hothers
  exact absurd (lt_trans hxy hyx) (lt_irrefl _)

/-- Things with different names are sorted alike in any order. -/
theorem sortByName_perm (hperm : items.Perm others) (hnames : (items.map Prod.fst).Nodup) :
    sortByName items = sortByName others := by
  refine (orderedByName_sortByName items).eq_of_mem_iff (orderedByName_sortByName others) ?_
  intro x
  rw [mem_sortByName, mem_sortByName, LastGiven.iff_mem_of_nodup hnames,
    LastGiven.iff_mem_of_nodup ((hperm.map Prod.fst).nodup_iff.1 hnames), hperm.mem_iff]

end ByName

end SqlCatalog
