import Mathlib.Data.List.Forall2
import Mathlib.Data.List.Perm.Basic

/-!
# Lists and results

Facts about lists that have nothing to do with schemas: lists that are longer by one, that are
changed at a place, that are put together with separators or that are related member by member, and
what comes of a step that is taken for all members and can fail.

## Main statements

* `getElem?_concat_cases`, `mem_modify`: what is in a list after a change.
* `append_inj_of_head`: where a list is cut.
* `exists_perm_of_forall₂`, `exists_prefix_of_forall₂`: related lists in another order and cut off.
* `mapM_eq_error`: what is done for all of a list fails where it fails first.
-/

namespace SqlCatalog

/-! ## Lists that are longer by one -/

section Concat

variable {α : Type} {l : List α} {a b : α}

/-- In a list that is longer by one are its old members and the new one. -/
theorem mem_concat : b ∈ l ++ [a] ↔ b ∈ l ∨ b = a := by simp

/-- At a place of a list that is longer by one is what was there, or the new member at the end. -/
theorem getElem?_concat_cases {i : Nat} (h : (l ++ [a])[i]? = some b) :
    l[i]? = some b ∨ i = l.length ∧ b = a := by
  rcases Nat.lt_or_ge i l.length with hi | hi
  · rw [List.getElem?_append_left hi] at h
    exact .inl h
  · rw [List.getElem?_append_right hi, List.getElem?_singleton] at h
    split at h
    · exact .inr ⟨by omega, (Option.some.inj h).symm⟩
    · cases h

/-- One more thing, if there is one, leaves a list with one member at most if the list had none. -/
theorem length_append_toList_le_one {o : Option α} :
    (l ++ o.toList).length ≤ 1 ↔ l.length ≤ 1 ∧ (o.isSome = true → l.head? = none) := by
  cases o with
  | none => simp
  | some a => cases l <;> simp

end Concat

/-! ## Lists that are changed at a place -/

section Modify

variable {α β : Type} {l : List α} {i : Nat}

/-- The last of several things is the one that is changed at its place. -/
theorem modify_concat (l : List α) (a : α) (f : α → α) :
    (l ++ [a]).modify l.length f = l ++ [f a] := by
  rw [List.modify_eq_take_drop]
  simp

/-- What is in a list with one thing changed was there before or is that thing. -/
theorem mem_modify {f : α → α} {a : α} (h : a ∈ l.modify i f) : ∃ b ∈ l, a = b ∨ a = f b := by
  obtain ⟨j, hj⟩ := List.mem_iff_getElem?.1 h
  rw [List.getElem?_modify] at hj
  obtain ⟨b, hb, rfl⟩ := Option.map_eq_some_iff.1 hj
  refine ⟨b, List.mem_of_getElem? hb, ?_⟩
  by_cases hij : i = j
  · exact .inr (if_pos hij)
  · exact .inl (if_neg hij)

/-- A list is changed at a place before or after all of it is changed. -/
theorem modify_map {f : α → β} {g : β → β} {h : α → α} (hf : ∀ a, g (f a) = f (h a)) (l : List α)
    (i : Nat) : (l.map f).modify i g = (l.modify i h).map f := by
  refine List.ext_getElem? fun j => ?_
  simp only [List.getElem?_modify, List.getElem?_map]
  by_cases hij : i = j <;> simp [hij, Function.comp_def, hf]

/-- What a list is mapped to says what each of its members is mapped to. -/
theorem getElem?_of_map_eq {f : α → β} {m : List β} (h : l.map f = m) (hi : i < l.length) :
    m[i]? = some (f (l.get ⟨i, hi⟩)) := by
  subst h
  simp [hi]

end Modify

/-! ## Where a list is cut -/

section Cuts

variable {α : Type} {p : α → Bool} {a a' b b' : List α}

/-- What is taken while `p` holds ends where `p` does not hold. -/
theorem span_append (ha : ∀ x ∈ a, p x = true) (hb : ∀ x ∈ b.head?, p x = false) :
    (a ++ b).takeWhile p = a ∧ (a ++ b).dropWhile p = b := by
  rw [List.takeWhile_append_of_pos ha, List.dropWhile_append_of_pos ha]
  cases b with
  | nil => simp
  | cons x b => simp [hb x rfl]

/-- A list is cut at the first thing of a kind in one place only. -/
theorem append_inj_of_head (h : a ++ b = a' ++ b') (ha : ∀ x ∈ a, p x = false)
    (ha' : ∀ x ∈ a', p x = false) (hb : ∀ x ∈ b.head?, p x = true)
    (hb' : ∀ x ∈ b'.head?, p x = true) : a = a' ∧ b = b' := by
  have htake {a b : List α} (ha : ∀ x ∈ a, p x = false) (hb : ∀ x ∈ b.head?, p x = true) :
      (a ++ b).takeWhile (!p ·) = a :=
    (span_append (by simpa using ha) (by simpa using hb)).1
  obtain rfl : a = a' := by rw [← htake ha hb, h, htake ha' hb']
  exact ⟨rfl, List.append_cancel_left h⟩

/-- A list has no separator, or a first one. -/
theorem exists_first_separator (p : α → Bool) (l : List α) :
    ∃ first, (∀ a ∈ first, p a = false) ∧
      (l = first ∨ ∃ sep rest, p sep = true ∧ l = first ++ sep :: rest) := by
  induction l with
  | nil => exact ⟨[], by simp⟩
  | cons a l ih =>
    cases ha : p a with
    | true => exact ⟨[], by simp, .inr ⟨a, l, ha, rfl⟩⟩
    | false =>
      obtain ⟨first, hfirst, hl⟩ := ih
      refine ⟨a :: first, List.forall_mem_cons.2 ⟨ha, hfirst⟩, ?_⟩
      rcases hl with rfl | ⟨sep, rest, hsep, rfl⟩
      · exact .inl rfl
      · exact .inr ⟨sep, rest, hsep, rfl⟩

end Cuts

/-! ## Lists with separators -/

section Separators

variable {α : Type}

/-- Lists with separators between them are the first one, and each other one after a separator. -/
theorem intercalate_cons_flatMap (sep l : List α) (ls : List (List α)) :
    sep.intercalate (l :: ls) = l ++ ls.flatMap fun m => sep ++ m := by
  induction ls generalizing l with
  | nil => simp
  | cons m ls ih => rw [List.intercalate_cons_cons, ih, List.flatMap_cons, List.append_assoc,
      List.append_assoc]

/-- The parts of a list between separators are made of its members. -/
theorem subset_of_mem_splitOn [BEq α] [LawfulBEq α] {sep : α} {l part : List α}
    (h : part ∈ l.splitOn sep) : part ⊆ l := by
  have hjoined : [sep].intercalate (l.splitOn sep) = l := List.intercalate_splitOn sep
  obtain ⟨first, parts, hparts⟩ := List.exists_cons_of_ne_nil (List.splitOn_ne_nil sep l)
  rw [hparts, intercalate_cons_flatMap] at hjoined
  rw [hparts] at h
  rw [← hjoined]
  rcases List.mem_cons.1 h with rfl | h
  · exact List.subset_append_left _ _
  · intro a ha
    exact List.mem_append_right _ (List.mem_flatMap.2 ⟨part, h, List.mem_cons_of_mem sep ha⟩)

/-- One more member of a list stands after one more separator. -/
theorem intersperse_concat {sep x : α} {xs : List α} (h : xs ≠ []) :
    (xs ++ [x]).intersperse sep = xs.intersperse sep ++ [sep, x] := by
  induction xs with
  | nil => exact absurd rfl h
  | cons y xs ih =>
    cases xs with
    | nil => rfl
    | cons z xs =>
      have hrest := ih (List.cons_ne_nil z xs)
      rw [List.cons_append, List.cons_append, List.intersperse_cons_cons, ← List.cons_append, hrest]
      rfl

/-- In a list with separators are its members and separators. -/
theorem eq_or_mem_of_mem_intersperse {sep x : α} {xs : List α} (h : x ∈ xs.intersperse sep) :
    x = sep ∨ x ∈ xs := by
  induction xs with
  | nil => cases h
  | cons y xs ih =>
    cases xs with
    | nil => exact .inr h
    | cons z xs =>
      rw [List.intersperse_cons_cons, List.mem_cons, List.mem_cons] at h
      rcases h with rfl | rfl | h
      · exact .inr List.mem_cons_self
      · exact .inl rfl
      · exact (ih h).imp_right (List.mem_cons_of_mem y)

end Separators

/-! ## Related lists -/

section Related

variable {α β : Type}

/-- Lists are mapped to the same by a function that does not tell related members apart. -/
theorem mapIdx_eq_of_forall₂ {R : α → α → Prop} {f : Nat → α → β} {as as' : List α}
    (hf : ∀ i a b, R a b → f i a = f i b) (h : List.Forall₂ R as as') :
    as.mapIdx f = as'.mapIdx f := by
  induction h generalizing f with
  | nil => rfl
  | cons hab _ ih =>
    rw [List.mapIdx_cons, List.mapIdx_cons, hf 0 _ _ hab, ih fun i => hf (i + 1)]

/-- What is in the second of two related lists is related to something in the first. -/
theorem exists_of_mem_of_forall₂ {R : α → β → Prop} {as : List α} {bs : List β} {b : β}
    (h : List.Forall₂ R as bs) (hb : b ∈ bs) : ∃ a ∈ as, R a b := by
  induction h with
  | nil => cases hb
  | cons hab _ ih =>
    rcases List.mem_cons.1 hb with rfl | hb
    · exact ⟨_, List.mem_cons_self, hab⟩
    · obtain ⟨a, ha, hab⟩ := ih hb
      exact ⟨a, List.mem_cons_of_mem _ ha, hab⟩

/-- What is related along a list is related along its prefixes. -/
theorem exists_prefix_of_forall₂ {R : α → α → Prop} {as bs before : List α} {b : α}
    (h : List.Forall₂ R as bs) (hbs : before ++ [b] <+: bs) :
    ∃ before' a, before' ++ [a] <+: as ∧
      List.Forall₂ R (before' ++ [a]) (before ++ [b]) ∧ R a b := by
  obtain ⟨rest, rfl⟩ := hbs
  have htake := List.forall₂_take_append as (before ++ [b]) rest h
  have hlast := List.forall₂_drop_append _ before [b] htake
  have hbefores := List.take_prefix (before ++ [b]).length as
  obtain ⟨a, _, hab, hnil, hdrop⟩ := List.forall₂_cons_right_iff.1 hlast
  obtain rfl := List.forall₂_nil_right_iff.1 hnil
  rw [← List.take_append_drop before.length (as.take _), hdrop] at htake hbefores
  exact ⟨_, a, hbefores, htake, hab⟩

/-- What is related to a list is related, in another order, to the list in another order. -/
theorem exists_perm_of_forall₂ {R : α → β → Prop} {as : List α} {bs bs' : List β}
    (h : List.Forall₂ R as bs) (hperm : bs.Perm bs') :
    ∃ as', as.Perm as' ∧ List.Forall₂ R as' bs' := by
  obtain ⟨as', h', hperm'⟩ := List.perm_comp_forall₂ hperm.symm h.flip
  exact ⟨as', hperm'.symm, h'.flip⟩

end Related

/-! ## Steps that can fail -/

section Results

variable {ε α β : Type}

/-- The result of a step that can fail, as an option. -/
theorem toOption_eq_some {x : Except ε α} {a : α} : x.toOption = some a ↔ x = .ok a := by
  cases x <;> simp [Except.toOption]

/-- A result that is there and of which `p` holds is a success. -/
theorem exists_eq_ok_of_any {x : Except ε α} {p : α → Bool} (h : x.toOption.any p = true) :
    ∃ a, x = .ok a ∧ p a = true := by
  cases x with
  | error e => cases h
  | ok a => exact ⟨a, rfl, h⟩

/-- Look-ups that all find something find what remains when the others are dropped. -/
theorem mapM_eq_some_filterMap {f g : α → Option β} {l : List α}
    (h : ∀ a ∈ l, f a = g a ∧ (g a).isSome) : l.mapM f = some (l.filterMap g) := by
  induction l with
  | nil => rfl
  | cons a l ih =>
    obtain ⟨ha, hsome⟩ := h a List.mem_cons_self
    obtain ⟨b, hb⟩ := Option.isSome_iff_exists.1 hsome
    have hrest := ih fun c hc => h c (List.mem_cons_of_mem _ hc)
    simp [List.mapM_cons, ha, hb, hrest]

/-- A look-up that succeeds everywhere gives the list of what it finds. -/
theorem mapM_eq_some_map {f : α → Option β} {g : α → β} {l : List α}
    (h : ∀ a ∈ l, f a = some (g a)) : l.mapM f = some (l.map g) := by
  rw [mapM_eq_some_filterMap fun a ha => ⟨h a ha, rfl⟩, List.filterMap_eq_map']

variable {f : α → Except ε β} {l : List α} {a : α} {e : ε}

/-- What is done for all of a list succeeds when it does for the first and for the others. -/
theorem mapM_cons_eq_ok {r : List β} : (a :: l).mapM f = .ok r ↔
    ∃ b bs, f a = .ok b ∧ l.mapM f = .ok bs ∧ b :: bs = r := by
  rw [List.mapM_cons]
  cases f a with
  | error e => simp [bind, Except.bind]
  | ok b => cases l.mapM f <;> simp [bind, Except.bind, pure, Except.pure]

/-- It fails when it fails for the first, or for the others after a success for the first. -/
theorem mapM_cons_eq_error : (a :: l).mapM f = .error e ↔
    f a = .error e ∨ (∃ b, f a = .ok b) ∧ l.mapM f = .error e := by
  rw [List.mapM_cons]
  cases f a with
  | error e' => simp [bind, Except.bind]
  | ok b => cases l.mapM f <;> simp [bind, Except.bind, pure, Except.pure]

/-- What is done for all of a list fails with the failure of the first for which it fails. -/
theorem mapM_eq_error : l.mapM f = .error e ↔
    ∃ before a after, l = before ++ a :: after ∧ (∀ b ∈ before, ∃ c, f b = .ok c) ∧
      f a = .error e := by
  induction l with
  | nil => simp [pure, Except.pure]
  | cons a l ih =>
    rw [mapM_cons_eq_error, ih]
    constructor
    · rintro (hfirst | ⟨hfirst, before, b, after, rfl, hbefore, hb⟩)
      · exact ⟨[], a, l, rfl, by simp, hfirst⟩
      · exact ⟨a :: before, b, after, rfl, List.forall_mem_cons.2 ⟨hfirst, hbefore⟩, hb⟩
    · rintro ⟨before, b, after, hl, hbefore, hb⟩
      rcases before with _ | ⟨c, before⟩
      · obtain ⟨rfl, rfl⟩ := List.cons.inj hl
        exact .inl hb
      · obtain ⟨rfl, rfl⟩ := List.cons.inj hl
        rw [List.forall_mem_cons] at hbefore
        exact .inr ⟨hbefore.1, before, b, after, rfl, hbefore.2, hb⟩

end Results

end SqlCatalog
