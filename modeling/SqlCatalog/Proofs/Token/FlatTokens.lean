import SqlCatalog.Proofs.Token.GroupShapes

/-!
# Flat tokens

Flat tokens have no lists and no comments at any depth. Flattening keeps the leaves in their order
and inside the same identifiers, calls and parentheses, and there is one way only to put flat
tokens together from leaves: so flattening is the projection onto flat tokens that keeps these
landmarks. Tokens are flattened to the same tokens exactly if the ones become the others when
neighbours are made lists, comments are put between them, and such steps are undone.

## Main definitions

* `Level.Flat` says that no list and no comment stands on a level.
* `GroupKind` are the kinds of groups, `Landmark` is a leaf or a border of a group that is kept, and
  `Token.landmarksAll` are those of tokens from left to right.
* `putTogether` are the flat tokens with given landmarks.
* `Regrouped` says that tokens have one list more or one comment more, at some depth.

## Main statements

* `everywhere_flat_iff`: the flat tokens are those that flattening leaves as they are.
* `putTogether_landmarksAll`: flattened tokens are known from their landmarks.
* `regrouped_flatten`: any tokens come from flat ones by making lists and putting in comments.
* `flatten_projection`: what flattening does.
-/

namespace SqlCatalog

open Token

/-! ## Levels without lists and comments -/

/-- There are no lists and no comments on the level. -/
def Level.Flat (l : Level) : Prop :=
  ∀ t ∈ l.tokens, (∀ items, t ≠ .list items) ∧ ∀ raw, t ≠ .comment raw

/-- Whether a token is no list and no comment, and has none inside. -/
def Token.IsFlat (t : Token) : Prop :=
  ((∀ items, t ≠ .list items) ∧ ∀ raw, t ≠ .comment raw) ∧
    (Level.inside t).Everywhere Level.Flat

section Flat

variable {ts : List Token} {t : Token} {owner : Option Token}

/-- A level is flat at every depth exactly when each of its tokens is. -/
theorem everywhere_flat_iff_isFlat :
    (Level.mk owner ts).Everywhere Level.Flat ↔ ∀ t ∈ ts, t.IsFlat := by
  rw [Level.everywhere_iff, Level.Flat, ← forall₂_and]
  rfl

/-- A token other than a list or a comment is flat exactly when its parts are. -/
theorem isFlat_iff (hlist : ∀ items, t ≠ .list items) (hcomment : ∀ raw, t ≠ .comment raw) :
    t.IsFlat ↔ ∀ u ∈ t.children, u.IsFlat :=
  (and_iff_right ⟨hlist, hcomment⟩).trans everywhere_flat_iff_isFlat

mutual

/-- Flattening leaves no list and no comment, at any depth. -/
theorem isFlat_of_mem_flattenToken (t : Token) : ∀ u ∈ t.flattenToken, u.IsFlat := by
  cases t with
  | comment => simp [flattenToken]
  | list items => exact isFlat_of_mem_flatten items
  | identifier parts | call parts | paren parts =>
    have hparts := isFlat_of_mem_flatten parts
    exact List.forall_mem_singleton.2 ((isFlat_iff (by simp) (by simp)).2 hparts)
  | _ => exact List.forall_mem_singleton.2 ((isFlat_iff (by simp) (by simp)).2 (by simp [children]))

/-- Flattened tokens have no lists and no comments, and none inside. -/
theorem isFlat_of_mem_flatten (ts : List Token) : ∀ u ∈ flatten ts, u.IsFlat := by
  cases ts with
  | nil => simp [flatten]
  | cons t ts =>
    rw [flatten]
    exact List.forall_mem_append.2 ⟨isFlat_of_mem_flattenToken t, isFlat_of_mem_flatten ts⟩

end

mutual

/-- A flat token is its own flattening. -/
theorem flattenToken_of_isFlat {t : Token} (h : t.IsFlat) : t.flattenToken = [t] := by
  cases t with
  | comment raw => exact absurd rfl (h.1.2 raw)
  | list items => exact absurd rfl (h.1.1 items)
  | identifier parts | call parts | paren parts =>
    have hparts : flatten parts = parts :=
      flatten_of_isFlat ((isFlat_iff (by simp) (by simp)).1 h)
    rw [flattenToken, hparts]
  | _ => rfl

/-- Flat tokens are their own flattening. -/
theorem flatten_of_isFlat {ts : List Token} (h : ∀ t ∈ ts, t.IsFlat) : flatten ts = ts := by
  cases ts with
  | nil => rfl
  | cons t ts =>
    obtain ⟨ht, hts⟩ := List.forall_mem_cons.1 h
    rw [flatten, flattenToken_of_isFlat ht, flatten_of_isFlat hts, List.singleton_append]

end

/-- The flat tokens are those that flattening leaves as they are. -/
theorem everywhere_flat_iff :
    (Level.outermost ts).Everywhere Level.Flat ↔ flatten ts = ts := by
  refine everywhere_flat_iff_isFlat.trans ⟨flatten_of_isFlat, fun h => ?_⟩
  rw [← h]
  exact isFlat_of_mem_flatten ts

end Flat

/-! ## Landmarks -/

/-- The kinds of groups of tokens. -/
inductive GroupKind where
  | identifier
  | call
  | paren
  | list

/-- The group of a kind with the tokens inside it. -/
def GroupKind.token : GroupKind → List Token → Token
  | identifier => .identifier
  | call => .call
  | paren => .paren
  | list => .list

/-- What is met on the way through tokens: a leaf, or where a group begins or ends. -/
inductive Landmark where
  | leaf (t : Token)
  | opening (group : GroupKind)
  | closing

namespace Token

mutual

/-- The leaves in a token, without comments, with the borders of identifiers, calls and parentheses
around them. -/
def landmarks : Token → List Landmark
  | comment _ => []
  | list items => landmarksAll items
  | identifier parts => .opening .identifier :: (landmarksAll parts ++ [.closing])
  | call parts => .opening .call :: (landmarksAll parts ++ [.closing])
  | paren inner => .opening .paren :: (landmarksAll inner ++ [.closing])
  | t => [.leaf t]

/-- The leaves in tokens, with the borders of groups around them. -/
def landmarksAll : List Token → List Landmark
  | [] => []
  | t :: ts => landmarks t ++ landmarksAll ts

end

end Token

/-- The tokens with the given landmarks, where `level` are those already read and `outer` are the
groups around them that have not ended, with the tokens before each, last first. -/
def putTogether (level : List Token) (outer : List (GroupKind × List Token)) :
    List Landmark → List Token
  | [] => level.reverse
  | .leaf t :: ms => putTogether (t :: level) outer ms
  | .opening group :: ms => putTogether [] ((group, level) :: outer) ms
  | .closing :: ms =>
    match outer with
    | [] => level.reverse
    | (group, above) :: outer => putTogether (group.token level.reverse :: above) outer ms

section Landmarks

variable {ts us : List Token}

@[simp] theorem landmarksAll_append (ts us : List Token) :
    landmarksAll (ts ++ us) = landmarksAll ts ++ landmarksAll us := by
  induction ts with
  | nil => simp [landmarksAll]
  | cons t ts ih => rw [List.cons_append, landmarksAll, ih, landmarksAll, List.append_assoc]

mutual

/-- Flattening a token keeps what is met on the way through it. -/
theorem landmarksAll_flattenToken (t : Token) : landmarksAll t.flattenToken = t.landmarks := by
  cases t with
  | list items => exact landmarksAll_flatten items
  | identifier parts | call parts | paren parts =>
    simp [flattenToken, landmarksAll, landmarks, landmarksAll_flatten parts]
  | _ => simp [flattenToken, landmarksAll, landmarks]

/-- Flattening keeps the leaves and the groups around them. -/
theorem landmarksAll_flatten (ts : List Token) : landmarksAll (flatten ts) = landmarksAll ts := by
  cases ts with
  | nil => rfl
  | cons t ts =>
    rw [flatten, landmarksAll_append, landmarksAll_flattenToken t, landmarksAll_flatten ts,
      landmarksAll]

end

mutual

/-- The landmarks of a token put its flattening on the level that is being read. -/
theorem putTogether_landmarks_append (level : List Token)
    (outer : List (GroupKind × List Token)) (t : Token) (ms : List Landmark) :
    putTogether level outer (t.landmarks ++ ms) =
      putTogether (t.flattenToken.reverse ++ level) outer ms := by
  cases t with
  | list items => exact putTogether_landmarksAll_append level outer items ms
  | identifier parts | call parts | paren parts =>
    simp [landmarks, flattenToken, putTogether, putTogether_landmarksAll_append, GroupKind.token]
  | _ => simp [landmarks, flattenToken, putTogether]

/-- The landmarks of tokens put their flattening on the level that is being read. -/
theorem putTogether_landmarksAll_append (level : List Token)
    (outer : List (GroupKind × List Token)) (ts : List Token) (ms : List Landmark) :
    putTogether level outer (landmarksAll ts ++ ms) =
      putTogether ((flatten ts).reverse ++ level) outer ms := by
  cases ts with
  | nil => rfl
  | cons t ts =>
    rw [landmarksAll, List.append_assoc, putTogether_landmarks_append,
      putTogether_landmarksAll_append, flatten, List.reverse_append, List.append_assoc]

end

/-- Flattened tokens are put together from their landmarks. -/
theorem putTogether_landmarksAll (ts : List Token) :
    putTogether [] [] (landmarksAll ts) = flatten ts := by
  have hread := putTogether_landmarksAll_append [] [] ts []
  simpa [putTogether] using hread

/-- Tokens with the same landmarks are flattened to the same tokens. -/
theorem flatten_eq_iff : flatten ts = flatten us ↔ landmarksAll ts = landmarksAll us := by
  constructor
  · intro h
    rw [← landmarksAll_flatten ts, h, landmarksAll_flatten]
  · intro h
    rw [← putTogether_landmarksAll ts, h, putTogether_landmarksAll]

end Landmarks

/-! ## Making lists and putting in comments -/

/-- The second tokens are the first ones with a run of neighbours made a list or with a comment
more, at some depth. -/
inductive Regrouped : List Token → List Token → Prop
  | list (before run after : List Token) :
      Regrouped (before ++ (run ++ after)) (before ++ .list run :: after)
  | comment (before after : List Token) (raw : String) :
      Regrouped (before ++ after) (before ++ .comment raw :: after)
  | inside (before after : List Token) (group : GroupKind) {inner inner' : List Token}
      (h : Regrouped inner inner') :
      Regrouped (before ++ group.token inner :: after) (before ++ group.token inner' :: after)

section Regrouping

variable {ts us : List Token}

/-- Neither a list nor a comment is a landmark. -/
theorem Regrouped.landmarksAll_eq (h : Regrouped ts us) : landmarksAll ts = landmarksAll us := by
  induction h with
  | list | comment => simp [landmarksAll, landmarks]
  | inside before after group _ ih =>
    cases group <;> simp [GroupKind.token, landmarksAll, landmarks, ih]

/-- Steps inside a group are steps of the tokens around it. -/
theorem regrouped_group (before after : List Token) (group : GroupKind)
    (h : Relation.ReflTransGen Regrouped ts us) :
    Relation.ReflTransGen Regrouped (before ++ group.token ts :: after)
      (before ++ group.token us :: after) :=
  h.lift (fun inner => before ++ group.token inner :: after) fun _ _ => .inside before after group

mutual

/-- From the flattening of a token its lists and comments are put back step by step. -/
theorem regrouped_flattenToken (before : List Token) (t : Token) (after : List Token) :
    Relation.ReflTransGen Regrouped (before ++ (t.flattenToken ++ after))
      (before ++ t :: after) := by
  cases t with
  | comment raw => exact .single (.comment before after raw)
  | list items =>
    have hitems := regrouped_flatten_append before items after
    exact hitems.tail (.list before items after)
  | identifier parts => exact regrouped_group before after .identifier (regrouped_flatten parts)
  | call parts => exact regrouped_group before after .call (regrouped_flatten parts)
  | paren inner => exact regrouped_group before after .paren (regrouped_flatten inner)
  | _ => exact .refl

/-- From the flattening of tokens, with others around them, their lists and comments are put back
step by step. -/
theorem regrouped_flatten_append (before ts after : List Token) :
    Relation.ReflTransGen Regrouped (before ++ (flatten ts ++ after))
      (before ++ (ts ++ after)) := by
  cases ts with
  | nil => exact .refl
  | cons t ts =>
    -- the rest is regrouped behind `t`, when `t` is as it was
    have hfirst := regrouped_flattenToken before t (flatten ts ++ after)
    have hrest := regrouped_flatten_append (before ++ [t]) ts after
    rw [flatten, List.append_assoc]
    refine hfirst.trans ?_
    simpa using hrest

/-- Any tokens come from flat ones by making lists and putting in comments. -/
theorem regrouped_flatten (ts : List Token) :
    Relation.ReflTransGen Regrouped (flatten ts) ts := by
  simpa using regrouped_flatten_append [] ts []

end

/-- Tokens are flattened to the same tokens exactly if they differ in lists and comments only. -/
theorem eqvGen_regrouped_iff :
    Relation.EqvGen Regrouped ts us ↔ landmarksAll ts = landmarksAll us := by
  constructor
  · intro h
    induction h with
    | rel _ _ h => exact h.landmarksAll_eq
    | refl => rfl
    | symm _ _ _ ih => exact ih.symm
    | trans _ _ _ _ _ ih ih' => exact ih.trans ih'
  · intro h
    have hts := Relation.EqvGen.reflTransGen_le_eqvGen _ _ _ (regrouped_flatten ts)
    have hus := Relation.EqvGen.reflTransGen_le_eqvGen _ _ _ (regrouped_flatten us)
    rw [flatten_eq_iff.2 h] at hts
    exact (hts.symm _ _).trans _ _ _ hus

/-- Flattening makes tokens without lists and comments at any depth and keeps the leaves and the
identifiers, calls and parentheses around them, and it does not depend on anything else. -/
theorem flatten_projection (ts us : List Token) :
    (Level.outermost (flatten ts)).Everywhere Level.Flat ∧
      flatten (flatten ts) = flatten ts ∧
      flatten (ts ++ us) = flatten ts ++ flatten us ∧
      (flatten us = flatten ts ↔ Relation.EqvGen Regrouped ts us) ∧
      landmarksAll (flatten ts) = landmarksAll ts ∧
      (us = flatten ts ↔
        (Level.outermost us).Everywhere Level.Flat ∧ landmarksAll us = landmarksAll ts) := by
  have hflat : flatten (flatten ts) = flatten ts := everywhere_flat_iff.1
    (everywhere_flat_iff_isFlat.2 (isFlat_of_mem_flatten ts))
  refine ⟨everywhere_flat_iff.2 hflat, hflat, Phrase.flatten_append ts us, ?_,
    landmarksAll_flatten ts, ?_⟩
  · rw [eqvGen_regrouped_iff, flatten_eq_iff, eq_comm]
  · rw [everywhere_flat_iff, ← flatten_eq_iff]
    constructor
    · rintro rfl
      exact ⟨hflat, hflat⟩
    · rintro ⟨hus, heq⟩
      exact hus.symm.trans heq

end Regrouping

end SqlCatalog
