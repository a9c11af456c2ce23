import SqlCatalog.Definition.Literal

/-!
# Reading column types

A type is a word with an optional length in parentheses after it, or one of a few spellings of
several words: `double precision`, `character varying`, and `time` or `timestamp` with or without
time zone. The name of such a type is its words as they are written, with single spaces.

## Main definitions

* `readTypeLength` reads the arguments of a type.
* `readTypeWords` reads the words after the first one.
* `readColumnType` reads a type.

## Main statements

* `length_of_readColumnType`: what is left is shorter than what was given.
-/

namespace SqlCatalog

/-- Reads the arguments of a type, which are one number. -/
def readTypeLength : List Token → Compile UInt32
  | [.integer raw] =>
    match readUInt32? raw with
    | some n => .ok n
    | none => .error (.invalidLiteral .typeLength raw)
  | ts => violated "type length" ts.head?

/-- Reads the given word. -/
def readWord (word : String) : List Token → Compile (List Token)
  | [] => violated word none
  | t :: ts => if t.isWord word then .ok ts else violated word (some t)

/-- Reads the first word of a type, with its arguments if it is written as a call. -/
def readTypeHead (t : Token) : Compile (String × Option UInt32) :=
  match t with
  | .call parts => do
    let (name, arguments) ← readCall "column type" t parts
    let length ← readTypeLength arguments
    return (name, some length)
  | .identifier _ | .name _ =>
    match t.name? with
    | some name => .ok (name, none)
    | none => violated "column type" (some t)
  | _ => violated "column type" (some t)

/-- Reads the words that go on with a type whose first word was read. -/
def readTypeWords (type : String × Option UInt32) (ts : List Token) :
    Compile ((String × Option UInt32) × List Token) :=
  match lower type.1, ts with
  | "double", t :: rest =>
    if t.isWord "precision" then .ok ((s!"{type.1} {t.text}", type.2), rest) else .ok (type, ts)
  | "character", t :: rest =>
    match t with
    | .call parts =>
      match (Token.callParts? parts).filter fun call => sameIgnoringAsciiCase call.1 "varying" with
      | some (word, arguments) => do
        let length ← readTypeLength arguments
        return ((s!"{type.1} {word}", some length), rest)
      | none => violated "varying" (some t)
    | _ =>
      if t.isWord "varying" then .ok ((s!"{type.1} {t.text}", type.2), rest) else .ok (type, ts)
  | "timestamp", t :: rest | "time", t :: rest =>
    if t.isWord "with" || t.isWord "without" then do
      let rest ← readWord "time" rest
      let rest ← readWord "zone" rest
      return ((s!"{type.1} {t.text} time zone", type.2), rest)
    else .ok (type, ts)
  | _, _ => .ok (type, ts)

/-- Reads the length after the words of a type, unless the type has one already. -/
def readLengthAfter (length : Option UInt32) (ts : List Token) :
    Compile (Option UInt32 × List Token) :=
  match length, ts with
  | none, .paren arguments :: rest => do
    let n ← readTypeLength arguments
    return (some n, rest)
  | _, _ => .ok (length, ts)

/-- Reads the type of a column. -/
def readColumnType : List Token → Compile (ColumnType × List Token)
  | [] => violated "column type" none
  | t :: ts => do
    let head ← readTypeHead t
    let (type, rest) ← readTypeWords head ts
    let (length, rest) ← readLengthAfter type.2 rest
    if isKnownType type.1 then return (⟨type.1, length⟩, rest)
    else violated "column type" (some t)

/-! ## What is left is shorter -/

/-- A fixed word of a type takes one token. -/
theorem length_of_readWord {word : String} {ts rest : List Token}
    (h : readWord word ts = .ok rest) : rest.length < ts.length := by
  unfold readWord at h
  split at h
  · simp [violated] at h
  · split at h
    · simp only [Except.ok.injEq] at h
      simp [h]
    · simp [violated] at h

/-- The second word of a type may be missing, so what is left may be just as long. -/
theorem length_of_readTypeWords {type : String × Option UInt32} {ts : List Token}
    {r : (String × Option UInt32) × List Token} (h : readTypeWords type ts = .ok r) :
    r.2.length ≤ ts.length := by
  unfold readTypeWords at h
  split at h
  · split at h <;> simp only [Except.ok.injEq] at h <;> subst h <;> simp
  · split at h
    · split at h
      · obtain ⟨n, -, h⟩ := bind_eq_ok.1 h
        obtain rfl := Except.ok.inj h
        simp
      · simp [violated] at h
    · split at h <;> simp only [Except.ok.injEq] at h <;> subst h <;> simp
  · split at h
    · obtain ⟨afterTime, ht, h⟩ := bind_eq_ok.1 h
      obtain ⟨afterZone, hz, h⟩ := bind_eq_ok.1 h
      have := length_of_readWord ht
      have := length_of_readWord hz
      obtain rfl := Except.ok.inj h
      simp only [List.length_cons]
      omega
    · obtain rfl := Except.ok.inj h
      simp
  · split at h
    · obtain ⟨afterTime, ht, h⟩ := bind_eq_ok.1 h
      obtain ⟨afterZone, hz, h⟩ := bind_eq_ok.1 h
      have := length_of_readWord ht
      have := length_of_readWord hz
      obtain rfl := Except.ok.inj h
      simp only [List.length_cons]
      omega
    · obtain rfl := Except.ok.inj h
      simp
  · obtain rfl := Except.ok.inj h
    simp

theorem length_of_readLengthAfter {length : Option UInt32} {ts : List Token}
    {r : Option UInt32 × List Token} (h : readLengthAfter length ts = .ok r) :
    r.2.length ≤ ts.length := by
  unfold readLengthAfter at h
  split at h
  · obtain ⟨n, -, h⟩ := bind_eq_ok.1 h
    obtain rfl := Except.ok.inj h
    simp
  · obtain rfl := Except.ok.inj h
    simp

/-- A type takes at least one token. -/
theorem length_of_readColumnType {ts : List Token} {r : ColumnType × List Token}
    (h : readColumnType ts = .ok r) : r.2.length < ts.length := by
  unfold readColumnType at h
  split at h
  · simp [violated] at h
  · obtain ⟨head, -, h⟩ := bind_eq_ok.1 h
    obtain ⟨⟨type, afterWords⟩, hw, h⟩ := bind_eq_ok.1 h
    obtain ⟨⟨length, rest⟩, hl, h⟩ := bind_eq_ok.1 h
    have hw := length_of_readTypeWords hw
    have hl := length_of_readLengthAfter hl
    dsimp only at h
    split at h
    · obtain rfl := Except.ok.inj h
      simp only [List.length_cons] at hw hl ⊢
      omega
    · simp [violated] at h

end SqlCatalog
