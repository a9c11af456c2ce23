import SqlCatalog.Text.CellTables

/-!
# The width of a text on a terminal

A terminal gives most characters one cell, East Asian characters and emoji two, and combining
marks none. Some sequences take less than their parts: a carriage return with its line feed,
ligatures of several scripts, and emoji built from several characters. Which of these a
character takes part in is decided by what stands to its right, so a text is measured from its
end to its beginning, and the context is the right-hand neighbour as far as it matters.

## Main definitions

* `RightContext` is what a character has to its right.
* `measureChar` gives the cells a character adds before such a context, and the new context.
* `cellWidth` adds up the cells of a text.
* `padRight` fills a text with spaces up to a width.
-/

namespace SqlCatalog

/-! ## Contexts -/

/-- The neighbour to the right, as far as it can change the width of what stands before it. -/
inductive RightNeighbour where
  | plain
  | lineFeed
  /-- A skin tone, which joins the emoji before it. -/
  | skinTone
  | emoji
  /-- A regional letter; `several` if it is not the only one. -/
  | region (several : Bool)
  /-- An emoji with a joiner before it. -/
  | joinedEmoji
  /-- A keycap mark before a joined emoji. -/
  | joinedKeycap
  /-- Regional letters before a joined emoji, one, or from two on an even or odd number. -/
  | joinedRegion
  | joinedRegions (even : Bool)
  /-- The last tags of a flag before a joined emoji: digits, then letters, then the end. -/
  | joinedTags (digits letters : Nat)
  | alef
  | lamed (joined : Bool)
  | bugineseYa (joined : Bool)
  | bugineseVowelYa
  | tifinagh (joined : Bool)
  | tifinaghJoiner
  | lisuTone
  | orkhonI (joined : Bool)
  | khmerLetter
  /-- The Kirat Rai vowel signs that compose with the sign before them. -/
  | kiratVowelE
  | kiratVowelAi
deriving DecidableEq

/-- A variation selector asks for a form of the character before it: emoji, text, or full width. -/
inductive VariantSelector where
  | emoji
  | text
  | fullWidth
deriving DecidableEq

/-- The selector that a character is, if it is one. -/
def VariantSelector.of? (c : Char) : Option VariantSelector :=
  if c == '\ufe0f' then some .emoji
  else if c == '\ufe0e' then some .text
  else if c == '\ufe01' then some .fullWidth
  else none

/-- What a character has to its right: a neighbour, and the selectors that apply to the
character. -/
structure RightContext where
  neighbour : RightNeighbour
  selectors : List VariantSelector
deriving DecidableEq

namespace RightNeighbour

/-- The neighbour that a joiner between it and the next letter leaves, for the scripts in which
default-ignorable marks do not break a ligature; `none` for all other neighbours. -/
def throughJoiner? : RightNeighbour → Option RightNeighbour
  | lamed _ => some (lamed true)
  | bugineseYa _ => some (bugineseYa true)
  | tifinagh _ => some (tifinagh true)
  | orkhonI _ => some (orkhonI true)
  | bugineseVowelYa => some bugineseVowelYa
  | tifinaghJoiner => some tifinaghJoiner
  | lisuTone => some lisuTone
  | khmerLetter => some khmerLetter
  | _ => none

/-- Whether a letter can join the neighbour although a variation selector stands between them. -/
def ligates (n : RightNeighbour) : Bool := n == alef || n.throughJoiner?.isSome

/-- Whether the neighbour is part of an emoji that goes on to the left through a joiner. -/
def isJoined (n : RightNeighbour) : Bool := n == joinedEmoji || n == joinedKeycap

/-- The context with no selector. -/
def context (n : RightNeighbour) : RightContext := ⟨n, []⟩

end RightNeighbour

namespace RightContext

/-- The context after a selector. Selectors add up before a neighbour that can still be joined
across them. Elsewhere the last one read counts alone, and the neighbour is out of reach, unless
it is a joined emoji and the selector asks for an emoji. -/
def select (right : RightContext) (s : VariantSelector) : RightContext :=
  if right.neighbour.ligates then ⟨right.neighbour, s :: right.selectors⟩
  else if s == .emoji && right.neighbour.isJoined then ⟨right.neighbour, [s]⟩
  else ⟨.plain, [s]⟩

/-- The context for a character that has no emoji form: the selector that asks for one is void. -/
def withoutEmoji (right : RightContext) : RightContext :=
  if !right.selectors.contains .emoji then right
  else if right.neighbour.ligates then ⟨right.neighbour, right.selectors.filter (· != .emoji)⟩
  else RightNeighbour.plain.context

end RightContext

/-! ## Characters -/

/-- Whether `c` lies between the code points `first` and `last`. -/
def isBetween (first last : Nat) (c : Char) : Bool := first ≤ c.toNat && c.toNat ≤ last

/-- The letters of flags. -/
def isRegionalLetter : Char → Bool := isBetween 0x1F1E6 0x1F1FF

/-- The five skin tones. -/
def isSkinTone : Char → Bool := isBetween 0x1F3FB 0x1F3FF

/-- The quotation marks that have a form of full width. -/
def isWidenedQuote (c : Char) : Bool :=
  c == '\u2018' || c == '\u2019' || c == '\u201c' || c == '\u201d'

/-- The letters of the tags that name the region of a flag. -/
def isTagLetter : Char → Bool := isBetween 0xE0061 0xE007A

/-- The digits of the tags that name the region of a flag. -/
def isTagDigit : Char → Bool := isBetween 0xE0030 0xE0039

/-- The Arabic letters of the joining group of lam. -/
def isLam (c : Char) : Bool :=
  CodeRanges.has [(0x644, 0x644), (0x6B5, 0x6B8), (0x76A, 0x76A), (0x8A6, 0x8A6), (0x8C7, 0x8C7)] c

/-- The Arabic letters of the joining group of alef. -/
def isAlef (c : Char) : Bool :=
  CodeRanges.has [(0x622, 0x623), (0x625, 0x625), (0x627, 0x627), (0x671, 0x673), (0x675, 0x675),
    (0x773, 0x774), (0x870, 0x882)] c

/-- The Tifinagh letters that join in pairs. -/
def isTifinaghConsonant (c : Char) : Bool := CodeRanges.has [(0x2D31, 0x2D65), (0x2D6F, 0x2D6F)] c

/-- The Khmer letters that take their place under another after a coeng sign. -/
def isKhmerLetter (c : Char) : Bool :=
  CodeRanges.has [(0x1780, 0x1782), (0x1784, 0x1787), (0x1789, 0x178C), (0x178E, 0x1793),
    (0x1795, 0x1798), (0x179B, 0x179D), (0x17A0, 0x17A0), (0x17A2, 0x17A2), (0x17A7, 0x17A7),
    (0x17AB, 0x17AC), (0x17AF, 0x17AF)] c

/-- The default-ignorable marks, which do not break a ligature. -/
def isIgnorableMark (c : Char) : Bool :=
  CodeRanges.has [(0x34F, 0x34F), (0x17B4, 0x17B5), (0x180B, 0x180D), (0x180F, 0x180F),
    (0xFE00, 0xFE0F), (0xE0100, 0xE01EF)] c

/-- Whether a selector can turn `c` into an emoji of two cells. -/
def hasEmojiForm (c : Char) : Bool :=
  textDefaultEmojiRanges.has c || textVariantRanges.has c ||
    CodeRanges.has [(0x1F21A, 0x1F21A), (0x1F22F, 0x1F22F)] c

/-- Whether `c` takes no cell of its own. -/
def isZeroWidth (c : Char) : Bool := joinTransparentRanges.has c || joinBlockingRanges.has c

/-! ## Measuring -/

/-- The cells of a character whose right-hand neighbour does not matter, and the neighbour it is
for the character before it. -/
def measureAlone (c : Char) : Int × RightNeighbour :=
  if isRegionalLetter c then (1, .region false)
  else if isSkinTone c then (2, .skinTone)
  else if emojiRanges.has c then (2, .emoji)
  else if isAlef c then (1, .alef)
  else if c == '\u05dc' then (1, .lamed false)
  else if c == '\u1a10' then (1, .bugineseYa false)
  else if isTifinaghConsonant c then (1, .tifinagh false)
  else if isBetween 0xA4FC 0xA4FD c then (1, .lisuTone)
  else if c.toNat == 0x10C03 then (1, .orkhonI false)
  else if isKhmerLetter c then (1, .khmerLetter)
  else if c.toNat == 0x16D67 then (1, .kiratVowelE)
  else if c.toNat == 0x16D68 then (1, .kiratVowelAi)
  else if c == '\u17d8' then (3, .plain)
  else if c == '\u17a4' then (2, .plain)
  else if isZeroWidth c then (0, .plain)
  else if wideRanges.has c then (2, .plain)
  else (1, .plain)

/-- The cells that `c` adds when it forms a unit with its neighbour. A negative number takes back
cells that the unit was given when its right part was measured. -/
def measureJoined? (c : Char) : RightNeighbour → Option (Int × RightNeighbour)
  | .alef =>
    if isLam c then some (0, .plain)
    else if joinTransparentRanges.has c then some (0, .alef) else none
  | .lamed true => if c == '\u05d0' then some (0, .plain) else none
  | .khmerLetter => if c == '\u17d2' then some (-1, .plain) else none
  | .bugineseYa true => if c == '\u1a17' then some (0, .bugineseVowelYa) else none
  | .bugineseVowelYa => if c == '\u1a15' then some (0, .plain) else none
  | .tifinagh joined =>
    if c == '\u2d7f' then some (1, .tifinaghJoiner)
    else if joined && isTifinaghConsonant c then some (0, .plain) else none
  | .tifinaghJoiner => if isTifinaghConsonant c then some (-1, .plain) else none
  | .lisuTone => if isBetween 0xA4F8 0xA4FB c then some (0, .plain) else none
  | .orkhonI true => if c.toNat == 0x10C32 then some (0, .plain) else none
  | .skinTone =>
    if emojiModifierBaseRanges.has c then some (0, .emoji)
    else if c == '\u200d' then some (0, .joinedEmoji) else none
  | .emoji => if c == '\u200d' then some (0, .joinedEmoji) else none
  | .region several =>
    if isRegionalLetter c then some (1, .region true)
    else if several && c == '\u200d' then some (0, .joinedEmoji) else none
  | .joinedEmoji =>
    if c == '\u20e3' then some (0, .joinedKeycap)
    else if isRegionalLetter c then some (1, .joinedRegion)
    else if isSkinTone c then some (0, .skinTone)
    else if c.toNat == 0xE007F then some (0, .joinedTags 0 0)
    else if emojiRanges.has c then some (0, .emoji) else none
  | .joinedTags digits letters =>
    if isTagLetter c && digits == 0 && letters < 6 then some (0, .joinedTags 0 (letters + 1))
    else if isTagDigit c && digits < 3 && letters ≤ 4 then
      some (0, .joinedTags (digits + 1) letters)
    else if c.toNat == 0x1F3F4 && (digits == 3 || (digits == 0 && 3 ≤ letters)) then
      some (0, .emoji)
    else none
  | .kiratVowelE =>
    if c.toNat == 0x16D63 || c.toNat == 0x16D69 then some (0, .plain)
    else if c.toNat == 0x16D67 then some (0, .kiratVowelAi)
    else if c.toNat == 0x16D68 then some (1, .kiratVowelE) else none
  | .kiratVowelAi => if c.toNat == 0x16D63 then some (0, .plain) else none
  | .joinedRegion => if isRegionalLetter c then some (-1, .joinedRegions true) else none
  | .joinedRegions even =>
    if isRegionalLetter c then
      some (if even then (3, .joinedRegions false) else (-1, .joinedRegions true))
    else if c == '\u200d' then some (0, .joinedEmoji) else none
  | _ => none

/-- The cells that `c` adds before a neighbour, and the neighbour it leaves to its left. -/
def measureBefore (c : Char) (right : RightNeighbour) : Int × RightNeighbour :=
  match right.throughJoiner? with
  | some joined =>
    if c == '\u200d' then (0, joined)
    else if isIgnorableMark c then (0, right)
    else (measureJoined? c right).getD (measureAlone c)
  | none => (measureJoined? c right).getD (measureAlone c)

/-- The cells that `c` adds to the text to its right, and the context it leaves to its left. -/
def measureChar (c : Char) (right : RightContext) : Int × RightContext :=
  if right.selectors.contains .emoji && hasEmojiForm c then
    (if right.neighbour.isJoined then 0 else 2, RightNeighbour.emoji.context)
  else
    let near := right.withoutEmoji
    if c ≤ '\u00a0' then
      if c == '\n' then (1, RightNeighbour.lineFeed.context)
      else if c == '\r' && near.neighbour == .lineFeed then (0, RightNeighbour.plain.context)
      else (1, RightNeighbour.plain.context)
    else
      match VariantSelector.of? c with
      | some s => (0, near.select s)
      | none =>
        if near.selectors.contains .text && textVariantRanges.has c then
          (1, RightNeighbour.plain.context)
        else if near.selectors.contains .fullWidth && isWidenedQuote c then
          (2, RightNeighbour.plain.context)
        else
          let m := measureBefore c near.neighbour
          (m.1, m.2.context)

/-- The number of cells a text takes on a terminal. -/
def cellWidth (s : String) : Nat :=
  (s.toList.foldr
    (fun c acc => let m := measureChar c acc.2; (acc.1 + m.1, m.2))
    ((0 : Int), RightNeighbour.plain.context)).1.toNat

/-- The text followed by as many spaces as it lacks to `width` cells. -/
def padRight (s : String) (width : Nat) : String :=
  s ++ String.ofList (List.replicate (width - cellWidth s) ' ')

end SqlCatalog
