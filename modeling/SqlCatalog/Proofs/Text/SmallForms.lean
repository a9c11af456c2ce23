import Mathlib.Data.List.DropRight
import SqlCatalog.Proofs.Text.LowerCase

/-!
# Texts in lower case

Lower case leads from some characters to others, and where it leads it leads no further: a text in
lower case is its own lower case. White space and marks are neither changed nor made by it, so a
text can be cut at them before or after it is lowered. A sigma does not see the cut, since no cased
letter is met across white space or a parenthesis.

## Main definitions

* `IsSmallForm` says that lower case can make a character of another one.
* `lowerRanges` are the characters that lower case changes, with those that it makes of them.
* `TrimsTo` says what is left of characters without the white space around them.
* `takeUntil` is the part of a text before a mark.

## Main statements

* `IsSmallForm.lowerChar_eq`: small forms are their own small forms.
* `IsSmallForm.eq_or_has`: only characters of `lowerRanges` are changed, and made of others.
* `lower_lower`: lower case twice is lower case.
* `lower_trim`, `lower_takeUntil`: lower case of a part of a text.
-/

namespace SqlCatalog

/-! ## The runs of the lower-case mapping -/

/-- A valid code is the code of the character it gives. -/
theorem toNat_ofNat_of_isValidChar {n : Nat} (h : n.isValidChar) : (Char.ofNat n).toNat = n := by
  have hchar : Char.ofNat n = Char.ofNatAux n h := dif_pos h
  rw [hchar]
  rfl

/-- A run covers every `step`-th code from its first to its last. -/
theorem CaseRun.covers_iff {run : CaseRun} {n : Nat} : run.covers n = true ↔
    (run.first ≤ n ∧ n ≤ run.last) ∧ (n - run.first) % run.step = 0 := by
  simp [CaseRun.covers]

/-- The range that a run moves the characters of its own range to. -/
def CaseRun.target (run : CaseRun) : Nat × Nat :=
  ((run.first + run.shift).toNat, (run.last + run.shift).toNat)

/-- Whether two ranges have no code point in common. -/
def apart (a b : Nat × Nat) : Bool := Nat.blt a.2 b.1 || Nat.blt b.2 a.1

/-- Two ranges are apart when one ends before the other begins. -/
theorem apart_iff {a b : Nat × Nat} : apart a b = true ↔ a.2 < b.1 ∨ b.2 < a.1 := by
  simp [apart]

/-- Whether the other run moves no character to which this run leads: they are beyond its range, or
it moves every second character and these are between them. -/
def CaseRun.avoids (run other : CaseRun) : Bool :=
  apart run.target (other.first, other.last) ||
    other.step == 2 && (run.first == run.last || run.step == 2) &&
      Nat.ble other.first run.target.1 &&
      (run.target.1 - other.first) % 2 == 1

/-- The runs lead to code points of characters, and not to the capital i with a dot. -/
theorem lowerRuns_target : (lowerRuns.all fun run => apart run.target (0xD800, 0xDFFF) &&
    apart run.target (0x130, 0x130) && Nat.blt run.target.2 0x110000) = true := by
  decide +kernel

/-- The runs lead to no character that one of them moves. -/
theorem lowerRuns_avoid : (lowerRuns.all fun run => lowerRuns.all run.avoids) = true := by
  decide +kernel

/-- No run leads to ASCII, but for the one that moves the Kelvin sign. -/
theorem lowerRuns_beyond : ∀ run ∈ lowerRuns, 128 ≤ (run.first + run.shift).toNat ∨
    run.first = run.last ∧ Char.ofNat (run.first + run.shift).toNat = 'k' := by
  decide +kernel

section Runs

variable {run : CaseRun} (hrun : run ∈ lowerRuns) {c d : Char} (h : run.image? c = some d)
include hrun h

/-- A run moves a character by its shift. -/
theorem toNat_image? :
    run.covers c.toNat = true ∧ d.toNat = (c.toNat + run.shift).toNat := by
  have hvalid := List.all_eq_true.1 lowerRuns_target run hrun
  simp only [apart_iff, Bool.and_eq_true, Nat.blt_eq, CaseRun.target] at hvalid
  unfold CaseRun.image? at h
  split at h
  · rename_i hcovers
    obtain rfl := Option.some.inj h
    refine ⟨hcovers, ?_⟩
    rw [CaseRun.covers_iff] at hcovers
    refine toNat_ofNat_of_isValidChar ?_
    rw [Nat.isValidChar]
    omega
  · cases h

/-- The image of a character under a run lies in the run's target range. -/
theorem image?_mem_target : run.target.1 ≤ d.toNat ∧ d.toNat ≤ run.target.2 := by
  obtain ⟨hcovers, hd⟩ := toNat_image? hrun h
  rw [CaseRun.covers_iff] at hcovers
  rw [hd]
  simp only [CaseRun.target]
  omega

/-- What a run leads to is moved by none. -/
theorem covers_image? {other : CaseRun} (hother : other ∈ lowerRuns) :
    other.covers d.toNat = false := by
  have havoids := List.all_eq_true.1 (List.all_eq_true.1 lowerRuns_avoid run hrun) other hother
  obtain ⟨hcovers, hd⟩ := toNat_image? hrun h
  have hmem := image?_mem_target hrun h
  rw [Bool.eq_false_iff]
  intro hmoved
  rw [CaseRun.covers_iff] at hcovers hmoved
  simp only [CaseRun.avoids, apart_iff, Bool.and_eq_true, Bool.or_eq_true, Nat.ble_eq,
    beq_iff_eq, CaseRun.target] at havoids hmem
  rcases havoids with hbeyond | ⟨⟨⟨hstep, hone | htwo⟩, hfirst⟩, hodd⟩
  · omega
  -- the other run would move it an even number of places after its first character
  · rw [hstep] at hmoved
    omega
  · rw [hstep] at hmoved
    rw [htwo] at hcovers
    omega

/-- The only ASCII letter a run gives is `k`, the small form of the Kelvin sign. -/
theorem isAscii_image? : isAscii d = false ∨ d = 'k' := by
  obtain ⟨hcovers, hd⟩ := toNat_image? hrun h
  rw [CaseRun.covers_iff] at hcovers
  rcases lowerRuns_beyond run hrun with hfar | ⟨hone, hkelvin⟩
  · left
    rw [isAscii, decide_eq_false_iff_not]
    omega
  · right
    have hc : c.toNat = run.first := by omega
    rw [← Char.ofNat_toNat d, hd, hc, hkelvin]

/-- What a run gives is lower case already. -/
theorem lowerChar_image? : lowerChar d = [d] := by
  rcases isAscii_image? hrun h with hbeyond | rfl
  · have hnone : lowerRuns.findSome? (·.image? d) = none := by
      rw [List.findSome?_eq_none_iff]
      intro other hother
      rw [CaseRun.image?, covers_image? hrun h hother, if_neg Bool.false_ne_true]
    have hdot : (d == 'İ') = false := by
      rw [beq_eq_false_iff_ne]
      rintro rfl
      have htarget := List.all_eq_true.1 lowerRuns_target run hrun
      have hmem : _ ≤ 0x130 ∧ 0x130 ≤ _ := image?_mem_target hrun h
      simp only [apart_iff, Bool.and_eq_true] at htarget
      omega
    rw [lowerChar, hbeyond, hdot, hnone]
    rfl
  · rfl

end Runs

/-! ## Small forms -/

/-- The first character is a small form of the second one: itself, or where lower case leads. -/
inductive IsSmallForm : Char → Char → Prop
  | self {c : Char} (h : lowerChar c = [c]) : IsSmallForm c c
  | letter {c : Char} (h : c.isAlpha = true) : IsSmallForm c.toLower c
  | dotted {d : Char} (h : d ∈ ['i', '\u0307']) : IsSmallForm d 'İ'
  | run {run : CaseRun} {c d : Char} (hrun : run ∈ lowerRuns) (h : run.image? c = some d) :
      IsSmallForm d c
  /-- The sigma at the end of a word. -/
  | sigma : IsSmallForm 'ς' 'Σ'

section SmallForms

variable {before cs : List Char} {c d : Char}

/-- Every character of the lower-case form of `c` is a small form of `c`. -/
theorem isSmallForm_of_mem (h : d ∈ lowerChar c) : IsSmallForm d c := by
  by_cases hascii : isAscii c = true
  · have hlower : lowerChar c = [c.toLower] := by rw [lowerChar, if_pos hascii]
    rw [hlower] at h
    obtain rfl := List.mem_singleton.1 h
    cases halpha : c.isAlpha with
    | true => exact .letter halpha
    | false =>
      rw [toLower_of_not_isAlpha halpha] at hlower ⊢
      exact .self hlower
  · by_cases hdot : (c == 'İ') = true
    · obtain rfl := eq_of_beq hdot
      exact .dotted h
    · have hlower : lowerChar c = [(lowerRuns.findSome? (·.image? c)).getD c] := by
        rw [lowerChar, if_neg hascii, if_neg hdot]
      rw [hlower] at h
      obtain rfl := List.mem_singleton.1 h
      cases hfind : lowerRuns.findSome? (·.image? c) with
      | none =>
        rw [hfind] at hlower
        exact .self hlower
      | some d =>
        obtain ⟨run, hrun, himage⟩ := List.exists_of_findSome?_eq_some hfind
        exact .run hrun himage

theorem lowerChar_ne_nil (c : Char) : lowerChar c ≠ [] := by
  rw [lowerChar]
  split
  · exact List.cons_ne_nil _ _
  · split <;> exact List.cons_ne_nil _ _

/-- Lower-casing a text begins with the small forms of its first character, of which there is at
least one. -/
theorem lowerCharsFrom_cons (before : List Char) (c : Char) (cs : List Char) :
    ∃ forms, forms ≠ [] ∧ (∀ d ∈ forms, IsSmallForm d c) ∧
      lowerCharsFrom before (c :: cs) = forms ++ lowerCharsFrom (c :: before) cs := by
  rw [lowerCharsFrom]
  split
  · rename_i hsigma
    obtain rfl : c = 'Σ' := eq_of_beq (Bool.and_eq_true_iff.1 hsigma).1
    refine ⟨['ς'], List.cons_ne_nil _ _, fun d hd => ?_, rfl⟩
    obtain rfl := List.mem_singleton.1 hd
    exact .sigma
  · exact ⟨lowerChar c, lowerChar_ne_nil c, fun d => isSmallForm_of_mem, rfl⟩

/-- Every character of a lower-cased text is a small form of a character of the text. -/
theorem exists_isSmallForm (h : d ∈ lowerCharsFrom before cs) : ∃ c ∈ cs, IsSmallForm d c := by
  induction cs generalizing before with
  | nil => cases h
  | cons c cs ih =>
    obtain ⟨forms, -, hforms, hlower⟩ := lowerCharsFrom_cons before c cs
    rw [hlower] at h
    rcases List.mem_append.1 h with hd | hd
    · exact ⟨c, List.mem_cons_self, hforms d hd⟩
    · obtain ⟨c', hc', hform⟩ := ih hd
      exact ⟨c', List.mem_cons_of_mem c hc', hform⟩

/-- Small forms are their own small forms. -/
theorem IsSmallForm.lowerChar_eq (h : IsSmallForm d c) : lowerChar d = [d] := by
  cases h with
  | self h => exact h
  | letter h =>
    have hnat := toNat_of_isAlpha h
    have hascii : isAscii c = true := by
      rw [isAscii, decide_eq_true_eq]
      omega
    rw [lowerChar_toLower, lowerChar, if_pos hascii]
  | dotted h =>
    have hself : (['i', '\u0307'].all fun d => lowerChar d == [d]) = true := by decide +kernel
    exact eq_of_beq (List.all_eq_true.1 hself d h)
  | run hrun h => exact lowerChar_image? hrun h
  | sigma => decide +kernel

/-- The characters that lower case changes, and those that it makes of them. -/
def lowerRanges : CodeRanges :=
  [(0x41, 0x5A), (0x61, 0x7A), (0x130, 0x130), (0x307, 0x307), (0x3C2, 0x3C2)] ++
    lowerRuns.flatMap fun run => [(run.first, run.last), run.target]

theorem has_lowerRanges_of_isAlpha (h : c.isAlpha = true) : lowerRanges.has c = true := by
  rw [CodeRanges.has_iff]
  rcases toNat_of_isAlpha h with hcapital | hsmall
  · exact ⟨(0x41, 0x5A), by simp [lowerRanges], hcapital⟩
  · exact ⟨(0x61, 0x7A), by simp [lowerRanges], hsmall⟩

/-- The sources and the targets of every run are among the characters that lower-casing changes or
gives. -/
theorem has_lowerRanges_of_run {run : CaseRun} (hrun : run ∈ lowerRuns) {r : Nat × Nat}
    (hr : r ∈ [(run.first, run.last), run.target]) (h : r.1 ≤ c.toNat ∧ c.toNat ≤ r.2) :
    lowerRanges.has c = true :=
  CodeRanges.has_iff.2
    ⟨r, List.mem_append_right _ (List.mem_flatMap.2 ⟨run, hrun, hr⟩), h⟩

/-- Only characters of `lowerRanges` are changed, and made of others. -/
theorem IsSmallForm.eq_or_has (h : IsSmallForm d c) :
    d = c ∨ lowerRanges.has c = true ∧ lowerRanges.has d = true := by
  cases h with
  | self h => exact .inl rfl
  | letter h =>
    have hlower : c.toLower.isAlpha = true := by rw [isAlpha_toLower, h]
    exact .inr ⟨has_lowerRanges_of_isAlpha h, has_lowerRanges_of_isAlpha hlower⟩
  | dotted h =>
    have hboth : (['i', '\u0307'].all lowerRanges.has) = true := by decide +kernel
    exact .inr ⟨by decide +kernel, List.all_eq_true.1 hboth d h⟩
  | run hrun h =>
    obtain ⟨hcovers, -⟩ := toNat_image? hrun h
    have hfrom := (CaseRun.covers_iff.1 hcovers).1
    have hto := image?_mem_target hrun h
    exact .inr ⟨has_lowerRanges_of_run hrun List.mem_cons_self hfrom,
      has_lowerRanges_of_run hrun (List.mem_cons_of_mem _ List.mem_cons_self) hto⟩
  | sigma => decide +kernel

end SmallForms

/-! ## Characters that are their own small forms -/

/-- Characters that are their own small forms stay as they are. -/
theorem lowerCharsFrom_append_of_lowerChar {cs : List Char} (h : ∀ c ∈ cs, lowerChar c = [c])
    (before rest : List Char) :
    lowerCharsFrom before (cs ++ rest) = cs ++ lowerCharsFrom (cs.reverse ++ before) rest := by
  induction cs generalizing before with
  | nil => rfl
  | cons c cs ih =>
    obtain ⟨hc, hcs⟩ := List.forall_mem_cons.1 h
    have hsigma : (c == 'Σ') = false := by
      rw [beq_eq_false_iff_ne]
      rintro rfl
      exact absurd hc (by decide +kernel)
    rw [List.cons_append, lowerCharsFrom, hsigma, Bool.false_and, if_neg Bool.false_ne_true, hc,
      ih hcs]
    simp

/-- A text of characters that are their own lower case is its own lower case. -/
theorem lowerCharsFrom_eq_self {cs : List Char} (h : ∀ c ∈ cs, lowerChar c = [c])
    (before : List Char) : lowerCharsFrom before cs = cs := by
  have halone := lowerCharsFrom_append_of_lowerChar h before []
  rwa [List.append_nil, lowerCharsFrom, List.append_nil] at halone

/-- A text in lower case is its own lower case. -/
theorem lower_lower (s : String) : lower (lower s) = lower s := by
  have hsmall : ∀ d ∈ (lower s).toList, lowerChar d = [d] := by
    intro d hd
    rw [toList_lower] at hd
    obtain ⟨c, -, hform⟩ := exists_isSmallForm hd
    exact hform.lowerChar_eq
  rw [← String.toList_inj, toList_lower, lowerCharsFrom_eq_self hsmall]

section Untouched

variable {p : Char → Bool} (hp : ∀ c, p c = true → lowerRanges.has c = false) {c d : Char}
include hp

/-- A character is of a kind that lower case does not touch if its small forms are. -/
theorem IsSmallForm.apply_eq (h : IsSmallForm d c) : p d = p c := by
  have hnot {x : Char} (hx : lowerRanges.has x = true) : p x = false := by
    rw [Bool.eq_false_iff]
    intro hpx
    rw [hp x hpx] at hx
    cases hx
  rcases h.eq_or_has with rfl | ⟨hc, hd⟩
  · rfl
  · rw [hnot hc, hnot hd]

/-- A character outside the runs is its own lower case. -/
theorem lowerChar_of_untouched (h : p c = true) : lowerChar c = [c] := by
  obtain ⟨d, forms, hforms⟩ := List.exists_cons_of_ne_nil (lowerChar_ne_nil c)
  have hd : IsSmallForm d c := isSmallForm_of_mem (by simp [hforms])
  rcases hd.eq_or_has with rfl | ⟨hc, -⟩
  · exact hd.lowerChar_eq
  · rw [hp c h] at hc
    cases hc

end Untouched

/-- What lower case makes of a text ends with a small form of its last character. -/
theorem getLast?_lowerCharsFrom (before cs : List Char) (c : Char) :
    ∃ d, (lowerCharsFrom before (cs ++ [c])).getLast? = some d ∧ IsSmallForm d c := by
  induction cs generalizing before with
  | nil =>
    obtain ⟨forms, hne, hforms, hlower⟩ := lowerCharsFrom_cons before c []
    rw [lowerCharsFrom, List.append_nil] at hlower
    rw [List.nil_append, hlower]
    exact ⟨forms.getLast hne, List.getLast?_eq_getLast_of_ne_nil hne,
      hforms _ (List.getLast_mem hne)⟩
  | cons b cs ih =>
    obtain ⟨d, hlast, hform⟩ := ih (b :: before)
    refine ⟨d, ?_, hform⟩
    rw [List.cons_append, lowerCharsFrom, List.getLast?_append, hlast, Option.some_or]

/-! ## White space -/

/-- Sets of ranges that are apart have no character in common. -/
theorem CodeRanges.has_eq_false_of_apart {a b : CodeRanges}
    (h : (a.all fun r => b.all (apart r)) = true) {c : Char} (hc : a.has c = true) :
    b.has c = false := by
  rw [Bool.eq_false_iff, ne_eq, CodeRanges.has_iff]
  rintro ⟨r', hr', hle', hge'⟩
  obtain ⟨r, hr, hle, hge⟩ := CodeRanges.has_iff.1 hc
  have hapart := List.all_eq_true.1 (List.all_eq_true.1 h r hr) r' hr'
  rw [apart_iff] at hapart
  omega

theorem isBlank_untouched (c : Char) (h : isBlank c = true) : lowerRanges.has c = false :=
  CodeRanges.has_eq_false_of_apart (by decide +kernel) h

/-- No cased letter is met across white space. -/
theorem meetsCased_of_isBlank {cs : List Char} (h : ∀ c ∈ cs, isBlank c = true) :
    meetsCased cs = false := by
  cases cs with
  | nil => rfl
  | cons c cs =>
    have hc : isBlank c = true := h c List.mem_cons_self
    have hpassed : caseIgnorableRanges.has c = false :=
      CodeRanges.has_eq_false_of_apart (by decide +kernel) hc
    rw [meetsCased, List.dropWhile_cons_of_neg (by simp [hpassed])]
    exact CodeRanges.has_eq_false_of_apart (by decide +kernel) hc

/-- The characters `core` with white space around them, and none at their own ends. -/
def TrimsTo (cs core : List Char) : Prop :=
  ∃ front back, cs = front ++ (core ++ back) ∧
    (∀ c ∈ front, isBlank c = true) ∧ (∀ c ∈ back, isBlank c = true) ∧
    (∀ c ∈ core.head?, isBlank c = false) ∧ ∀ c ∈ core.getLast?, isBlank c = false

/-- Nothing is dropped from a text that begins with no white space. -/
theorem dropWhile_of_head? {cs : List Char} (h : ∀ c ∈ cs.head?, isBlank c = false) :
    cs.dropWhile isBlank = cs := by
  cases cs with
  | nil => rfl
  | cons c cs => exact List.dropWhile_cons_of_neg (by simpa using h)

/-- What is left after dropping white space begins with none. -/
theorem head?_dropWhile_isBlank (cs : List Char) :
    ∀ c ∈ (cs.dropWhile isBlank).head?, isBlank c = false := by
  intro c hc
  have hhead := List.head?_dropWhile_not isBlank cs
  rwa [Option.mem_def.1 hc] at hhead

/-- What `TrimsTo` describes is what dropping the white space at the two ends does. -/
theorem trimsTo_iff {cs core : List Char} :
    TrimsTo cs core ↔ trimEndChars (cs.dropWhile isBlank) = core := by
  constructor
  · rintro ⟨front, back, rfl, hfront, hback, hfirst, hlast⟩
    have hend : trimEndChars (core ++ back) = core := by
      rw [trimEndChars, List.reverse_append, List.dropWhile_append_of_pos (by simpa using hback),
        dropWhile_of_head? (by simpa using hlast), List.reverse_reverse]
    rw [List.dropWhile_append_of_pos hfront]
    cases core with
    | nil =>
      rw [List.nil_append, List.dropWhile_eq_nil_iff.2 hback]
      rfl
    | cons c core => rwa [dropWhile_of_head? (by simpa using hfirst)]
  · rintro rfl
    let rest := cs.dropWhile isBlank
    have hrest : trimEndChars rest ++ rest.rtakeWhile isBlank = rest :=
      List.rdropWhile_append_rtakeWhile
    refine ⟨cs.takeWhile isBlank, rest.rtakeWhile isBlank, ?_, fun c => List.mem_takeWhile_imp,
      fun c => List.mem_rtakeWhile_imp, fun c hc => ?_, fun c hc => ?_⟩
    · rw [hrest, List.takeWhile_append_dropWhile]
    · refine head?_dropWhile_isBlank cs c ?_
      have hfirst : (trimEndChars rest ++ rest.rtakeWhile isBlank).head? = some c := by
        rw [List.head?_append, Option.mem_def.1 hc, Option.some_or]
      rwa [hrest] at hfirst
    · refine head?_dropWhile_isBlank rest.reverse c ?_
      rwa [trimEndChars, List.getLast?_reverse] at hc

/-- A text trims to the one text that has no white space at its ends and differs from it in
nothing else. -/
theorem trim_eq_iff {s t : String} : trim s = t ↔ TrimsTo s.toList t.toList := by
  rw [trimsTo_iff, ← String.toList_inj, trim, String.toList_ofList]

/-- Trimming twice is trimming once. -/
theorem trim_trim (s : String) : trim (trim s) = trim s := by
  obtain ⟨front, back, -, -, -, hfirst, hlast⟩ := trim_eq_iff.1 (rfl : trim s = trim s)
  exact trim_eq_iff.2 ⟨[], [], by simp, by simp, by simp, hfirst, hlast⟩

/-! ## Parts of texts -/

/-- White space around a text stays as it is, and nothing else becomes white space. -/
theorem TrimsTo.lowerCharsFrom {cs core : List Char} (h : TrimsTo cs core) :
    TrimsTo (lowerCharsFrom [] cs) (lowerCharsFrom [] core) := by
  obtain ⟨front, back, rfl, hfront, hback, hfirst, hlast⟩ := h
  have hkept {blanks : List Char} (h : ∀ c ∈ blanks, isBlank c = true) :
      ∀ c ∈ blanks, lowerChar c = [c] :=
    fun c hc => lowerChar_of_untouched isBlank_untouched (h c hc)
  refine ⟨front, back, ?_, hfront, hback, ?_, ?_⟩
  · have hforgotten : meetsCased front.reverse = false :=
      meetsCased_of_isBlank (by simpa using hfront)
    have hcore := lowerCharsFrom_append_before hforgotten [] (core ++ back)
    rw [List.nil_append] at hcore
    rw [lowerCharsFrom_append_of_lowerChar (hkept hfront), List.append_nil, hcore,
      lowerCharsFrom_append_of_meetsCased (meetsCased_of_isBlank hback),
      lowerCharsFrom_eq_self (hkept hback)]
  · cases core with
    | nil => simp [SqlCatalog.lowerCharsFrom]
    | cons c core =>
      obtain ⟨forms, hne, hforms, hlower⟩ := lowerCharsFrom_cons [] c core
      obtain ⟨d, forms, rfl⟩ := List.exists_cons_of_ne_nil hne
      have hd := (hforms d List.mem_cons_self).apply_eq isBlank_untouched
      rw [hlower]
      simpa [hd] using hfirst
  · rcases List.eq_nil_or_concat' core with rfl | ⟨core, c, rfl⟩
    · simp [SqlCatalog.lowerCharsFrom]
    · obtain ⟨d, hlower, hform⟩ := getLast?_lowerCharsFrom [] core c
      have hd := hform.apply_eq isBlank_untouched
      rw [hlower]
      simpa [hd] using hlast

/-- White space around a text can be removed before or after the text is lowered. -/
theorem lower_trim (s : String) : lower (trim s) = trim (lower s) := by
  have htrims := (trim_eq_iff.1 (rfl : trim s = trim s)).lowerCharsFrom
  rw [← toList_lower, ← toList_lower] at htrims
  exact (trim_eq_iff.2 htrims).symm

/-- The text before the first character `mark`. -/
def takeUntil (mark : Char) (s : String) : String :=
  String.ofList (s.toList.takeWhile (· != mark))

/-- What stands before the first mark holds no mark. -/
theorem not_mem_takeUntil (mark : Char) (s : String) : mark ∉ (takeUntil mark s).toList := by
  intro h
  rw [takeUntil, String.toList_ofList] at h
  simpa using List.mem_takeWhile_imp h

/-- A text without the mark is taken whole. -/
theorem takeUntil_eq_self {mark : Char} {s : String} (h : mark ∉ s.toList) :
    takeUntil mark s = s := by
  rw [takeUntil, List.takeWhile_eq_self_iff.2 fun c hc => ?_, String.ofList_toList]
  rw [bne_iff_ne]
  rintro rfl
  exact h hc

/-- A text is cut at a border before or after it is lowered. -/
theorem lower_takeUntil {mark : Char} (hborder : isBorder mark = true)
    (htouched : lowerRanges.has mark = false) (s : String) :
    lower (takeUntil mark s) = takeUntil mark (lower s) := by
  have huntouched : ∀ c, (c == mark) = true → lowerRanges.has c = false := by
    intro c hc
    rwa [eq_of_beq hc]
  have hnone {cs : List Char} (h : ∀ c ∈ cs, (c != mark) = true) (before : List Char) :
      ∀ d ∈ lowerCharsFrom before cs, (d != mark) = true := by
    intro d hd
    obtain ⟨c, hc, hform⟩ := exists_isSmallForm hd
    rw [bne, hform.apply_eq huntouched]
    exact h c hc
  rw [← String.toList_inj, toList_lower, takeUntil, takeUntil, String.toList_ofList,
    String.toList_ofList, toList_lower]
  have hcut := List.takeWhile_append_dropWhile (p := (· != mark)) (l := s.toList)
  have hbefore : ∀ c ∈ s.toList.takeWhile (· != mark), (c != mark) = true :=
    fun c => List.mem_takeWhile_imp
  cases hrest : s.toList.dropWhile (· != mark) with
  | nil =>
    rw [hrest, List.append_nil] at hcut
    rw [hcut] at hbefore ⊢
    exact (List.takeWhile_eq_self_iff.2 (hnone hbefore [])).symm
  | cons c rest =>
    have hc := List.head?_dropWhile_not (· != mark) s.toList
    rw [hrest] at hc hcut
    obtain rfl : c = mark := by simpa using hc
    conv_rhs => rw [← hcut]
    rw [lowerCharsFrom_append_border hborder, List.takeWhile_append_of_pos (hnone hbefore [])]
    simp

end SqlCatalog
