import LetLang.Proofs.Text.Classes
import Mathlib.Data.List.TakeDrop

/-!
# Cutting a text into its longest pieces

What the pieces of a source text are, said without a way to find them. A piece of one of six sorts
fits the place where it stands if its text is of its sort (`Piece.Fits`): a blank, a comment up to
the end of its line, a word, a number, an operator, or digits with a point that no digit follows. Of
all that fit at one place, the longest is the piece (`Piece.Heads`); where nothing fits, the next
character is a stray one. A text is split when it is cut in this way from its start to its end
(`IsSplit`).

No character starts pieces of two sorts, numbers and malformed numbers aside, and of these one is
longer than the other. So there is one split of a text, and it is the one that `pieces` finds
(`isSplit_iff`).
-/

set_option autoImplicit false

namespace LetLang

open Text

namespace Piece

/-! ### What fits -/

/-- One or more digits. -/
def AreDigits (text : List Char) : Prop := text ≠ [] ∧ ∀ c ∈ text, isDigit c = true

/-- The text of a number: digits, perhaps with a point and further digits. -/
inductive IsNumber : List Char → Prop
  | whole {digits : List Char} (hdigits : AreDigits digits) : IsNumber digits
  | fractional {digits fraction : List Char} (hdigits : AreDigits digits)
      (hfraction : AreDigits fraction) : IsNumber (digits ++ '.' :: fraction)

/-- A piece that is no stray character fits before a text. -/
inductive Fits : Piece → List Char → Prop
  | blank {c : Char} {rest : List Char} (hblank : isBlank c = true) : Fits (blank c) rest
  | comment {body rest : List Char} (hbody : '\n' ∉ body)
      (hrest : ∀ c, rest.head? = some c → c = '\n') : Fits (comment ('#' :: body)) rest
  | word {c : Char} {more rest : List Char} (hstart : startsWord c = true)
      (hmore : ∀ d ∈ more, continuesWord d = true) : Fits (word (c :: more)) rest
  | number {text rest : List Char} (htext : IsNumber text) : Fits (number text) rest
  | operator {kind : TokenKind} {text rest : List Char}
      (hkind : (String.ofList text, kind) ∈ operators) : Fits (operator kind text) rest
  | malformedNumber {digits rest : List Char} (hdigits : AreDigits digits)
      (hrest : ∀ c, rest.head? = some c → isDigit c = false) :
      Fits (malformedNumber (digits ++ ['.'])) rest

/-- A piece is the one that stands before a text: the longest that fits there, or a stray character
where nothing fits. -/
inductive Heads : Piece → List Char → Prop
  | longest {piece : Piece} {rest : List Char} (hfits : Fits piece rest)
      (hlongest : ∀ other more, Fits other more → other.text ++ more = piece.text ++ rest →
        other.text.length ≤ piece.text.length) : Heads piece rest
  | stray {c : Char} {rest : List Char}
      (hnone : ∀ other more, Fits other more → other.text ++ more ≠ c :: rest) :
      Heads (stray c) rest

end Piece

/-- A text is split into pieces, each the one that stands before the rest of the text. -/
inductive IsSplit : List Char → List Piece → Prop
  | nil : IsSplit [] []
  | cons {piece : Piece} {rest : List Char} {split : List Piece} (hpiece : piece.Heads rest)
      (hrest : IsSplit rest split) : IsSplit (piece.text ++ rest) (piece :: split)

/-! ### Runs of characters -/

section Runs

variable {test : Char → Bool} {front rest : List Char}

theorem of_mem_takeWhile {c : Char} (hc : c ∈ rest.takeWhile test) : test c = true :=
  List.all_eq_true.mp List.all_takeWhile c hc

theorem not_of_head?_dropWhile {c : Char} (hc : (rest.dropWhile test).head? = some c) :
    test c = false := by
  have hstop := List.head?_dropWhile_not test rest
  rw [hc] at hstop
  exact hstop

/-- Characters that pass a test are part of the run of such characters. -/
theorem length_le_takeWhile (hfront : ∀ c ∈ front, test c = true) :
    front.length ≤ ((front ++ rest).takeWhile test).length := by
  rw [List.takeWhile_append_of_pos hfront, List.length_append]
  exact Nat.le_add_right _ _

/-- A run ends where a character fails the test. -/
theorem span_of_stop (hfront : ∀ c ∈ front, test c = true)
    (hstop : ∀ c, rest.head? = some c → test c = false) :
    (front ++ rest).takeWhile test = front ∧ (front ++ rest).dropWhile test = rest := by
  rw [List.takeWhile_append_of_pos hfront, List.dropWhile_append_of_pos hfront]
  cases rest with
  | nil => simp
  | cons c rest => simp [hstop c rfl]

/-- The part of a run that is as long as the run is the run. -/
theorem eq_takeWhile_of_length (hfront : ∀ c ∈ front, test c = true)
    (hlength : front.length = ((front ++ rest).takeWhile test).length) :
    front = (front ++ rest).takeWhile test := by
  rw [List.takeWhile_append_of_pos hfront] at hlength ⊢
  rw [List.length_append] at hlength
  rw [List.length_eq_zero_iff.mp (by omega : (rest.takeWhile test).length = 0), List.append_nil]

end Runs

/-! ### The first character tells the sort -/

theorem operatorKind?_eq_some_iff {text : String} {kind : TokenKind} :
    operatorKind? text = some kind ↔ (text, kind) ∈ operators := by
  constructor
  · intro hkind
    obtain ⟨before, behind, htable, -⟩ := List.lookup_eq_some_iff.mp hkind
    rw [htable]
    exact List.mem_append_right before List.mem_cons_self
  · intro hmem
    have hlookup : ∀ entry ∈ operators, operatorKind? entry.1 = some entry.2 := by decide +kernel
    exact hlookup _ hmem

namespace Piece

variable {c : Char} {rest : List Char}

theorem first_of_isBlank (hblank : isBlank c = true) : first c rest = (blank c, rest) := by
  rw [first, if_pos hblank]

theorem first_mark : first '#' rest =
    (comment ('#' :: rest.takeWhile (· != '\n')), rest.dropWhile (· != '\n')) := by
  have hblank : isBlank '#' = false := by decide
  simp [first, hblank]

theorem isBlank_of_startsWord (hstart : startsWord c = true) : isBlank c = false := by
  rw [startsWord, Bool.or_eq_true, beq_iff_eq] at hstart
  rcases hstart with hletter | rfl
  · exact isBlank_of_isLetter hletter
  · decide

theorem first_of_startsWord (hstart : startsWord c = true) :
    first c rest = (word (c :: rest.takeWhile continuesWord), rest.dropWhile continuesWord) := by
  have hmark : c ≠ '#' := by
    rintro rfl
    revert hstart
    decide
  simp [first, isBlank_of_startsWord hstart, hmark, hstart]

theorem startsWord_of_isDigit (hdigit : isDigit c = true) : startsWord c = false := by
  rw [Bool.eq_false_iff]
  intro hstart
  rw [startsWord, Bool.or_eq_true, beq_iff_eq] at hstart
  rcases hstart with hletter | rfl
  · rw [isDigit_of_isLetter hletter] at hdigit
    cases hdigit
  · revert hdigit
    decide

theorem first_of_isDigit (hdigit : isDigit c = true) : first c rest = numberFirst c rest := by
  have hmark : c ≠ '#' := by
    rintro rfl
    revert hdigit
    decide
  simp [first, isBlank_of_isDigit hdigit, hmark, startsWord_of_isDigit hdigit, hdigit]

/-- Whether a character starts no piece but an operator or a stray character. -/
def startsNone (c : Char) : Bool := !isBlank c && c != '#' && !startsWord c && !isDigit c

theorem first_of_startsNone (hnone : startsNone c = true) :
    first c rest = operatorFirst c rest := by
  simp only [startsNone, Bool.and_eq_true, Bool.not_eq_true', bne_iff_ne] at hnone
  obtain ⟨⟨⟨hblank, hmark⟩, hword⟩, hdigit⟩ := hnone
  simp [first, hblank, hmark, hword, hdigit]

/-- Operators have one or two characters, and the first of them starts no piece of another sort. -/
theorem exists_cons_of_mem_operators {text : List Char} {kind : TokenKind}
    (hkind : (String.ofList text, kind) ∈ operators) :
    ∃ c more, text = c :: more ∧ startsNone c = true ∧ more.length ≤ 1 := by
  have htable : ∀ entry ∈ operators,
      entry.1.toList.head?.any startsNone = true ∧ entry.1.toList.length ≤ 2 := by decide +kernel
  obtain ⟨hhead, hlength⟩ := htable _ hkind
  rw [String.toList_ofList] at hhead hlength
  cases text with
  | nil => cases hhead
  | cons c more =>
    rw [List.length_cons] at hlength
    exact ⟨c, more, rfl, hhead, by omega⟩

/-! ### What is cut off fits -/

theorem fits_numberFirst (hdigit : isDigit c = true) :
    Fits (numberFirst c rest).1 (numberFirst c rest).2 := by
  have hdigits : AreDigits (c :: rest.takeWhile isDigit) := by
    refine ⟨List.cons_ne_nil _ _, ?_⟩
    rw [List.forall_mem_cons]
    exact ⟨hdigit, fun d ↦ of_mem_takeWhile⟩
  unfold numberFirst
  split
  · next after hafter =>
    split
    · next hempty =>
      refine .malformedNumber hdigits fun d hd ↦ ?_
      rw [List.isEmpty_iff] at hempty
      cases after with
      | nil => cases hd
      | cons next after =>
        obtain rfl : next = d := Option.some.inj hd
        cases hnext : isDigit next with
        | false => rfl
        | true => simp [hnext] at hempty
    · next hfraction =>
      rw [List.isEmpty_iff] at hfraction
      exact .number (.fractional hdigits ⟨hfraction, fun d ↦ of_mem_takeWhile⟩)
  · exact .number (.whole hdigits)

theorem fits_shortOperatorFirst (c : Char) (rest : List Char) :
    Fits (shortOperatorFirst c rest).1 (shortOperatorFirst c rest).2 ∨
      shortOperatorFirst c rest = (stray c, rest) := by
  unfold shortOperatorFirst
  split
  · next kind hkind => exact .inl (.operator (operatorKind?_eq_some_iff.mp hkind))
  · exact .inr rfl

theorem fits_operatorFirst (c : Char) (rest : List Char) :
    Fits (operatorFirst c rest).1 (operatorFirst c rest).2 ∨
      operatorFirst c rest = (stray c, rest) := by
  unfold operatorFirst
  split
  · exact fits_shortOperatorFirst c []
  · split
    · next kind hkind => exact .inl (.operator (operatorKind?_eq_some_iff.mp hkind))
    · exact fits_shortOperatorFirst c _

/-- The first piece fits, or it is a stray character. -/
theorem fits_first (c : Char) (rest : List Char) :
    Fits (first c rest).1 (first c rest).2 ∨ first c rest = (stray c, rest) := by
  unfold first
  split
  · next hblank => exact .inl (.blank hblank)
  split
  · next hmark =>
    subst hmark
    refine .inl (.comment (fun hline ↦ ?_) fun d hd ↦ ?_)
    · simpa using of_mem_takeWhile hline
    · simpa using not_of_head?_dropWhile hd
  split
  · next hstart => exact .inl (.word hstart fun d ↦ of_mem_takeWhile)
  split
  · next hdigit => exact .inl (fits_numberFirst hdigit)
  · exact fits_operatorFirst c rest

/-! ### What is cut off is longest -/

/-- A piece is at least as long as another, and is the other if they are equally long. -/
structure Covers (piece other : Piece) : Prop where
  le : other.text.length ≤ piece.text.length
  eq : other.text.length = piece.text.length → other = piece

theorem Covers.refl (piece : Piece) : Covers piece piece := ⟨Nat.le_refl _, fun _ ↦ rfl⟩

theorem covers_of_lt {piece other : Piece} (hlt : other.text.length < piece.text.length) :
    Covers piece other := ⟨Nat.le_of_lt hlt, fun heq ↦ absurd heq (Nat.ne_of_lt hlt)⟩

theorem covers_comment {body : List Char} (hbody : '\n' ∉ body)
    (hrest : ∀ d, rest.head? = some d → d = '\n') :
    Covers (first '#' (body ++ rest)).1 (comment ('#' :: body)) := by
  have hline : ∀ d ∈ body, (d != '\n') = true := by
    intro d hd
    rw [bne_iff_ne]
    rintro rfl
    exact hbody hd
  have hstop : ∀ d, rest.head? = some d → (d != '\n') = false := by
    intro d hd
    simp [hrest d hd]
  rw [first_mark, (span_of_stop hline hstop).1]
  exact .refl _

theorem covers_word (hstart : startsWord c = true) {more : List Char}
    (hmore : ∀ d ∈ more, continuesWord d = true) :
    Covers (first c (more ++ rest)).1 (word (c :: more)) := by
  rw [first_of_startsWord hstart]
  constructor
  · simpa [text] using length_le_takeWhile hmore
  · intro hlength
    simp only [text, List.length_cons, Nat.add_right_cancel_iff] at hlength
    rw [← eq_takeWhile_of_length hmore hlength]

theorem AreDigits.exists_cons {text : List Char} (hdigits : AreDigits text) :
    ∃ c more, text = c :: more ∧ isDigit c = true ∧ ∀ d ∈ more, isDigit d = true := by
  obtain ⟨hne, hall⟩ := hdigits
  cases text with
  | nil => exact absurd rfl hne
  | cons c more => exact ⟨c, more, rfl, List.forall_mem_cons.mp hall⟩

theorem numberFirst_of_point {after : List Char} (hafter : rest.dropWhile isDigit = '.' :: after) :
    numberFirst c rest =
      if (after.takeWhile isDigit).isEmpty then
        (malformedNumber (c :: (rest.takeWhile isDigit ++ ['.'])), after)
      else
        (number (c :: (rest.takeWhile isDigit ++ '.' :: after.takeWhile isDigit)),
          after.dropWhile isDigit) := by
  simp only [numberFirst, hafter, List.cons_append]

theorem numberFirst_of_no_point (hafter : ∀ after, rest.dropWhile isDigit ≠ '.' :: after) :
    numberFirst c rest = (number (c :: rest.takeWhile isDigit), rest.dropWhile isDigit) := by
  unfold numberFirst
  split
  · next after hpoint => exact absurd hpoint (hafter after)
  · rfl

/-- A point makes a number longer, malformed or not. -/
theorem length_lt_numberFirst {after : List Char}
    (hafter : rest.dropWhile isDigit = '.' :: after) :
    (rest.takeWhile isDigit).length + 1 < (numberFirst c rest).1.text.length := by
  rw [numberFirst_of_point hafter]
  split
  · simp [text]
  · simp [text]

theorem covers_whole {digits : List Char} (hdigits : ∀ d ∈ digits, isDigit d = true) :
    Covers (numberFirst c (digits ++ rest)).1 (number (c :: digits)) := by
  have hle : digits.length ≤ ((digits ++ rest).takeWhile isDigit).length :=
    length_le_takeWhile hdigits
  by_cases hpoint : ∃ after, (digits ++ rest).dropWhile isDigit = '.' :: after
  · obtain ⟨after, hafter⟩ := hpoint
    apply covers_of_lt
    calc (c :: digits).length ≤ ((digits ++ rest).takeWhile isDigit).length + 1 :=
          Nat.succ_le_succ hle
      _ < (numberFirst c (digits ++ rest)).1.text.length := length_lt_numberFirst hafter
  · rw [numberFirst_of_no_point (not_exists.mp hpoint)]
    constructor
    · exact Nat.succ_le_succ hle
    · intro hlength
      have hrun := eq_takeWhile_of_length hdigits (Nat.succ.inj hlength)
      rw [← hrun]

/-- The digits before a point are the run of digits before it. -/
theorem span_point {digits : List Char} (hdigits : ∀ d ∈ digits, isDigit d = true) :
    (digits ++ '.' :: rest).takeWhile isDigit = digits ∧
      (digits ++ '.' :: rest).dropWhile isDigit = '.' :: rest := by
  refine span_of_stop hdigits fun d hd ↦ ?_
  cases hd
  decide

theorem covers_fractional {digits fraction : List Char} (hdigits : ∀ d ∈ digits, isDigit d = true)
    (hfraction : AreDigits fraction) :
    Covers (numberFirst c (digits ++ '.' :: (fraction ++ rest))).1
      (number (c :: (digits ++ '.' :: fraction))) := by
  obtain ⟨htake, hdrop⟩ := @span_point (fraction ++ rest) digits hdigits
  have hle : fraction.length ≤ ((fraction ++ rest).takeWhile isDigit).length :=
    length_le_takeWhile hfraction.2
  have hsome : ((fraction ++ rest).takeWhile isDigit).isEmpty = false := by
    have hpos := List.length_pos_iff.mpr hfraction.1
    rw [List.isEmpty_eq_false_iff, ← List.length_pos_iff]
    omega
  rw [numberFirst_of_point hdrop, htake, hsome]
  constructor
  · simpa [text] using hle
  · intro hlength
    have hrun : fraction = (fraction ++ rest).takeWhile isDigit := by
      apply eq_takeWhile_of_length hfraction.2
      simpa [text] using hlength
    simp [← hrun]

theorem covers_malformedNumber {digits : List Char} (hdigits : ∀ d ∈ digits, isDigit d = true)
    (hrest : ∀ d, rest.head? = some d → isDigit d = false) :
    Covers (numberFirst c (digits ++ '.' :: rest)).1
      (malformedNumber (c :: (digits ++ ['.']))) := by
  obtain ⟨htake, hdrop⟩ := @span_point rest digits hdigits
  have hnone : rest.takeWhile isDigit = [] :=
    (span_of_stop (List.forall_mem_nil _) hrest).1
  rw [numberFirst_of_point hdrop, htake, hnone]
  exact .refl _

theorem covers_shortOperator {kind : TokenKind} (hkind : (String.ofList [c], kind) ∈ operators) :
    Covers (operatorFirst c rest).1 (operator kind [c]) := by
  have hshort : ∀ rest, (shortOperatorFirst c rest).1 = operator kind [c] := by
    intro rest
    simp only [shortOperatorFirst, operatorKind?_eq_some_iff.mpr hkind]
  unfold operatorFirst
  split
  · rw [hshort]
    exact .refl _
  · split
    · exact covers_of_lt (by simp [text])
    · rw [hshort]
      exact .refl _

theorem covers_operator {kind : TokenKind} {more : List Char}
    (hkind : (String.ofList (c :: more), kind) ∈ operators) (hmore : more.length ≤ 1) :
    Covers (operatorFirst c (more ++ rest)).1 (operator kind (c :: more)) := by
  match more, hmore with
  | [], _ => exact covers_shortOperator hkind
  | [d], _ =>
    simp only [operatorFirst, List.singleton_append, operatorKind?_eq_some_iff.mpr hkind]
    exact .refl _

/-- Of all pieces that fit at the start of a text, the one that is cut off is the longest. -/
theorem covers_first {piece : Piece} {more : List Char} (hfits : Fits piece more)
    (htext : piece.text ++ more = c :: rest) : Covers (first c rest).1 piece := by
  cases hfits with
  | blank hblank =>
    cases htext
    rw [first_of_isBlank hblank]
    exact .refl _
  | comment hbody hmore =>
    cases htext
    exact covers_comment hbody hmore
  | word hstart hmore =>
    cases htext
    exact covers_word hstart hmore
  | number hnumber =>
    cases hnumber with
    | whole hdigits =>
      obtain ⟨digit, others, rfl, hdigit, hothers⟩ := hdigits.exists_cons
      cases htext
      rw [first_of_isDigit hdigit]
      exact covers_whole hothers
    | @fractional digits fraction hdigits hfraction =>
      obtain ⟨digit, others, rfl, hdigit, hothers⟩ := hdigits.exists_cons
      obtain ⟨rfl, rfl⟩ : digit = c ∧ others ++ '.' :: (fraction ++ more) = rest := by
        simpa [text] using htext
      rw [first_of_isDigit hdigit]
      exact covers_fractional hothers hfraction
  | operator hkind =>
    obtain ⟨start, others, rfl, hstart, hothers⟩ := exists_cons_of_mem_operators hkind
    cases htext
    rw [first_of_startsNone hstart]
    exact covers_operator hkind hothers
  | malformedNumber hdigits hmore =>
    obtain ⟨digit, others, rfl, hdigit, hothers⟩ := hdigits.exists_cons
    obtain ⟨rfl, rfl⟩ : digit = c ∧ others ++ '.' :: more = rest := by simpa [text] using htext
    rw [first_of_isDigit hdigit]
    exact covers_malformedNumber hothers hmore

/-! ### There is one split -/

theorem Fits.text_ne_nil {piece : Piece} {more : List Char} (hfits : Fits piece more) :
    piece.text ≠ [] := by
  cases hfits with
  | number hnumber =>
    cases hnumber with
    | whole hdigits => exact hdigits.1
    | fractional hdigits _ => simp [text]
  | operator hkind =>
    obtain ⟨start, others, rfl, -⟩ := exists_cons_of_mem_operators hkind
    exact List.cons_ne_nil _ _
  | _ => simp [text]

/-- Where something fits, no stray character is cut off. -/
theorem first_ne_stray {piece : Piece} {more : List Char} (hfits : Fits piece more)
    (htext : piece.text ++ more = c :: rest) : first c rest ≠ (stray c, rest) := by
  intro hstray
  have hcovers := covers_first hfits htext
  rw [hstray] at hcovers
  have hpos := List.length_pos_iff.mpr hfits.text_ne_nil
  have hle : piece.text.length ≤ 1 := hcovers.le
  have hsame : piece = stray c := hcovers.eq (Nat.le_antisymm hle hpos)
  subst hsame
  cases hfits

theorem heads_first (c : Char) (rest : List Char) : Heads (first c rest).1 (first c rest).2 := by
  rcases fits_first c rest with hfits | hstray
  · refine .longest hfits fun other more hother htext ↦ ?_
    rw [text_first] at htext
    exact (covers_first hother htext).le
  · rw [hstray]
    exact .stray fun other more hother htext ↦ first_ne_stray hother htext hstray

/-- What stands before a text is what is cut off. -/
theorem Heads.eq_first {piece : Piece} {more : List Char} (hheads : Heads piece more)
    (htext : piece.text ++ more = c :: rest) : first c rest = (piece, more) := by
  have hcut := text_first c rest
  cases hheads with
  | longest hfits hlongest =>
    rcases fits_first c rest with hfirst | hstray
    · have hcovers := covers_first hfits htext
      have hle := hlongest _ _ hfirst (hcut.trans htext.symm)
      have hsame : piece = (first c rest).1 := hcovers.eq (Nat.le_antisymm hcovers.le hle)
      have hmore : (first c rest).2 = more := by
        rw [← htext, hsame] at hcut
        exact List.append_cancel_left hcut
      rw [hsame, ← hmore]
    · exact absurd hstray (first_ne_stray hfits htext)
  | @stray start _ hnone =>
    obtain ⟨rfl, rfl⟩ : start = c ∧ more = rest := by simpa [text] using htext
    rcases fits_first start more with hfirst | hstray
    · exact absurd hcut (hnone _ _ hfirst)
    · exact hstray

theorem Heads.text_ne_nil {piece : Piece} {more : List Char} (hheads : Heads piece more) :
    piece.text ≠ [] := by
  cases hheads with
  | longest hfits _ => exact hfits.text_ne_nil
  | stray _ => exact List.cons_ne_nil _ _

end Piece

theorem isSplit_pieces (text : List Char) : IsSplit text (pieces text) := by
  induction hlength : text.length using Nat.strongRecOn generalizing text with
  | ind length ih =>
    cases text with
    | nil => exact .nil
    | cons c rest =>
      have hlt := Piece.length_first_lt c rest
      have hrest := ih _ (by omega) (Piece.first c rest).2 rfl
      rw [pieces_cons, ← Piece.text_first c rest]
      exact .cons (Piece.heads_first c rest) hrest

/-- A text has one split, which is the one that its pieces make. -/
theorem isSplit_iff {text : List Char} {split : List Piece} :
    IsSplit text split ↔ split = pieces text := by
  constructor
  · intro hsplit
    induction hsplit with
    | nil => rfl
    | @cons piece rest split hpiece hrest ih =>
      obtain ⟨c, more, htext⟩ := List.exists_cons_of_ne_nil
        (List.append_ne_nil_of_left_ne_nil hpiece.text_ne_nil rest)
      rw [htext, pieces_cons, hpiece.eq_first htext, ih]
  · rintro rfl
    exact isSplit_pieces text

end LetLang
