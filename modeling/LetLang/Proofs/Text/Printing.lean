import LetLang.Number.Number
import LetLang.Proofs.Source.Layout
import LetLang.Text.Colour
import LetLang.Text.Quoted

/-!
# What is printed is printable

The words and numbers of a source text consist of letters, numerals, underscores and points, and all
of these are printable characters (`Text.isPrintable_of_continuesWord`). So a word or a number stands
as it is between its quotes (`Text.quoted_of_plain`). The texts of numbers are printable too
(`Number.printable_text`).

A text without the escape character is shown alike with and without colours (`Text.inColours_eq`),
and the escape character is not printable.
-/

set_option autoImplicit false

namespace LetLang

namespace Text

/-! ### Texts over an alphabet -/

/-- Every character of a text is in the alphabet. -/
def Over (alphabet : Char → Prop) (text : String) : Prop := ∀ c ∈ text.toList, alphabet c

instance (alphabet : Char → Prop) [DecidablePred alphabet] : DecidablePred (Over alphabet) :=
  fun text => List.decidableBAll alphabet text.toList

section

variable {alphabet : Char → Prop}

@[simp] theorem over_append {first second : String} :
    Over alphabet (first ++ second) ↔ Over alphabet first ∧ Over alphabet second := by
  simp only [Over, String.toList_append, List.forall_mem_append]

@[simp] theorem over_ofList {text : List Char} :
    Over alphabet (String.ofList text) ↔ ∀ c ∈ text, alphabet c := by
  rw [Over, String.toList_ofList]

theorem Over.mono {other : Char → Prop} {text : String} (htext : Over alphabet text)
    (hother : ∀ c, alphabet c → other c) : Over other text := fun c hc ↦ hother c (htext c hc)

theorem over_join {texts : List String} (htexts : ∀ text ∈ texts, Over alphabet text) :
    Over alphabet (String.join texts) := by
  intro c hc
  rw [String.toList_join, List.mem_flatMap] at hc
  obtain ⟨text, htext, hc⟩ := hc
  exact htexts text htext c hc

theorem over_intercalate {separator : String} {texts : List String}
    (hseparator : Over alphabet separator) (htexts : ∀ text ∈ texts, Over alphabet text) :
    Over alphabet (separator.intercalate texts) := by
  induction texts with
  | nil => exact fun c hc ↦ nomatch hc
  | cons first rest ih =>
    obtain ⟨hfirst, hrest⟩ := List.forall_mem_cons.mp htexts
    cases rest with
    | nil => simpa using hfirst
    | cons second others =>
      rw [String.intercalate_cons_cons, over_append, over_append]
      exact ⟨⟨hfirst, hseparator⟩, ih hrest⟩

theorem over_trimRight {text : String} (htext : Over alphabet text) :
    Over alphabet (trimRight text) := by
  refine over_ofList.mpr fun c hc ↦ htext c (List.mem_reverse.mp ?_)
  exact (List.dropWhile_suffix _).subset (List.mem_reverse.mp hc)

theorem over_padLeft {fill : Char} {text : String} (hfill : alphabet fill)
    (htext : Over alphabet text) (width : Nat) : Over alphabet (padLeft fill width text) := by
  refine over_ofList.mpr (List.forall_mem_append.mpr ⟨fun c hc ↦ ?_, htext⟩)
  rw [List.eq_of_mem_replicate hc]
  exact hfill

theorem over_padRight {fill : Char} {text : String} (hfill : alphabet fill)
    (htext : Over alphabet text) (width : Nat) : Over alphabet (padRight fill width text) := by
  refine over_ofList.mpr (List.forall_mem_append.mpr ⟨htext, fun c hc ↦ ?_⟩)
  rw [List.eq_of_mem_replicate hc]
  exact hfill

end

/-- A text of printable characters. -/
abbrev Printable (text : String) : Prop := Over (isPrintable · = true) text

/-! ### Words and numbers -/

/-- Whether every interval of one table lies in one of another, found by going along both in at most
the given number of steps. -/
def within : Nat → List (Nat × Nat) → List (Nat × Nat) → Bool
  | _, [], _ => true
  | 0, _, _ => false
  | _, _, [] => false
  | steps + 1, range :: first, other :: second =>
    if other.2 < range.1 then within steps (range :: first) second
    else other.1 ≤ range.1 && range.2 ≤ other.2 && within steps first (other :: second)

theorem inRanges_of_within {steps : Nat} {first second : List (Nat × Nat)} {code : Nat}
    (hwithin : within steps first second = true) (hcode : inRanges first code = true) :
    inRanges second code = true := by
  fun_induction within steps first second with
  | case1 => cases hcode
  | case2 => cases hwithin
  | case3 => cases hwithin
  | case4 steps range first other second _ ih => exact inRanges_cons.mpr (.inr (ih hwithin hcode))
  | case5 steps range first other second _ ih =>
    simp only [Bool.and_eq_true, decide_eq_true_iff] at hwithin
    obtain ⟨⟨hlow, hhigh⟩, hrest⟩ := hwithin
    rcases inRanges_cons.mp hcode with hrange | hlater
    · exact inRanges_cons.mpr (.inl ⟨by omega, by omega⟩)
    · exact ih hrest hlater

/-- The intervals of all printable characters. -/
def allPrintableRanges : List (Nat × Nat) := (32, 126) :: printableRanges

theorem isPrintable_of_inRanges {c : Char} (hcode : inRanges allPrintableRanges c.toNat = true) :
    isPrintable c = true := by
  have hbeyond : inRanges [(0, 127)] c.toNat = true →
      ¬ inRanges printableRanges c.toNat = true :=
    Separated.not_inRanges (by decide +kernel : Separated [(0, 127)] printableRanges)
  rw [isPrintable]
  rcases inRanges_cons.mp hcode with hascii | hother
  · rw [if_pos (by omega), Bool.and_eq_true, decide_eq_true_iff, decide_eq_true_iff]
    exact hascii
  · by_cases hlow : c.toNat < 128
    · exact absurd hother (hbeyond (inRanges_cons.mpr (.inl ⟨Nat.zero_le _, by omega⟩)))
    · rw [if_neg hlow]
      exact hother

/-- The tables of letters and numerals lie within the one of printable characters. -/
theorem within_tables :
    within 2000 allLetterRanges allPrintableRanges = true ∧
      within 2000 decimalRanges allPrintableRanges = true ∧
      within 2000 digitFormRanges allPrintableRanges = true ∧
      within 2000 numeralRanges allPrintableRanges = true := by
  decide +kernel

theorem isPrintable_of_continuesWord {c : Char} (hword : Piece.continuesWord c = true) :
    isPrintable c = true := by
  obtain ⟨hletters, hdecimals, hforms, hnumerals⟩ := within_tables
  rw [Piece.continuesWord, Bool.or_eq_true, Bool.or_eq_true, beq_iff_eq, isNumeral,
    Bool.or_eq_true, Bool.and_eq_true] at hword
  rcases hword with (hletter | hdigit | ⟨-, hnumeral⟩) | rfl
  · exact isPrintable_of_inRanges (inRanges_of_within hletters (inRanges_of_isLetter hletter))
  · rcases inRanges_of_isDigit hdigit with hdecimal | hform
    · exact isPrintable_of_inRanges (inRanges_of_within hdecimals hdecimal)
    · exact isPrintable_of_inRanges (inRanges_of_within hforms hform)
  · exact isPrintable_of_inRanges (inRanges_of_within hnumerals hnumeral)
  · decide

/-- A text of the characters of words and numbers. -/
abbrev Plain (text : String) : Prop :=
  Over (fun c => Piece.continuesWord c = true ∨ c = '.') text

theorem Plain.printable {text : String} (hplain : Plain text) : Printable text := by
  refine hplain.mono fun c hc ↦ ?_
  rcases hc with hword | rfl
  · exact isPrintable_of_continuesWord hword
  · decide

/-- A character of words and numbers is not escaped in quotes. -/
theorem quotedChar_of_plain {c : Char} (hc : Piece.continuesWord c = true ∨ c = '.') :
    quotedChar '\'' c = [c] := by
  have hne : ∀ other, Piece.continuesWord other = false → other ≠ '.' → c ≠ other := by
    rintro other hword hpoint rfl
    rcases hc with hc | hc
    · rw [hword] at hc
      cases hc
    · exact hpoint hc
  have hprintable : isPrintable c = true := by
    rcases hc with hword | rfl
    · exact isPrintable_of_continuesWord hword
    · decide
  have hbackslash : c ≠ '\\' := hne '\\' (by decide) (by decide)
  have hquote : c ≠ '\'' := hne '\'' (by decide) (by decide)
  have hfeed : c ≠ '\n' := hne '\n' (by decide) (by decide)
  have hreturn : c ≠ '\r' := hne '\r' (by decide) (by decide)
  have htab : c ≠ '\t' := hne '\t' (by decide) (by decide)
  simp [quotedChar, hbackslash, hquote, hfeed, hreturn, htab, hprintable]

theorem quoted_of_plain {text : String} (hplain : Plain text) : quoted text = "'" ++ text ++ "'" := by
  have hquote : quoteFor text.toList = '\'' := by
    have hnone : '\'' ∉ text.toList := fun hmem ↦ by
      rcases hplain _ hmem with hword | hpoint
      · revert hword
        decide
      · revert hpoint
        decide
    simp [quoteFor, hnone]
  have hbody : text.toList.flatMap (quotedChar '\'') = text.toList := by
    rw [List.flatMap_congr fun c hc ↦ quotedChar_of_plain (hplain c hc)]
    exact List.flatMap_singleton' _
  rw [quoted, hquote, hbody, ← String.toList_inj]
  simp

/-! ### Colours -/

/-- A text without the escape character. -/
abbrev Escapeless (text : String) : Prop := Over (· ≠ '\x1b') text

theorem Printable.escapeless {text : String} (htext : Printable text) : Escapeless text := by
  refine htext.mono fun c hc ↦ ?_
  rintro rfl
  cases hc

/-- Lines that are printable make a text without the escape character. -/
theorem escapeless_intercalate {lines : List String} (hlines : ∀ line ∈ lines, Printable line) :
    Escapeless ("\n".intercalate lines) :=
  over_intercalate (by decide) fun line hline ↦ (hlines line hline).escapeless

theorem dropEscapesWithin_of_not_mem {steps : Nat} {text : List Char} (htext : '\x1b' ∉ text) :
    dropEscapesWithin steps text = text := by
  induction steps generalizing text with
  | zero => rfl
  | succ steps ih =>
    cases text with
    | nil => rfl
    | cons c rest =>
      obtain ⟨hc, hrest⟩ := not_or.mp (fun h ↦ htext (List.mem_cons.mpr h))
      rw [dropEscapesWithin, if_neg (Ne.symm hc), ih hrest]

/-- A text that holds no escape character is shown as it is. -/
theorem inColours_eq {text : String} (htext : Escapeless text) (colours : Bool) :
    inColours colours text = text := by
  have hnone : '\x1b' ∉ text.toList := fun hmem ↦ htext _ hmem rfl
  cases colours with
  | true => rfl
  | false =>
    change dropEscapes text = text
    rw [dropEscapes, dropEscapesWithin_of_not_mem hnone, String.ofList_toList]

end Text

open Text

/-! ### Words and numbers of a source -/

theorem IsWord.plain {text : String} (hword : IsWord text.toList) : Plain text := by
  obtain ⟨c, more, htext, hstart, hmore⟩ := hword
  have hfirst : Piece.continuesWord c = true := by
    rw [Piece.startsWord, Bool.or_eq_true] at hstart
    rw [Piece.continuesWord, Bool.or_eq_true, Bool.or_eq_true]
    exact hstart.imp_left .inl
  intro d hd
  rw [htext] at hd
  rcases List.mem_cons.mp hd with rfl | hlater
  · exact .inl hfirst
  · exact .inl (hmore d hlater)

theorem Piece.AreDigits.continuesWord {text : List Char} (hdigits : Piece.AreDigits text) :
    ∀ c ∈ text, Piece.continuesWord c = true := by
  intro c hc
  simp [Piece.continuesWord, isNumeral, hdigits.2 c hc]

theorem Piece.IsNumber.plain {text : String} (hnumber : Piece.IsNumber text.toList) :
    Plain text := by
  unfold Plain Over
  generalize text.toList = characters at hnumber
  cases hnumber with
  | whole hdigits => exact fun c hc ↦ .inl (hdigits.continuesWord c hc)
  | fractional hdigits hfraction =>
    refine List.forall_mem_append.mpr ⟨fun c hc ↦ .inl (hdigits.continuesWord c hc), ?_⟩
    exact List.forall_mem_cons.mpr ⟨.inr rfl, fun c hc ↦ .inl (hfraction.continuesWord c hc)⟩

/-! ### Texts of numbers -/

theorem isPrintable_of_isDigit {c : Char} (hdigit : c.isDigit = true) : isPrintable c = true := by
  have hrange : 48 ≤ c.toNat ∧ c.toNat ≤ 57 := by
    simpa [Char.isDigit, UInt32.le_iff_toNat_le] using hdigit
  refine isPrintable_of_inRanges (inRanges_cons.mpr (.inl ⟨?_, ?_⟩)) <;> simp <;> omega

theorem isPrintable_of_isAlpha {c : Char} (hletter : c.isAlpha = true) : isPrintable c = true := by
  have hrange : 65 ≤ c.toNat ∧ c.toNat ≤ 122 := by
    rcases (Bool.or_eq_true _ _).mp hletter with hupper | hlower
    · obtain ⟨hlow, hhigh⟩ := of_decide_eq_true hupper
      exact ⟨hlow, Nat.le_trans hhigh (by decide)⟩
    · obtain ⟨hlow, hhigh⟩ := (Bool.and_eq_true _ _).mp hlower
      exact ⟨Nat.le_trans (by decide) (of_decide_eq_true hlow), of_decide_eq_true hhigh⟩
  refine isPrintable_of_inRanges (inRanges_cons.mpr (.inl ⟨?_, ?_⟩)) <;> simp <;> omega

theorem printable_toDigits (number : Nat) : ∀ c ∈ Nat.toDigits 10 number, isPrintable c = true :=
  fun _ hc ↦ isPrintable_of_isDigit (Nat.isDigit_of_mem_toDigits (by decide) (by decide) hc)

theorem printable_digitChar {digit : Nat} (hdigit : digit < 16) :
    isPrintable digit.digitChar = true := by
  have hall : ∀ digit : Fin 16, isPrintable digit.val.digitChar = true := by decide
  exact hall ⟨digit, hdigit⟩

theorem printable_hexText (number : Nat) : Printable (hexText number) := by
  refine over_ofList.mpr ?_
  induction number using Nat.strongRecOn with
  | ind number ih =>
    rw [Nat.toDigits_eq_if (by decide)]
    split
    · next hless => exact List.forall_mem_singleton.mpr (printable_digitChar hless)
    · refine List.forall_mem_append.mpr ⟨ih _ (by omega), ?_⟩
      exact List.forall_mem_singleton.mpr (printable_digitChar (Nat.mod_lt _ (by decide)))

theorem printable_repr (number : Nat) : Printable number.repr := by
  intro c hc
  rw [Nat.toList_repr] at hc
  exact printable_toDigits number c hc

theorem printable_toString (value : Int) : Printable (toString value) := by
  rw [Int.toString_eq_repr, Int.repr_eq_if]
  split
  · exact printable_repr _
  · exact over_append.mpr ⟨by decide, printable_repr _⟩

namespace Binary64

theorem printable_positionalText {digits : List Char} (leading : Int)
    (hdigits : ∀ c ∈ digits, isPrintable c = true) :
    ∀ c ∈ positionalText digits leading, isPrintable c = true := by
  have hzero : isPrintable '0' = true := by decide
  have hpoint : isPrintable '.' = true := by decide
  have hzeros : ∀ count, ∀ c ∈ List.replicate count '0', isPrintable c = true := by
    intro count c hc
    rw [List.eq_of_mem_replicate hc]
    exact hzero
  simp only [positionalText]
  split_ifs
  · simp only [List.forall_mem_append, List.forall_mem_cons]
    exact ⟨⟨hzero, hpoint, hzeros _⟩, hdigits⟩
  · simp only [List.forall_mem_append, List.forall_mem_cons]
    exact ⟨⟨hdigits, hzeros _⟩, hpoint, hzero, List.forall_mem_nil _⟩
  · simp only [List.forall_mem_append, List.forall_mem_cons]
    exact ⟨fun c hc ↦ hdigits c (List.mem_of_mem_take hc), hpoint,
      fun c hc ↦ hdigits c (List.mem_of_mem_drop hc)⟩

theorem printable_exponentText (width : Nat) {digits : List Char} (leading : Int)
    (hdigits : ∀ c ∈ digits, isPrintable c = true) :
    ∀ c ∈ exponentText width digits leading, isPrintable c = true := by
  have hpadded : Printable (padLeft '0' width (toString leading.natAbs)) :=
    over_padLeft (by decide) (printable_repr _) width
  have hsign : isPrintable (if leading < 0 then '-' else '+') = true := by
    split <;> decide
  have hfraction : ∀ c ∈ (if digits.length ≤ 1 then [] else '.' :: digits.drop 1),
      isPrintable c = true := by
    split
    · exact List.forall_mem_nil _
    · exact List.forall_mem_cons.mpr ⟨by decide, fun c hc ↦ hdigits c (List.mem_of_mem_drop hc)⟩
  simp only [exponentText, List.forall_mem_append, List.forall_mem_cons]
  exact ⟨⟨fun c hc ↦ hdigits c (List.mem_of_mem_take hc), hfraction⟩, by decide, hsign, hpadded⟩

theorem printable_toText (value : Binary64) : Printable value.toText := by
  have hdigits : ∀ number, ∀ c ∈ dropTrailingZeros (Nat.toDigits 10 number),
      isPrintable c = true := by
    intro number c hc
    refine printable_toDigits number c (List.mem_reverse.mp ?_)
    exact (List.dropWhile_suffix _).subset (List.mem_reverse.mp hc)
  have hsign : Printable (if value.isNegative then "-" else "") := by
    split <;> decide
  have hshortest : Printable (value.shortest.toText layout) := by
    refine over_ofList.mpr ?_
    split
    · exact printable_positionalText _ (hdigits _)
    · exact printable_exponentText _ _ (hdigits _)
  simp only [toText]
  generalize (if value.isNegative then "-" else "") = sign at hsign ⊢
  split_ifs
  · decide
  · exact over_append.mpr ⟨hsign, by decide⟩
  · exact over_append.mpr ⟨hsign, by decide⟩
  · exact over_append.mpr ⟨hsign, hshortest⟩

end Binary64

theorem Number.printable_text (number : Number) : Printable number.text := by
  cases number with
  | int value => exact printable_toString value
  | float value => exact value.printable_toText

end LetLang
