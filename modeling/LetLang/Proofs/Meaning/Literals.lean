import LetLang.Proofs.Meaning.Failures
import LetLang.Proofs.Source.Pieces
import Mathlib.Data.Nat.Digits.Defs

/-!
# The exact value of a literal

What a literal stands for, said by its digits and the expected type alone (`Resolves`): a double
under `float`, an integer under `int` if it has no fraction, and otherwise the one or the other as
it has a point or not. An integer has to be in the 64-bit range, and its value is that of all its
digits, whatever script they are from and however many zeros stand at their front.

A literal within the limit of digits is resolved in this way (`resolveLiteral_exact`), with one
exception. The range is checked by length before it is checked by value, and the length does not
count the zeros at the front; but only the zeros of ASCII are left out. Digits that start with
zeros of another script can be taken for too long although their value is in range (`Overlooked`),
as twenty of these zeros are (`resolveLiteral_twentyZeros`). Of digits that have none of these
zeros at the front, every one that is too long is too great (`int64Max_lt_of_long`).
-/

set_option autoImplicit false

namespace LetLang

open Text

/-! ### Digits and their value -/

/-- The value of a decimal digit. -/
def digitOf (c : Char) : Nat := (decimalValue? c).getD 0

/-- One or more decimal digits, of whatever script. -/
def DecimalText (text : List Char) : Prop := text ≠ [] ∧ ∀ c ∈ text, isDecimalDigit c = true

/-- The number that digits write in base ten, the first of them counting most. -/
def decimalNumber (text : List Char) : Nat := Nat.ofDigits 10 (text.map digitOf).reverse

/-- A text is written as digits, and a point and further digits if there is a fraction. -/
inductive Written : List Char → List Char → Option (List Char) → Prop
  | whole {digits : List Char} (hdigits : DecimalText digits) : Written digits digits none
  | pointed {digits fraction : List Char} (hdigits : DecimalText digits)
      (hfraction : DecimalText fraction) :
      Written (digits ++ '.' :: fraction) digits (some fraction)

theorem Written.of_none {text digits : List Char} (htext : Written text digits none) :
    text = digits ∧ DecimalText digits := by
  cases htext with
  | whole hdigits => exact ⟨rfl, hdigits⟩

/-- The double nearest to a written number. -/
def nearestDouble (digits : List Char) (fraction? : Option (List Char)) : Binary64 :=
  Binary64.ofDecimal (decimalNumber (digits ++ fraction?.getD []))
    (-((fraction?.getD []).length : Int))

theorem decimalNumber_cons (c : Char) (rest : List Char) :
    decimalNumber (c :: rest) = decimalNumber rest + 10 ^ rest.length * digitOf c := by
  rw [decimalNumber, List.map_cons, Nat.ofDigits_reverse_cons, List.length_map, decimalNumber]

theorem decimalNumber_zeros_append (count : Nat) (text : List Char) :
    decimalNumber (zeros count ++ text) = decimalNumber text := by
  have hzeros : (zeros count).map digitOf = List.replicate count 0 := List.map_replicate
  rw [decimalNumber, List.map_append, hzeros, List.reverse_append, List.reverse_replicate,
    Nat.ofDigits_append_replicate_zero, decimalNumber]

theorem decimalNumber_dropWhile (text : List Char) :
    decimalNumber (text.dropWhile (· == '0')) = decimalNumber text := by
  have hzero : ∀ c ∈ text.takeWhile (· == '0'), c = '0' :=
    fun c hc ↦ beq_iff_eq.mp (List.all_eq_true.mp List.all_takeWhile c hc)
  have hfront : text.takeWhile (· == '0') = zeros (text.takeWhile (· == '0')).length :=
    List.eq_replicate_of_mem hzero
  have hparts := List.takeWhile_append_dropWhile (p := (· == '0')) (l := text)
  rw [hfront] at hparts
  conv_rhs => rw [← hparts, decimalNumber_zeros_append]

/-- Digits that are too long without the zeros at their front are too great, unless it is a zero
that they start with there. -/
theorem int64Max_lt_of_long {text rest : List Char} {c : Char}
    (hfront : text.dropWhile (· == '0') = c :: rest) (hlong : int64Digits < (c :: rest).length)
    (hvalue : digitOf c ≠ 0) : int64Max < decimalNumber text := by
  have hplaces : 10 ^ int64Digits ≤ 10 ^ rest.length :=
    Nat.pow_le_pow_right (by decide) (Nat.le_of_lt_succ hlong)
  have hfirst : 10 ^ rest.length ≤ 10 ^ rest.length * digitOf c :=
    Nat.le_mul_of_pos_right _ (Nat.pos_of_ne_zero hvalue)
  have hnumber := decimalNumber_cons c rest
  rw [← hfront, decimalNumber_dropWhile] at hnumber
  have hrange : int64Max < (10 ^ int64Digits : Nat) := by decide
  omega

/-! ### Reading digits -/

theorem ofDigits_eq_ofDigits_reverse (digits : List Nat) :
    ofDigits digits = Nat.ofDigits 10 digits.reverse := by
  rw [Nat.ofDigits_eq_foldr, List.foldr_reverse, ofDigits]
  congr 1
  funext value digit
  rw [Nat.cast_id, Nat.mul_comm, Nat.add_comm]

theorem digitValues?_of_digits {text : List Char}
    (hdigits : ∀ c ∈ text, isDecimalDigit c = true) :
    digitValues? text = some (text.map digitOf) := by
  induction text with
  | nil => rfl
  | cons c rest ih =>
    obtain ⟨hc, hrest⟩ := List.forall_mem_cons.mp hdigits
    obtain ⟨value, hvalue⟩ := Option.isSome_iff_exists.mp hc
    rw [digitValues?, List.mapM_cons, hvalue]
    change (digitValues? rest).bind _ = _
    rw [ih hrest, List.map_cons, digitOf, hvalue]
    rfl

theorem isDecimalDigit_of_digitValues? {text : List Char} {values : List Nat}
    (hvalues : digitValues? text = some values) : ∀ c ∈ text, isDecimalDigit c = true := by
  induction text generalizing values with
  | nil => exact List.forall_mem_nil _
  | cons c rest ih =>
    rw [digitValues?, List.mapM_cons] at hvalues
    obtain ⟨value, hvalue, hnext⟩ := Option.bind_eq_some_iff.mp hvalues
    obtain ⟨others, hothers, -⟩ := Option.bind_eq_some_iff.mp hnext
    refine List.forall_mem_cons.mpr ⟨?_, ih hothers⟩
    rw [isDecimalDigit, hvalue, Option.isSome_some]

theorem plainNumber?_of_written {text digits : List Char} {fraction? : Option (List Char)}
    (htext : Written text digits fraction?) :
    plainNumber? text =
      some ⟨digits.map digitOf, fraction?.map fun fraction ↦ fraction.map digitOf⟩ := by
  cases htext with
  | whole hdigits =>
    have hend : ∀ c, ([] : List Char).head? = some c → isDecimalDigit c = false :=
      fun c hc ↦ nomatch hc
    have hspan := span_of_stop hdigits.2 hend
    rw [List.append_nil] at hspan
    rw [plainNumber?, List.span_eq_takeWhile_dropWhile, hspan.1, hspan.2]
    simp [digitValues?_of_digits hdigits.2, hdigits.1]
  | @pointed _ fraction hdigits hfraction =>
    have hstop : ∀ c, ('.' :: fraction).head? = some c → isDecimalDigit c = false := by
      rintro c hc
      cases hc
      decide
    have hspan := span_of_stop hdigits.2 hstop
    rw [plainNumber?, List.span_eq_takeWhile_dropWhile, hspan.1, hspan.2]
    simp [digitValues?_of_digits hdigits.2, digitValues?_of_digits hfraction.2, hdigits.1,
      hfraction.1]

theorem exists_written_of_plainNumber? {text : List Char} {number : PlainNumber}
    (hnumber : plainNumber? text = some number) :
    ∃ digits fraction?, Written text digits fraction? := by
  rw [plainNumber?, List.span_eq_takeWhile_dropWhile] at hnumber
  obtain ⟨values, hvalues, hrest⟩ := Option.bind_eq_some_iff.mp hnumber
  split at hrest
  · cases hrest
  next hsome =>
  have hdigits : DecimalText (text.takeWhile isDecimalDigit) := by
    refine ⟨fun hnil ↦ hsome ?_, fun c hc ↦ of_mem_takeWhile hc⟩
    rw [hnil] at hvalues
    cases hvalues
    rfl
  have hparts := List.takeWhile_append_dropWhile (p := isDecimalDigit) (l := text)
  split at hrest
  · next hend =>
    rw [hend, List.append_nil] at hparts
    rw [hparts] at hdigits
    exact ⟨text, none, .whole hdigits⟩
  · next point after hpoint =>
    split at hrest
    · next hafter =>
      obtain ⟨fraction, hfraction, -⟩ := Option.bind_eq_some_iff.mp hrest
      simp only [Bool.and_eq_true, decide_eq_true_eq, Bool.not_eq_true', List.isEmpty_eq_false_iff]
        at hafter
      rw [hpoint, hafter.1] at hparts
      refine ⟨text.takeWhile isDecimalDigit, some after, ?_⟩
      conv => arg 1; rw [← hparts]
      exact .pointed hdigits ⟨hafter.2, isDecimalDigit_of_digitValues? hfraction⟩
    · cases hrest

/-! ### What a literal stands for -/

/-- What a literal stands for under an expected data type: a number, or a fault. -/
inductive Resolves (data? : Option DataType) (text : List Char) :
    Except LiteralFault Number → Prop
  | notDecimal (hnone : ∀ digits fraction?, ¬ Written text digits fraction?) :
      Resolves data? text (.error .notDecimal)
  | double {digits : List Char} {fraction? : Option (List Char)}
      (htext : Written text digits fraction?)
      (htype : data? = some .float ∨ data? ≠ some .int ∧ fraction?.isSome = true) :
      Resolves data? text (.ok (.float (nearestDouble digits fraction?)))
  | fractional {digits fraction : List Char} (htext : Written text digits (some fraction))
      (htype : data? = some .int) : Resolves data? text (.error .fractional)
  | integer (htext : DecimalText text) (htype : data? ≠ some .float)
      (hrange : decimalNumber text ≤ int64Max) :
      Resolves data? text (.ok (.int (decimalNumber text)))
  | outOfRange (htext : DecimalText text) (htype : data? ≠ some .float)
      (hrange : int64Max < decimalNumber text) : Resolves data? text (.error .outOfRange)

/-- An answer says what the literal stands for: the number, or an error of code `S001` that names
the fault. -/
def Answers (lexeme : String) (answer : Except ReductionFailure Number) :
    Except LiteralFault Number → Prop
  | .ok number => answer = .ok number
  | .error fault => ∃ typeName,
      answer = .error (.semantic (.invalidLiteral lexeme typeName fault)) ∧
        (SemanticError.invalidLiteral lexeme typeName fault).code = "S001"

theorem answers_ok_iff {lexeme : String} {number : Number}
    {outcome : Except LiteralFault Number} :
    Answers lexeme (.ok number) outcome ↔ outcome = .ok number := by
  cases outcome with
  | ok found => simp [Answers, eq_comm]
  | error fault => simp [Answers]

theorem answers_error_iff {lexeme typeName : String} {fault : LiteralFault}
    {outcome : Except LiteralFault Number} :
    Answers lexeme (.error (.semantic (.invalidLiteral lexeme typeName fault))) outcome ↔
      outcome = .error fault := by
  cases outcome with
  | ok number => simp [Answers]
  | error found => simp [Answers, SemanticError.code, eq_comm]

/-- Digits that are taken for too long although their value is in range. -/
def Overlooked (data? : Option DataType) (text : List Char) : Prop :=
  data? ≠ some .float ∧ DecimalText text ∧ decimalNumber text ≤ int64Max ∧
    int64Digits < (text.dropWhile (· == '0')).length

/-! ### How a literal is resolved -/

section

variable {lexeme : String} (expected? : Option Tree)

theorem toBinary64_written (digits : List Char) (fraction? : Option (List Char)) :
    PlainNumber.toBinary64
        ⟨digits.map digitOf, fraction?.map fun fraction ↦ fraction.map digitOf⟩ =
      nearestDouble digits fraction? := by
  cases fraction? with
  | none =>
    simp [PlainNumber.toBinary64, nearestDouble, ofDigits_eq_ofDigits_reverse, decimalNumber]
  | some fraction =>
    simp [PlainNumber.toBinary64, nearestDouble, ofDigits_eq_ofDigits_reverse, decimalNumber]

theorem answers_of_not_written (hnone : ∀ digits fraction?,
    ¬ Written lexeme.toList digits fraction?) :
    Answers lexeme (resolveLiteral lexeme expected?) (.error .notDecimal) := by
  have hplain : plainNumber? lexeme.toList = none := by
    cases hnumber : plainNumber? lexeme.toList with
    | none => rfl
    | some number =>
      obtain ⟨digits, fraction?, htext⟩ := exists_written_of_plainNumber? hnumber
      exact absurd htext (hnone digits fraction?)
  rw [resolveLiteral, hplain]
  exact answers_error_iff.mpr rfl

/-- A literal with a fraction. -/
theorem answers_pointed_iff {digits fraction : List Char}
    (htext : Written lexeme.toList digits (some fraction)) (outcome : Except LiteralFault Number) :
    Answers lexeme (resolveLiteral lexeme expected?) outcome ↔
      outcome = if expectedData? expected? = some .int then .error .fractional
        else .ok (.float (nearestDouble digits (some fraction))) := by
  have hdouble := toBinary64_written digits (some fraction)
  rw [resolveLiteral, plainNumber?_of_written htext]
  rw [Option.map_some] at hdouble
  simp only [Option.map_some, hdouble]
  by_cases hfloat : expectedData? expected? = some .float
  · rw [if_pos hfloat, answers_ok_iff, hfloat, if_neg (by decide)]
  · rw [if_neg hfloat]
    split_ifs
    · exact answers_error_iff
    · exact answers_ok_iff

/-- A literal without a fraction, within the limit of digits. -/
theorem answers_whole_iff (htext : DecimalText lexeme.toList) (hlength : lexeme.length ≤ digitLimit)
    (outcome : Except LiteralFault Number) :
    Answers lexeme (resolveLiteral lexeme expected?) outcome ↔
      outcome = if expectedData? expected? = some .float then
          .ok (.float (nearestDouble lexeme.toList none))
        else if int64Digits < (lexeme.toList.dropWhile (· == '0')).length ∨
            int64Max < decimalNumber lexeme.toList then .error .outOfRange
        else .ok (.int (decimalNumber lexeme.toList)) := by
  have hdigits : (lexeme.toList.map digitOf).length ≤ digitLimit := by
    rwa [List.length_map, String.length_toList]
  have hdouble := toBinary64_written lexeme.toList none
  rw [resolveLiteral, plainNumber?_of_written (.whole htext)]
  rw [Option.map_none] at hdouble
  simp only [Option.map_none, hdouble]
  by_cases hfloat : expectedData? expected? = some .float
  · rw [if_pos hfloat, if_pos hfloat, answers_ok_iff]
  · rw [if_neg hfloat, if_neg hfloat, resolveInteger, if_neg (Nat.not_lt.mpr hdigits),
      ofDigits_eq_ofDigits_reverse, ← decimalNumber]
    by_cases hlong : int64Digits < (lexeme.toList.dropWhile (· == '0')).length
    · rw [if_pos hlong, if_pos (.inl hlong), answers_error_iff]
    · rw [if_neg hlong]
      by_cases hgreat : int64Max < decimalNumber lexeme.toList
      · rw [if_pos hgreat, if_pos (.inr hgreat), answers_error_iff]
      · rw [if_neg hgreat, if_neg (not_or.mpr ⟨hlong, hgreat⟩), answers_ok_iff]

theorem answers_of_resolves {outcome : Except LiteralFault Number}
    (hlength : lexeme.length ≤ digitLimit)
    (hfair : ¬ Overlooked (expectedData? expected?) lexeme.toList)
    (hresolves : Resolves (expectedData? expected?) lexeme.toList outcome) :
    Answers lexeme (resolveLiteral lexeme expected?) outcome := by
  cases hresolves with
  | notDecimal hnone => exact answers_of_not_written expected? hnone
  | @double digits fraction? htext htype =>
    cases fraction? with
    | none =>
      have hfloat : expectedData? expected? = some .float :=
        htype.resolve_right fun hpoint ↦ nomatch hpoint.2
      obtain ⟨rfl, hdigits⟩ := htext.of_none
      exact (answers_whole_iff expected? hdigits hlength _).mpr (if_pos hfloat).symm
    | some fraction =>
      have hint : expectedData? expected? ≠ some .int := by
        rintro hint
        rcases htype with hfloat | hother
        · cases hint.symm.trans hfloat
        · exact hother.1 hint
      exact (answers_pointed_iff expected? htext _).mpr (if_neg hint).symm
  | fractional htext htype => exact (answers_pointed_iff expected? htext _).mpr (if_pos htype).symm
  | integer htext htype hrange =>
    have hshort : ¬ int64Digits < (lexeme.toList.dropWhile (· == '0')).length :=
      fun hlong ↦ hfair ⟨htype, htext, hrange, hlong⟩
    refine (answers_whole_iff expected? htext hlength _).mpr ?_
    rw [if_neg htype, if_neg (not_or.mpr ⟨hshort, Int.not_lt.mpr hrange⟩)]
  | outOfRange htext htype hrange =>
    refine (answers_whole_iff expected? htext hlength _).mpr ?_
    rw [if_neg htype, if_pos (.inr hrange)]

/-- Every literal stands for a number or has a fault. -/
theorem exists_resolves (data? : Option DataType) (text : List Char) :
    ∃ outcome, Resolves data? text outcome := by
  by_cases hwritten : ∃ digits fraction?, Written text digits fraction?
  · obtain ⟨digits, fraction?, htext⟩ := hwritten
    by_cases hfloat : data? = some .float
    · exact ⟨_, .double htext (.inl hfloat)⟩
    cases htext with
    | whole hdigits =>
      by_cases hrange : decimalNumber text ≤ int64Max
      · exact ⟨_, .integer hdigits hfloat hrange⟩
      · exact ⟨_, .outOfRange hdigits hfloat (Int.not_le.mp hrange)⟩
    | pointed hdigits hfraction =>
      by_cases hint : data? = some .int
      · exact ⟨_, .fractional (.pointed hdigits hfraction) hint⟩
      · exact ⟨_, .double (.pointed hdigits hfraction) (.inr ⟨hint, rfl⟩)⟩
  · exact ⟨_, .notDecimal fun digits fraction? htext ↦ hwritten ⟨digits, fraction?, htext⟩⟩

theorem Answers.unique {answer : Except ReductionFailure Number}
    {first second : Except LiteralFault Number} (hfirst : Answers lexeme answer first)
    (hsecond : Answers lexeme answer second) : first = second := by
  cases second with
  | ok number =>
    rw [show answer = .ok number from hsecond] at hfirst
    exact answers_ok_iff.mp hfirst
  | error fault =>
    obtain ⟨typeName, hanswer, -⟩ := hsecond
    rw [hanswer] at hfirst
    exact answers_error_iff.mp hfirst

theorem answers_iff_resolves (hlength : lexeme.length ≤ digitLimit)
    (hfair : ¬ Overlooked (expectedData? expected?) lexeme.toList)
    (outcome : Except LiteralFault Number) :
    Answers lexeme (resolveLiteral lexeme expected?) outcome ↔
      Resolves (expectedData? expected?) lexeme.toList outcome := by
  refine ⟨fun hanswers ↦ ?_, answers_of_resolves expected? hlength hfair⟩
  obtain ⟨found, hfound⟩ := exists_resolves (expectedData? expected?) lexeme.toList
  rw [hanswers.unique (answers_of_resolves expected? hlength hfair hfound)]
  exact hfound

/-- Digits that are overlooked go on, behind the zeros of ASCII, with a zero of another script. -/
theorem Overlooked.exists_zero {data? : Option DataType} {text : List Char}
    (hoverlooked : Overlooked data? text) : ∃ zero rest,
      text.dropWhile (· == '0') = zero :: rest ∧ zero ≠ '0' ∧ decimalValue? zero = some 0 := by
  obtain ⟨-, htext, hrange, hlong⟩ := hoverlooked
  obtain ⟨zero, rest, hfront⟩ := List.exists_cons_of_length_pos (Nat.zero_lt_of_lt hlong)
  have hzero := List.head?_dropWhile_not (· == '0') text
  rw [hfront] at hzero
  have hdigit : isDecimalDigit zero = true := by
    refine htext.2 zero ((List.dropWhile_suffix (· == '0')).subset ?_)
    rw [hfront]
    exact List.mem_cons_self
  obtain ⟨value, hvalue⟩ := Option.isSome_iff_exists.mp hdigit
  have hnothing : digitOf zero = 0 := by
    by_contra hpositive
    rw [hfront] at hlong
    exact Int.not_lt.mpr hrange (int64Max_lt_of_long hfront hlong hpositive)
  rw [digitOf, hvalue, Option.getD_some] at hnothing
  exact ⟨zero, rest, hfront, beq_eq_false_iff_ne.mp hzero, by rw [hvalue, hnothing]⟩

/-! ### Zeros at the front -/

theorem Written.zeros_append {text digits : List Char} {fraction? : Option (List Char)}
    (htext : Written text digits fraction?) (count : Nat) :
    Written (zeros count ++ text) (zeros count ++ digits) fraction? := by
  have hzeros : ∀ {digits}, DecimalText digits → DecimalText (zeros count ++ digits) := by
    rintro digits ⟨hsome, hdigits⟩
    refine ⟨List.append_ne_nil_of_right_ne_nil _ hsome, List.forall_mem_append.mpr ⟨?_, hdigits⟩⟩
    intro zero hzero
    rw [List.eq_of_mem_replicate hzero]
    decide
  cases htext with
  | whole hdigits => exact .whole (hzeros hdigits)
  | pointed hdigits hfraction =>
    rw [← List.append_assoc]
    exact .pointed (hzeros hdigits) hfraction

theorem nearestDouble_zeros_append (count : Nat) (digits : List Char)
    (fraction? : Option (List Char)) :
    nearestDouble (zeros count ++ digits) fraction? = nearestDouble digits fraction? := by
  rw [nearestDouble, List.append_assoc, decimalNumber_zeros_append, nearestDouble]

/-- Zeros at the front of a literal do not change what it is resolved to. -/
theorem answers_zeros_append_iff {count : Nat} {digits : List Char} {fraction? : Option (List Char)}
    (htext : Written lexeme.toList digits fraction?) (hlength : count + lexeme.length ≤ digitLimit)
    (outcome : Except LiteralFault Number) :
    let longer := String.ofList (zeros count ++ lexeme.toList)
    Answers longer (resolveLiteral longer expected?) outcome ↔
      Answers lexeme (resolveLiteral lexeme expected?) outcome := by
  intro longer
  have hlonger : longer.toList = zeros count ++ lexeme.toList := String.toList_ofList
  have hwritten : Written longer.toList (zeros count ++ digits) fraction? :=
    hlonger ▸ htext.zeros_append count
  cases fraction? with
  | none =>
    have hlimit : longer.length ≤ digitLimit := by
      rw [← String.length_toList, hlonger, List.length_append, zeros, List.length_replicate]
      exact hlength
    obtain ⟨rfl, hdigits⟩ := htext.of_none
    have hzeros : (zeros count ++ lexeme.toList).dropWhile (· == '0') =
        lexeme.toList.dropWhile (· == '0') := (span_zeros (by decide) count lexeme.toList).2
    rw [answers_whole_iff expected? (hlonger ▸ hwritten.of_none.2) hlimit,
      answers_whole_iff expected? hdigits (Nat.le_of_add_left_le hlength), hlonger,
      decimalNumber_zeros_append, nearestDouble_zeros_append, hzeros]
  | some fraction =>
    rw [answers_pointed_iff expected? hwritten, answers_pointed_iff expected? htext,
      nearestDouble_zeros_append]

end

/-! ### Literals within the limit of digits -/

/-- A literal within the limit of digits is resolved to what it stands for, except if its value is
in range and it is taken for too long: it is then an integer whose digits go on, behind the zeros
of ASCII, with a zero of another script. Zeros of ASCII at its front never change the outcome. -/
theorem resolveLiteral_exact {lexeme : String} (hlength : lexeme.length ≤ digitLimit)
    (expected? : Option Tree) :
    (¬ Overlooked (expectedData? expected?) lexeme.toList → ∀ outcome,
      Answers lexeme (resolveLiteral lexeme expected?) outcome ↔
        Resolves (expectedData? expected?) lexeme.toList outcome) ∧
    (Overlooked (expectedData? expected?) lexeme.toList →
      Answers lexeme (resolveLiteral lexeme expected?) (.error .outOfRange) ∧
      Resolves (expectedData? expected?) lexeme.toList
        (.ok (.int (decimalNumber lexeme.toList))) ∧
      ∃ zero rest, lexeme.toList.dropWhile (· == '0') = zero :: rest ∧ zero ≠ '0' ∧
        decimalValue? zero = some 0) ∧
    ∀ count digits fraction?, Written lexeme.toList digits fraction? →
      count + lexeme.length ≤ digitLimit → ∀ outcome,
        let longer := String.ofList (zeros count ++ lexeme.toList)
        Answers longer (resolveLiteral longer expected?) outcome ↔
          Answers lexeme (resolveLiteral lexeme expected?) outcome := by
  refine ⟨answers_iff_resolves expected? hlength, fun hoverlooked ↦ ?_,
    fun count digits fraction? ↦ answers_zeros_append_iff expected?⟩
  have hzero := hoverlooked.exists_zero
  obtain ⟨htype, htext, hrange, hlong⟩ := hoverlooked
  refine ⟨(answers_whole_iff expected? htext hlength _).mpr ?_, .integer htext htype hrange, hzero⟩
  rw [if_neg htype, if_pos (.inl hlong)]

/-- The greatest 64-bit integer behind three zeros is resolved to itself. -/
theorem resolveLiteral_exact_greatest :
    resolveLiteral "0009223372036854775807" (some (.basicType .int)) = .ok (.int int64Max) := by
  have hdigits : DecimalText "0009223372036854775807".toList :=
    ⟨by decide, List.all_eq_true.mp (by decide +kernel)⟩
  have hvalue : (decimalNumber "0009223372036854775807".toList : Int) = int64Max := by
    decide +kernel
  have hfair : ¬ Overlooked (some .int) "0009223372036854775807".toList := by
    rintro ⟨-, -, -, hlong⟩
    exact absurd hlong (by decide +kernel)
  have hlength : "0009223372036854775807".length ≤ digitLimit := by decide +kernel
  have hexact := (resolveLiteral_exact hlength (some (.basicType .int))).1 hfair
  refine (hexact (.ok (.int int64Max))).mpr ?_
  rw [← hvalue]
  exact .integer hdigits (by decide) (le_of_eq hvalue)

/-- Twenty zeros of the Arabic script. -/
def twentyZeros : String := String.ofList (List.replicate 20 '\u0660')

/-- The twenty zeros write the integer zero, and are refused as out of range. -/
theorem resolveLiteral_twentyZeros :
    twentyZeros.length ≤ digitLimit ∧ Resolves (some .int) twentyZeros.toList (.ok (.int 0)) ∧
      resolveLiteral twentyZeros (some (.basicType .int)) =
        .error (.semantic (.invalidLiteral twentyZeros "int" .outOfRange)) := by
  have hdigits : DecimalText twentyZeros.toList :=
    ⟨by decide +kernel, List.all_eq_true.mp (by decide +kernel)⟩
  have hvalue : decimalNumber twentyZeros.toList = 0 := by decide +kernel
  have hresolves : Resolves (some .int) twentyZeros.toList
      (.ok (.int (decimalNumber twentyZeros.toList))) :=
    .integer hdigits (by decide) (by rw [hvalue]; decide)
  rw [hvalue] at hresolves
  exact ⟨by decide +kernel, hresolves, by rfl⟩

end LetLang
