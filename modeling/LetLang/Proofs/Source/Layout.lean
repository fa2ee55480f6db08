import LetLang.Proofs.Source.Pieces
import LetLang.Source.Lexing

/-!
# Laying tokens out as text

The other way round from lexing: tokens are written down with gaps between them, and lexing the text
gives the same tokens back, whatever the gaps (`lex_layout`). A gap is made of blanks and of
comments with the line feeds that end them (`IsGap`); behind the last token a comment may be left
open (`IsTail`).

What carries this is that a piece of a text cannot reach over a break, which is the end of the text,
a blank or the mark of a comment (`IsBreak`): no such character continues a word, a number or an
operator. Only an open comment goes on, and it does so up to the next line feed. So a text in front
of a break is cut as it would be if nothing came after it (`Piece.first_append`).
-/

set_option autoImplicit false

namespace LetLang

open Text

/-! ### Breaks -/

/-- The text is over, or goes on with a blank or a comment. -/
def IsBreak (text : List Char) : Prop := ∀ c, text.head? = some c → isBlank c = true ∨ c = '#'

/-- A run in front of a character that fails the test ends there at the latest. -/
theorem span_append (test : Char → Bool) {rest : List Char}
    (hstop : ∀ c, rest.head? = some c → test c = false) (front : List Char) :
    (front ++ rest).takeWhile test = front.takeWhile test ∧
      (front ++ rest).dropWhile test = front.dropWhile test ++ rest := by
  induction front with
  | nil => simpa using span_of_stop (List.forall_mem_nil _) hstop
  | cons c front ih =>
    cases htest : test c with
    | false => simp [htest]
    | true => simp [htest, ih]

namespace IsBreak

variable {rest : List Char}

/-- What is of a class apart from blanks and marks does not stand at a break. -/
theorem not_of_head? (hbreak : IsBreak rest) {test : Char → Bool}
    (hblank : ∀ c, test c = true → isBlank c = false) (hmark : test '#' = false) :
    ∀ c, rest.head? = some c → test c = false := by
  intro c hc
  rw [Bool.eq_false_iff]
  intro htest
  rcases hbreak c hc with hc | rfl
  · rw [hblank c htest] at hc
    cases hc
  · rw [hmark] at htest
    cases htest

theorem not_isDigit (hbreak : IsBreak rest) : ∀ c, rest.head? = some c → isDigit c = false :=
  hbreak.not_of_head? (fun _ ↦ isBlank_of_isDigit) (by decide)

theorem not_continuesWord (hbreak : IsBreak rest) :
    ∀ c, rest.head? = some c → Piece.continuesWord c = false := by
  refine hbreak.not_of_head? (fun c hword ↦ ?_) (by decide)
  rw [Piece.continuesWord, Bool.or_eq_true, Bool.or_eq_true, beq_iff_eq] at hword
  rcases hword with (hletter | hnumeral) | rfl
  · exact isBlank_of_isLetter hletter
  · exact isBlank_of_isNumeral hnumeral
  · decide

theorem not_startsNone (hbreak : IsBreak rest) :
    ∀ c, rest.head? = some c → Piece.startsNone c = false := by
  refine hbreak.not_of_head? (fun c hnone ↦ ?_) (by decide)
  simp only [Piece.startsNone, Bool.and_eq_true, Bool.not_eq_true'] at hnone
  exact hnone.1.1.1

end IsBreak

/-! ### Cutting in front of a break -/

namespace Piece

variable {c : Char} {rest : List Char}

theorem numberFirst_append (hbreak : IsBreak rest) (more : List Char) :
    numberFirst c (more ++ rest) = ((numberFirst c more).1, (numberFirst c more).2 ++ rest) := by
  obtain ⟨htake, hdrop⟩ := span_append isDigit hbreak.not_isDigit more
  by_cases hpoint : ∃ after, more.dropWhile isDigit = '.' :: after
  · obtain ⟨after, hafter⟩ := hpoint
    obtain ⟨htakeAfter, hdropAfter⟩ := span_append isDigit hbreak.not_isDigit after
    have hjoined : (more ++ rest).dropWhile isDigit = '.' :: (after ++ rest) := by
      rw [hdrop, hafter, List.cons_append]
    rw [numberFirst_of_point hjoined, numberFirst_of_point hafter, htake, htakeAfter, hdropAfter]
    split <;> rfl
  · have hjoined : ∀ after, (more ++ rest).dropWhile isDigit ≠ '.' :: after := by
      intro after hafter
      rw [hdrop] at hafter
      cases hmore : more.dropWhile isDigit with
      | nil =>
        rw [hmore, List.nil_append] at hafter
        have hstops := hbreak.not_startsNone '.' (by rw [hafter, List.head?_cons])
        revert hstops
        decide
      | cons d others =>
        rw [hmore, List.cons_append, List.cons.injEq] at hafter
        exact hpoint ⟨others, by rw [hmore, hafter.1]⟩
    rw [numberFirst_of_no_point hjoined, numberFirst_of_no_point (not_exists.mp hpoint), htake,
      hdrop]

/-- The second character of an operator starts no piece of another sort either. -/
theorem operatorKind?_of_isBreak (hbreak : IsBreak rest) {d : Char} {others : List Char}
    (hrest : rest = d :: others) : operatorKind? (String.ofList [c, d]) = none := by
  have hstops := hbreak.not_startsNone d (by rw [hrest, List.head?_cons])
  rw [Option.eq_none_iff_forall_ne_some]
  intro kind hkind
  have htable : ∀ entry ∈ operators, entry.1.toList.tail.all startsNone = true := by decide +kernel
  have hsecond := htable _ (operatorKind?_eq_some_iff.mp hkind)
  rw [String.toList_ofList] at hsecond
  simp [hstops] at hsecond

theorem shortOperatorFirst_append (more : List Char) :
    shortOperatorFirst c (more ++ rest) =
      ((shortOperatorFirst c more).1, (shortOperatorFirst c more).2 ++ rest) := by
  unfold shortOperatorFirst
  split <;> rfl

theorem operatorFirst_append (hbreak : IsBreak rest) (more : List Char) :
    operatorFirst c (more ++ rest) =
      ((operatorFirst c more).1, (operatorFirst c more).2 ++ rest) := by
  cases more with
  | cons next more =>
    rw [List.cons_append, operatorFirst, operatorFirst]
    split
    · rfl
    · exact shortOperatorFirst_append (next :: more)
  | nil =>
    cases hrest : rest with
    | nil =>
      rw [List.append_nil, List.append_nil]
    | cons d others =>
      rw [List.nil_append]
      simp only [operatorFirst, operatorKind?_of_isBreak hbreak hrest]
      exact shortOperatorFirst_append []

/-- In front of a break, the first piece is what it would be if nothing came behind. A comment has
to be broken by a line feed. -/
theorem first_append (hbreak : IsBreak rest)
    (hline : c = '#' → ∀ d, rest.head? = some d → d = '\n') (more : List Char) :
    first c (more ++ rest) = ((first c more).1, (first c more).2 ++ rest) := by
  unfold first
  split
  · rfl
  split
  · next hmark =>
    obtain ⟨htake, hdrop⟩ := span_append (· != '\n')
      (fun d hd ↦ by simp [hline hmark d hd]) more
    rw [htake, hdrop]
  split
  · obtain ⟨htake, hdrop⟩ := span_append continuesWord hbreak.not_continuesWord more
    rw [htake, hdrop]
  split
  · exact numberFirst_append hbreak more
  · exact operatorFirst_append hbreak more

/-- A text that is one piece is cut off whole. -/
theorem first_of_fits {piece : Piece} {more : List Char} (hfits : Fits piece [])
    (htext : piece.text = c :: more) : first c more = (piece, []) := by
  have hcovers := covers_first hfits (by rw [List.append_nil, htext])
  have hlength := congrArg List.length (text_first c more)
  rw [List.length_append, ← htext] at hlength
  have hle := hcovers.le
  have hsame : piece = (first c more).1 := hcovers.eq (by omega)
  have hnone : (first c more).2 = [] := List.length_eq_zero_iff.mp (by omega)
  rw [hsame, ← hnone]

end Piece

/-! ### What lexing gives for a text -/

/-- The tokens of a text. -/
def tokensOf (text : List Char) : List Token := (pieces text).filterMap Piece.token?

/-- The faults of a text. -/
def faultsOf (text : List Char) : List LexFault := (pieces text).filterMap Piece.fault?

theorem tokens_lex (source file : String) :
    (lex source file).tokens = tokensOf source.toList ++ [Token.endOfStream] := rfl

theorem locate_eq_nil_iff (file : String) (position : Position) (found : List Piece) :
    (Piece.locate file position found).1 = [] ↔ found.filterMap Piece.fault? = [] := by
  induction found generalizing position with
  | nil => simp [Piece.locate]
  | cons piece found ih =>
    rw [Piece.locate]
    cases hfault : piece.fault? with
    | none => simpa [hfault] using ih _
    | some fault => simp [hfault]

theorem errors_lex_eq_nil_iff (source file : String) :
    (lex source file).errors = [] ↔ faultsOf source.toList = [] :=
  locate_eq_nil_iff file {} (pieces source.toList)

/-- A text is lexed to the given tokens, without a fault. -/
structure Lexes (text : List Char) (tokens : List Token) : Prop where
  tokens : tokensOf text = tokens
  faults : faultsOf text = []

theorem lexes_nil : Lexes [] [] := ⟨rfl, rfl⟩

/-- A piece in front of a text adds the token that it has, if any. -/
theorem Lexes.cons {c : Char} {more rest : List Char} {piece : Piece} {tokens : List Token}
    (hrest : Lexes rest tokens) (hfirst : Piece.first c more = (piece, rest))
    (hfault : piece.fault? = none) : Lexes (c :: more) (piece.token?.toList ++ tokens) := by
  obtain ⟨htokens, hfaults⟩ := hrest
  constructor
  · rw [tokensOf, pieces_cons, hfirst, ← htokens, List.filterMap_cons]
    cases piece.token? <;> rfl
  · rw [faultsOf, pieces_cons, hfirst, List.filterMap_cons, hfault]
    exact hfaults

/-! ### Gaps -/

/-- Blanks and comments, each comment with the line feed that ends it. -/
inductive IsGap : List Char → Prop
  | nil : IsGap []
  | blank {c : Char} {rest : List Char} (hblank : isBlank c = true) (hrest : IsGap rest) :
      IsGap (c :: rest)
  | comment {body rest : List Char} (hbody : '\n' ∉ body) (hrest : IsGap rest) :
      IsGap ('#' :: (body ++ '\n' :: rest))

/-- What may stand behind the last token: a gap, and perhaps a comment that no line feed ends. -/
inductive IsTail : List Char → Prop
  | gap {text : List Char} (hgap : IsGap text) : IsTail text
  | comment {text body : List Char} (hgap : IsGap text) (hbody : '\n' ∉ body) :
      IsTail (text ++ '#' :: body)

/-- A comment is cut off up to the end of its line. -/
theorem Lexes.comment {body rest : List Char} {tokens : List Token} (hrest : Lexes rest tokens)
    (hbody : '\n' ∉ body) (hline : ∀ c, rest.head? = some c → c = '\n') :
    Lexes ('#' :: (body ++ rest)) tokens := by
  have hrun : ∀ c ∈ body, (c != '\n') = true := by
    intro c hc
    rw [bne_iff_ne]
    rintro rfl
    exact hbody hc
  have hstop : ∀ c, rest.head? = some c → (c != '\n') = false := fun c hc ↦ by simp [hline c hc]
  obtain ⟨htake, hdrop⟩ := span_of_stop hrun hstop
  have hfirst : Piece.first '#' (body ++ rest) = (.comment ('#' :: body), rest) := by
    rw [Piece.first_mark, htake, hdrop]
  exact hrest.cons hfirst rfl

theorem Lexes.blank {c : Char} {rest : List Char} {tokens : List Token} (hrest : Lexes rest tokens)
    (hblank : isBlank c = true) : Lexes (c :: rest) tokens :=
  hrest.cons (Piece.first_of_isBlank hblank) rfl

/-- A gap in front of a text adds nothing. -/
theorem IsGap.lexes {gap rest : List Char} {tokens : List Token} (hgap : IsGap gap)
    (hrest : Lexes rest tokens) : Lexes (gap ++ rest) tokens := by
  induction hgap with
  | nil => exact hrest
  | blank hblank _ ih => exact ih.blank hblank
  | @comment body more hbody _ ih =>
    have hline : Lexes ('\n' :: (more ++ rest)) tokens := ih.blank (by decide)
    simpa using hline.comment hbody (by simp)

theorem IsTail.lexes {tail : List Char} (htail : IsTail tail) : Lexes tail [] := by
  cases htail with
  | gap hgap => simpa using hgap.lexes lexes_nil
  | @comment text body hgap hbody =>
    have hopen : Lexes ('#' :: (body ++ [])) [] := lexes_nil.comment hbody (by simp)
    rw [List.append_nil] at hopen
    exact hgap.lexes hopen

theorem IsGap.isBreak {gap : List Char} (hgap : IsGap gap) (hne : gap ≠ []) (rest : List Char) :
    IsBreak (gap ++ rest) := by
  intro c hc
  cases hgap with
  | nil => exact absurd rfl hne
  | blank hblank _ =>
    cases hc
    exact .inl hblank
  | comment _ _ =>
    cases hc
    exact .inr rfl

theorem IsTail.isBreak {tail : List Char} (htail : IsTail tail) : IsBreak tail := by
  cases htail with
  | @gap _ hgap =>
    by_cases hne : tail = []
    · rw [hne]
      exact fun c hc ↦ nomatch hc
    · simpa using hgap.isBreak hne []
  | @comment text body hgap _ =>
    by_cases hne : text = []
    · rw [hne]
      exact fun c hc ↦ .inr (Option.some.inj hc).symm
    · exact hgap.isBreak hne _

/-! ### Items -/

/-- The text of a word. -/
def IsWord (text : List Char) : Prop :=
  ∃ c more, text = c :: more ∧ Piece.startsWord c = true ∧
    ∀ d ∈ more, Piece.continuesWord d = true

/-- A token that can be written down: an identifier, a keyword, the name of a data type, a number or
an operator. -/
inductive IsItem : Token → Prop
  | identifier {text : List Char} (htext : IsWord text) (hkeyword : String.ofList text ∉ keywords)
      (hname : String.ofList text ∉ dataTypeNames) :
      IsItem ⟨.identifier, some (String.ofList text)⟩
  | keyword {word : String} (hword : word ∈ keywords) : IsItem ⟨.keyword, some word⟩
  | dataType {name : String} (hname : name ∈ dataTypeNames) : IsItem ⟨.dataType, some name⟩
  | number {text : List Char} (htext : Piece.IsNumber text) :
      IsItem ⟨.numberLiteral, some (String.ofList text)⟩
  | operator {text : String} {kind : TokenKind} (hkind : (text, kind) ∈ operators) :
      IsItem ⟨kind, some text⟩

/-- The characters that a token is written with. -/
def Token.spelling (token : Token) : List Char := (token.lexeme.getD "").toList

/-- A piece with a token, in front of a break, adds this token. -/
theorem Lexes.item {piece : Piece} {token : Token} {rest : List Char} {tokens : List Token}
    (hrest : Lexes rest tokens) (hbreak : IsBreak rest) (hfits : piece.Fits [])
    (htoken : piece.token? = some token) (htext : piece.text = token.spelling) :
    Lexes (token.spelling ++ rest) (token :: tokens) := by
  obtain ⟨c, more, hspelling⟩ := List.exists_cons_of_ne_nil hfits.text_ne_nil
  have hwhole := Piece.first_of_fits hfits hspelling
  have hmark : c ≠ '#' := by
    rintro rfl
    rw [Piece.first_mark, Prod.mk.injEq] at hwhole
    rw [← hwhole.1] at htoken
    cases htoken
  have hfirst : Piece.first c (more ++ rest) = (piece, rest) := by
    rw [Piece.first_append hbreak (fun h ↦ absurd h hmark), hwhole, List.nil_append]
  have hfault : piece.fault? = none := by
    cases piece with
    | word | number | operator => rfl
    | _ => cases htoken
  have hlexes := hrest.cons hfirst hfault
  rw [htoken] at hlexes
  rw [← htext, hspelling]
  exact hlexes

theorem wordKind_of_mem_keywords {word : String} (hword : word ∈ keywords) :
    wordKind word = .keyword := by
  have htable : ∀ word ∈ keywords, wordKind word = .keyword := by decide +kernel
  exact htable word hword

theorem wordKind_of_mem_dataTypeNames {name : String} (hname : name ∈ dataTypeNames) :
    wordKind name = .dataType := by
  have htable : ∀ name ∈ dataTypeNames, wordKind name = .dataType := by decide +kernel
  exact htable name hname

theorem wordKind_of_not_mem {word : String} (hkeyword : word ∉ keywords)
    (hname : word ∉ dataTypeNames) : wordKind word = .identifier := by
  rw [wordKind, if_neg (by simpa using hkeyword), if_neg (by simpa using hname)]

/-- Keywords and names of data types are words. -/
theorem isWord_of_mem {word : String} (hword : word ∈ keywords ++ dataTypeNames) :
    IsWord word.toList := by
  have htable : ∀ word ∈ keywords ++ dataTypeNames, word.toList.head?.any Piece.startsWord = true ∧
      word.toList.tail.all Piece.continuesWord = true := by decide +kernel
  obtain ⟨hstart, hmore⟩ := htable word hword
  cases htext : word.toList with
  | nil => rw [htext] at hstart; cases hstart
  | cons c more =>
    rw [htext] at hstart hmore
    exact ⟨c, more, rfl, hstart, List.all_eq_true.mp hmore⟩

/-- A word in front of a break adds a token of its kind. -/
theorem Lexes.word {text rest : List Char} {tokens : List Token} (hrest : Lexes rest tokens)
    (hbreak : IsBreak rest) (htext : IsWord text) :
    Lexes (text ++ rest)
      (⟨wordKind (String.ofList text), some (String.ofList text)⟩ :: tokens) := by
  obtain ⟨c, more, rfl, hstart, hmore⟩ := htext
  let token : Token := ⟨wordKind (String.ofList (c :: more)), some (String.ofList (c :: more))⟩
  have hspelling : token.spelling = c :: more := String.toList_ofList
  have hlexes := hrest.item hbreak (.word hstart hmore) rfl hspelling.symm
  rwa [hspelling] at hlexes

/-- An item in front of a break adds itself. -/
theorem IsItem.lexes {item : Token} {rest : List Char} {tokens : List Token} (hitem : IsItem item)
    (hbreak : IsBreak rest) (hrest : Lexes rest tokens) :
    Lexes (item.spelling ++ rest) (item :: tokens) := by
  cases hitem with
  | @identifier text htext hkeyword hname =>
    have hlexes := hrest.word hbreak htext
    rw [wordKind_of_not_mem hkeyword hname] at hlexes
    simpa [Token.spelling] using hlexes
  | @keyword word hword =>
    have hlexes := hrest.word hbreak (isWord_of_mem (List.mem_append_left _ hword))
    rwa [String.ofList_toList, wordKind_of_mem_keywords hword] at hlexes
  | @dataType name hname =>
    have hlexes := hrest.word hbreak (isWord_of_mem (List.mem_append_right _ hname))
    rwa [String.ofList_toList, wordKind_of_mem_dataTypeNames hname] at hlexes
  | @number text htext =>
    exact hrest.item hbreak (.number htext) rfl (by simp [Token.spelling, Piece.text])
  | @operator text kind hkind =>
    have hfits : (Piece.operator kind text.toList).Fits [] :=
      .operator (by rwa [String.ofList_toList])
    exact hrest.item hbreak hfits (by rw [Piece.token?, String.ofList_toList]) rfl

/-! ### Layouts -/

/-- The text of items, each written behind its gap, and of what follows the last. -/
def layout (items : List (List Char × Token)) (tail : List Char) : List Char :=
  items.flatMap (fun entry => entry.1 ++ entry.2.spelling) ++ tail

theorem layout_cons (gap : List Char) (item : Token) (items : List (List Char × Token))
    (tail : List Char) :
    layout ((gap, item) :: items) tail = gap ++ (item.spelling ++ layout items tail) := by
  simp [layout]

/-- Behind an item, the layout goes on with a gap that is not empty, or with the tail. -/
theorem isBreak_layout {items : List (List Char × Token)} {tail : List Char}
    (hgaps : ∀ entry ∈ items, IsGap entry.1 ∧ entry.1 ≠ []) (htail : IsTail tail) :
    IsBreak (layout items tail) := by
  cases items with
  | nil => exact htail.isBreak
  | cons entry items =>
    obtain ⟨gap, item⟩ := entry
    obtain ⟨hgap, hne⟩ := hgaps _ List.mem_cons_self
    rw [layout_cons]
    exact hgap.isBreak hne _

theorem lexes_layout {items : List (List Char × Token)} {tail : List Char}
    (hgaps : ∀ entry ∈ items, IsGap entry.1) (hitems : ∀ entry ∈ items, IsItem entry.2)
    (hapart : ∀ entry ∈ items.tail, entry.1 ≠ []) (htail : IsTail tail) :
    Lexes (layout items tail) (items.map Prod.snd) := by
  induction items with
  | nil => exact htail.lexes
  | cons entry items ih =>
    obtain ⟨gap, item⟩ := entry
    obtain ⟨hgap, hgaps⟩ := List.forall_mem_cons.mp hgaps
    obtain ⟨hitem, hitems⟩ := List.forall_mem_cons.mp hitems
    have hbreak : IsBreak (layout items tail) :=
      isBreak_layout (fun entry hentry ↦ ⟨hgaps entry hentry, hapart entry hentry⟩) htail
    have hrest := ih hgaps hitems fun entry hentry ↦ hapart entry (List.mem_of_mem_tail hentry)
    rw [layout_cons]
    exact hgap.lexes (hitem.lexes hbreak hrest)

/-- Whatever the gaps, as long as there is one between any two items, lexing a layout gives its
items back, in their order and with the end of the stream behind them, and reports no error. -/
theorem lex_layout (items : List (List Char × Token)) (tail : List Char) (file : String)
    (hgaps : ∀ entry ∈ items, IsGap entry.1) (hitems : ∀ entry ∈ items, IsItem entry.2)
    (hapart : ∀ entry ∈ items.tail, entry.1 ≠ []) (htail : IsTail tail) :
    (lex (String.ofList (layout items tail)) file).errors = [] ∧
      (lex (String.ofList (layout items tail)) file).tokens =
        items.map Prod.snd ++ [Token.endOfStream] := by
  have hlexes := lexes_layout hgaps hitems hapart htail
  rw [errors_lex_eq_nil_iff, tokens_lex, String.toList_ofList]
  exact ⟨hlexes.faults, by rw [hlexes.tokens]⟩

/-- Operators that together would be another one, a word that a keyword starts, and comments that
touch what stands before them. -/
theorem lex_layout_commented :
    let items : List (List Char × Token) :=
      [([], ⟨.keyword, some "mut"⟩), ("#=\n".toList, ⟨.identifier, some "let_"⟩),
        (" #\n".toList, ⟨.lessThan, some "<"⟩), ("\t".toList, ⟨.assignment, some "="⟩),
        ("\n".toList, ⟨.numberLiteral, some "1.5"⟩)]
    (∀ entry ∈ items, IsGap entry.1) ∧ (∀ entry ∈ items, IsItem entry.2) ∧
      (∀ entry ∈ items.tail, entry.1 ≠ []) ∧ IsTail "#;".toList ∧
      layout items "#;".toList = "mut#=\nlet_ #\n<\t=\n1.5#;".toList ∧
      (lex "mut#=\nlet_ #\n<\t=\n1.5#;" "").errors = [] ∧
      (lex "mut#=\nlet_ #\n<\t=\n1.5#;" "").tokens = items.map Prod.snd ++ [Token.endOfStream] := by
  intro items
  have hcomment : IsGap ['#', '=', '\n'] := .comment (by decide : '\n' ∉ ['=']) .nil
  have hempty : IsGap ['#', '\n'] := .comment (by decide : '\n' ∉ []) .nil
  have hgaps : ∀ entry ∈ items, IsGap entry.1 := by
    simp only [items, List.forall_mem_cons]
    exact ⟨.nil, hcomment, .blank (by decide) hempty, .blank (by decide) .nil,
      .blank (by decide) .nil, List.forall_mem_nil _⟩
  have hname : IsWord ['l', 'e', 't', '_'] :=
    ⟨'l', ['e', 't', '_'], rfl, by decide, List.all_eq_true.mp (by decide)⟩
  have hone : Piece.AreDigits ['1'] := ⟨by simp, List.all_eq_true.mp (by decide)⟩
  have hfive : Piece.AreDigits ['5'] := ⟨by simp, List.all_eq_true.mp (by decide)⟩
  have hnumber : Piece.IsNumber ['1', '.', '5'] := .fractional hone hfive
  have hitems : ∀ entry ∈ items, IsItem entry.2 := by
    simp only [items, List.forall_mem_cons]
    exact ⟨.keyword (by decide), .identifier hname (by decide) (by decide), .operator (by decide),
      .operator (by decide), .number hnumber, List.forall_mem_nil _⟩
  have hapart : ∀ entry ∈ items.tail, entry.1 ≠ [] := by decide
  have htail : IsTail ['#', ';'] := .comment .nil (by decide : '\n' ∉ [';'])
  have htext : layout items "#;".toList = "mut#=\nlet_ #\n<\t=\n1.5#;".toList := rfl
  have hlex := lex_layout items "#;".toList "" hgaps hitems hapart htail
  rw [htext, String.ofList_toList] at hlex
  exact ⟨hgaps, hitems, hapart, htail, htext, hlex⟩

end LetLang
