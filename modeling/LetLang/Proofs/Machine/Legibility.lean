import LetLang.Proofs.Machine.Compilation
import LetLang.Proofs.Syntax.NodeLines

/-!
# The code of a formed program has a text

An instruction has a text if everything it refers to has a name. The slots of a formed program are
named after its identifiers, and a name that is taken already gets a number behind it, so every
instruction that is recorded refers to printable names only (`legible_visit`). The text of the module
is there, and holds no escape character unless the name of the module does (`exists_moduleText?`).
-/

set_option autoImplicit false

namespace LetLang

open Text

/-! ### Legible code -/

/-- There is a name, and it is printable. -/
def Lexeme.Legible (name : Lexeme) : Prop := ∃ text, name = some text ∧ Printable text

/-- The operand refers to a printable name, if it refers to one. -/
def Operand.Legible : Operand → Prop
  | int _ | float _ => True
  | register _ name => Lexeme.Legible name

/-- The instruction refers to printable names only. -/
def Instr.Legible : Instr → Prop
  | alloca slot _ => Lexeme.Legible slot
  | store value slot => value.Legible ∧ Lexeme.Legible slot
  | load register _ slot => Lexeme.Legible register ∧ Lexeme.Legible slot
  | arith register _ _ left right => Lexeme.Legible register ∧ left.Legible ∧ right.Legible
  | ret value => value.Legible

/-- All that was recorded refers to printable names only. -/
structure EmissionState.Legible (state : EmissionState) : Prop where
  code : ∀ instr ∈ state.code, instr.Legible
  slots : ∀ name slot, state.slots.lookup name = some slot → Lexeme.Legible slot.name
  result : ∀ operand, state.result? = some operand → operand.Legible

/-! ### Texts -/

theorem printable_nameChar {c : Char} (hc : isPrintable c = true) :
    ∀ d ∈ nameChar c, isPrintable d = true := by
  unfold nameChar
  split
  · exact List.all_eq_true.mp (by decide)
  · split
    · exact List.all_eq_true.mp (by decide)
    · exact List.forall_mem_singleton.mpr hc

theorem Lexeme.Legible.exists_reference? {name : Lexeme} (hname : Lexeme.Legible name) :
    ∃ text, reference? name = some text ∧ Printable text := by
  obtain ⟨text, rfl, htext⟩ := hname
  refine ⟨_, rfl, ?_⟩
  simp only [reference, over_append, over_ofList]
  refine ⟨⟨by decide, fun d hd ↦ ?_⟩, by decide⟩
  obtain ⟨c, hc, hd⟩ := List.mem_flatMap.mp hd
  exact printable_nameChar (htext c hc) d hd

theorem Operand.Legible.exists_text? {operand : Operand} (hoperand : operand.Legible) :
    ∃ text, operand.text? = some text ∧ Printable text := by
  cases operand with
  | int value => exact ⟨_, rfl, printable_toString value⟩
  | float value =>
    have htext : Printable ("0x" ++ hexText value.bits.toNat) :=
      over_append.mpr ⟨by decide, printable_hexText _⟩
    exact ⟨_, rfl, over_padLeft (by decide) htext 16⟩
  | register type name => exact Lexeme.Legible.exists_reference? hoperand

theorem ValueType.printable_text (type : ValueType) : Printable type.text := by
  cases type <;> decide

theorem Operand.Legible.exists_typedText? {operand : Operand} (hoperand : operand.Legible) :
    ∃ text, operand.typedText? = some text ∧ Printable text := by
  obtain ⟨text, htext, hprintable⟩ := hoperand.exists_text?
  refine ⟨operand.type.text ++ " " ++ text, by rw [typedText?, htext]; rfl, ?_⟩
  simp only [over_append]
  exact ⟨⟨operand.type.printable_text, by decide⟩, hprintable⟩

theorem Lexeme.Legible.exists_pointerText? {slot : Lexeme} (hslot : Lexeme.Legible slot)
    (type : ValueType) : ∃ text, pointerText? type slot = some text ∧ Printable text := by
  obtain ⟨text, htext, hprintable⟩ := hslot.exists_reference?
  refine ⟨type.text ++ "* " ++ text, by rw [pointerText?, htext]; rfl, ?_⟩
  simp only [over_append]
  exact ⟨⟨type.printable_text, by decide⟩, hprintable⟩

theorem printable_opcode (op : ArithOp) (type : ValueType) : Printable (opcode op type) := by
  cases op <;> cases type <;> decide

/-- A legible instruction has a text, which is printable. -/
theorem Instr.Legible.exists_text? {instr : Instr} (hinstr : instr.Legible) :
    ∃ text, instr.text? = some text ∧ Printable text := by
  cases instr with
  | alloca slot type =>
    obtain ⟨text, htext, hprintable⟩ := Lexeme.Legible.exists_reference? hinstr
    refine ⟨text ++ " = alloca " ++ type.text, by rw [text?, htext]; rfl, ?_⟩
    simp only [over_append, hprintable, type.printable_text, true_and, and_true]
    decide
  | store value slot =>
    obtain ⟨text, htext, hprintable⟩ := hinstr.1.exists_typedText?
    obtain ⟨pointer, hpointer, hpointerPrintable⟩ := hinstr.2.exists_pointerText? value.type
    refine ⟨"store " ++ text ++ ", " ++ pointer, by rw [text?, htext, hpointer]; rfl, ?_⟩
    simp only [over_append, hprintable, hpointerPrintable, and_true]
    decide
  | load register type slot =>
    obtain ⟨text, htext, hprintable⟩ := hinstr.1.exists_reference?
    obtain ⟨pointer, hpointer, hpointerPrintable⟩ := hinstr.2.exists_pointerText? type
    refine ⟨text ++ " = load " ++ type.text ++ ", " ++ pointer, by
      rw [text?, htext, hpointer]; rfl, ?_⟩
    simp only [over_append, hprintable, hpointerPrintable, type.printable_text, true_and, and_true]
    decide
  | arith register op type left right =>
    obtain ⟨text, htext, hprintable⟩ := hinstr.1.exists_reference?
    obtain ⟨first, hfirst, hfirstPrintable⟩ := hinstr.2.1.exists_text?
    obtain ⟨second, hsecond, hsecondPrintable⟩ := hinstr.2.2.exists_text?
    refine ⟨text ++ " = " ++ opcode op type ++ " " ++ type.text ++ " " ++ first ++ ", " ++ second, by
      rw [text?, htext, hfirst, hsecond]; rfl, ?_⟩
    simp only [over_append, hprintable, hfirstPrintable, hsecondPrintable, printable_opcode op type,
      type.printable_text, true_and, and_true]
    decide
  | ret value =>
    obtain ⟨text, htext, hprintable⟩ := Operand.Legible.exists_typedText? hinstr
    exact ⟨"ret " ++ text, by rw [text?, htext]; rfl, over_append.mpr ⟨by decide, hprintable⟩⟩

theorem exists_mapM_text? {code : List Instr} (hcode : ∀ instr ∈ code, instr.Legible) :
    ∃ lines, code.mapM Instr.text? = some lines ∧ ∀ line ∈ lines, Printable line := by
  induction code with
  | nil => exact ⟨[], rfl, List.forall_mem_nil _⟩
  | cons instr code ih =>
    obtain ⟨hinstr, hrest⟩ := List.forall_mem_cons.mp hcode
    obtain ⟨line, hline, hprintable⟩ := hinstr.exists_text?
    obtain ⟨lines, hlines, hall⟩ := ih hrest
    refine ⟨line :: lines, ?_, List.forall_mem_cons.mpr ⟨hprintable, hall⟩⟩
    rw [List.mapM_cons, hline, hlines]
    rfl

theorem escapeless_moduleFrame {name : String} {lines : List String} (hname : Escapeless name)
    (hlines : ∀ line ∈ lines, Printable line) : Escapeless (moduleFrame name lines) := by
  have hbody : Escapeless (String.join (lines.map fun line => "  " ++ line ++ "\n")) := by
    refine over_join (List.forall_mem_map.mpr fun line hline ↦ ?_)
    simp only [over_append]
    exact ⟨⟨by decide, (hlines line hline).escapeless⟩, by decide⟩
  have hfront : Escapeless ("; ModuleID = \"" ++ name ++ "\"\n") := by
    simp only [over_append]
    exact ⟨⟨by decide, hname⟩, by decide⟩
  unfold moduleFrame
  refine over_append.mpr ⟨over_append.mpr ⟨?_, hbody⟩, by decide⟩
  refine over_append.mpr ⟨over_append.mpr ⟨over_append.mpr ⟨?_, by decide⟩, by decide⟩, by decide⟩
  refine over_append.mpr ⟨over_append.mpr ⟨over_append.mpr ⟨?_, by decide⟩, by decide⟩, by decide⟩
  exact over_append.mpr ⟨hfront, by decide +kernel⟩

/-- The text of a module of legible code is there, and holds no escape character besides those in
the name of the module. -/
theorem exists_moduleText?_of_legible {code : List Instr} (hcode : ∀ instr ∈ code, instr.Legible)
    (name : String) :
    ∃ text, moduleText? name code = some text ∧ (Escapeless name → Escapeless text) := by
  obtain ⟨lines, hlines, hprintable⟩ := exists_mapM_text? hcode
  refine ⟨moduleFrame name lines, ?_, fun hname ↦ escapeless_moduleFrame hname hprintable⟩
  rw [moduleText?, hlines]
  rfl

/-! ### Compilation records legible code -/

theorem legible_some {name : String} (hname : Printable name) : Lexeme.Legible (some name) :=
  ⟨name, rfl, hname⟩

/-- A name made from a legible one is legible. -/
theorem Lexeme.Legible.fresh {base : Lexeme} (hbase : Lexeme.Legible base) (names : Names) :
    Lexeme.Legible (names.fresh base).1 := by
  unfold Names.fresh
  split
  · obtain ⟨text, rfl, htext⟩ := hbase
    exact legible_some (over_append.mpr ⟨over_append.mpr ⟨htext, by decide⟩, printable_repr _⟩)
  · exact hbase

theorem EmissionState.legible_initial : EmissionState.initial.Legible := by
  constructor
  · exact List.forall_mem_nil _
  · intro name slot hslot
    cases hslot
  · intro operand hoperand
    cases hoperand

namespace EmissionState.Legible

variable {state : EmissionState}

theorem record (hstate : state.Legible) {base : Lexeme} (hbase : Lexeme.Legible base)
    {instr : Lexeme → Instr} (hinstr : ∀ name, Lexeme.Legible name → (instr name).Legible) :
    (state.record base instr).Legible where
  code := List.forall_mem_cons.mpr ⟨hinstr _ (hbase.fresh state.names), hstate.code⟩
  slots := hstate.slots
  result := hstate.result

/-- A store takes a name made from the empty one. -/
theorem store (hstate : state.Legible) {value : Operand} {slot : Lexeme} (hvalue : value.Legible)
    (hslot : Lexeme.Legible slot) :
    (state.record (some "") fun _ => .store value slot).Legible :=
  hstate.record (legible_some (by decide)) fun _ _ ↦ ⟨hvalue, hslot⟩

theorem setSlot (hstate : state.Legible) (name : Lexeme) {slot : Slot}
    (hslot : Lexeme.Legible slot.name) :
    EmissionState.Legible { state with slots := setSlot name slot state.slots } where
  code := hstate.code
  slots := by
    intro other found hfound
    rw [lookup_setSlot] at hfound
    split at hfound
    · cases hfound
      exact hslot
    · exact hstate.slots other found hfound
  result := hstate.result

theorem compute (hstate : state.Legible) {base : String} (hbase : Printable base) (op : ArithOp)
    (type : ValueType) {left right : Operand} (hleft : left.Legible) (hright : right.Legible) :
    (state.record (some base) fun name => .arith name op type left right).Legible ∧
      Operand.Legible (.register type (state.names.fresh (some base)).1) :=
  ⟨hstate.record (legible_some hbase) fun _ hname ↦ ⟨hname, hleft, hright⟩,
    (legible_some hbase).fresh state.names⟩

theorem negate (hstate : state.Legible) {value negated : Operand} {after : EmissionState}
    (hvalue : value.Legible) (hnegate : Emission.negate value state = .ok negated after) :
    after.Legible ∧ negated.Legible := by
  unfold Emission.negate at hnegate
  generalize value.type = type at hnegate
  cases type with
  | int =>
    cases hnegate
    exact hstate.compute (by decide) _ _ trivial hvalue
  | float =>
    cases hnegate
    exact hstate.compute (by decide) _ _ trivial hvalue

end EmissionState.Legible

theorem printable_resultName (op : ArithOp) : Printable (Emission.resultName op) := by
  cases op <;> decide

/-- What the compilation of a node leaves is legible: the state, and the value if there is one. -/
structure LegibleEnd (value? : Option Operand) (after : EmissionState) : Prop where
  state : after.Legible
  value : ∀ operand, value? = some operand → operand.Legible

theorem legibleEnd_none {after : EmissionState} (hafter : after.Legible) : LegibleEnd none after := by
  refine ⟨hafter, fun operand hoperand ↦ ?_⟩
  cases hoperand

theorem legibleEnd_some {operand : Operand} {after : EmissionState} (hafter : after.Legible)
    (hoperand : operand.Legible) : LegibleEnd (some operand) after := by
  refine ⟨hafter, ?_⟩
  rintro _ ⟨⟩
  exact hoperand

/-- What the compilation of a formed tree leaves is legible, if what was recorded before is. The
induction is on the levels that the compilation may go down. -/
theorem legible_visit (levels : Nat) :
    ∀ {standing : Standing} {tree : Tree} {before after : EmissionState} {value? : Option Operand},
      tree.Formed .reduced standing → before.Legible →
      Emission.visit levels tree before = .ok value? after → LegibleEnd value? after := by
  induction levels with
  | zero =>
    intro standing tree before after value? _ _ hvisit
    cases hvisit
  | succ levels ih =>
    intro standing tree before after value? hformed hbefore hvisit
    cases hformed with
    | @program _ statements hstatements =>
      obtain ⟨_, last, hrun, hpure⟩ := Run.exists_of_bind_eq_ok hvisit
      cases hpure
      clear hvisit
      -- each statement is compiled from what the one before it left
      refine legibleEnd_none ?_
      induction statements generalizing before with
      | nil =>
        cases hrun
        exact hbefore
      | cons statement rest ihRest =>
        obtain ⟨hstatement, hrest⟩ := List.forall_mem_cons.mp hstatements
        obtain ⟨_, middle, hfirst, hrun⟩ := Run.exists_of_bind_eq_ok hrun
        obtain ⟨_, _, hvisit, hpure⟩ := Run.exists_of_bind_eq_ok hfirst
        cases hpure
        exact ihRest (ih hstatement hbefore hvisit).state hrest hrun
    | @declaration _ keyword name type value hname htype hvalue =>
      obtain ⟨operand, middle, made, hoperand, rfl, rfl, rfl⟩ :=
        Emission.exists_of_visit_declaration hvisit
      obtain ⟨hmiddle, hlegible⟩ := ih hvalue hbefore hoperand
      have hbase : Lexeme.Legible (some name) := legible_some hname.plain.printable
      -- the slot is named after the variable, and the store takes a name of its own
      have hslot := hbase.fresh middle.names
      have hmade : (middle.record (some name) fun slot => .alloca slot operand.type).Legible :=
        hmiddle.record hbase fun _ hslot ↦ hslot
      exact legibleEnd_none ((hmade.store (hlegible operand rfl) hslot).setSlot _ hslot)
    | assignment hname hvalue =>
      obtain ⟨slot, operand, middle, hlookup, hoperand, -, rfl, rfl⟩ :=
        Emission.exists_of_visit_assignment hvisit
      obtain ⟨hmiddle, hlegible⟩ := ih hvalue hbefore hoperand
      exact legibleEnd_none (hmiddle.store (hlegible operand rfl) (hbefore.slots _ slot hlookup))
    | statement hexpression =>
      obtain ⟨operand, middle, hoperand, rfl, rfl⟩ := Emission.exists_of_visit_statement hvisit
      obtain ⟨hmiddle, hlegible⟩ := ih hexpression hbefore hoperand
      refine legibleEnd_none ?_
      split
      · exact ⟨hmiddle.code, hmiddle.slots, hlegible⟩
      · exact hmiddle
    | @arith _ op left right hleft hright =>
      obtain ⟨leftOperand, rightOperand, middle, last, hvisitLeft, hvisitRight, -, rfl, rfl⟩ :=
        Emission.exists_of_visit_arith hvisit
      obtain ⟨hmiddle, hleftLegible⟩ := ih hleft hbefore hvisitLeft
      obtain ⟨hlast, hrightLegible⟩ := ih hright hmiddle hvisitRight
      obtain ⟨hafter, hregister⟩ := hlast.compute (printable_resultName op) op leftOperand.type
        (hleftLegible leftOperand rfl) (hrightLegible rightOperand rfl)
      exact legibleEnd_some hafter hregister
    | negation hfactor =>
      obtain ⟨inner, middle, hinner, hnegate⟩ := Emission.exists_of_needed_bind hvisit
      obtain ⟨negated, _, hnegated, hpure⟩ := Run.exists_of_bind_eq_ok hnegate
      cases hpure
      obtain ⟨hmiddle, hlegible⟩ := ih hfactor hbefore hinner
      obtain ⟨hafter, hresult⟩ := hmiddle.negate (hlegible inner rfl) hnegated
      exact legibleEnd_some hafter hresult
    | parenthesized hexpression => exact ih hexpression hbefore hvisit
    | @identifier _ name hname =>
      obtain ⟨slot, _, hslot, hload⟩ := Run.exists_of_bind_eq_ok hvisit
      obtain ⟨hlookup, rfl⟩ := Emission.eq_of_slotOf_eq_ok hslot
      rw [Run.bind_of_ok (Emission.load_eq before _ slot)] at hload
      cases hload
      have hbase : Lexeme.Legible (some (name ++ ".load")) :=
        legible_some (over_append.mpr ⟨hname.plain.printable, by decide⟩)
      refine legibleEnd_some (hbefore.record hbase fun _ hregister ↦ ?_) (hbase.fresh before.names)
      exact ⟨hregister, hbefore.slots _ slot hlookup⟩
    | integer value =>
      cases hvisit
      exact legibleEnd_some hbefore trivial
    | float value =>
      cases hvisit
      exact legibleEnd_some hbefore trivial
    | _ => cases hvisit

/-- The text of the code of a formed program is there, and holds no escape character besides those in
the name of the module. -/
theorem exists_moduleText? {program : Tree} {code : List Instr}
    (hformed : program.Formed .reduced .program) (hcode : (emit program).result = .ok code)
    (name : String) :
    ∃ text, moduleText? name code = some text ∧ (Escapeless name → Escapeless text) := by
  unfold emit at hcode
  split at hcode
  · next value? state hvisit =>
    cases hcode
    obtain ⟨hstate, -⟩ := legible_visit _ hformed EmissionState.legible_initial hvisit
    refine exists_moduleText?_of_legible (List.forall_mem_append.mpr ⟨?_, ?_⟩) name
    · exact fun instr hinstr ↦ hstate.code instr (List.mem_reverse.mp hinstr)
    · refine List.forall_mem_singleton.mpr ?_
      cases hresult : state.result? with
      | none => trivial
      | some operand => exact hstate.result operand hresult
  · cases hcode

end LetLang
