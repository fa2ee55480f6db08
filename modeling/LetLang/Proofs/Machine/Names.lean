import LetLang.Machine.Names

/-!
# Fresh names are free

A name that was taken for an instruction is never given again (`Names.fresh_not_mem`). The search for
a number behind a name tries one number more than there are names taken, and numbers behind the same
name make different names, so one of the tries has to succeed.
-/

set_option autoImplicit false

namespace LetLang.Names

theorem toString_injective {first second : Nat} (hsame : toString first = toString second) :
    first = second := by
  have hdigits : Nat.toDigits 10 first = Nat.toDigits 10 second := by
    have hlists := congrArg String.toList hsame
    simpa [Nat.toString_eq_ofList_toDigits] using hlists
  calc first = Nat.ofDigitChars 10 (Nat.toDigits 10 first) 0 :=
        Nat.ofDigitChars_ten_toDigits.symm
    _ = Nat.ofDigitChars 10 (Nat.toDigits 10 second) 0 := by rw [hdigits]
    _ = second := Nat.ofDigitChars_ten_toDigits

theorem numbered_injective {base : Lexeme} {first second : Nat}
    (hsame : numbered base first = numbered base second) : first = second := by
  have htext := Option.some.inj hsame
  rw [String.append_right_inj] at htext
  exact toString_injective htext

/-- If even the number that the search ends with makes a name that is taken, then so did every number
that it tried. -/
theorem numbered_mem_of_freeNumber_mem {taken : List Lexeme} {base : Lexeme} (tries : Nat) :
    ∀ last, numbered base (freeNumber taken base tries last) ∈ taken →
      ∀ step, step ≤ tries → numbered base (last + 1 + step) ∈ taken := by
  induction tries with
  | zero =>
    intro last hmem step hstep
    obtain rfl := Nat.le_zero.mp hstep
    exact hmem
  | succ tries ih =>
    intro last hmem step hstep
    rw [freeNumber] at hmem
    split at hmem
    · next hfirst =>
      cases step with
      | zero => simpa using hfirst
      | succ step =>
        have hlater := ih (last + 1) hmem step (Nat.le_of_succ_le_succ hstep)
        rwa [show last + 1 + (step + 1) = last + 1 + 1 + step by omega]
    · next hfirst => exact absurd hmem (by simpa using hfirst)

theorem numbered_freeNumber_not_mem (taken : List Lexeme) (base : Lexeme) (last : Nat) :
    numbered base (freeNumber taken base taken.length last) ∉ taken := by
  intro hmem
  let tried := (List.range (taken.length + 1)).map fun step ↦ numbered base (last + 1 + step)
  have hnodup : tried.Nodup := by
    refine List.Pairwise.map _ (fun first second hne hsame ↦ hne ?_) List.nodup_range
    have := numbered_injective hsame
    omega
  have hsubset : tried ⊆ taken := by
    intro name hname
    obtain ⟨step, hstep, rfl⟩ := List.mem_map.mp hname
    have hle : step ≤ taken.length := Nat.le_of_lt_succ (List.mem_range.mp hstep)
    exact numbered_mem_of_freeNumber_mem taken.length last hmem step hle
  have hlength := hnodup.length_le_of_subset hsubset
  rw [List.length_map, List.length_range] at hlength
  omega

/-- The name that is given was not taken before. -/
theorem fresh_not_mem (names : Names) (base : Lexeme) : (names.fresh base).1 ∉ names.taken := by
  unfold fresh
  split
  · exact numbered_freeNumber_not_mem names.taken base (names.counter base)
  · next hbase => simpa using hbase

/-- The name that is given is the only one that is taken besides those before. -/
theorem taken_fresh (names : Names) (base : Lexeme) :
    (names.fresh base).2.taken = (names.fresh base).1 :: names.taken := by
  unfold fresh
  split
  · rfl
  · rfl

end LetLang.Names
