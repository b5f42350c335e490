import MiniIp.Invariant.FormatScan

/-!
# The end of a format

`format_string` stops at the terminator of its format unless a directive is cut off there, behind its '{', its flags or
its digits. Then it takes the terminator for the conversion, steps over it and reads on.
-/

set_option autoImplicit false

namespace MiniIp.Guarantees.FormatEnd

open MiniIp.Source MiniIp.Invariant

variable {VaList : Type} {chars : List UInt8}

theorem formatString_complete (va : StdArg VaList) (hzero : 0 ∉ chars) (hcomplete : Complete chars) (size : Int)
    (arguments : VaList) (memory : Memory) :
    ∃ result, formatString va (chars ++ [0]) size arguments memory = .ok result := by
  have hfuel : chars.length < (chars ++ [0]).length + 1 := by
    rw [List.length_append]
    omega
  obtain ⟨out, hloop⟩ := (formatLoop_spec va size hzero hfuel arguments ⟨0, memory⟩).1 hcomplete
  exact ⟨(out.buffer - 0, out.memory), by rw [formatString, hloop]; rfl⟩

/-- It is never for want of fuel that there is no result. -/
theorem formatString_cut (va : StdArg VaList) (hzero : 0 ∉ chars) (hcut : ¬ Complete chars) (size : Int)
    (arguments : VaList) (memory : Memory) :
    formatString va (chars ++ [0]) size arguments memory = .error .readPastEnd := by
  have hfuel : chars.length < (chars ++ [0]).length + 1 := by
    rw [List.length_append]
    omega
  rw [formatString, (formatLoop_spec va size hzero hfuel arguments ⟨0, memory⟩).2 hcut]
  rfl

/-- Every zero-terminated format, with any arguments. -/
theorem format_returns_iff (va : StdArg VaList) (hzero : 0 ∉ chars) (size : Int) (arguments : VaList)
    (memory : Memory) :
    (∃ result, formatString va (chars ++ [0]) size arguments memory = .ok result) ↔ Complete chars := by
  constructor
  · intro hresult
    by_contra hcut
    obtain ⟨result, hresult⟩ := hresult
    rw [formatString_cut va hzero hcut] at hresult
    cases hresult
  · intro hcomplete
    exact formatString_complete va hzero hcomplete size arguments memory

/-- "a{05s" without its brace. -/
theorem format_returns_iff_unclosed :
    (∃ result, formatString stackArguments ([97, 123, 48, 53, 115] ++ [0]) 16 [7] (fun _ => 0) = .ok result) ↔
      Complete [97, 123, 48, 53, 115] :=
  format_returns_iff stackArguments (by decide) 16 [7] (fun _ => 0)

/-- A '{' as the last character. -/
theorem format_reads_on : ¬ ∃ result, formatString stackArguments ([123] ++ [0]) 16 [] (fun _ => 0) = .ok result := by
  have hcut : formatString stackArguments ([123] ++ [0]) 16 [] (fun _ => 0) = .error .readPastEnd := rfl
  rintro ⟨result, hresult⟩
  rw [hcut] at hresult
  cases hresult

end MiniIp.Guarantees.FormatEnd
