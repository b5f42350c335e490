import Mathlib.Tactic.Common
import MiniIp.Source.Format

/-!
# Where the scan of a format stands

A format is text with directives in it. After each character the scan is in the text, among the flags of a directive or
among its digits; any other character ends the directive. Each loop of the scanner keeps the state and stops before
the terminator at the latest, so `format_string` gets through a format when no directive is cut off, and reads on
behind the terminator otherwise.
-/

set_option autoImplicit false

namespace MiniIp.Invariant

open MiniIp.Source

inductive ScanState where
  | text | flags | digits
  deriving DecidableEq, Repr

/-- '0', '<', '+', ' ' and '_' -/
def isFlag (c : UInt8) : Bool := c = 48 ∨ c = 60 ∨ c = 43 ∨ c = 32 ∨ c = 95

def ScanState.next : ScanState → UInt8 → ScanState
  | .text, c => if c = 123 then .flags else .text
  | .flags, c => if isFlag c then .flags else if isDigit c then .digits else .text
  | .digits, c => if isDigit c then .digits else .text

/-- The state behind the characters. -/
def ScanState.after (state : ScanState) (chars : List UInt8) : ScanState := chars.foldl ScanState.next state

/-- No directive is cut off by the terminator. -/
def Complete (chars : List UInt8) : Prop := ScanState.text.after chars = .text

instance (chars : List UInt8) : Decidable (Complete chars) := inferInstanceAs (Decidable (_ = _))

/-- Arguments that are words on a stack, a `long long` with its lower half first. The only pointer to a text is null. -/
def stackArguments : StdArg (List UInt32) where
  int words := (words.headD 0, words.tail)
  longLong words := ((words.headD 0).toUInt64 ||| (words.tail.headD 0).toUInt64 <<< 32, words.tail.tail)
  text words := (none, words.tail)

/-- What is left of the characters, with the state before it. -/
structure Leaves (state state' : ScanState) (chars rest : List UInt8) : Prop where
  suffix : rest <:+ chars
  after : state.after chars = state'.after rest

variable {VaList : Type} {va : StdArg VaList} {chars rest : List UInt8} {c : UInt8} {d : Directive VaList}
  {arguments : VaList} {width stop : Int} {out : Output} {state state' state'' : ScanState} {fuel : ℕ}

theorem Leaves.self (state : ScanState) (chars : List UInt8) : Leaves state state chars chars :=
  ⟨List.suffix_refl chars, rfl⟩

theorem Leaves.cons (hnext : state.next c = state') (h : Leaves state' state'' chars rest) :
    Leaves state state'' (c :: chars) rest := by
  subst hnext
  exact ⟨h.suffix.trans (List.suffix_cons c chars), h.after⟩

theorem Leaves.notMem (h : Leaves state state' chars rest) (hzero : 0 ∉ chars) : 0 ∉ rest :=
  fun hmem => hzero (h.suffix.subset hmem)

theorem flagStep_isSome (va : StdArg VaList) (c : UInt8) (d : Directive VaList) :
    (flagStep va c d).isSome = isFlag c := by
  unfold flagStep isFlag
  split_ifs <;> simp_all
  split <;> rfl

theorem flagStep_none (h : isFlag c = false) : flagStep va c d = none := by
  rw [← Option.not_isSome_iff_eq_none, flagStep_isSome, h]
  decide

theorem flagStep_some (va : StdArg VaList) (d : Directive VaList) (h : isFlag c = true) : ∃ d', flagStep va c d = some d' := by
  rw [← Option.isSome_iff_exists, flagStep_isSome, h]

/-- The terminator is read, but nothing behind it. -/
theorem readChar_append (chars : List UInt8) : readChar (chars ++ [0]) = .ok (chars.headD 0) := by
  cases chars with
  | nil => rfl
  | cons c rest => rfl

theorem headD_ne (h : 0 ∉ c :: rest) : c ≠ 0 := fun hc => h (hc ▸ List.mem_cons_self)

/-- A letter that the scan steps over when it is there. -/
theorem skip_spec (chars : List UInt8) (hc : c ≠ 0) (hnext : c ≠ 123) :
    ∃ rest, (if chars.headD 0 = c then (chars ++ [0]).tail else chars ++ [0]) = rest ++ [0] ∧
      Leaves .text .text chars rest := by
  cases chars with
  | nil => exact ⟨[], if_neg hc.symm, Leaves.self .text []⟩
  | cons first rest =>
    by_cases hfirst : first = c
    · subst hfirst
      have hstate : ScanState.text.next first = .text := if_neg hnext
      exact ⟨rest, if_pos rfl, Leaves.cons hstate (Leaves.self .text rest)⟩
    · exact ⟨first :: rest, if_neg hfirst, Leaves.self .text _⟩

theorem scanFlags_spec (va : StdArg VaList) (hzero : 0 ∉ chars) (d : Directive VaList) :
    ∃ rest d', scanFlags va (chars ++ [0]) d = .ok (rest ++ [0], d') ∧ Leaves .flags .flags chars rest ∧
      ∀ c ∈ rest.head?, isFlag c = false := by
  induction chars generalizing d with
  | nil => exact ⟨[], d, rfl, Leaves.self .flags [], fun c hc => absurd hc (by simp)⟩
  | cons c chars ih =>
    rw [List.cons_append, scanFlags]
    cases hflag : isFlag c with
    | true =>
      obtain ⟨d', hstep⟩ := flagStep_some va d hflag
      obtain ⟨rest, d'', hscan, hleaves, hhead⟩ := ih (fun hmem => hzero (List.mem_cons_of_mem c hmem)) d'
      have hstate : ScanState.flags.next c = .flags := if_pos hflag
      rw [hstep]
      exact ⟨rest, d'', hscan, Leaves.cons hstate hleaves, hhead⟩
    | false =>
      rw [flagStep_none hflag]
      refine ⟨c :: chars, d, rfl, Leaves.self .flags _, fun c' hc' => ?_⟩
      obtain rfl := Option.some.inj hc'
      exact hflag

theorem scanWidth_spec (hzero : 0 ∉ chars) (width : Int) :
    ∃ rest width', scanWidth (chars ++ [0]) width = .ok (rest ++ [0], width') ∧ Leaves .digits .digits chars rest ∧
      ∀ c ∈ rest.head?, isDigit c = false := by
  induction chars generalizing width with
  | nil => exact ⟨[], width, rfl, Leaves.self .digits [], fun c hc => absurd hc (by simp)⟩
  | cons c chars ih =>
    rw [List.cons_append, scanWidth]
    by_cases hdigit : isDigit c = true
    · obtain ⟨rest, width', hscan, hleaves, hhead⟩ :=
        ih (fun hmem => hzero (List.mem_cons_of_mem c hmem)) (intWrap (10 * width + (c.toNat - 48)))
      have hstate : ScanState.digits.next c = .digits := if_pos hdigit
      rw [if_pos hdigit]
      exact ⟨rest, width', hscan, Leaves.cons hstate hleaves, hhead⟩
    · rw [if_neg hdigit]
      refine ⟨c :: chars, width, rfl, Leaves.self .digits _, fun c' hc' => ?_⟩
      obtain rfl := Option.some.inj hc'
      exact Bool.eq_false_iff.mpr hdigit

/-- Where the flags have ended, a digit and any other character mean the same among the digits. -/
theorem flags_end (hhead : ∀ c ∈ chars.head?, isFlag c = false) :
    ScanState.flags.after chars = .text ↔ ScanState.digits.after chars = .text := by
  cases chars with
  | nil => decide
  | cons c rest =>
    have hstate : ScanState.flags.next c = ScanState.digits.next c := by
      rw [ScanState.next, hhead c rfl]
      rfl
    rw [ScanState.after, ScanState.after, List.foldl_cons, List.foldl_cons, hstate]

/-- What the loops have found makes the directive, with an 'l' behind the conversion. -/
theorem scanDirective_eq {string flagged behind : List UInt8}
    (hflags : scanFlags va string ⟨{}, 0, arguments⟩ = .ok (flagged ++ [0], d))
    (hwidth : scanWidth (flagged ++ [0]) d.width = .ok (c :: behind ++ [0], width)) :
    scanDirective va string arguments = .ok {
      conversion := c
      string := if behind.headD 0 = 108 then (behind ++ [0]).tail else behind ++ [0]
      directive := {
        flags := { d.flags with
          sizeGiven := d.flags.sizeGiven || isDigit (flagged.headD 0)
          bigNumber := d.flags.bigNumber || behind.headD 0 = 108 }
        width := width
        arguments := d.arguments } } := by
  have hnext : readChar (c :: behind ++ [0]).tail = .ok (behind.headD 0) := readChar_append behind
  simp only [scanDirective, hflags, readChar_append, hwidth, bind, Except.bind, hnext]
  rfl

/-- A directive ends behind its letters, or is cut off. -/
theorem scanDirective_spec (va : StdArg VaList) (hzero : 0 ∉ chars) (arguments : VaList) :
    (∃ scanned rest, scanDirective va (chars ++ [0]) arguments = .ok scanned ∧ scanned.string = rest ++ [0] ∧
      rest <:+ chars ∧ (ScanState.flags.after chars = .text ↔ Complete rest)) ∨
      scanDirective va (chars ++ [0]) arguments = .error .readPastEnd ∧ ScanState.flags.after chars ≠ .text := by
  obtain ⟨flagged, d, hflags, hleaves, hhead⟩ := scanFlags_spec va hzero ⟨{}, 0, arguments⟩
  obtain ⟨sized, width, hwidth, hleaves', hhead'⟩ := scanWidth_spec (hleaves.notMem hzero) d.width
  have hstate : ScanState.flags.after chars = .text ↔ ScanState.digits.after sized = .text := by
    rw [hleaves.after, flags_end hhead, hleaves'.after]
  cases sized with
  | nil =>
    refine .inr ⟨?_, fun htext => absurd (hstate.mp htext) (by decide)⟩
    simp only [scanDirective, hflags, readChar_append, hwidth, bind, Except.bind]
    rfl
  | cons c behind =>
    obtain ⟨rest, hskip, hrest⟩ := skip_spec behind (by decide : (108 : UInt8) ≠ 0) (by decide)
    have hdigit : ScanState.digits.next c = .text := by
      rw [ScanState.next, hhead' c rfl]
      rfl
    have hletter : Leaves .digits .text (c :: behind) rest := Leaves.cons hdigit hrest
    refine .inl ⟨_, rest, scanDirective_eq hflags hwidth, hskip, ?_, ?_⟩
    · exact (hletter.suffix.trans hleaves'.suffix).trans hleaves.suffix
    · rw [hstate, hletter.after, Complete]

section Steps

variable {string : List UInt8} {scanned : Scanned VaList} {brace : UInt8}

theorem formatLoop_char (hc : c ≠ 0) (hbrace : c ≠ 123) :
    formatLoop va stop (fuel + 1) (c :: string) arguments out =
      formatLoop va stop fuel string arguments (writeChar c stop out) := by
  have hread : readChar (c :: string) = .ok c := rfl
  simp only [formatLoop, hread, bind, Except.bind]
  simp [hc, hbrace]

theorem formatLoop_directive (hscan : scanDirective va string arguments = .ok scanned)
    (hread : readChar scanned.string = .ok brace) :
    formatLoop va stop (fuel + 1) (123 :: string) arguments out =
      formatLoop va stop fuel (if brace = 125 then scanned.string.tail else scanned.string)
        (convert va scanned.conversion scanned.directive stop out).1
        (convert va scanned.conversion scanned.directive stop out).2 := by
  have hopen : readChar (123 :: string) = .ok 123 := rfl
  simp only [formatLoop, hopen, bind, Except.bind, List.tail_cons, hscan, hread]
  rfl

theorem formatLoop_cut {error : FormatError} (hscan : scanDirective va string arguments = .error error) :
    formatLoop va stop (fuel + 1) (123 :: string) arguments out = .error error := by
  have hopen : readChar (123 :: string) = .ok 123 := rfl
  simp only [formatLoop, hopen, bind, Except.bind, List.tail_cons, hscan]
  rfl

theorem formatLoop_unread {error : FormatError} (hscan : scanDirective va string arguments = .ok scanned)
    (hread : readChar scanned.string = .error error) :
    formatLoop va stop (fuel + 1) (123 :: string) arguments out = .error error := by
  have hopen : readChar (123 :: string) = .ok 123 := rfl
  simp only [formatLoop, hopen, bind, Except.bind, List.tail_cons, hscan, hread]
  rfl

end Steps

/-- The loop gets to the terminator exactly when no directive is cut off. -/
theorem formatLoop_spec (va : StdArg VaList) (stop : Int) (hzero : 0 ∉ chars) (hfuel : chars.length < fuel)
    (arguments : VaList) (out : Output) :
    (Complete chars → ∃ out', formatLoop va stop fuel (chars ++ [0]) arguments out = .ok out') ∧
      (¬ Complete chars → formatLoop va stop fuel (chars ++ [0]) arguments out = .error .readPastEnd) := by
  induction fuel generalizing chars arguments out with
  | zero => omega
  | succ fuel ih =>
    cases chars with
    | nil => exact ⟨fun _ => ⟨out, rfl⟩, fun h => absurd rfl h⟩
    | cons c chars =>
      have hrest : 0 ∉ chars := fun hmem => hzero (List.mem_cons_of_mem c hmem)
      rw [List.length_cons] at hfuel
      rw [List.cons_append]
      by_cases hopen : c = 123
      · subst hopen
        have hstate : Complete (123 :: chars) ↔ ScanState.flags.after chars = .text := Iff.rfl
        rcases scanDirective_spec va hrest arguments with ⟨scanned, rest, hscan, hstring, hsuffix, hcomplete⟩ | hcut
        · have hread : readChar scanned.string = .ok (rest.headD 0) := by rw [hstring, readChar_append]
          obtain ⟨rest', hskip, hleaves⟩ := skip_spec rest (by decide : (125 : UInt8) ≠ 0) (by decide)
          have hsame : Complete rest ↔ Complete rest' := by rw [Complete, hleaves.after, Complete]
          have hshorter := (hleaves.suffix.trans hsuffix).length_le
          have hnotMem : 0 ∉ rest' := fun hmem => hrest ((hleaves.suffix.trans hsuffix).subset hmem)
          rw [formatLoop_directive hscan hread, hstring, hskip, hstate, hcomplete, hsame]
          exact ih hnotMem (by omega) _ _
        · rw [formatLoop_cut hcut.1, hstate]
          exact ⟨fun htext => absurd htext hcut.2, fun _ => rfl⟩
      · have hstate : Complete (c :: chars) ↔ Complete chars := by
          have hnext : ScanState.text.next c = .text := if_neg hopen
          rw [Complete, Complete, ScanState.after, List.foldl_cons, hnext, ScanState.after]
        rw [formatLoop_char (headD_ne hzero) hopen, hstate]
        exact ih hrest (by omega) arguments (writeChar c stop out)

end MiniIp.Invariant
