import MiniIp.Guarantees.RenderedNumbers

/-!
# What a format stands for

The formats of `format_string` (utilities.c:73-223) as a language: a format is a list of pieces, each a plain character or
a directive, and a directive is a list of marks, a width in digits, an item and the letter 'l'. Each piece takes its
arguments and stands for a text, and `format_string` writes these texts one after the other, as far as the buffer goes.
-/

set_option autoImplicit false

namespace MiniIp.Guarantees.FormatMeaning

open MiniIp.Library MiniIp.Source MiniIp.Invariant MiniIp.Guarantees.RenderedNumbers

/-- The characters before the digits of a width; '_' stands for an argument. -/
inductive Mark where
  | zeroPad | leftJustify | alwaysSign | noSign | width
  deriving DecidableEq

def Mark.char : Mark → UInt8
  | zeroPad => 48
  | leftJustify => 60
  | alwaysSign => 43
  | noSign => 32
  | width => 95

inductive Item where
  | text | character
  | number (conversion : Conversion)
  | brace

def Item.char : Item → UInt8
  | text => 116
  | character => 99
  | number conversion => conversion.char
  | brace => 123

/-- The digits and the symbols around them. -/
def Conversion.numerals (conversion : Conversion) : SignedNumerals UInt8 :=
  Rendering.numerals ⟨[], .number 0, conversion⟩

/-- A directive such as "{0<+12sl}"; 0 digits stand for no width. -/
structure Spec where
  marks : List Mark
  digits : ℕ
  item : Item
  long : Bool

def Spec.digitChars (spec : Spec) : List UInt8 := if spec.digits = 0 then [] else decimal.numeral spec.digits

def Spec.chars (spec : Spec) : List UInt8 :=
  123 :: (spec.marks.map Mark.char ++ (spec.digitChars ++ (spec.item.char :: (if spec.long then [108] else []) ++ [125])))

inductive Piece where
  | plain (c : UInt8)
  | directive (spec : Spec)

def Piece.chars : Piece → List UInt8
  | plain c => [c]
  | directive spec => spec.chars

def encode (pieces : List Piece) : List UInt8 := pieces.flatMap Piece.chars

section Meaning

variable {VaList : Type} (va : StdArg VaList)

/-- The first arguments, as numbers. -/
def takeInts : ℕ → VaList → List Int
  | 0, _ => []
  | n + 1, arguments => intOf (va.int arguments).1 :: takeInts n (va.int arguments).2

def dropInts : ℕ → VaList → VaList
  | 0, arguments => arguments
  | n + 1, arguments => dropInts n (va.int arguments).2

namespace Spec

variable (spec : Spec) (arguments : VaList)

/-- The arguments that the '_' stand for. -/
def widths : List Int := takeInts va (spec.marks.count .width) arguments

def behindWidths : VaList := dropInts va (spec.marks.count .width) arguments

/-- A negative width is for the left side. -/
def left : Bool := .leftJustify ∈ spec.marks ∨ ∃ width ∈ spec.widths va arguments, width < 0

/-- The width is meant for a text, too. -/
def sized : Bool := spec.digits ≠ 0 ∨ ∃ width ∈ spec.widths va arguments, width < 0

/-- The last argument for a width, and the digits behind it. -/
def fieldWidth : ℕ :=
  ((spec.widths va arguments).getLast?.map Int.natAbs).getD 0 * 10 ^ spec.digitChars.length + spec.digits

def padding (width : ℕ) (text : List UInt8) : List UInt8 :=
  List.replicate (width - text.length) (if .zeroPad ∈ spec.marks then 48 else 32)

def fill (width : ℕ) (text : List UInt8) : List UInt8 :=
  if spec.left va arguments then text ++ spec.padding width text else spec.padding width text ++ text

/-- A text is cut off and padded to its size, if it has one. -/
def textField (argument : Option (List UInt8)) : List UInt8 :=
  if spec.sized va arguments then
    spec.fill va arguments (spec.fieldWidth va arguments) ((argument.getD nullptrText).take (spec.fieldWidth va arguments))
  else argument.getD nullptrText

/-- The argument for a number as a signed value, and as it is. -/
def signedArgument : Int :=
  if spec.long then longLongOf (va.longLong (spec.behindWidths va arguments)).1
  else intOf (va.int (spec.behindWidths va arguments)).1

def rawArgument : ℕ :=
  if spec.long then (va.longLong (spec.behindWidths va arguments)).1.toNat
  else (va.int (spec.behindWidths va arguments)).1.toNat

/-- A minus is printed for a negative number under 's', unless there is a ' '. -/
def negative (conversion : Conversion) : Bool :=
  conversion = .s ∧ .noSign ∉ spec.marks ∧ spec.signedArgument va arguments < 0

def sign (conversion : Conversion) : Sign :=
  if conversion ≠ .s ∧ .alwaysSign ∈ spec.marks then .plus
  else if spec.negative va arguments conversion then .minus else .none

/-- Without its minus a negative number is printed as the unsigned number of the same bits. -/
def magnitude (conversion : Conversion) : ℕ :=
  if spec.negative va arguments conversion then (spec.signedArgument va arguments).natAbs
  else spec.rawArgument va arguments

/-- The text of a directive. -/
def meaning : Item → List UInt8
  | .text => spec.textField va arguments (va.text (spec.behindWidths va arguments)).1
  | .character => [(va.int (spec.behindWidths va arguments)).1.toUInt8]
  | .number conversion => spec.fill va arguments (spec.fieldWidth va arguments)
      ((Conversion.numerals conversion).bare (spec.sign va arguments conversion) (spec.magnitude va arguments conversion))
  | .brace => [123]

/-- The arguments that a directive leaves. -/
def behind : Item → VaList
  | .text => (va.text (spec.behindWidths va arguments)).2
  | .character => (va.int (spec.behindWidths va arguments)).2
  | .number _ =>
    if spec.long then (va.longLong (spec.behindWidths va arguments)).2 else (va.int (spec.behindWidths va arguments)).2
  | .brace => spec.behindWidths va arguments

/-- The widths are no smaller and no larger than an `int` allows. -/
def Fits : Prop := (∀ width ∈ spec.widths va arguments, -2 ^ 31 < width) ∧ spec.fieldWidth va arguments < 2 ^ 31

end Spec

/-- The text that a format stands for: the pieces one after the other, each with the arguments that are left. -/
def meaning : List Piece → VaList → List UInt8
  | [], _ => []
  | .plain c :: rest, arguments => c :: meaning rest arguments
  | .directive spec :: rest, arguments =>
    spec.meaning va arguments spec.item ++ meaning rest (spec.behind va arguments spec.item)

/-- The plain characters are no terminators and open no directive. -/
def Proper : List Piece → VaList → Prop
  | [], _ => True
  | .plain c :: rest, arguments => c ≠ 0 ∧ c ≠ 123 ∧ Proper rest arguments
  | .directive spec :: rest, arguments =>
    spec.Fits va arguments ∧ Proper rest (spec.behind va arguments spec.item)

end Meaning

variable {VaList : Type} {va : StdArg VaList} {arguments : VaList} {spec : Spec} {marks : List Mark}
  {string rest : List UInt8} {d : Directive VaList} {stop : Int} {out : Output} {acc n : ℕ}

/-- What a list of marks makes of a directive. -/
def marked (va : StdArg VaList) (marks : List Mark) (d : Directive VaList) : Directive VaList where
  flags := { d.flags with
    zeroPad := d.flags.zeroPad || decide (.zeroPad ∈ marks)
    leftJustify := d.flags.leftJustify || decide (.leftJustify ∈ marks) ||
      (takeInts va (marks.count .width) d.arguments).any (· < 0)
    alwaysSign := d.flags.alwaysSign || decide (.alwaysSign ∈ marks)
    noSign := d.flags.noSign || decide (.noSign ∈ marks)
    sizeGiven := d.flags.sizeGiven || (takeInts va (marks.count .width) d.arguments).any (· < 0) }
  width := ((takeInts va (marks.count .width) d.arguments).getLast?.map fun width => (width.natAbs : Int)).getD d.width
  arguments := dropInts va (marks.count .width) d.arguments

theorem flagStep_width {width : Int} (hint : intOf (va.int d.arguments).1 = width) (hfits : -2 ^ 31 < width) :
    flagStep va 95 d = some ⟨{ d.flags with
      leftJustify := d.flags.leftJustify || decide (width < 0)
      sizeGiven := d.flags.sizeGiven || decide (width < 0) }, width.natAbs, (va.int d.arguments).2⟩ := by
  have hbounds := intOf_bounds (va.int d.arguments).1
  rw [hint] at hbounds
  by_cases hless : width < 0
  · have hwrap : intWrap (-width) = width.natAbs := by
      rw [intWrap]
      omega
    simp [flagStep, hint, hless, hwrap]
  · have habs : (width.natAbs : Int) = width := by omega
    simp [flagStep, hint, hless, habs]

theorem scanFlags_marks (hfits : ∀ width ∈ takeInts va (marks.count .width) d.arguments, -2 ^ 31 < width) :
    scanFlags va (marks.map Mark.char ++ string) d = scanFlags va string (marked va marks d) := by
  induction marks generalizing d with
  | nil => simp [marked, takeInts, dropInts]
  | cons mark marks ih =>
    cases mark with
    | width =>
      rw [List.count_cons_self] at hfits
      obtain ⟨hfirst, hlater⟩ := List.forall_mem_cons.mp hfits
      rw [List.map_cons, List.cons_append, scanFlags, Mark.char, flagStep_width rfl hfirst, Option.elim_some, ih hlater]
      congr 1
      simp [marked, takeInts, dropInts, Bool.or_assoc, Bool.or_comm, Bool.or_left_comm, List.getLast?_cons]
    | zeroPad =>
      have hlater := ih (d := { d with flags := { d.flags with zeroPad := true } }) hfits
      refine Eq.trans ?_ (hlater.trans ?_)
      · rfl
      · simp [marked]
    | leftJustify =>
      have hlater := ih (d := { d with flags := { d.flags with leftJustify := true } }) hfits
      refine Eq.trans ?_ (hlater.trans ?_)
      · rfl
      · simp [marked]
    | alwaysSign =>
      have hlater := ih (d := { d with flags := { d.flags with alwaysSign := true } }) hfits
      refine Eq.trans ?_ (hlater.trans ?_)
      · rfl
      · simp [marked]
    | noSign =>
      have hlater := ih (d := { d with flags := { d.flags with noSign := true } }) hfits
      refine Eq.trans ?_ (hlater.trans ?_)
      · rfl
      · simp [marked]

theorem item_char (item : Item) : isFlag item.char = false ∧ isDigit item.char = false ∧ item.char ≠ 0 := by
  cases item with
  | number conversion => cases conversion <;> exact ⟨rfl, rfl, by decide⟩
  | _ => exact ⟨rfl, rfl, by decide⟩

theorem digitChars_head (spec : Spec) (rest : List UInt8) :
    ∃ first more, spec.digitChars ++ spec.item.char :: rest = first :: more ∧ isFlag first = false ∧
      isDigit first = decide (spec.digits ≠ 0) := by
  unfold Spec.digitChars
  obtain ⟨hflag, hdigit, _⟩ := item_char spec.item
  split
  · next hzero =>
    refine ⟨spec.item.char, rest, rfl, hflag, ?_⟩
    rw [hdigit]
    simp [hzero]
  · next hdigits =>
    obtain ⟨first, more, hnumeral, hfirst⟩ := numeral_head hdigits
    refine ⟨first, more ++ spec.item.char :: rest, ?_, hfirst, ?_⟩
    · rw [hnumeral]
      rfl
    · have hmem : first ∈ decimal.numeral spec.digits := hnumeral ▸ List.mem_cons_self
      obtain ⟨digit, hlt, hsymbol⟩ := List.mem_map.mp hmem
      have hsmall : digit < 10 := decimal.digits_lt (List.mem_reverse.mp hlt)
      rw [decimal_symbol hsmall] at hsymbol
      rw [← hsymbol, isDigit_char hsmall]
      simp [hdigits]

/-- The directive that the scan finds. -/
def scanned (va : StdArg VaList) (spec : Spec) (arguments : VaList) : Directive VaList where
  flags := {
    zeroPad := .zeroPad ∈ spec.marks
    leftJustify := spec.left va arguments
    alwaysSign := .alwaysSign ∈ spec.marks
    noSign := .noSign ∈ spec.marks
    sizeGiven := spec.sized va arguments
    bigNumber := spec.long }
  width := spec.fieldWidth va arguments
  arguments := spec.behindWidths va arguments

theorem marked_start (h : ∀ width ∈ spec.widths va arguments, -2 ^ 31 < width) (string : List UInt8) :
    scanFlags va (spec.marks.map Mark.char ++ string) ⟨{}, 0, arguments⟩ =
      scanFlags va string (marked va spec.marks ⟨{}, 0, arguments⟩) := scanFlags_marks h

theorem scanFlags_stop {first : UInt8} {more : List UInt8} (hfirst : isFlag first = false) (d : Directive VaList) :
    scanFlags va (first :: more ++ [0]) d = .ok (first :: more ++ [0], d) := by
  rw [List.cons_append, scanFlags, flagStep_none hfirst]
  rfl

/-- The digits are appended to the width. -/
theorem scanWidth_digitChars (spec : Spec) (h : acc * 10 ^ spec.digitChars.length + spec.digits < 2 ^ 31) (behind : List UInt8) :
    scanWidth (spec.digitChars ++ spec.item.char :: behind) acc =
      .ok (spec.item.char :: behind, ((acc * 10 ^ spec.digitChars.length + spec.digits : ℕ) : Int)) := by
  obtain ⟨_, hdigit, _⟩ := item_char spec.item
  unfold Spec.digitChars at *
  split at h
  · next hzero =>
    rw [if_pos hzero, List.nil_append, scanWidth, hdigit, hzero]
    simp
  · next hdigits =>
    have hread := decimal.readFrom_shift acc (decimal.readFrom_numeral spec.digits)
    rw [Nat.add_zero, decimal_base] at hread
    rw [if_neg hdigits]
    exact scanWidth_digits hread h hdigit

theorem any_negative (widths : List Int) : widths.any (· < 0) = decide (∃ width ∈ widths, width < 0) := by
  rw [Bool.eq_iff_iff]
  simp

theorem scanDirective_spec (spec : Spec) (h : spec.Fits va arguments) (rest : List UInt8) :
    scanDirective va (spec.marks.map Mark.char ++ (spec.digitChars ++
        (spec.item.char :: (if spec.long then [108] else []) ++ [125])) ++ rest ++ [0]) arguments =
      .ok ⟨spec.item.char, 125 :: rest ++ [0], scanned va spec arguments⟩ := by
  obtain ⟨hwidths, hwidth⟩ := h
  have hacc : (marked va spec.marks ⟨{}, 0, arguments⟩).width =
      (((spec.widths va arguments).getLast?.map Int.natAbs).getD 0 : ℕ) := by
    show ((spec.widths va arguments).getLast?.map fun width => (width.natAbs : Int)).getD 0 = _
    cases (spec.widths va arguments).getLast? <;> rfl
  obtain ⟨first, more, hhead, hfirst, hdigit⟩ :=
    digitChars_head spec ((if spec.long then [108] else []) ++ 125 :: rest)
  have hstring : spec.marks.map Mark.char ++ (spec.digitChars ++
      (spec.item.char :: (if spec.long then [108] else []) ++ [125])) ++ rest ++ [0] =
      spec.marks.map Mark.char ++ (first :: more ++ [0]) := by
    rw [← hhead]
    simp
  have hflags : scanFlags va (spec.marks.map Mark.char ++ (first :: more ++ [0])) ⟨{}, 0, arguments⟩ =
      .ok (first :: more ++ [0], marked va spec.marks ⟨{}, 0, arguments⟩) := by
    rw [marked_start hwidths]
    exact scanFlags_stop hfirst _
  have hscan : scanWidth (first :: more ++ [0]) (marked va spec.marks ⟨{}, 0, arguments⟩).width =
      .ok (spec.item.char :: ((if spec.long then [108] else []) ++ 125 :: rest) ++ [0], (spec.fieldWidth va arguments : Int)) := by
    have hdigits := scanWidth_digitChars spec hwidth ((if spec.long then [108] else []) ++ 125 :: rest ++ [0])
    rw [hacc, ← hhead]
    simpa [Spec.fieldWidth] using hdigits
  have hsized : ((marked va spec.marks ⟨{}, 0, arguments⟩).flags.sizeGiven || isDigit first) = spec.sized va arguments := by
    rw [hdigit, Spec.sized, Bool.decide_or, ← any_negative, Bool.or_comm]
    rfl
  have hleft : (marked va spec.marks ⟨{}, 0, arguments⟩).flags.leftJustify = spec.left va arguments := by
    rw [Spec.left, Bool.decide_or, ← any_negative]
    rfl
  rw [hstring, scanDirective_eq hflags hscan]
  unfold scanned
  rw [← hsized, ← hleft]
  cases spec.long with
  | true => simp [marked, Spec.behindWidths]
  | false => simp [marked, Spec.behindWidths]

theorem textLength_eq (width : ℕ) (text : List UInt8) {length : ℕ} (h : length ≤ width) :
    textLength width text length = min (length + text.length) width := by
  induction text generalizing length with
  | nil =>
    rw [textLength, List.length_nil]
    omega
  | cons c text ih =>
    rw [textLength, List.length_cons]
    split
    · next hless =>
      rw [ih (by omega)]
      omega
    · next hfull => omega

theorem padChar_eq {flags : FormatFlags} (hzero : flags.zeroPad = decide (.zeroPad ∈ spec.marks)) :
    padChar flags = if .zeroPad ∈ spec.marks then 48 else 32 := by
  rw [padChar, hzero]
  exact if_congr decide_eq_true_iff rfl rfl

/-- The branch for texts, as one text. -/
theorem writeText_eq (argument : Option (List UInt8)) (width : Int) (flags : FormatFlags) (stop : Int) (out : Output)
    (length pad : ℕ)
    (hlength : (if flags.sizeGiven then textLength width (argument.getD nullptrText) 0
      else (argument.getD nullptrText).length) = length)
    (hpad : ((if flags.sizeGiven then width - length else 0) % 4294967296).toNat = pad) :
    writeText argument width flags stop out =
      writeChars (if flags.leftJustify then (argument.getD nullptrText).take length ++ List.replicate pad (padChar flags)
        else List.replicate pad (padChar flags) ++ (argument.getD nullptrText).take length) stop out := by
  unfold writeText
  dsimp only
  rw [hlength, hpad]
  cases flags.leftJustify with
  | true =>
    rw [if_pos rfl, if_pos rfl, if_pos rfl]
    exact (writeChars_append _ _ stop out).symm
  | false =>
    rw [if_neg Bool.false_ne_true, if_neg Bool.false_ne_true, if_neg Bool.false_ne_true]
    exact (writeChars_append _ _ stop out).symm

theorem writeText_field (hwidth : spec.fieldWidth va arguments < 2 ^ 31) (argument : Option (List UInt8)) (stop : Int)
    (out : Output) :
    writeText argument (spec.fieldWidth va arguments) (scanned va spec arguments).flags stop out =
      writeChars (spec.textField va arguments argument) stop out := by
  have hsized : (scanned va spec arguments).flags.sizeGiven = spec.sized va arguments := rfl
  have hleft : (scanned va spec arguments).flags.leftJustify = spec.left va arguments := rfl
  have hpad : padChar (scanned va spec arguments).flags = if .zeroPad ∈ spec.marks then 48 else 32 :=
    padChar_eq rfl
  cases hcase : spec.sized va arguments with
  | true =>
    have hshort := List.length_take_le (spec.fieldWidth va arguments) (argument.getD nullptrText)
    rw [writeText_eq _ _ _ _ _ ((argument.getD nullptrText).take (spec.fieldWidth va arguments)).length
      (spec.fieldWidth va arguments - ((argument.getD nullptrText).take (spec.fieldWidth va arguments)).length)]
    · have htaken : (argument.getD nullptrText).take ((argument.getD nullptrText).take (spec.fieldWidth va arguments)).length =
          (argument.getD nullptrText).take (spec.fieldWidth va arguments) := by
        rw [List.take_eq_take_iff, List.length_take]
        omega
      rw [htaken, hleft, hpad, Spec.textField, if_pos hcase]
      rfl
    · rw [hsized, hcase, if_pos rfl, textLength_eq _ _ (Nat.zero_le _), List.length_take]
      omega
    · rw [hsized, hcase, if_pos rfl]
      omega
  | false =>
    rw [writeText_eq _ _ _ _ _ (argument.getD nullptrText).length 0]
    · rw [List.take_length, Spec.textField, hcase]
      simp
    · rw [hsized, hcase, if_neg Bool.false_ne_true]
    · rw [hsized, hcase, if_neg Bool.false_ne_true]
      rfl

variable {flags : FormatFlags} {conversion : Conversion} {value : Int}

theorem longLongOf_emod (word : UInt64) : longLongOf word % 18446744073709551616 = word.toNat := by
  have hlt := word.toNat_lt
  unfold longLongOf
  split <;> omega

/-- The bits of the signed argument. -/
theorem signedArgument_emod (va : StdArg VaList) (spec : Spec) (arguments : VaList) :
    (spec.signedArgument va arguments % if spec.long then 18446744073709551616 else 4294967296) =
      spec.rawArgument va arguments := by
  unfold Spec.signedArgument Spec.rawArgument
  cases spec.long with
  | true => exact longLongOf_emod _
  | false => exact intOf_emod _

theorem signedArgument_bounds (va : StdArg VaList) (spec : Spec) (arguments : VaList) :
    -(if spec.long then 9223372036854775808 else 2147483648) ≤ spec.signedArgument va arguments := by
  unfold Spec.signedArgument
  cases spec.long with
  | true =>
    simp only [if_true, longLongOf]
    split <;> omega
  | false => exact (intOf_bounds _).1

theorem unsignedValue_magnitude (hlong : flags.bigNumber = spec.long)
    (hnegative : isNegative value flags = spec.negative va arguments conversion)
    (hsigned : spec.negative va arguments conversion = true → value = spec.signedArgument va arguments)
    (hvalue : (value % if spec.long then 18446744073709551616 else 4294967296) = spec.rawArgument va arguments) :
    unsignedValue value flags = spec.magnitude va arguments conversion := by
  have hbound := signedArgument_bounds va spec arguments
  unfold unsignedValue Spec.magnitude
  rw [hlong, hnegative]
  cases hcase : spec.negative va arguments conversion with
  | true =>
    have hless : spec.signedArgument va arguments < 0 := (of_decide_eq_true hcase).2.2
    rw [hsigned hcase]
    cases hlarge : spec.long <;> simp only [hlarge, if_true, Bool.false_eq_true, if_false] at hbound ⊢ <;> omega
  | false =>
    cases hlarge : spec.long <;> simp only [hlarge, if_true, Bool.false_eq_true, if_false] at hvalue ⊢ <;> omega

/-- The flags with which a conversion calls `write_number`. -/
def numberFlags (va : StdArg VaList) (spec : Spec) (arguments : VaList) (conversion : Conversion) : FormatFlags :=
  { (scanned va spec arguments).flags with
    signed := conversion = .s
    hex := conversion = .h ∨ conversion = .H
    uppercase := conversion = .H
    binary := conversion = .b }

theorem isNegative_number (h : conversion = .s → value = spec.signedArgument va arguments) :
    isNegative value (numberFlags va spec arguments conversion) = spec.negative va arguments conversion := by
  unfold isNegative Spec.negative
  by_cases hs : conversion = .s
  · simp [numberFlags, scanned, hs, h hs]
  · simp [numberFlags, hs]

theorem signOf_number (h : conversion = .s → value = spec.signedArgument va arguments) :
    signOf value (numberFlags va spec arguments conversion) = spec.sign va arguments conversion := by
  rw [signOf, isNegative_number h, Spec.sign]
  congr 1
  simp [numberFlags, scanned]

theorem prints_number (va : StdArg VaList) (spec : Spec) (arguments : VaList) (conversion : Conversion) :
    Prints (Conversion.numerals conversion) (numberFlags va spec arguments conversion) := by
  have hprints := prints_rendering ⟨[], .number 0, conversion⟩ false
  exact ⟨hprints.base, hprints.symbol, hprints.zero, hprints.blank, hprints.plus, hprints.minus⟩

theorem writeNumber_number (hsigned : conversion = .s → value = spec.signedArgument va arguments)
    (hvalue : (value % if spec.long then 18446744073709551616 else 4294967296) = spec.rawArgument va arguments)
    (stop : Int) (out : Output) :
    writeNumber value (spec.fieldWidth va arguments) (numberFlags va spec arguments conversion) stop out =
      writeChars (spec.meaning va arguments (.number conversion)) stop out := by
  have hprints := prints_number va spec arguments conversion
  have hnegative := isNegative_number hsigned
  have hsign := signOf_number hsigned
  have hmagnitude : unsignedValue value (numberFlags va spec arguments conversion) =
      spec.magnitude va arguments conversion :=
    unsignedValue_magnitude rfl hnegative (fun h => hsigned (of_decide_eq_true h).1) hvalue
  have hpad : padChar (numberFlags va spec arguments conversion) = if .zeroPad ∈ spec.marks then 48 else 32 :=
    padChar_eq rfl
  have hroom : ∀ text : List UInt8, ((spec.fieldWidth va arguments : Int) - text.length).toNat =
      spec.fieldWidth va arguments - text.length := fun text => by omega
  rw [writeNumber_eq, bareText, signText_eq hprints, digitText_eq hprints, hsign, hmagnitude, padded, hpad, hroom]
  rfl

theorem readNumberArgument_eq (va : StdArg VaList) (spec : Spec) (arguments : VaList) (conversion : Conversion) :
    readNumberArgument va (scanned va spec arguments) =
      (spec.signedArgument va arguments, spec.behind va arguments (.number conversion)) := by
  have hlong : (scanned va spec arguments).flags.bigNumber = spec.long := rfl
  unfold readNumberArgument Spec.signedArgument Spec.behind
  rw [hlong]
  cases spec.long <;> rfl

/-- The argument of a 'u' is the unsigned one, or has the same bits. -/
theorem readUnsignedArgument_spec (va : StdArg VaList) (spec : Spec) (arguments : VaList) :
    ((readUnsignedArgument va (scanned va spec arguments)).1 %
        if spec.long then 18446744073709551616 else 4294967296) = spec.rawArgument va arguments ∧
      (readUnsignedArgument va (scanned va spec arguments)).2 = spec.behind va arguments (.number .u) := by
  have hlong : (scanned va spec arguments).flags.bigNumber = spec.long := rfl
  unfold readUnsignedArgument Spec.rawArgument Spec.behind
  rw [hlong]
  cases spec.long with
  | true => exact ⟨longLongOf_emod _, rfl⟩
  | false =>
    have hlt := (va.int (scanned va spec arguments).arguments).1.toNat_lt
    exact ⟨Int.emod_eq_of_lt (Int.natCast_nonneg _) (Int.ofNat_lt.mpr hlt), rfl⟩

/-- All conversions but 'u'. -/
theorem convert_signed (h : conversion ≠ .u) (stop : Int) (out : Output) :
    convert va conversion.char (scanned va spec arguments) stop out =
      ((readNumberArgument va (scanned va spec arguments)).2,
        writeNumber (readNumberArgument va (scanned va spec arguments)).1 (spec.fieldWidth va arguments)
          (numberFlags va spec arguments conversion) stop out) := by
  cases conversion with
  | u => exact absurd rfl h
  | _ => rfl

/-- The branches over the conversion. -/
theorem convert_meaning (h : spec.Fits va arguments) (stop : Int) (out : Output) :
    convert va spec.item.char (scanned va spec arguments) stop out =
      (spec.behind va arguments spec.item, writeChars (spec.meaning va arguments spec.item) stop out) := by
  cases spec.item with
  | text => exact congrArg (Prod.mk _) (writeText_field h.2 _ stop out)
  | character => rfl
  | brace => rfl
  | number conversion =>
    by_cases hu : conversion = .u
    · subst hu
      have hunsigned := readUnsignedArgument_spec va spec arguments
      have hconvert : convert va Conversion.u.char (scanned va spec arguments) stop out =
          ((readUnsignedArgument va (scanned va spec arguments)).2,
            writeNumber (readUnsignedArgument va (scanned va spec arguments)).1 (spec.fieldWidth va arguments)
              (numberFlags va spec arguments .u) stop out) := rfl
      rw [Item.char, hconvert, hunsigned.2, writeNumber_number (fun hs => by cases hs) hunsigned.1]
    · rw [Item.char, convert_signed hu, readNumberArgument_eq va spec arguments conversion,
        writeNumber_number (fun _ => rfl) (signedArgument_emod va spec arguments)]

variable {pieces : List Piece} {fuel : ℕ}

theorem formatLoop_meaning (h : Proper va pieces arguments) (hfuel : pieces.length < fuel) (stop : Int) (out : Output) :
    formatLoop va stop fuel (encode pieces ++ [0]) arguments out =
      .ok (writeChars (meaning va pieces arguments) stop out) := by
  induction pieces generalizing arguments out fuel with
  | nil =>
    obtain ⟨fuel, rfl⟩ : ∃ more, fuel = more + 1 := ⟨fuel - 1, by rw [List.length_nil] at hfuel; omega⟩
    rfl
  | cons piece pieces ih =>
    rw [List.length_cons] at hfuel
    obtain ⟨fuel, rfl⟩ : ∃ more, fuel = more + 1 := ⟨fuel - 1, by omega⟩
    cases piece with
    | plain c =>
      obtain ⟨hend, hbrace, hrest⟩ := h
      have hencode : encode (.plain c :: pieces) ++ [0] = c :: (encode pieces ++ [0]) := rfl
      rw [hencode, formatLoop_char hend hbrace, ih hrest (by omega)]
      rfl
    | directive spec =>
      obtain ⟨hfits, hrest⟩ := h
      have hscan := scanDirective_spec spec hfits (encode pieces)
      have hencode : encode (.directive spec :: pieces) ++ [0] = 123 :: (spec.marks.map Mark.char ++ (spec.digitChars ++
          (spec.item.char :: (if spec.long then [108] else []) ++ [125])) ++ encode pieces ++ [0]) := by
        simp [encode, Piece.chars, Spec.chars]
      rw [hencode, formatLoop_directive hscan rfl, if_pos rfl, convert_meaning hfits, List.cons_append, List.tail_cons,
        ih hrest (by omega), meaning, writeChars_append]

theorem length_le_encode (pieces : List Piece) : pieces.length ≤ (encode pieces).length := by
  induction pieces with
  | nil => exact Nat.le_refl 0
  | cons piece pieces ih =>
    have hpiece : 0 < piece.chars.length := by
      cases piece with
      | plain c => exact Nat.one_pos
      | directive spec => exact Nat.succ_pos _
    rw [encode, List.flatMap_cons, List.length_append, ← encode, List.length_cons]
    omega

/-- The buffer gets what the format stands for, as far as there is room, and the length of that. -/
theorem format_means (h : Proper va pieces arguments) (size : ℕ) (memory : Memory) :
    formatString va (encode pieces ++ [0]) size arguments memory =
      .ok (((meaning va pieces arguments).take size).length,
        writeBytes ((meaning va pieces arguments).take size) 0 memory) := by
  have hfuel : pieces.length < (encode pieces ++ [0]).length + 1 := by
    have hlength := length_le_encode pieces
    rw [List.length_append]
    omega
  have hroom : (0 : Int) + size = size := Int.zero_add _
  rw [formatString, formatLoop_meaning h hfuel]
  show Except.ok ((writeChars (meaning va pieces arguments) size ⟨0, memory⟩).buffer - 0,
    (writeChars (meaning va pieces arguments) size ⟨0, memory⟩).memory) = _
  rw [writeChars_room ⟨0, memory⟩ hroom]
  dsimp only
  rw [Int.zero_add, Int.sub_zero]

/-- "={_0s}{12t}{ sl}{{}" -/
def severalPieces : List Piece :=
  [.plain 61, .directive ⟨[.width, .zeroPad], 0, .number .s, false⟩, .directive ⟨[], 12, .text, false⟩,
    .directive ⟨[.noSign], 0, .number .s, true⟩, .directive ⟨[], 0, .brace, false⟩]

theorem format_means_several :
    formatString stackArguments (encode severalPieces ++ [0]) (16 : ℕ) [4294967291, 7, 0, 1, 0] (fun _ => 0) =
      .ok (((meaning stackArguments severalPieces [4294967291, 7, 0, 1, 0]).take 16).length,
        writeBytes ((meaning stackArguments severalPieces [4294967291, 7, 0, 1, 0]).take 16) 0 fun _ => 0) := by
  have hproper : Proper stackArguments severalPieces [4294967291, 7, 0, 1, 0] := by
    refine ⟨by decide, by decide, ⟨by decide, by decide⟩, ⟨by decide, ?_⟩, ⟨by decide, by decide⟩,
      ⟨by decide, by decide⟩, trivial⟩
    decide +kernel
  exact format_means hproper 16 fun _ => 0

example : meaning stackArguments severalPieces [4294967291, 7, 0, 1, 0] = "=70000     nullptr1\x7b".toUTF8.toList := by
  decide +kernel

end MiniIp.Guarantees.FormatMeaning
