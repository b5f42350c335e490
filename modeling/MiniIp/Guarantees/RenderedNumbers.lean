import MiniIp.Invariant.FormatNumber

/-!
# Rendered numbers

A directive for a number puts its value into a field of the given width, which reads back as the value except where zero
padding is misplaced: `write_number` puts the zeros before the sign, not behind it, and in a left-justified field it puts
them behind the digits.
-/

set_option autoImplicit false

namespace MiniIp.Guarantees.RenderedNumbers

open MiniIp.Library MiniIp.Source MiniIp.Invariant

inductive Flag where
  | zeroPad | leftJustify | alwaysSign
  deriving DecidableEq

def Flag.char : Flag → UInt8
  | zeroPad => 48
  | leftJustify => 60
  | alwaysSign => 43

inductive Conversion where
  | s | u | h | H | b
  deriving DecidableEq

def Conversion.char : Conversion → UInt8
  | s => 115
  | u => 117
  | h => 104
  | H => 72
  | b => 98

/-- A width in digits, where 0 stands for none, or the '_' for an argument, with flags behind it. -/
inductive Width where
  | number (n : ℕ)
  | argument (flags : List Flag)

def Width.chars : Width → List UInt8
  | number n => if n = 0 then [] else decimal.numeral n
  | argument flags => 95 :: flags.map Flag.char

def Width.flags : Width → List Flag
  | number _ => []
  | argument flags => flags

/-- A directive such as "{0<+12s}". -/
structure Rendering where
  flags : List Flag
  width : Width
  conversion : Conversion

def Rendering.chars (r : Rendering) : List UInt8 :=
  123 :: (r.flags.map Flag.char ++ (r.width.chars ++ [r.conversion.char, 125]))

def Rendering.has (r : Rendering) (flag : Flag) : Bool := flag ∈ r.flags ++ r.width.flags

section Meaning

variable {VaList : Type} (va : StdArg VaList) (r : Rendering) (arguments : VaList)

def Rendering.fieldWidth : ℕ := match r.width with
  | .number n => n
  | .argument _ => (va.int arguments).1.toNat

/-- The arguments behind the width. -/
def Rendering.behind : VaList := match r.width with
  | .number _ => arguments
  | .argument _ => (va.int arguments).2

/-- The signed value for 's', the unsigned value for the others. -/
def Rendering.value : Int := match r.conversion with
  | .s => intOf (va.int (r.behind va arguments)).1
  | _ => (va.int (r.behind va arguments)).1.toNat

def Rendering.sign : Sign := match r.conversion with
  | .s => if r.value va arguments < 0 then .minus else .none
  | _ => if r.has .alwaysSign then .plus else .none

def Rendering.numerals : SignedNumerals UInt8 := match r.conversion with
  | .s => withSigns decimal rfl rfl rfl
  | .u => withSigns decimal rfl rfl rfl
  | .h => withSigns lowerHex rfl rfl rfl
  | .H => withSigns upperHex rfl rfl rfl
  | .b => withSigns binary rfl rfl rfl

/-- The characters that the number takes without padding. -/
def Rendering.naturalLength : ℕ := (r.numerals.bare (r.sign va arguments) (r.value va arguments).natAbs).length

/-- What a reader expects of the text. -/
structure Rendering.Means (text : List UInt8) : Prop where
  length : text.length = max (r.fieldWidth va arguments) (r.naturalLength va arguments)
  value : r.numerals.readSigned (r.numerals.trim text) = some (r.value va arguments)

/-- There is zero padding, and it stands before a sign or behind a number other than zero. -/
def Rendering.Misplaced : Prop :=
  r.has .zeroPad = true ∧ r.naturalLength va arguments < r.fieldWidth va arguments ∧
    (r.has .leftJustify = true ∧ r.value va arguments ≠ 0 ∨
      r.has .leftJustify = false ∧ r.sign va arguments ≠ .none)

end Meaning

variable {VaList : Type} {va : StdArg VaList} {arguments : VaList} {d : Directive VaList} {text rest string : List UInt8}
  {c : UInt8} {acc n : ℕ}

def Flag.set (flags : FormatFlags) : Flag → FormatFlags
  | zeroPad => { flags with zeroPad := true }
  | leftJustify => { flags with leftJustify := true }
  | alwaysSign => { flags with alwaysSign := true }

theorem flagStep_flag (va : StdArg VaList) (flag : Flag) (d : Directive VaList) :
    flagStep va flag.char d = some { d with flags := flag.set d.flags } := by
  cases flag <;> rfl

theorem scanFlags_flags (va : StdArg VaList) (flags : List Flag) (string : List UInt8) (d : Directive VaList) :
    scanFlags va (flags.map Flag.char ++ string) d = scanFlags va string { d with flags := flags.foldl Flag.set d.flags } := by
  induction flags generalizing d with
  | nil => rfl
  | cons flag flags ih =>
    rw [List.map_cons, List.cons_append, scanFlags, flagStep_flag]
    exact ih { d with flags := flag.set d.flags }

theorem flagStep_width (d : Directive VaList) (h : (va.int d.arguments).1.toNat < 2 ^ 31) :
    flagStep va 95 d = some ⟨d.flags, (va.int d.arguments).1.toNat, (va.int d.arguments).2⟩ := by
  have hint : intOf (va.int d.arguments).1 = ((va.int d.arguments).1.toNat : Int) := if_pos h
  have hnonneg : ¬ ((va.int d.arguments).1.toNat : Int) < 0 := by omega
  simp [flagStep, hint, hnonneg]

/-- The flags that are there are set, and no others. -/
theorem foldl_set (flags : List Flag) (f : FormatFlags) :
    flags.foldl Flag.set f =
      { f with
        zeroPad := f.zeroPad || decide (.zeroPad ∈ flags)
        leftJustify := f.leftJustify || decide (.leftJustify ∈ flags)
        alwaysSign := f.alwaysSign || decide (.alwaysSign ∈ flags) } := by
  induction flags generalizing f with
  | nil => simp
  | cons flag flags ih =>
    rw [List.foldl_cons, ih]
    cases flag <;> simp [Flag.set]

theorem scanFlags_end (h : isFlag c = false) : scanFlags va (c :: string) d = .ok (c :: string, d) := by
  rw [scanFlags, flagStep_none h]
  rfl

theorem isDigit_char (hd : n < 10) : isDigit (UInt8.ofNat (48 + n)) = true := decide_eq_true (isDigit_iff.mpr ⟨n, hd, rfl⟩)

theorem scanWidth_digits (h : decimal.readFrom acc text = some n) (hn : n < 2 ^ 31) (hc : isDigit c = false) :
    scanWidth (text ++ c :: rest) acc = .ok (c :: rest, n) := by
  induction text generalizing acc with
  | nil =>
    obtain rfl := Option.some.inj h
    rw [List.nil_append, scanWidth, hc]
    rfl
  | cons first text ih =>
    obtain ⟨digit, hvalue, hread⟩ := Option.bind_eq_some_iff.mp h
    obtain ⟨hdigit, rfl⟩ := decimal_value_iff.mp hvalue
    have hle := decimal.readFrom_le hread
    rw [decimal_base] at hle hread
    have hchar : (UInt8.ofNat (48 + digit)).toNat = 48 + digit := by
      rw [UInt8.toNat_ofNat']
      omega
    have hnext : intWrap (10 * (acc : Int) + ((UInt8.ofNat (48 + digit)).toNat - 48)) = (acc * 10 + digit : ℕ) := by
      rw [hchar, intWrap]
      omega
    rw [List.cons_append, scanWidth, if_pos (isDigit_char hdigit), hnext]
    exact ih hread

/-- The digits of a width do not begin with a flag. -/
theorem numeral_head (hn : n ≠ 0) : ∃ first more, decimal.numeral n = first :: more ∧ isFlag first = false := by
  cases hnumeral : decimal.numeral n with
  | nil => exact absurd hnumeral (decimal.numeral_ne_nil n)
  | cons first more =>
    refine ⟨first, more, rfl, ?_⟩
    have hmem : first ∈ decimal.numeral n := hnumeral ▸ List.mem_cons_self
    obtain ⟨digit, hdigit, hfirst⟩ := List.mem_map.mp hmem
    have hlt : digit < 10 := decimal.digits_lt (List.mem_reverse.mp hdigit)
    rw [decimal_symbol hlt] at hfirst
    have hzero : digit ≠ 0 := by
      rintro rfl
      have hshort := (decimal.numeral_shortest n).first (by rw [hnumeral, ← hfirst]; rfl)
      have hread := decimal.read_numeral n
      rw [hshort] at hread
      exact hn (Option.some.inj hread).symm
    subst hfirst
    interval_cases digit <;> first | contradiction | rfl

theorem conversion_char (conversion : Conversion) :
    isFlag conversion.char = false ∧ isDigit conversion.char = false := by
  cases conversion <;> exact ⟨rfl, rfl⟩

/-- The flags before the conversion is looked at; the size is for texts only. -/
def Rendering.scannedFlags (r : Rendering) (sizeGiven : Bool) : FormatFlags :=
  { zeroPad := r.has .zeroPad
    leftJustify := r.has .leftJustify
    alwaysSign := r.has .alwaysSign
    sizeGiven := sizeGiven }

theorem foldl_scanned (r : Rendering) :
    (r.flags ++ r.width.flags).foldl Flag.set {} = r.scannedFlags false := by
  rw [foldl_set]
  rfl

/-- What the flags leave: the width, if it stands there in digits, and the conversion. -/
theorem scan_flags (r : Rendering) (hwidth : r.fieldWidth va arguments < 2 ^ 31) :
    ∃ flagged width, scanFlags va (r.flags.map Flag.char ++ (r.width.chars ++ [r.conversion.char, 125]) ++ [0])
        ⟨{}, 0, arguments⟩ = .ok (flagged ++ [0], ⟨r.scannedFlags false, width, r.behind va arguments⟩) ∧
      scanWidth (flagged ++ [0]) width =
        .ok (r.conversion.char :: [125] ++ [0], (r.fieldWidth va arguments : Int)) := by
  obtain ⟨hflag, hdigit⟩ := conversion_char r.conversion
  have hset := foldl_scanned r
  obtain ⟨flags, width, conversion⟩ := r
  cases width with
  | number n =>
    rw [Width.flags, List.append_nil] at hset
    by_cases hzero : n = 0
    · subst hzero
      refine ⟨[conversion.char, 125], 0, ?_, ?_⟩
      · rw [List.append_assoc, scanFlags_flags, hset]
        exact scanFlags_end hflag
      · exact if_neg (by rw [hdigit]; decide)
    · obtain ⟨first, more, hnumeral, hfirst⟩ := numeral_head hzero
      have hchars : (Width.number n).chars = decimal.numeral n := if_neg hzero
      refine ⟨decimal.numeral n ++ [conversion.char, 125], 0, ?_, ?_⟩
      · rw [List.append_assoc, scanFlags_flags, hset, hchars, hnumeral]
        exact scanFlags_end hfirst
      · rw [List.append_assoc]
        exact scanWidth_digits (decimal.readFrom_numeral n) hwidth hdigit
  | argument more =>
    rw [List.foldl_append] at hset
    refine ⟨[conversion.char, 125], _, ?_, if_neg (by rw [hdigit]; decide)⟩
    rw [List.append_assoc, scanFlags_flags, Width.chars, List.cons_append, List.cons_append, scanFlags,
      flagStep_width ⟨_, 0, arguments⟩ hwidth, Option.elim_some, List.append_assoc, scanFlags_flags]
    dsimp only [Width.flags] at hset
    dsimp only
    rw [hset]
    exact scanFlags_end hflag

theorem scan_rendering (va : StdArg VaList) (r : Rendering) (arguments : VaList) (hwidth : r.fieldWidth va arguments < 2 ^ 31) :
    ∃ sizeGiven, scanDirective va (r.flags.map Flag.char ++ (r.width.chars ++ [r.conversion.char, 125]) ++ [0]) arguments =
      .ok ⟨r.conversion.char, [125, 0],
        ⟨r.scannedFlags sizeGiven, r.fieldWidth va arguments, r.behind va arguments⟩⟩ := by
  obtain ⟨flagged, width, hflags, hscan⟩ := scan_flags r hwidth
  exact ⟨isDigit (flagged.headD 0), scanDirective_eq hflags hscan⟩

/-- The argument as it is passed to `write_number`. -/
def Conversion.argument (word : UInt32) : Conversion → Int
  | u => word.toNat
  | _ => intOf word

def Rendering.printFlags (r : Rendering) (sizeGiven : Bool) : FormatFlags :=
  { r.scannedFlags sizeGiven with
    signed := r.conversion = .s
    hex := r.conversion = .h ∨ r.conversion = .H
    uppercase := r.conversion = .H
    binary := r.conversion = .b }

theorem convert_rendering (r : Rendering) (sizeGiven : Bool) (width : Int) (behind : VaList) (stop : Int) (out : Output) :
    (convert va r.conversion.char ⟨r.scannedFlags sizeGiven, width, behind⟩ stop out).2 =
      writeNumber (r.conversion.argument (va.int behind).1) width (r.printFlags sizeGiven) stop out := by
  obtain ⟨flags, width', conversion⟩ := r
  cases conversion <;> rfl

theorem prints_rendering (r : Rendering) (sizeGiven : Bool) : Prints r.numerals (r.printFlags sizeGiven) := by
  obtain ⟨flags, width, conversion⟩ := r
  cases conversion with
  | s => exact ⟨rfl, fun d (hd : d < 10) => by interval_cases d <;> rfl, rfl, rfl, rfl, rfl⟩
  | u => exact ⟨rfl, fun d (hd : d < 10) => by interval_cases d <;> rfl, rfl, rfl, rfl, rfl⟩
  | h => exact ⟨rfl, fun d (hd : d < 16) => by interval_cases d <;> rfl, rfl, rfl, rfl, rfl⟩
  | H => exact ⟨rfl, fun d (hd : d < 16) => by interval_cases d <;> rfl, rfl, rfl, rfl, rfl⟩
  | b => exact ⟨rfl, fun d (hd : d < 2) => by interval_cases d <;> rfl, rfl, rfl, rfl, rfl⟩

theorem intOf_bounds (word : UInt32) : -2147483648 ≤ intOf word ∧ intOf word < 2147483648 := by
  have hlt := word.toNat_lt
  unfold intOf
  split <;> omega

theorem intOf_emod (word : UInt32) : intOf word % 4294967296 = word.toNat := by
  have hlt := word.toNat_lt
  unfold intOf
  split <;> omega

theorem unsignedValue_signed {f : FormatFlags} {value : Int} (hsigned : f.signed = true) (hsign : f.noSign = false)
    (hbig : f.bigNumber = false) (h : -2147483648 ≤ value ∧ value < 2147483648) :
    unsignedValue value f = value.natAbs := by
  have hnegative : isNegative value f = decide (value < 0) := by
    rw [isNegative, hsigned, hsign]
    rfl
  unfold unsignedValue
  rw [hnegative, hbig]
  by_cases hless : value < 0
  · simp only [hless, decide_true, if_true, Bool.false_eq_true, if_false]
    omega
  · simp only [hless, decide_false, Bool.false_eq_true, if_false]
    omega

theorem unsignedValue_unsigned {f : FormatFlags} {value : Int} (hsigned : f.signed = false) (hbig : f.bigNumber = false) :
    unsignedValue value f = (value % 4294967296).toNat := by
  have hnegative : isNegative value f = false := by
    rw [isNegative, hsigned]
    rfl
  unfold unsignedValue
  rw [hnegative, hbig]
  rfl

/-- The absolute value is printed. -/
theorem unsigned_rendering (va : StdArg VaList) (r : Rendering) (arguments : VaList) (sizeGiven : Bool) :
    unsignedValue (r.conversion.argument (va.int (r.behind va arguments)).1) (r.printFlags sizeGiven) =
      (r.value va arguments).natAbs := by
  have hextended : ∀ word : UInt32, (intOf word % 4294967296).toNat = (word.toNat : Int).natAbs := by
    intro word
    rw [intOf_emod]
    rfl
  obtain ⟨flags, width, conversion⟩ := r
  cases conversion with
  | s => exact unsignedValue_signed rfl rfl rfl (intOf_bounds _)
  | u =>
    rw [unsignedValue_unsigned rfl rfl]
    exact congrArg Int.natAbs (Int.emod_eq_of_lt (Int.natCast_nonneg _) (Int.ofNat_lt.mpr (UInt32.toNat_lt _)))
  | h =>
    rw [unsignedValue_unsigned rfl rfl]
    exact hextended _
  | H =>
    rw [unsignedValue_unsigned rfl rfl]
    exact hextended _
  | b =>
    rw [unsignedValue_unsigned rfl rfl]
    exact hextended _

theorem sign_rendering (va : StdArg VaList) (r : Rendering) (arguments : VaList) (sizeGiven : Bool) :
    signOf (r.conversion.argument (va.int (r.behind va arguments)).1) (r.printFlags sizeGiven) = r.sign va arguments := by
  obtain ⟨flags, width, conversion⟩ := r
  cases conversion with
  | s =>
    unfold signOf
    rw [if_neg (by simp [Rendering.printFlags])]
    exact if_congr decide_eq_true_iff rfl rfl
  | u => rfl
  | h => rfl
  | H => rfl
  | b => rfl

theorem sign_apply (va : StdArg VaList) (r : Rendering) (arguments : VaList) :
    (r.sign va arguments).apply (r.value va arguments).natAbs = r.value va arguments := by
  have hunsigned : ∀ (word : UInt32) (plus : Bool),
      (if plus then Sign.plus else Sign.none).apply (word.toNat : Int).natAbs = word.toNat := by
    intro word plus
    cases plus <;> rfl
  obtain ⟨flags, width, conversion⟩ := r
  cases conversion with
  | s =>
    show (if Rendering.value va ⟨flags, width, .s⟩ arguments < 0 then Sign.minus else Sign.none).apply _ = _
    split
    · next hless =>
      show -((Rendering.value va ⟨flags, width, .s⟩ arguments).natAbs : Int) = _
      omega
    · next hmore =>
      show ((Rendering.value va ⟨flags, width, .s⟩ arguments).natAbs : Int) = _
      omega
  | u => exact hunsigned _ _
  | h => exact hunsigned _ _
  | H => exact hunsigned _ _
  | b => exact hunsigned _ _

/-- The field that the directive writes. -/
def Rendering.field (va : StdArg VaList) (r : Rendering) (arguments : VaList) : List UInt8 :=
  r.numerals.padded (r.has .zeroPad) (r.has .leftJustify) (r.fieldWidth va arguments)
    (r.numerals.bare (r.sign va arguments) (r.value va arguments).natAbs)

theorem field_length (va : StdArg VaList) (r : Rendering) (arguments : VaList) :
    (r.field va arguments).length = max (r.fieldWidth va arguments) (r.naturalLength va arguments) :=
  r.numerals.padded_length _ _ _ _

theorem formatLoop_rendering (r : Rendering) (hwidth : r.fieldWidth va arguments < 2 ^ 31) (stop : Int) (fuel : ℕ)
    (out : Output) :
    formatLoop va stop (fuel + 2) (r.chars ++ [0]) arguments out = .ok (writeChars (r.field va arguments) stop out) := by
  obtain ⟨sizeGiven, hscan⟩ := scan_rendering va r arguments hwidth
  rw [Rendering.chars, List.cons_append, formatLoop_directive hscan rfl]
  rw [convert_rendering, writeNumber_field (prints_rendering r sizeGiven), unsigned_rendering, sign_rendering]
  rfl

theorem formatString_rendering (r : Rendering) (hwidth : r.fieldWidth va arguments < 2 ^ 31) {size : ℕ}
    (hroom : (r.field va arguments).length ≤ size) (memory : Memory) :
    formatString va (r.chars ++ [0]) size arguments memory =
      .ok ((r.field va arguments).length, writeBytes (r.field va arguments) 0 memory) := by
  have hstop : (0 : Int) + size = size := Int.zero_add _
  have hfuel : (r.chars ++ [0]).length + 1 = r.chars.length + 2 := by rw [List.length_append]; rfl
  rw [formatString, hfuel, formatLoop_rendering r hwidth]
  show Except.ok ((writeChars (r.field va arguments) size ⟨0, memory⟩).buffer - 0,
    (writeChars (r.field va arguments) size ⟨0, memory⟩).memory) = _
  rw [writeChars_room ⟨0, memory⟩ hstop, List.take_of_length_le hroom]
  dsimp only
  rw [Int.zero_add, Int.sub_zero]

/-- Every directive, every argument and every buffer that is large enough. -/
theorem number_meant_iff (va : StdArg VaList) (r : Rendering) (arguments : VaList)
    (hwidth : r.fieldWidth va arguments < 2 ^ 31) {size : ℕ}
    (hroom : max (r.fieldWidth va arguments) (r.naturalLength va arguments) ≤ size) (memory : Memory) :
    (∃ result, formatString va (r.chars ++ [0]) size arguments memory = .ok result ∧
      r.Means va arguments (outputBytes result)) ↔ ¬ r.Misplaced va arguments := by
  have hlength := field_length va r arguments
  have hresult := formatString_rendering r hwidth (hlength.trans_le hroom) memory
  have htext : outputBytes ((r.field va arguments).length, writeBytes (r.field va arguments) 0 memory) =
      r.field va arguments := by
    dsimp only [outputBytes]
    rw [Int.toNat_natCast, readBytes_writeBytes]
  have hread := r.numerals.readSigned_padded_iff (r.has .zeroPad) (r.has .leftJustify) (r.fieldWidth va arguments)
    (r.sign va arguments) (r.value va arguments).natAbs
  rw [sign_apply, SignedNumerals.Misplaced, Int.natAbs_ne_zero] at hread
  constructor
  · rintro ⟨result, hok, hmeans⟩
    rw [hresult] at hok
    obtain rfl := Except.ok.inj hok
    rw [htext] at hmeans
    exact hread.mp hmeans.value
  · intro hplaced
    refine ⟨_, hresult, ?_⟩
    rw [htext]
    exact ⟨hlength, hread.mpr hplaced⟩

/-- 0xABCD under "{08H}". -/
theorem number_meant_iff_hex :
    (∃ result, formatString stackArguments ((⟨[.zeroPad], .number 8, .H⟩ : Rendering).chars ++ [0]) (16 : ℕ) [0xABCD]
        (fun _ => 0) = .ok result ∧
      (⟨[.zeroPad], .number 8, .H⟩ : Rendering).Means stackArguments [0xABCD] (outputBytes result)) ↔
      ¬ (⟨[.zeroPad], .number 8, .H⟩ : Rendering).Misplaced stackArguments [0xABCD] :=
  number_meant_iff stackArguments ⟨[.zeroPad], .number 8, .H⟩ [0xABCD] (by decide) (by decide) (fun _ => 0)

/-- -42 under "{05s}" is "00-42". -/
theorem number_spoiled :
    ¬ ∃ result, formatString stackArguments ((⟨[.zeroPad], .number 5, .s⟩ : Rendering).chars ++ [0]) (16 : ℕ)
        [4294967254] (fun _ => 0) = .ok result ∧
      (⟨[.zeroPad], .number 5, .s⟩ : Rendering).Means stackArguments [4294967254] (outputBytes result) := by
  have hrun : formatString stackArguments ((⟨[.zeroPad], .number 5, .s⟩ : Rendering).chars ++ [0]) (16 : ℕ)
      [4294967254] (fun _ => 0) = .ok (5, writeBytes [48, 48, 45, 52, 50] 0 fun _ => 0) := rfl
  rintro ⟨result, hok, hmeans⟩
  rw [hrun] at hok
  obtain rfl := Except.ok.inj hok
  exact absurd hmeans.value (by decide)

end MiniIp.Guarantees.RenderedNumbers
