import MiniIp.Invariant.Buffer
import MiniIp.Invariant.FormatScan

/-!
# What a format writes

Every branch of `format_string` only passes characters to `write_char`. Which ones depends on the format and the
arguments, not on the cursor or the end of the buffer, so a format stands for one text, and the buffer gets as much
of it as there is room for.
-/

set_option autoImplicit false

namespace MiniIp.Invariant

open MiniIp.Source

section Characters

variable {text rest : List UInt8} {c : UInt8} {stop : Int} {out : Output}

theorem writeChars_append (text rest : List UInt8) (stop : Int) (out : Output) :
    writeChars (text ++ rest) stop out = writeChars rest stop (writeChars text stop out) := by
  induction text generalizing out with
  | nil => rfl
  | cons c text ih => exact ih (writeChar c stop out)

/-- At the end of the buffer nothing is written any more. -/
theorem writeChars_full (h : out.buffer = stop) : writeChars text stop out = out := by
  induction text with
  | nil => rfl
  | cons c text ih =>
    have hchar : writeChar c stop out = out := if_neg fun hne => hne h
    rw [writeChars, hchar, ih]

/-- The buffer gets the part of the text that fits. -/
theorem writeChars_room (out : Output) {room : ℕ} (h : out.buffer + room = stop) :
    writeChars text stop out =
      ⟨out.buffer + (text.take room).length, writeBytes (text.take room) out.buffer out.memory⟩ := by
  induction text generalizing out room with
  | nil => simp [writeChars, writeBytes]
  | cons c text ih =>
    cases room with
    | zero =>
      rw [writeChars_full (by omega)]
      simp [writeBytes]
    | succ room =>
      have hchar : writeChar c stop out = ⟨out.buffer + 1, writeByte c out.buffer out.memory⟩ := if_pos (by omega)
      have hrest : out.buffer + 1 + (room : Int) = stop := by omega
      rw [writeChars, hchar, ih _ hrest, List.take_succ_cons, List.length_cons, writeBytes]
      congr 1
      dsimp only
      omega

end Characters

section Items

variable {value width stop : Int} {flags : FormatFlags} {out : Output}

def numberBase (flags : FormatFlags) : ℕ := if flags.hex then 16 else if flags.binary then 2 else 10

def signText (value : Int) (flags : FormatFlags) : List UInt8 :=
  if signChar value flags ≠ 0 then [signChar value flags] else []

/-- The digits, the most significant first. -/
def digitText (value : Int) (flags : FormatFlags) : List UInt8 :=
  (numberChars (formatTable flags.uppercase) (numberBase flags) 64 (unsignedValue value flags)).reverse

/-- A number without padding. -/
def bareText (value : Int) (flags : FormatFlags) : List UInt8 := signText value flags ++ digitText value flags

/-- `text` padded to the width. -/
def padded (text : List UInt8) (width : Int) (flags : FormatFlags) : List UInt8 :=
  if flags.leftJustify then text ++ List.replicate (width - text.length).toNat (padChar flags)
  else List.replicate (width - text.length).toNat (padChar flags) ++ text

theorem writeNumber_eq (value width : Int) (flags : FormatFlags) (stop : Int) (out : Output) :
    writeNumber value width flags stop out = writeChars (padded (bareText value flags) width flags) stop out := by
  have hsign : ∀ out, writeChars (signText value flags) stop out =
      if signChar value flags ≠ 0 then writeChar (signChar value flags) stop out else out := by
    intro out
    unfold signText
    split <;> rfl
  have hlength : ((bareText value flags).length : Int) =
      (numberChars (formatTable flags.uppercase) (numberBase flags) 64 (unsignedValue value flags)).length +
        if signChar value flags ≠ 0 then 1 else 0 := by
    rw [bareText, List.length_append, digitText, List.length_reverse, signText]
    split <;> simp [Int.add_comm]
  have hpad : (if width > ((bareText value flags).length : Int) then width - (bareText value flags).length else 0).toNat =
      (width - (bareText value flags).length).toNat := by
    split <;> omega
  unfold writeNumber
  dsimp only
  rw [← numberBase, ← hlength, hpad, padded]
  cases flags.leftJustify with
  | true =>
    simp only [if_true, writeChars_append, bareText, hsign]
    rfl
  | false =>
    simp only [Bool.false_eq_true, if_false, writeChars_append, bareText, hsign]
    rfl

theorem writeText_text (argument : Option (List UInt8)) (width : Int) (flags : FormatFlags) :
    ∃ text, ∀ stop out, writeText argument width flags stop out = writeChars text stop out := by
  unfold writeText
  dsimp only
  cases flags.leftJustify with
  | true =>
    simp only [if_true]
    exact ⟨_, fun stop out => (writeChars_append _ _ stop out).symm⟩
  | false =>
    simp only [Bool.false_eq_true, if_false]
    exact ⟨_, fun stop out => (writeChars_append _ _ stop out).symm⟩

end Items

section Directives

variable {VaList : Type} {chars : List UInt8} {size : ℕ}

/-- A step that writes the same text everywhere, and leaves the same arguments. -/
def Emits (step : Int → Output → VaList × Output) : Prop :=
  ∃ text arguments, ∀ stop out, step stop out = (arguments, writeChars text stop out)

theorem writeNumber_emits (argument : Int × VaList) (width : Int) (flags : FormatFlags) :
    Emits fun stop out => (argument.2, writeNumber argument.1 width flags stop out) :=
  ⟨_, _, fun stop out => congrArg (Prod.mk argument.2) (writeNumber_eq argument.1 width flags stop out)⟩

theorem convert_emits (va : StdArg VaList) (c : UInt8) (d : Directive VaList) : Emits (convert va c d) := by
  unfold convert
  split_ifs
  · obtain ⟨text, htext⟩ := writeText_text (va.text d.arguments).1 d.width d.flags
    exact ⟨text, _, fun stop out => congrArg (Prod.mk _) (htext stop out)⟩
  · exact ⟨[_], _, fun stop out => rfl⟩
  · exact writeNumber_emits _ _ _
  · exact writeNumber_emits _ _ _
  · exact writeNumber_emits _ _ _
  · exact writeNumber_emits _ _ _
  · exact ⟨[_], _, fun stop out => rfl⟩
  · exact ⟨[], _, fun stop out => rfl⟩

/-- The loop fails everywhere, or writes the same text everywhere. -/
theorem formatLoop_text (va : StdArg VaList) (fuel : ℕ) (string : List UInt8) (arguments : VaList) :
    ∃ outcome : Except FormatError (List UInt8), ∀ stop out,
      formatLoop va stop fuel string arguments out = outcome.map fun text => writeChars text stop out := by
  induction fuel generalizing string arguments with
  | zero => exact ⟨.error .outOfFuel, fun stop out => rfl⟩
  | succ fuel ih =>
    cases string with
    | nil => exact ⟨.error .readPastEnd, fun stop out => rfl⟩
    | cons c string =>
      by_cases hend : c = 0
      · subst hend
        exact ⟨.ok [], fun stop out => rfl⟩
      · by_cases hopen : c = 123
        · subst hopen
          cases hscan : scanDirective va string arguments with
          | error error => exact ⟨.error error, fun stop out => formatLoop_cut hscan⟩
          | ok scanned =>
            cases hread : readChar scanned.string with
            | error error => exact ⟨.error error, fun stop out => formatLoop_unread hscan hread⟩
            | ok brace =>
              obtain ⟨text, rest, hconvert⟩ := convert_emits va scanned.conversion scanned.directive
              obtain ⟨outcome, hloop⟩ :=
                ih (if brace = 125 then scanned.string.tail else scanned.string) rest
              refine ⟨outcome.map fun behind => text ++ behind, fun stop out => ?_⟩
              rw [formatLoop_directive hscan hread, hconvert, hloop]
              cases outcome with
              | error error => rfl
              | ok behind => exact congrArg Except.ok (writeChars_append text behind stop out).symm
        · obtain ⟨outcome, hloop⟩ := ih string arguments
          refine ⟨outcome.map fun behind => c :: behind, fun stop out => ?_⟩
          rw [formatLoop_char hend hopen, hloop]
          cases outcome with
          | error error => rfl
          | ok behind => rfl

/-- The bytes that the returned length covers. -/
def outputBytes (result : Int × Memory) : List UInt8 := readBytes result.2 0 result.1.toNat

/-- A complete format stands for a text; a buffer gets as much of it as fits. -/
theorem formatString_text (va : StdArg VaList) (hzero : 0 ∉ chars) (hcomplete : Complete chars) (arguments : VaList) :
    ∃ text : List UInt8, ∀ (size : ℕ) (memory : Memory), formatString va (chars ++ [0]) size arguments memory =
      .ok ((text.take size).length, writeBytes (text.take size) 0 memory) := by
  obtain ⟨outcome, hloop⟩ := formatLoop_text va ((chars ++ [0]).length + 1) (chars ++ [0]) arguments
  have hfuel : chars.length < (chars ++ [0]).length + 1 := by
    rw [List.length_append]
    omega
  cases outcome with
  | error error =>
    obtain ⟨out, hout⟩ := (formatLoop_spec va 0 hzero hfuel arguments ⟨0, fun _ => 0⟩).1 hcomplete
    rw [hloop] at hout
    cases hout
  | ok text =>
    refine ⟨text, fun size memory => ?_⟩
    have hroom : (0 : Int) + size = size := Int.zero_add _
    rw [formatString, hloop]
    show Except.ok ((writeChars text size ⟨0, memory⟩).buffer - 0, (writeChars text size ⟨0, memory⟩).memory) = _
    rw [writeChars_room ⟨0, memory⟩ hroom]
    dsimp only
    rw [Int.zero_add, Int.sub_zero]

end Directives

end MiniIp.Invariant
