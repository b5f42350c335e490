import Mathlib.Data.List.Basic

/-!
# Byte strings of tagged items

An area is a sequence of items, each a type, a length and so many bytes, with pads
between them and a stop byte at the end; what follows the stop is not looked at. `Area` allows
pads everywhere, `Unpadded` takes the first byte for a type, whatever it is. The two agree on
every area that does not begin with a pad.
-/

set_option autoImplicit false

namespace MiniIp.Library.TagLength

/-- A type and its bytes. -/
abbrev Item := UInt8 × List UInt8

/-- The bytes that stand for padding and for the end. -/
structure Format where
  pad : UInt8
  stop : UInt8
  /-- The lengths that a type may have. -/
  sized : UInt8 → ℕ → Prop
  stop_ne_pad : stop ≠ pad

variable {F : Format}

inductive Area (F : Format) : List UInt8 → List Item → Prop
  | stop (rest : List UInt8) : Area F (F.stop :: rest) []
  | pad {area : List UInt8} {items : List Item} (more : Area F area items) : Area F (F.pad :: area) items
  | item {type size : UInt8} {value area : List UInt8} {items : List Item} (notPad : type ≠ F.pad)
      (notStop : type ≠ F.stop) (length : value.length = size.toNat) (sized : F.sized type value.length)
      (more : Area F area items) : Area F (type :: size :: (value ++ area)) ((type, value) :: items)

inductive Unpadded (F : Format) : List UInt8 → List Item → Prop
  | stop (rest : List UInt8) : Unpadded F (F.stop :: rest) []
  | item {type size : UInt8} {value area : List UInt8} {items : List Item} (notStop : type ≠ F.stop)
      (length : value.length = size.toNat) (sized : F.sized type value.length)
      (more : Area F area items) : Unpadded F (type :: size :: (value ++ area)) ((type, value) :: items)

variable {area value value' rest rest' : List UInt8} {items items' : List Item} {type size first : UInt8}

theorem area_pad_iff : Area F (F.pad :: area) items ↔ Area F area items := by
  constructor
  · intro h
    generalize hpadded : F.pad :: area = padded at h
    cases h with
    | stop rest => exact absurd (List.cons.inj hpadded).1.symm F.stop_ne_pad
    | pad more =>
      rw [(List.cons.inj hpadded).2]
      exact more
    | item notPad notStop length sized more => exact absurd (List.cons.inj hpadded).1.symm notPad
  · exact .pad

theorem area_pads_iff (n : ℕ) : Area F (List.replicate n F.pad ++ area) items ↔ Area F area items := by
  induction n with
  | zero => rfl
  | succ n ih => rw [List.replicate_succ, List.cons_append, area_pad_iff, ih]

theorem not_area_nil : ¬ Area F [] items := by
  rintro ⟨⟩

/-- Without a pad in front the two readings are one. -/
theorem area_iff_unpadded (h : first ≠ F.pad) : Area F (first :: rest) items ↔ Unpadded F (first :: rest) items := by
  constructor
  · intro harea
    cases harea with
    | stop rest => exact .stop rest
    | pad more => exact absurd rfl h
    | item notPad notStop length sized more => exact .item notStop length sized more
  · intro hunpadded
    cases hunpadded with
    | stop rest => exact .stop rest
    | item notStop length sized more => exact .item h notStop length sized more

theorem unpadded_stop_iff : Unpadded F (F.stop :: rest) items ↔ items = [] := by
  constructor
  · intro h
    cases h with
    | stop rest => rfl
    | item notStop length sized more => exact absurd rfl notStop
  · rintro rfl
    exact .stop rest

theorem not_unpadded_single (h : first ≠ F.stop) : ¬ Unpadded F [first] items := by
  rintro ⟨⟩
  exact h rfl

/-- The length says where the item ends. -/
theorem unpadded_item_iff (h : type ≠ F.stop) (hlength : value.length = size.toNat) :
    Unpadded F (type :: size :: (value ++ rest)) items ↔
      F.sized type value.length ∧ ∃ items', Area F rest items' ∧ items = (type, value) :: items' := by
  constructor
  · intro hunpadded
    generalize harea : type :: size :: (value ++ rest) = area at hunpadded
    cases hunpadded with
    | stop rest =>
      rw [List.cons.injEq] at harea
      exact absurd harea.1 h
    | item notStop length sized more =>
      simp only [List.cons.injEq] at harea
      obtain ⟨rfl, rfl, happend⟩ := harea
      obtain ⟨rfl, rfl⟩ := List.append_inj happend (hlength.trans length.symm)
      exact ⟨sized, _, more, rfl⟩
  · rintro ⟨hsized, items', hmore, rfl⟩
    exact .item h hlength hsized hmore

/-- A truncated item is none. -/
theorem not_unpadded_short (h : type ≠ F.stop) (hshort : rest.length < size.toNat) :
    ¬ Unpadded F (type :: size :: rest) items := by
  intro hunpadded
  generalize harea : type :: size :: rest = area at hunpadded
  cases hunpadded with
  | stop rest =>
    rw [List.cons.injEq] at harea
    exact absurd harea.1 h
  | item notStop length sized more =>
    simp only [List.cons.injEq] at harea
    obtain ⟨rfl, rfl, rfl⟩ := harea
    rw [List.length_append] at hshort
    omega

/-- An area has one reading. -/
theorem Area.unique (h : Area F area items) (h' : Area F area items') : items = items' := by
  induction h generalizing items' with
  | stop rest =>
    have hunpadded := (area_iff_unpadded F.stop_ne_pad).mp h'
    exact (unpadded_stop_iff.mp hunpadded).symm
  | pad more ih => exact ih (area_pad_iff.mp h')
  | item notPad notStop length sized more ih =>
    have hunpadded := (area_iff_unpadded notPad).mp h'
    obtain ⟨_, later, hlater, rfl⟩ := (unpadded_item_iff notStop length).mp hunpadded
    rw [ih hlater]

theorem Unpadded.unique (h : Unpadded F area items) (h' : Unpadded F area items') : items = items' := by
  cases h with
  | stop rest => exact (unpadded_stop_iff.mp h').symm
  | item notStop length sized more =>
    obtain ⟨_, later, hlater, rfl⟩ := (unpadded_item_iff notStop length).mp h'
    rw [more.unique hlater]

def lastValue (type : UInt8) : List Item → Option (List UInt8)
  | [] => none
  | item :: later => (lastValue type later).or (if item.1 = type then some item.2 else none)

end MiniIp.Library.TagLength
