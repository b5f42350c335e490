import MiniIp.Invariant.Buffer
import MiniIp.Invariant.DhcpOptions
import MiniIp.Library.TagLength

/-!
# The options as items

The options of DHCP are tagged items. `dhcp_read` takes the first byte for a type and skips pads
behind every item, so it reads the area as `Unpadded` says.
-/

set_option autoImplicit false

namespace MiniIp.Invariant

open MiniIp.Source MiniIp.Library.TagLength

/-- What `dhcp_read` demands of the lengths. -/
def optionFormat : Format where
  pad := 0
  stop := dhcpOptionEnd
  sized type size :=
    (type = dhcpOptionSubnetMask ∨ type = dhcpOptionLeaseTime ∨ type = dhcpOptionServerIdentifier → size = 4) ∧
      (type = dhcpOptionMessageType → size = 1)
  stop_ne_pad := by decide

/-- Four bytes in network order. -/
def be32 : List UInt8 → UInt32
  | [first, second, third, fourth] =>
    first.toUInt32 <<< 24 ||| second.toUInt32 <<< 16 ||| third.toUInt32 <<< 8 ||| fourth.toUInt32
  | _ => 0

/-- What a list of options says of the four kinds that the client knows. -/
structure Found where
  serverIp : Option Ip
  netmask : Option Ip
  messageType : Option UInt8
  leaseTime : Option Time
  deriving DecidableEq

/-- The last option of a kind counts. -/
def found (items : List Item) : Found where
  serverIp := (lastValue dhcpOptionServerIdentifier items).map be32
  netmask := (lastValue dhcpOptionSubnetMask items).map be32
  messageType := (lastValue dhcpOptionMessageType items).map fun value => value.headD 0
  leaseTime := (lastValue dhcpOptionLeaseTime items).map be32

def Found.mask (f : Found) : ℕ :=
  (if f.serverIp.isSome then optionServerIp else 0) ||| (if f.netmask.isSome then optionNetmask else 0) |||
    (if f.messageType.isSome then optionMessageType else 0) ||| (if f.leaseTime.isSome then optionLeaseTime else 0)

/-- The record with what has been found. -/
def Found.record (f : Found) (o : DhcpOptions) : DhcpOptions :=
  { o with
    mask := o.mask ||| f.mask
    serverIp := f.serverIp.getD o.serverIp
    netmask := f.netmask.getD o.netmask
    messageType := f.messageType.getD o.messageType
    leaseTime := f.leaseTime.getD o.leaseTime }

/-- What one option does to the record. -/
def storeItem (o : DhcpOptions) (item : Item) : DhcpOptions :=
  (found [item]).record o

variable {memory : Memory} {pointer : Int} {o o' : DhcpOptions} {type : UInt8}

theorem found_cons (item : Item) (later : List Item) :
    found (item :: later) =
      { serverIp := (found later).serverIp.or (found [item]).serverIp
        netmask := (found later).netmask.or (found [item]).netmask
        messageType := (found later).messageType.or (found [item]).messageType
        leaseTime := (found later).leaseTime.or (found [item]).leaseTime } := by
  simp [found, lastValue, Option.map_or]

theorem mask_or (f f' : Found) :
    Found.mask ⟨f'.serverIp.or f.serverIp, f'.netmask.or f.netmask, f'.messageType.or f.messageType,
      f'.leaseTime.or f.leaseTime⟩ = f.mask ||| f'.mask := by
  have hbit : ∀ (a b : Bool) (n : ℕ),
      (if (a || b) = true then n else 0) = (if b = true then n else 0) ||| (if a = true then n else 0) := by
    intro a b n
    cases a <;> cases b <;> simp
  simp only [Found.mask, Option.isSome_or, hbit]
  ac_rfl

/-- The mask says which kinds have been found. -/
theorem mask_bits (f : Found) :
    f.mask.testBit 0 = f.serverIp.isSome ∧ f.mask.testBit 2 = f.netmask.isSome ∧
      f.mask.testBit 3 = f.messageType.isSome ∧ f.mask.testBit 4 = f.leaseTime.isSome := by
  unfold Found.mask
  cases f.serverIp.isSome <;> cases f.netmask.isSome <;> cases f.messageType.isSome <;>
    cases f.leaseTime.isSome <;> decide

/-- The options one after the other. -/
theorem foldl_storeItem (items : List Item) (o : DhcpOptions) : items.foldl storeItem o = (found items).record o := by
  induction items generalizing o with
  | nil => simp [found, lastValue, Found.record, Found.mask]
  | cons item later ih =>
    rw [List.foldl_cons, ih, found_cons, storeItem]
    simp only [Found.record, mask_or, Nat.or_assoc, Option.getD_or]

theorem readBytes_four : readBe32 memory pointer = be32 (readBytes memory pointer 4) := by
  simp only [readBytes, be32, readBe32, Int.add_assoc]
  rfl

/-- An option of another type than the four known ones changes nothing. -/
theorem storeItem_other {value : List UInt8} (hserver : type ≠ dhcpOptionServerIdentifier)
    (hnetmask : type ≠ dhcpOptionSubnetMask) (hmessage : type ≠ dhcpOptionMessageType)
    (hlease : type ≠ dhcpOptionLeaseTime) : storeItem o (type, value) = o := by
  simp [storeItem, found, lastValue, Found.record, Found.mask, hserver, hnetmask, hmessage, hlease]

-- What an option of a known type changes.

theorem storeItem_netmask : storeItem o (dhcpOptionSubnetMask, readBytes memory pointer 4) =
    { o with mask := o.mask ||| optionNetmask, netmask := readBe32 memory pointer } := by
  simp [storeItem, found, lastValue, Found.record, Found.mask, readBytes_four, dhcpOptionSubnetMask,
    dhcpOptionLeaseTime, dhcpOptionServerIdentifier, dhcpOptionMessageType]

theorem storeItem_leaseTime : storeItem o (dhcpOptionLeaseTime, readBytes memory pointer 4) =
    { o with mask := o.mask ||| optionLeaseTime, leaseTime := readBe32 memory pointer } := by
  simp [storeItem, found, lastValue, Found.record, Found.mask, readBytes_four, dhcpOptionSubnetMask,
    dhcpOptionLeaseTime, dhcpOptionServerIdentifier, dhcpOptionMessageType]

theorem storeItem_serverIp : storeItem o (dhcpOptionServerIdentifier, readBytes memory pointer 4) =
    { o with mask := o.mask ||| optionServerIp, serverIp := readBe32 memory pointer } := by
  simp [storeItem, found, lastValue, Found.record, Found.mask, readBytes_four, dhcpOptionSubnetMask,
    dhcpOptionLeaseTime, dhcpOptionServerIdentifier, dhcpOptionMessageType]

theorem storeItem_messageType : storeItem o (dhcpOptionMessageType, readBytes memory pointer 1) =
    { o with mask := o.mask ||| optionMessageType, messageType := memory pointer } := by
  simp [storeItem, found, lastValue, Found.record, Found.mask, readBytes, dhcpOptionSubnetMask,
    dhcpOptionLeaseTime, dhcpOptionServerIdentifier, dhcpOptionMessageType]

/-- The branch for a type whose length must be `wanted`. -/
theorem sizedBranch_iff {wanted size : ℕ} {r stored : DhcpOptions} {sized : Prop} (hsized : sized ↔ size = wanted)
    (hstored : size = wanted → stored = r) :
    (if (size : Int) ≠ wanted then none else some r) = some o' ↔ sized ∧ o' = stored := by
  by_cases h : size = wanted
  · have hint : ¬ ((size : Int) ≠ wanted) := by omega
    rw [if_neg hint, hsized, hstored h, Option.some.injEq]
    exact ⟨fun heq => ⟨h, heq.symm⟩, fun heq => heq.2.symm⟩
  · have hint : (size : Int) ≠ wanted := by omega
    rw [if_pos hint, hsized]
    simp [h]

/-- One option, as the loop stores it. -/
theorem storeOption_iff (size : ℕ) :
    storeOption memory type size pointer o = some o' ↔
      optionFormat.sized type size ∧ o' = storeItem o (type, readBytes memory pointer size) := by
  unfold storeOption
  by_cases hnetmask : type = dhcpOptionSubnetMask
  · subst hnetmask
    rw [if_pos rfl]
    apply sizedBranch_iff (by simp [optionFormat, dhcpOptionSubnetMask, dhcpOptionMessageType])
    rintro rfl
    exact storeItem_netmask
  rw [if_neg hnetmask]
  by_cases hlease : type = dhcpOptionLeaseTime
  · subst hlease
    rw [if_pos rfl]
    apply sizedBranch_iff (by simp [optionFormat, dhcpOptionLeaseTime, dhcpOptionMessageType])
    rintro rfl
    exact storeItem_leaseTime
  rw [if_neg hlease]
  by_cases hserver : type = dhcpOptionServerIdentifier
  · subst hserver
    rw [if_pos rfl]
    apply sizedBranch_iff (by simp [optionFormat, dhcpOptionServerIdentifier, dhcpOptionMessageType])
    rintro rfl
    exact storeItem_serverIp
  rw [if_neg hserver]
  by_cases hmessage : type = dhcpOptionMessageType
  · subst hmessage
    rw [if_pos rfl]
    apply sizedBranch_iff (by simp [optionFormat, dhcpOptionSubnetMask, dhcpOptionLeaseTime,
      dhcpOptionServerIdentifier, dhcpOptionMessageType])
    rintro rfl
    exact storeItem_messageType
  rw [if_neg hmessage, storeItem_other hserver hnetmask hmessage hlease]
  simp [optionFormat, hnetmask, hlease, hserver, hmessage, eq_comm]

theorem readBytes_zeros {count : ℕ} (h : ∀ i : Int, 0 ≤ i → i < count → memory (pointer + i) = 0) :
    readBytes memory pointer count = List.replicate count optionFormat.pad := by
  induction count generalizing pointer with
  | zero => rfl
  | succ count ih =>
    have hfirst := h 0 (by omega) (by omega)
    rw [Int.add_zero] at hfirst
    rw [readBytes, List.replicate_succ, hfirst, ih]
    · rfl
    · intro i hi hlt
      rw [Int.add_assoc]
      exact h (1 + i) (by omega) (by omega)

/-- The loop accepts an area exactly where it has a reading as items, the first byte being a type. -/
theorem readOptions_iff (fuel : ℕ) {left : ℕ} (hpos : 0 < left) (hfuel : left < fuel) :
    readOptions memory fuel pointer left o = (true, o') ↔
      ∃ items, Unpadded optionFormat (readBytes memory pointer left) items ∧ o' = items.foldl storeItem o := by
  induction fuel generalizing pointer left o with
  | zero => omega
  | succ fuel ih =>
    unfold readOptions
    by_cases hend : memory pointer = dhcpOptionEnd
    · obtain ⟨n, rfl⟩ : ∃ n, left = n + 1 := ⟨left - 1, by omega⟩
      have hstop : ∀ items, Unpadded optionFormat (readBytes memory pointer (n + 1)) items ↔ items = [] := by
        intro items
        rw [readBytes, hend]
        exact unpadded_stop_iff
      simp [hend, hstop, eq_comm]
    rw [if_neg hend]
    by_cases hshort : (left : Int) < 2
    · obtain rfl : left = 1 := by omega
      have hnone : ∀ items, ¬ Unpadded optionFormat (readBytes memory pointer 1) items := fun items =>
        not_unpadded_single hend
      simp [hnone]
    rw [if_neg hshort]
    obtain ⟨n, rfl⟩ : ∃ n, left = n + 2 := ⟨left - 2, by omega⟩
    have harea : readBytes memory pointer (n + 2) =
        memory pointer :: memory (pointer + 1) :: readBytes memory (pointer + 2) n := by
      rw [readBytes, readBytes, Int.add_assoc]
      rfl
    rw [harea]
    dsimp only
    by_cases htruncated : ((memory (pointer + 1)).toNat : Int) > ((n + 2 : ℕ) : Int) - 2
    · rw [if_pos htruncated]
      have hnone : ∀ items, ¬ Unpadded optionFormat
          (memory pointer :: memory (pointer + 1) :: readBytes memory (pointer + 2) n) items := by
        intro items
        apply not_unpadded_short hend
        rw [readBytes_length]
        omega
      simp [hnone]
    rw [if_neg htruncated]
    generalize hk : (memory (pointer + 1)).toNat = k at htruncated
    obtain ⟨m, rfl⟩ : ∃ m, n = k + m := ⟨n - k, by omega⟩
    let value := readBytes memory (pointer + 2) k
    have hlength : value.length = (memory (pointer + 1)).toNat := by rw [readBytes_length, hk]
    -- the item, and what is behind it
    have hreads : (∃ items, Unpadded optionFormat
        (memory pointer :: memory (pointer + 1) :: readBytes memory (pointer + 2) (k + m)) items ∧
          o' = items.foldl storeItem o) ↔
        optionFormat.sized (memory pointer) k ∧ ∃ items, Area optionFormat (readBytes memory (pointer + 2 + k) m) items ∧
          o' = items.foldl storeItem (storeItem o (memory pointer, value)) := by
      have hstop : memory pointer ≠ optionFormat.stop := hend
      rw [readBytes_add]
      simp only [value, unpadded_item_iff hstop hlength]
      constructor
      · rintro ⟨_, ⟨hsized, items, hmore, rfl⟩, rfl⟩
        rw [readBytes_length] at hsized
        exact ⟨hsized, items, hmore, rfl⟩
      · rintro ⟨hsized, items, hmore, rfl⟩
        rw [← readBytes_length memory (pointer + 2) k] at hsized
        exact ⟨_, ⟨hsized, items, hmore, rfl⟩, rfl⟩
    rw [hreads]
    by_cases hsized : optionFormat.sized (memory pointer) k
    · have hstored : storeOption memory (memory pointer) k (pointer + 2) o =
          some (storeItem o (memory pointer, value)) := (storeOption_iff k).mpr ⟨hsized, rfl⟩
      obtain ⟨padding, hle, hskip, hzeros, hstops⟩ := skipPadding_spec memory m (pointer + 2 + k)
      have hrest : (((k + m + 2 : ℕ) : Int) - 2 - k).toNat = m := by omega
      obtain ⟨l, rfl⟩ : ∃ l, m = padding + l := ⟨m - padding, by omega⟩
      rw [hstored]
      dsimp only
      rw [hrest, hskip, readBytes_add, readBytes_zeros hzeros]
      simp only [hsized, true_and, area_pads_iff]
      have hleft : padding + l - padding = l := by omega
      rw [hleft]
      by_cases hempty : l = 0
      · subst hempty
        simp [readBytes, not_area_nil]
      · rw [if_neg hempty]
        have hsecond : memory (pointer + 2 + k + padding) ≠ optionFormat.pad := hstops (by omega)
        obtain ⟨n, rfl⟩ : ∃ n, l = n + 1 := ⟨l - 1, by omega⟩
        have hunpadded : readOptions memory fuel (pointer + 2 + k + padding) (n + 1 : ℕ)
            (storeItem o (memory pointer, value)) = (true, o') ↔ _ := ih (Nat.succ_pos n) (by omega)
        rw [hunpadded]
        simp only [readBytes, area_iff_unpadded hsecond]
    · have hnone : storeOption memory (memory pointer) k (pointer + 2) o = none := by
        rw [Option.eq_none_iff_forall_ne_some]
        intro r hr
        exact hsized ((storeOption_iff k).mp hr).1
      rw [hnone]
      simp [hsized]

/-- The bytes behind the header of DHCP. -/
def optionArea (p : NetworkPacket) : List UInt8 :=
  readBytes p.data (p.index + dhcpHeaderSize) (p.length - dhcpHeaderSize).toNat

/-- The record before the options are read. -/
def clearedOptions (p : NetworkPacket) (o : DhcpOptions) : DhcpOptions :=
  { o with yourIp := readBe32 p.data (p.index + 16), mask := 0 }

/-- What the options of the packet say, by their grammar. -/
def OptionsSay (p : NetworkPacket) (f : Found) : Prop :=
  ∃ items, Area optionFormat (optionArea p) items ∧ f = found items

/-- What `dhcp_read` finds in the options. It takes the first byte for a type, also where it is a pad (dhcp.c:268). -/
def OptionsRead (p : NetworkPacket) (f : Found) : Prop :=
  ∃ items, Unpadded optionFormat (optionArea p) items ∧ f = found items

/-- The options begin with a pad. -/
def PadInFront (p : NetworkPacket) : Prop := ∃ rest, optionArea p = optionFormat.pad :: rest

theorem OptionsSay.unique {p : NetworkPacket} {f f' : Found} (h : OptionsSay p f) (h' : OptionsSay p f') : f = f' := by
  obtain ⟨items, hitems, rfl⟩ := h
  obtain ⟨items', hitems', rfl⟩ := h'
  rw [hitems.unique hitems']

theorem OptionsRead.unique {p : NetworkPacket} {f f' : Found} (h : OptionsRead p f) (h' : OptionsRead p f') : f = f' := by
  obtain ⟨items, hitems, rfl⟩ := h
  obtain ⟨items', hitems', rfl⟩ := h'
  rw [hitems.unique hitems']

/-- Without a pad in front the code follows the grammar. -/
theorem optionsRead_iff {p : NetworkPacket} {f : Found} (hpad : ¬ PadInFront p) : OptionsRead p f ↔ OptionsSay p f := by
  unfold OptionsRead OptionsSay
  cases harea : optionArea p with
  | nil =>
    constructor
    · rintro ⟨items, ⟨⟩, _⟩
    · rintro ⟨items, hitems, _⟩
      exact absurd hitems not_area_nil
  | cons first rest =>
    have hfirst : first ≠ optionFormat.pad := by
      rintro rfl
      exact hpad ⟨rest, harea⟩
    simp only [area_iff_unpadded hfirst]

/-- The packet is for this client, and `dhcp_read` finds this in its options. -/
structure ReadAs (transactionId : UInt32) (ourMac : Mac) (p : NetworkPacket) (f : Found) : Prop where
  verified : verifyDhcpHeader transactionId ourMac p.data p.index = true
  items : ∃ items, Unpadded optionFormat (optionArea p) items ∧ f = found items

theorem OptionsRead.long {p : NetworkPacket} {f : Found} (h : OptionsRead p f) : 240 < p.length := by
  obtain ⟨items, hitems, _⟩ := h
  by_contra hshort
  have hempty : (p.length - dhcpHeaderSize).toNat = 0 := by
    simp only [dhcpHeaderSize]
    omega
  rw [optionArea, hempty] at hitems
  cases hitems

theorem ReadAs.long {transactionId : UInt32} {ourMac : Mac} {p : NetworkPacket} {f : Found}
    (h : ReadAs transactionId ourMac p f) : 240 < p.length := OptionsRead.long h.items

theorem ReadAs.unique {transactionId : UInt32} {ourMac : Mac} {p : NetworkPacket} {f f' : Found}
    (h : ReadAs transactionId ourMac p f) (h' : ReadAs transactionId ourMac p f') : f = f' :=
  OptionsRead.unique h.items h'.items

/-- `dhcp_read` accepts what has a reading, and fills the record from it. -/
theorem readDhcpPacket_iff {transactionId : UInt32} {ourMac : Mac} {p : NetworkPacket}
    (h : 240 < p.length) :
    readDhcpPacket transactionId ourMac p o = (true, o') ↔
      ∃ f, ReadAs transactionId ourMac p f ∧ o' = f.record (clearedOptions p o) := by
  unfold readDhcpPacket
  by_cases hverified : verifyDhcpHeader transactionId ourMac p.data p.index = true
  · rw [if_neg (by rw [hverified]; simp)]
    have hleft : ((p.length - dhcpHeaderSize).toNat : Int) = p.length - dhcpHeaderSize := by
      simp only [dhcpHeaderSize]
      omega
    have hloop : readOptions p.data ((p.length - dhcpHeaderSize).toNat + 1) (p.index + dhcpHeaderSize)
        (p.length - dhcpHeaderSize).toNat (clearedOptions p o) = (true, o') ↔ _ :=
      readOptions_iff _ (by simp only [dhcpHeaderSize]; omega) (Nat.lt_succ_self _)
    rw [hleft] at hloop
    simp only [clearedOptions] at hloop
    rw [hloop]
    constructor
    · rintro ⟨items, hitems, rfl⟩
      exact ⟨found items, ⟨hverified, items, hitems, rfl⟩, foldl_storeItem items _⟩
    · rintro ⟨f, ⟨_, items, hitems, rfl⟩, rfl⟩
      exact ⟨items, hitems, (foldl_storeItem items _).symm⟩
  · rw [if_pos (Bool.eq_false_of_not_eq_true hverified)]
    constructor
    · intro hfalse
      cases hfalse
    · rintro ⟨f, hf, _⟩
      exact absurd hf.verified hverified

/-- A datagram without options is refused, or it leaves a record without a mark. -/
theorem readDhcpPacket_short {p : NetworkPacket} (transactionId : UInt32) (ourMac : Mac) (o : DhcpOptions)
    (hshort : p.length ≤ 240) :
    (readDhcpPacket transactionId ourMac p o = (false, o)) ∨
      (readDhcpPacket transactionId ourMac p o).2 =
        { o with yourIp := readBe32 p.data (p.index + 16), mask := 0 } := by
  unfold readDhcpPacket
  split
  · exact .inl rfl
  · right
    have hlength : p.length - dhcpHeaderSize < 2 := by
      unfold dhcpHeaderSize
      omega
    simp only [readOptions, if_pos hlength]
    split
    · rfl
    · rfl

/-- The mask demands three kinds of options. -/
theorem expectedMask_iff (f : Found) :
    f.mask &&& expectedMask = expectedMask ↔ f.serverIp.isSome ∧ f.messageType.isSome ∧ f.leaseTime.isSome := by
  unfold Found.mask
  cases f.serverIp.isSome <;> cases f.netmask.isSome <;> cases f.messageType.isSome <;>
    cases f.leaseTime.isSome <;> decide

end MiniIp.Invariant
