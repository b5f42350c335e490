import MiniIp.Invariant.DhcpClient
import MiniIp.Invariant.DhcpServer
import MiniIp.Invariant.OptionGrammar
import MiniIp.Invariant.SoundRun

/-!
# The grammar of the options

`dhcp_read` (dhcp.c:249-336) skips pads behind an option and not in front of the first one:
a pad in front is taken for an option, and the byte behind it for a length. Where the datagram
ends with the header, the loop looks at the byte behind the datagram.
-/

set_option autoImplicit false

namespace MiniIp.Guarantees.OptionParser

open MiniIp.Source MiniIp.Invariant MiniIp.Library.Runs MiniIp.Library.TagLength MiniIp.Library.Wp

/-- The record marks what the options say, and has their values. -/
structure Tells (f : Found) (o : DhcpOptions) : Prop where
  mask : o.mask = f.mask
  serverIp : ∀ ip, f.serverIp = some ip → o.serverIp = ip
  netmask : ∀ ip, f.netmask = some ip → o.netmask = ip
  messageType : ∀ type, f.messageType = some type → o.messageType = type
  leaseTime : ∀ seconds, f.leaseTime = some seconds → o.leaseTime = seconds

/-- What is returned for the packet, and the record, are what the grammar says. -/
def FollowsGrammar (p : NetworkPacket) (accepted : Bool) (o : DhcpOptions) : Prop :=
  (accepted = true ↔ ∃ items, Area optionFormat (optionArea p) items) ∧
    (accepted = true → ∀ items, Area optionFormat (optionArea p) items → Tells (found items) o)

/-- There is an option, or the byte behind the datagram is no END; and if there is a pad in front, taking it for
an option whose length is the next byte makes no difference. -/
def ReadsRight (p : NetworkPacket) : Prop :=
  (optionArea p = [] → p.data (p.index + dhcpHeaderSize) ≠ dhcpOptionEnd) ∧
    ∀ rest, optionArea p = optionFormat.pad :: rest → ∀ f,
      (∃ items, Area optionFormat (optionArea p) items ∧ f = found items) ↔
        ∃ items, Unpadded optionFormat (optionArea p) items ∧ f = found items

variable {application : Application} {time : Time} {entropy : ℕ → UInt32} {s : Stack} {p : NetworkPacket}
  {o : DhcpOptions} {f f' : Found} {transactionId : UInt32} {ourMac : Mac}

theorem record_tells (f : Found) : Tells f (f.record (clearedOptions p o)) := by
  constructor
  · exact Nat.zero_or f.mask
  · intro ip hip
    simp only [Found.record, hip, Option.getD_some]
  · intro ip hip
    simp only [Found.record, hip, Option.getD_some]
  · intro type htype
    simp only [Found.record, htype, Option.getD_some]
  · intro seconds hseconds
    simp only [Found.record, hseconds, Option.getD_some]

/-- What both say is present has one value. -/
theorem option_eq {α : Type} {x y : Option α} {value : α} (hsome : x.isSome = y.isSome)
    (hx : ∀ a, x = some a → value = a) (hy : ∀ a, y = some a → value = a) : x = y := by
  cases x with
  | none =>
    cases y with
    | none => rfl
    | some b => simp at hsome
  | some a =>
    cases y with
    | none => simp at hsome
    | some b => rw [← hx a rfl, ← hy b rfl]

theorem Tells.unique (h : Tells f o) (h' : Tells f' o) : f = f' := by
  have hmask : f.mask = f'.mask := h.mask.symm.trans h'.mask
  obtain ⟨hserver, hnetmask, htype, hlease⟩ := mask_bits f
  obtain ⟨hserver', hnetmask', htype', hlease'⟩ := mask_bits f'
  rw [hmask] at hserver hnetmask htype hlease
  have hserverIp := option_eq (hserver.symm.trans hserver') h.serverIp h'.serverIp
  have hnetmaskIp := option_eq (hnetmask.symm.trans hnetmask') h.netmask h'.netmask
  have hmessage := option_eq (htype.symm.trans htype') h.messageType h'.messageType
  have hseconds := option_eq (hlease.symm.trans hlease') h.leaseTime h'.leaseTime
  cases f
  cases f'
  simp only [Found.mk.injEq]
  exact ⟨hserverIp, hnetmaskIp, hmessage, hseconds⟩

theorem optionArea_eq_nil_iff : optionArea p = [] ↔ p.length ≤ 240 := by
  rw [← List.length_eq_zero_iff, optionArea, readBytes_length]
  simp only [dhcpHeaderSize]
  omega

theorem readDhcpPacket_empty (hverified : verifyDhcpHeader transactionId ourMac p.data p.index = true)
    (hempty : p.length = 240) :
    (readDhcpPacket transactionId ourMac p o).1 = true ↔ p.data (p.index + dhcpHeaderSize) = dhcpOptionEnd := by
  unfold readDhcpPacket
  rw [if_neg (by rw [hverified]; simp), hempty]
  simp only [dhcpHeaderSize, Int.sub_self, Int.toNat_zero, readOptions]
  by_cases hend : p.data (p.index + 240) = dhcpOptionEnd
  · simp [hend]
  · simp [hend]

theorem followsGrammar_empty (hverified : verifyDhcpHeader transactionId ourMac p.data p.index = true)
    (hempty : p.length = 240) :
    FollowsGrammar p (readDhcpPacket transactionId ourMac p o).1 (readDhcpPacket transactionId ourMac p o).2 ↔
      ReadsRight p := by
  have harea : optionArea p = [] := optionArea_eq_nil_iff.mpr (by omega)
  have hread := readDhcpPacket_empty (o := o) hverified hempty
  unfold FollowsGrammar ReadsRight
  rw [harea, hread]
  constructor
  · intro h
    constructor
    · intro _ hend
      obtain ⟨items, hitems⟩ := h.1.mp hend
      exact not_area_nil hitems
    · rintro _ ⟨⟩
  · intro h
    have hnot := h.1 rfl
    constructor
    · constructor
      · intro hend
        exact absurd hend hnot
      · rintro ⟨items, hitems⟩
        exact absurd hitems not_area_nil
    · intro hend
      exact absurd hend hnot

/-- The grammar is followed exactly where the two readings say the same. -/
theorem followsGrammar_iff (hverified : verifyDhcpHeader transactionId ourMac p.data p.index = true)
    (hlong : 240 < p.length) :
    FollowsGrammar p (readDhcpPacket transactionId ourMac p o).1 (readDhcpPacket transactionId ourMac p o).2 ↔
      ∀ f, (∃ items, Area optionFormat (optionArea p) items ∧ f = found items) ↔
        ∃ items, Unpadded optionFormat (optionArea p) items ∧ f = found items := by
  cases hread : readDhcpPacket transactionId ourMac p o with
  | mk accepted o' =>
    cases accepted with
    | true =>
      obtain ⟨f, hf, rfl⟩ := (readDhcpPacket_iff hlong).mp hread
      obtain ⟨items, hitems, rfl⟩ := hf.items
      constructor
      · intro h g
        obtain ⟨items', hitems'⟩ := h.1.mp rfl
        have hsame : found items' = found items := (h.2 rfl items' hitems').unique (record_tells _)
        constructor
        · rintro ⟨others, hothers, rfl⟩
          rw [hothers.unique hitems']
          exact ⟨items, hitems, hsame⟩
        · rintro ⟨others, hothers, rfl⟩
          rw [hothers.unique hitems]
          exact ⟨items', hitems', hsame.symm⟩
      · intro h
        obtain ⟨items', hitems', hsame⟩ := (h (found items)).mpr ⟨items, hitems, rfl⟩
        constructor
        · exact ⟨fun _ => ⟨items', hitems'⟩, fun _ => rfl⟩
        · intro _ others hothers
          rw [hothers.unique hitems', ← hsame]
          exact record_tells _
    | false =>
      have hnone : ∀ items, ¬ Unpadded optionFormat (optionArea p) items := by
        intro items hitems
        have haccepted : readDhcpPacket transactionId ourMac p o = (true, _) :=
          (readDhcpPacket_iff hlong).mpr ⟨found items, ⟨hverified, items, hitems, rfl⟩, rfl⟩
        rw [hread] at haccepted
        cases haccepted
      constructor
      · intro h g
        constructor
        · rintro ⟨items, hitems, _⟩
          have haccepted := h.1.mpr ⟨items, hitems⟩
          cases haccepted
        · rintro ⟨items, hitems, _⟩
          exact absurd hitems (hnone items)
      · intro h
        constructor
        · constructor
          · rintro ⟨⟩
          · rintro ⟨items, hitems⟩
            obtain ⟨items', hitems', _⟩ := (h (found items)).mp ⟨items, hitems, rfl⟩
            exact absurd hitems' (hnone items')
        · rintro ⟨⟩

/-- Only a pad in front makes the two readings differ. -/
theorem readsRight_iff (hlong : 240 < p.length) :
    ReadsRight p ↔ ∀ f, (∃ items, Area optionFormat (optionArea p) items ∧ f = found items) ↔
      ∃ items, Unpadded optionFormat (optionArea p) items ∧ f = found items := by
  have hsome : optionArea p ≠ [] := by
    rw [ne_eq, optionArea_eq_nil_iff]
    omega
  unfold ReadsRight
  obtain ⟨first, rest, harea⟩ := List.exists_cons_of_ne_nil hsome
  rw [harea]
  by_cases hpad : first = optionFormat.pad
  · subst hpad
    constructor
    · intro h
      exact h.2 rest rfl
    · intro h
      exact ⟨fun hnil => (List.cons_ne_nil _ _ hnil).elim, fun _ _ => h⟩
  · simp [area_iff_unpadded hpad, hpad]

/-- `dhcp_read` follows the grammar exactly on the datagrams that do not begin with a pad that it takes for an
option to another effect, and that do not end with their header before a byte that looks like an END. -/
theorem options_follow_grammar_iff
    (h : Reaches Op.exec (fun _ _ => True) (booted application time entropy) s)
    (hhead : headDatagram s dhcpClientPort = some p) (hlong : 240 ≤ p.length)
    (hverified : verifyDhcpHeader s.dhcp.transactionId s.ourMac p.data p.index = true) :
    wp dhcpRead (fun accepted t => FollowsGrammar p accepted t.options ↔ ReadsRight p) (fun _ _ => False) s := by
  obtain ⟨limit, held, hs⟩ := reaches_intact False h fun hfalse => hfalse.elim
  apply wp_next (dhcpRead_refines hs.udp)
  intro accepted t ht
  obtain ⟨hread, _⟩ := ht
  rw [hhead] at hread
  have haccepted : accepted = (readDhcpPacket s.dhcp.transactionId s.ourMac p s.options).1 :=
    congrArg Prod.fst hread
  have hoptions : t.options = (readDhcpPacket s.dhcp.transactionId s.ourMac p s.options).2 :=
    congrArg (fun r => r.2.options) hread
  rw [haccepted, hoptions]
  by_cases hempty : p.length = 240
  · exact followsGrammar_empty hverified hempty
  · rw [followsGrammar_iff hverified (by omega), readsRight_iff (by omega)]

/-- An offer without a pad in front is read as the grammar says. -/
theorem options_follow_grammar_offer :
    ∃ s p, headDatagram s dhcpClientPort = some p ∧
      wp dhcpRead (fun accepted t => FollowsGrammar p accepted t.options) (fun _ _ => False) s := by
  have hrun : runs Op.exec (fun _ _ => true) (waitsFor fun _ p => (optionArea p).head? = some dhcpOptionMessageType)
      (receivesReply (replyOptions dhcpMessageTypeOffer)) (booted zeroApplication 0 fun _ => 0) = true := by
    decide +kernel
  obtain ⟨s, p, hreach, hhead, hlong, hverified, hcheck⟩ := waiting_of_runs hrun
  have hfirst : (optionArea p).head? = some dhcpOptionMessageType := of_decide_eq_true hcheck
  have hright : ReadsRight p := by
    constructor
    · intro hempty
      rw [hempty] at hfirst
      cases hfirst
    · intro rest hpad
      rw [hpad] at hfirst
      cases hfirst
  refine ⟨s, p, hhead, ?_⟩
  exact wp_next (options_follow_grammar_iff hreach hhead hlong hverified) fun _ _ hiff => hiff.mpr hright

/-- The options of this datagram are a pad and the END. The code takes the pad for an option of 255 bytes. -/
theorem leading_pad_refused :
    ∃ s p, Reaches Op.exec (fun _ _ => True) (booted zeroApplication 0 fun _ => 0) s ∧
      headDatagram s dhcpClientPort = some p ∧ 240 ≤ p.length ∧
      verifyDhcpHeader s.dhcp.transactionId s.ourMac p.data p.index = true ∧
      (∃ items, Area optionFormat (optionArea p) items) ∧
      wp dhcpRead (fun accepted t => accepted = false ∧ ¬ FollowsGrammar p accepted t.options)
        (fun _ _ => False) s := by
  have hrun : runs Op.exec (fun _ _ => true)
      (waitsFor fun s p => optionArea p = [0, 255] ∧
        (readDhcpPacket s.dhcp.transactionId s.ourMac p s.options).1 = false)
      (receivesReply [0]) (booted zeroApplication 0 fun _ => 0) = true := by
    decide +kernel
  obtain ⟨s, p, hreach, hhead, hlong, hverified, hcheck⟩ := waiting_of_runs hrun
  obtain ⟨harea, hrefused⟩ := of_decide_eq_true hcheck
  obtain ⟨limit, held, hs⟩ := reaches_intact False hreach fun hfalse => hfalse.elim
  have hgrammar : ∃ items, Area optionFormat (optionArea p) items := by
    rw [harea]
    exact ⟨[], .pad (.stop [])⟩
  refine ⟨s, p, hreach, hhead, hlong, hverified, hgrammar, ?_⟩
  apply wp_next (dhcpRead_refines hs.udp)
  intro accepted t ht
  obtain ⟨hread, _⟩ := ht
  rw [hhead] at hread
  have haccepted : accepted = false := (congrArg Prod.fst hread).trans hrefused
  refine ⟨haccepted, ?_⟩
  intro hfollows
  have htrue := hfollows.1.mpr hgrammar
  rw [haccepted] at htrue
  cases htrue

end MiniIp.Guarantees.OptionParser
