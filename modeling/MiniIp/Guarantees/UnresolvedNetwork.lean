import MiniIp.Guarantees.ArpReply
import MiniIp.Invariant.ArpRequests
import MiniIp.Invariant.Emission
import MiniIp.Library.Network

/-!
# Hosts that never find each other

On a network where every host that speaks ARP runs this stack, an answer goes to the address of the host that has
asked, read backwards (`MiniIp.Guarantees.ArpReply`). A host takes an answer for its own address only. So where none
of the addresses in use is another one read backwards, no host ever learns a MAC address, whatever is lost, repeated
or delayed on the way; and none ever sends an IP packet to one host.

The frames of IPv4 that a host receives may come from anywhere.
-/

set_option autoImplicit false

namespace MiniIp.Guarantees.UnresolvedNetwork

open MiniIp.Source MiniIp.Invariant MiniIp.Library.Runs MiniIp.Library.Wp

variable {ι : Type} {addresses : Ip → Prop} {hosts : ι → Stack} {application : ι → Application}
  {time : ι → Time} {entropy : ι → Nat → UInt32} {s t : Stack} {p : PacketId} {n : ℕ} {k : NetworkPacket}

/-- A host has one of the addresses in use, or none yet. -/
def Addressed (addresses : Ip → Prop) (ip : Ip) : Prop := ip = 0 ∨ addresses ip

/-- An answer to one of the addresses in use, read backwards. -/
def ReplyFrame (addresses : Ip → Prop) (frame : List UInt8) : Prop :=
  ∃ targetMac ourMac ip targetIp asked, frame = macBytes targetMac ++ macBytes ourMac ++ be16Bytes etherTypeArp ++
    arpBytes arpOperationReply ourMac ip targetMac targetIp ∧ addresses asked ∧ be32Bytes targetIp = (be32Bytes asked).reverse

def CarriesArp (frame : NetworkPacket) : Prop := readBe16 frame.data (frame.index + 12) = etherTypeArp

/-- What happens on the network: a host takes an address only if it is one of those in use, and an ARP frame that it
receives is one that some host has sent, with padding. -/
structure OnNetwork (addresses : Ip → Prop) (hosts : ι → Stack) (step : ι × Op) : Prop where
  addressed : ∀ t, step.2.exec (hosts step.1) = .ok () t → Addressed addresses t.ourIp
  heard : step.2 = .receive → ∀ frame, nextFrame (hosts step.1) = some frame → CarriesArp frame →
    ∃ host sent padding, sent ∈ sentFrames (hosts host).trace ∧ 14 ≤ sent.length ∧ frame.payload = sent ++ padding

theorem be32Bytes_readBe32 (memory : Memory) (pointer : Int) :
    be32Bytes (readBe32 memory pointer) = readBytes memory pointer 4 := by
  have hthird : pointer + 1 + 1 = pointer + 2 := by omega
  have hfourth : pointer + 2 + 1 = pointer + 3 := by omega
  rw [readBe32, ArpReply.be32Bytes_packed]
  simp [readBytes, hthird, hfourth]

theorem readBe32_eq {memory : Memory} {pointer : Int} {size : ℕ} {value : UInt32} {rest : List UInt8}
    (h : readBytes memory pointer size = be32Bytes value ++ rest) : readBe32 memory pointer = value := by
  have hfour : readBytes memory pointer 4 = be32Bytes value := readBytes_front h
  rw [readBytes_four, hfour, be32_be32Bytes]

/-- What lies at its place in a frame with this header. -/
theorem header_fields {target sender body padding : List UInt8} {type : UInt16} (htarget : target.length = 6)
    (hsender : sender.length = 6) (h : k.payload = target ++ sender ++ be16Bytes type ++ body ++ padding) :
    readBe16 k.data (k.index + 12) = type ∧ ∃ size, readBytes k.data (k.index + 14) size = body ++ padding := by
  have hmacs : (target ++ sender).length = 12 := by simp [htarget, hsender]
  have hfront : (target ++ sender ++ be16Bytes type).length = 14 := by simp [htarget, hsender, be16Bytes_length]
  constructor
  · have hpayload : readBytes k.data k.index k.length.toNat =
        (target ++ sender) ++ (be16Bytes type ++ (body ++ padding)) := by
      rw [← NetworkPacket.payload, h]
      simp only [List.append_assoc]
    obtain ⟨size, hread⟩ := readBytes_behind (k.index + 12) hpayload hmacs rfl
    exact readBe16_eq hread
  · have hpayload : readBytes k.data k.index k.length.toNat =
        (target ++ sender ++ be16Bytes type) ++ (body ++ padding) := by
      rw [← NetworkPacket.payload, h]
      simp only [List.append_assoc]
    exact readBytes_behind (k.index + 14) hpayload hfront rfl

/-- The fields of an ARP packet that `handle_arp` looks at. -/
theorem arp_fields {operation : UInt16} {sendersMac targetMac : Mac} {sendersIp targetIp : Ip} {padding : List UInt8}
    {memory : Memory} {header : Int} {size : ℕ}
    (h : readBytes memory header size = arpBytes operation sendersMac sendersIp targetMac targetIp ++ padding) :
    readBe16 memory (header + 6) = operation ∧ readBe32 memory (header + 14) = sendersIp ∧
      readBe32 memory (header + 24) = targetIp := by
  have hsplit : readBytes memory header size = [0, 1, 0x08, 0x00, 6, 4] ++ (be16Bytes operation ++
      (macBytes sendersMac ++ (be32Bytes sendersIp ++ (macBytes targetMac ++ (be32Bytes targetIp ++ padding))))) := by
    rw [h, arpBytes]
    simp only [List.append_assoc]
  obtain ⟨_, hoperation⟩ := readBytes_behind (header + 6) hsplit rfl rfl
  obtain ⟨_, hmac⟩ := readBytes_behind (header + 8) hoperation (be16Bytes_length operation) (by omega)
  obtain ⟨_, hsender⟩ := readBytes_behind (header + 14) hmac (macBytes_length sendersMac) (by omega)
  obtain ⟨_, htargetMac⟩ := readBytes_behind (header + 18) hsender (be32Bytes_length sendersIp) (by omega)
  obtain ⟨_, htarget⟩ := readBytes_behind (header + 24) htargetMac (macBytes_length targetMac) (by omega)
  exact ⟨readBe16_eq hoperation, readBe32_eq hsender, readBe32_eq htarget⟩

/-- What may be sent on the network. -/
def Known (addresses : Ip → Prop) (frame : List UInt8) : Prop :=
  IpFrame frame ∨ RequestFrame (Addressed addresses) frame ∨ ReplyFrame addresses frame

/-- No host has been found, and nothing but answers of ARP goes to one host. -/
structure Alone (addresses : Ip → Prop) (s : Stack) : Prop where
  address : Addressed addresses s.ourIp
  unmapped : Unmapped s
  known : ∀ frame ∈ sentFrames s.trace, Known addresses frame
  broadcast : ∀ frame ∈ sentFrames s.trace, BroadcastFrame frame ∨ ReplyFrame addresses frame

theorem Alone.congr (h : Alone addresses s) (hip : t.ourIp = s.ourIp) (harp : t.arp = s.arp)
    (hframes : sentFrames t.trace = sentFrames s.trace) : Alone addresses t := by
  refine ⟨?_, ?_, ?_, ?_⟩
  · rw [hip]
    exact h.address
  · intro e
    rw [harp]
    exact h.unmapped e
  · rw [hframes]
    exact h.known
  · rw [hframes]
    exact h.broadcast

theorem Alone.sends (h : Alone addresses s) (hsent : Outgoing (Addressed addresses) n s t)
    (haddress : Addressed addresses t.ourIp) : Alone addresses t := by
  obtain ⟨frames, hframes, _, hkinds⟩ := hsent.frames
  refine ⟨haddress, hsent.unmapped h.unmapped, fun frame hmem => ?_, fun frame hmem => ?_⟩
  · rw [hframes] at hmem
    rcases List.mem_append.mp hmem with hnew | hold
    · obtain ⟨hkind, _⟩ := hkinds frame hnew
      rcases hkind h.address with hip | hrequest
      · exact .inl hip
      · exact .inr (.inl hrequest)
    · exact h.known frame hold
  · rw [hframes] at hmem
    rcases List.mem_append.mp hmem with hnew | hold
    · obtain ⟨_, hall⟩ := hkinds frame hnew
      exact .inl (hall h.unmapped)
    · exact h.broadcast frame hold

theorem Alone.transmits (h : Alone addresses s) (htransmitted : Transmitted (Addressed addresses) n s t) : Alone addresses t :=
  h.sends htransmitted.toOutgoing (htransmitted.address h.address)

/-- An answer is sent. -/
theorem Alone.replies {frame : List UInt8} (h : Alone addresses s) (hframes : sentFrames t.trace = frame :: sentFrames s.trace)
    (harp : t.arp = s.arp) (hip : t.ourIp = s.ourIp) (hreply : ReplyFrame addresses frame) : Alone addresses t := by
  constructor
  · rw [hip]
    exact h.address
  · intro e
    rw [harp]
    exact h.unmapped e
  · intro frame' hmem
    rw [hframes] at hmem
    rcases List.mem_cons.mp hmem with rfl | hold
    · exact .inr (.inr hreply)
    · exact h.known frame' hold
  · intro frame' hmem
    rw [hframes] at hmem
    rcases List.mem_cons.mp hmem with rfl | hold
    · exact .inr hreply
    · exact h.broadcast frame' hold

/-- An ARP packet that is no answer for this host; if it is a request, a host in use has asked. -/
structure Unmatched (addresses : Ip → Prop) (ourIp : Ip) (k : NetworkPacket) : Prop where
  reply : readBe16 k.data (k.index + 6) = arpOperationReply → readBe32 k.data (k.index + 24) ≠ ourIp
  request : readBe16 k.data (k.index + 6) = arpOperationRequest → Addressed addresses (readBe32 k.data (k.index + 14))

theorem handleArp_alone (h : Alone addresses s) (hunmatched : Unmatched addresses s.ourIp (s.packets p)) :
    wp (handleArp p) (fun _ t => Alone addresses t) (fun _ _ => True) s := by
  unfold handleArp
  simp only [wp_bind, wp_getPacket, wp_ite, wp_freeNetworkPacket, wp_recordWindow, wp_get]
  split
  · exact h.congr rfl rfl rfl
  split
  · exact h.congr rfl rfl rfl
  split
  · next hoperation =>
    split
    · next hours => exact absurd hours.2 (hunmatched.reply hoperation)
    · exact h.congr rfl rfl rfl
  split
  · next hoperation =>
    split
    · next hasked =>
      -- the sender's address is written as it lies in memory
      have haddressed : addresses (readBe32 (s.packets p).data ((s.packets p).index + 14)) :=
        (hunmatched.request hoperation).resolve_left hasked.1
      have hbackwards : be32Bytes (readRaw32 (s.packets p).data ((s.packets p).index + 14)) =
          (be32Bytes (readBe32 (s.packets p).data ((s.packets p).index + 14))).reverse := by
        rw [be32Bytes_readBe32, ArpReply.be32Bytes_readRaw32]
      let seen := s.observe (.window .handleArp (s.packets p).index (s.packets p).length arpHeaderSize)
      cases hpool : seen.freeNetworkPackets with
      | nil =>
        unfold sendArpPacket
        rw [wp_bind]
        unfold wp
        rw [allocateNetworkPacket_nil hpool]
        trivial
      | cons q rest =>
        apply wp_partial (sendArpPacket_sent hpool _ _ .reply)
        intro _ t ht
        refine h.replies ht.frames ht.arp ?_ ?_
        · exact congrArg (·.2.2.1) ht.unsent
        · exact ⟨_, s.ourMac, s.ourIp, _, _, arpFrame_reply s _ _ _, haddressed, hbackwards⟩
    · exact h.congr rfl rfl rfl
  · exact h.congr rfl rfl rfl

/-- None of the addresses in use is one of them read backwards. -/
def NoneBackwards (addresses : Ip → Prop) : Prop :=
  ∀ ip ip', addresses ip → addresses ip' → be32Bytes ip ≠ (be32Bytes ip').reverse

/-- A host without an address has not been asked for either. -/
theorem NoneBackwards.other (h : NoneBackwards addresses) {ourIp targetIp asked : Ip} (hours : Addressed addresses ourIp)
    (hasked : addresses asked) (htarget : be32Bytes targetIp = (be32Bytes asked).reverse) : targetIp ≠ ourIp := by
  rintro rfl
  rcases hours with rfl | hours
  · have hzero : asked = 0 := by
      apply be32Bytes_injective
      rw [← List.reverse_inj, ← htarget]
      rfl
    rw [hzero] at hasked
    exact h 0 0 hasked hasked rfl
  · exact h targetIp asked hours hasked htarget

theorem known_unmatched (hnone : NoneBackwards addresses) {ourIp : Ip} {sent padding : List UInt8}
    (hours : Addressed addresses ourIp) (hknown : Known addresses sent) (hlong : 14 ≤ sent.length)
    (hpayload : k.payload = sent ++ padding) (harp : CarriesArp k) : Unmatched addresses ourIp (macStripped k) := by
  have hindex : (macStripped k).index = k.index + 14 := rfl
  have hdata : (macStripped k).data = k.data := rfl
  have hdiffer : arpOperationRequest ≠ arpOperationReply := by decide
  rcases hknown with ⟨mac, ourMac, content, rfl⟩ | ⟨ourMac, ip, targetMac, targetIp, hip, rfl⟩ |
    ⟨targetMac, ourMac, ip, targetIp, asked, rfl, hasked, htarget⟩
  · -- a frame of IPv4 has another type
    have hlength : 0 ≤ content.length := by
      rw [payload_length] at hlong
      have hframed : (macFramed mac ourMac etherTypeIpv4 content).length = content.length + 14 := rfl
      omega
    rw [macFramed_frame _ _ _ hlength] at hpayload
    obtain ⟨htype, _⟩ := header_fields (macBytes_length mac) (macBytes_length ourMac) hpayload
    have hsame : etherTypeIpv4 = etherTypeArp := htype.symm.trans harp
    exact absurd hsame (by decide)
  · obtain ⟨_, _, hbody⟩ := header_fields (macBytes_length broadcastMac) (macBytes_length ourMac) hpayload
    obtain ⟨hoperation, hsender, _⟩ := arp_fields hbody
    constructor
    · intro hreply
      rw [hindex, hdata, hoperation] at hreply
      exact absurd hreply hdiffer
    · intro _
      rw [hindex, hdata, hsender]
      exact hip
  · obtain ⟨_, _, hbody⟩ := header_fields (macBytes_length targetMac) (macBytes_length ourMac) hpayload
    obtain ⟨hoperation, _, hread⟩ := arp_fields hbody
    constructor
    · intro _
      rw [hindex, hdata, hread]
      exact hnone.other hours hasked htarget
    · intro hrequest
      rw [hindex, hdata, hoperation] at hrequest
      exact absurd hrequest hdiffer.symm

theorem handleMac_alone (h : Alone addresses s)
    (hunmatched : CarriesArp (s.packets p) → Unmatched addresses s.ourIp (macStripped (s.packets p))) :
    wp (handleMac p) (fun _ t => Alone addresses t) (fun _ _ => True) s := by
  have hdelivered : Alone addresses (macDelivered s p) := h.congr rfl rfl rfl
  unfold handleMac
  simp only [wp_bind, wp_getPacket, wp_ite, wp_recordWindow, wp_modifyPacket]
  split
  · rw [wp_freeNetworkPacket]
    exact h.congr rfl rfl rfl
  split
  · next htype =>
    have hpacket : Unmatched addresses (macDelivered s p).ourIp ((macDelivered s p).packets p) := by
      rw [macDelivered_packet]
      exact hunmatched htype
    exact handleArp_alone hdelivered hpacket
  split
  · apply wp_next (handleIp_transmits (P := Addressed addresses) p (macDelivered s p))
    intro _ t ht
    exact hdelivered.transmits ht
  · rw [wp_freeNetworkPacket]
    exact h.congr rfl rfl rfl

theorem receivePacket_alone (hnone : NoneBackwards addresses) {limit : ℕ} {held : List PacketId}
    (h : Alone addresses s) (hsound : Sound False (fun _ _ _ _ => True) limit held s)
    (hheard : ∀ frame, nextFrame s = some frame → CarriesArp frame →
      ∃ sent padding, Known addresses sent ∧ 14 ≤ sent.length ∧ frame.payload = sent ++ padding) :
    wp receivePacket (fun _ t => Alone addresses t) (fun _ _ => True) s := by
  unfold receivePacket
  rw [wp_bind]
  have hreceive := gmacReceive_sound hsound (le_refl held.length)
  have htransmits : Transmits (Addressed addresses) 0 gmacReceive := gmacReceive_transmits
  apply wp_partial (wp_and hreceive (htransmits s))
  rintro received t ⟨⟨_, hip, _, hnext⟩, ht⟩
  have halone : Alone addresses t := h.transmits ht
  cases received with
  | none => exact halone
  | some p =>
    obtain ⟨hframe, _⟩ := hnext p rfl
    rw [wp_bind]
    have hmac : wp (handleMac p) (fun _ u => Alone addresses u) (fun _ _ => True) t := by
      apply handleMac_alone halone
      intro harp
      obtain ⟨sent, padding, hknown, hlong, hpayload⟩ := hheard _ hframe harp
      exact known_unmatched hnone halone.address hknown hlong hpayload harp
    apply wp_next hmac
    intro _ u hu
    exact hu

theorem booted_alone (application : Application) (time : Time) (entropy : Nat → UInt32) :
    Alone addresses (booted application time entropy) := by
  have hfresh : Fresh application time entropy (booted application time entropy) := booted_fresh
  have hnothing : sentFrames (booted application time entropy).trace = [] := by
    rw [hfresh.trace]
    rfl
  constructor
  · exact .inl hfresh.ours.1
  · intro e
    rw [hfresh.arp.2.2 e]
  · simp [hnothing]
  · simp [hnothing]

/-- A step of one host, as long as all hosts are alone. -/
theorem exec_alone (hnone : NoneBackwards addresses) {host : ι} {op : Op}
    (h : ∀ other, Alone addresses (hosts other)) (hintact : Intact False (fun _ _ _ _ => True) (hosts host))
    (met : OnNetwork addresses hosts (host, op)) :
    wp op.exec (fun _ t => Alone addresses t) (fun _ _ => True) (hosts host) := by
  by_cases hop : op = .receive
  · subst hop
    obtain ⟨limit, held, hsound⟩ := hintact
    have hreceive : wp receivePacket (fun _ t => Alone addresses t) (fun _ _ => True) (hosts host) := by
      apply receivePacket_alone hnone (h host) hsound
      intro frame hframe harp
      obtain ⟨other, sent, padding, hsent, hlong, hpayload⟩ := met.heard rfl frame hframe harp
      exact ⟨sent, padding, (h other).known sent hsent, hlong, hpayload⟩
    show wp (do let _ ← receivePacket) _ _ _
    rw [wp_bind]
    exact hreceive
  · have hsends := exec_sends (P := Addressed addresses) hop (hosts host)
    unfold wp
    cases hreturned : op.exec (hosts host) with
    | ok _ t =>
      have hsent := wp_ok hsends hreturned
      exact (h host).sends hsent (met.addressed t hreturned)
    | error _ _ => trivial

/-- No host learns a MAC address, and nothing but answers of ARP goes to one host. -/
theorem never_resolved [DecidableEq ι] (hnone : NoneBackwards addresses)
    (h : Reaches (networkExec Op.exec) (OnNetwork addresses) (fun host => booted (application host) (time host) (entropy host)) hosts)
    (host : ι) : Unmapped (hosts host) ∧
      ∀ frame ∈ sentFrames (hosts host).trace, BroadcastFrame frame ∨ ReplyFrame addresses frame := by
  have halone : ∀ host, Reaches Op.exec (fun _ _ => True) (booted (application host) (time host) (entropy host)) (hosts host) ∧
      Alone addresses (hosts host) := by
    apply network_invariant (I := fun host s => Reaches Op.exec (fun _ _ => True)
      (booted (application host) (time host) (entropy host)) s ∧ Alone addresses s) h
    · intro host
      exact ⟨.start, booted_alone _ _ _⟩
    · intro net host op hall met
      have hintact := reaches_intact False (hall host).1 fun hfalse => hfalse.elim
      have hstep := exec_alone hnone (fun other => (hall other).2) hintact met
      apply wp_partial (wp_and ((hall host).1.next trivial) hstep)
      intro _ t ht
      exact ht
  obtain ⟨_, h⟩ := halone host
  exact ⟨h.unmapped, h.broadcast⟩

def twoAddresses (ip : Ip) : Prop := ip = 0x0A000001 ∨ ip = 0x0A000002

instance (ip : Ip) : Decidable (twoAddresses ip) := inferInstanceAs (Decidable (_ ∨ _))

theorem twoAddresses_none : NoneBackwards twoAddresses := by
  rintro ip ip' (rfl | rfl) (rfl | rfl)
  all_goals decide

/-- The host keeps to its address, and a frame that waits for it is one that one of the two has sent. -/
def networkGuard (hosts : Bool → Stack) (step : Bool × Op) : Bool :=
  returnsWith (fun t => t.ourIp = 0 ∨ twoAddresses t.ourIp) step.2.exec (hosts step.1) &&
    (nextFrame (hosts step.1)).all fun frame =>
      (sentFrames (hosts false).trace ++ sentFrames (hosts true).trace).any fun sent =>
        14 ≤ sent.length && sent.isPrefixOf frame.payload

/-- Who has sent the frame that waits. -/
theorem heard_of_guard {hosts : Bool → Stack} {step : Bool × Op} (h : networkGuard hosts step = true) {frame : NetworkPacket}
    (hframe : nextFrame (hosts step.1) = some frame) :
    ∃ host sent padding, sent ∈ sentFrames (hosts host).trace ∧ 14 ≤ sent.length ∧ frame.payload = sent ++ padding := by
  obtain ⟨_, hheard⟩ := Bool.and_eq_true_iff.mp h
  rw [hframe, Option.all_some, List.any_eq_true] at hheard
  obtain ⟨sent, hmem, hcheck⟩ := hheard
  obtain ⟨hlong, hprefix⟩ := Bool.and_eq_true_iff.mp hcheck
  obtain ⟨padding, hpayload⟩ := List.isPrefixOf_iff_prefix.mp hprefix
  rcases List.mem_append.mp hmem with hfirst | hsecond
  · exact ⟨false, sent, padding, hfirst, of_decide_eq_true hlong, hpayload.symm⟩
  · exact ⟨true, sent, padding, hsecond, of_decide_eq_true hlong, hpayload.symm⟩

theorem addressed_of_guard {hosts : Bool → Stack} {step : Bool × Op} (h : networkGuard hosts step = true) (t : Stack)
    (ht : step.2.exec (hosts step.1) = .ok () t) : Addressed twoAddresses t.ourIp := by
  obtain ⟨hreturns, _⟩ := Bool.and_eq_true_iff.mp h
  have hchecked := wp_ok (wp_of_returnsWith hreturns) ht
  have haddress : t.ourIp = 0 ∨ twoAddresses t.ourIp := of_decide_eq_true hchecked
  exact haddress

theorem onNetwork_of_guard {hosts : Bool → Stack} {step : Bool × Op} (h : networkGuard hosts step = true) :
    OnNetwork twoAddresses hosts step :=
  ⟨addressed_of_guard h, fun _ _ hframe _ => heard_of_guard h hframe⟩

/-- The first host asks for the second one and is answered. -/
def askedAndAnswered : List (Bool × Op) :=
  [(false, .setOurIp 0x0A000001), (true, .setOurIp 0x0A000002), (false, .sendToIp [1, 2, 3] 0x0A000002),
    (true, .deliver 0 60 (macBytes broadcastMac ++ macBytes zeroMac ++ be16Bytes etherTypeArp ++
      arpBytes arpOperationRequest zeroMac 0x0A000001 zeroMac 0x0A000002)), (true, .receive),
    (false, .deliver 0 60 (macBytes zeroMac ++ macBytes zeroMac ++ be16Bytes etherTypeArp ++
      arpBytes arpOperationReply zeroMac 0x0A000002 zeroMac 0x0100000A)), (false, .receive)]

/-- 10.0.0.1 asks for 10.0.0.2, which answers; 10.0.0.1 receives the answer and still has no mapping. -/
theorem never_resolved_two :
    ∃ hosts : Bool → Stack, Reaches (networkExec Op.exec) (OnNetwork twoAddresses)
        (fun _ => booted zeroApplication 0 fun _ => 0) hosts ∧ (sentFrames (hosts true).trace).length = 1 ∧
      (hosts false).gmac.rxIndex = 1 ∧ (hosts false).arp.usedEntries.length = 1 ∧ Unmapped (hosts false) := by
  have hrun : runs (networkExec Op.exec) networkGuard (fun hosts => (sentFrames (hosts true).trace).length = 1 ∧
      (hosts false).gmac.rxIndex = 1 ∧ (hosts false).arp.usedEntries.length = 1) askedAndAnswered
      (fun _ => booted zeroApplication 0 fun _ => 0) = true := by
    decide +kernel
  obtain ⟨hosts, hreach, hcheck⟩ := reaches_of_runs (OnNetwork twoAddresses) .start
    (fun _ _ _ hguard => onNetwork_of_guard hguard) hrun
  obtain ⟨hsent, hindex, hused⟩ := of_decide_eq_true hcheck
  obtain ⟨hunmapped, _⟩ := never_resolved twoAddresses_none hreach false
  exact ⟨hosts, hreach, hsent, hindex, hused, hunmapped⟩

end MiniIp.Guarantees.UnresolvedNetwork
