import MiniIp.Invariant.Idle
import MiniIp.Invariant.WireFormat

/-!
# Invariants of what is sent

`WireInvariant addresses owner P` says what a property of the stack has to keep so that every call keeps it: what
sends nothing, the packets of ARP, the two kinds of packets that are passed to IPv4, and an address that is resolved.
All that the stack does is made of these. All lemmas start in an intact state whose host has an address in
`addresses`.
-/

set_option autoImplicit false

namespace MiniIp.Invariant

open MiniIp.Source MiniIp.Library.Counting MiniIp.Library.Runs MiniIp.Library.Wp

/-- A datagram lies in the packet with its headers, and is the newest of those that have been sent. -/
structure DatagramBuilt (p : PacketId) (ip : Ip) (s t : Stack) : Prop where
  idle : Idle s t
  built : ∃ (sourcePort destPort : Port) (k : NetworkPacket), (0 ≤ k.length ∧ k.length ≤ 880) ∧
    t.packets p = udpIpFramed sourcePort destPort t.ourIp ip k ∧
    sentDatagrams t.trace = ⟨sourcePort, destPort, ip, k.payload⟩ :: sentDatagrams s.trace

/-- The answer to a ping lies in the packet with its headers. -/
def EchoBuilt (p : PacketId) (ip : Ip) (s : Stack) : Prop :=
  ∃ k : NetworkPacket, (8 ≤ k.length ∧ k.length ≤ 1024) ∧
    s.packets p = ipFramed ipProtocolIcmp s.ourIp ip (pingAnswered k)

/-- The property is kept by all that the stack is made of. -/
structure WireInvariant (addresses : Ip → Prop) (owner : Ip → Mac → Prop) (P : Stack → Prop) : Prop where
  idle : ∀ {s t}, P s → Idle s t → P t
  datagram : ∀ {U limit held s t p ip}, Sound False U limit (p :: held) t → P s → addresses t.ourIp →
    DatagramBuilt p ip s t → wp (route p ip) (fun _ u => P u) (fun _ _ => True) t
  echo : ∀ {U limit held s p ip}, Sound False U limit (p :: held) s → P s → addresses s.ourIp → EchoBuilt p ip s →
    wp (route p ip) (fun _ t => P t) (fun _ _ => True) s
  arpPacket : ∀ {held s arpType}, Owned held s → P s → addresses s.ourIp → (arpType = .request ∨ arpType = .reply) →
    ∀ targetMac targetIp, wp (sendArpPacket targetMac targetIp arpType) (fun _ t => P t) (fun _ _ => True) s
  mapping : ∀ {U limit held s ip mac}, Sound False U limit held s → P s → owner ip mac →
    wp (updateArpMapping ip mac true) (fun _ t => P t) (fun _ _ => True) s

variable {addresses : Ip → Prop} {owner : Ip → Mac → Prop} {P : Stack → Prop} {U : QueueContent} {limit : ℕ}
  {held rest : List PacketId} {s t u : Stack} {p q : PacketId} {e : ArpEntryId} {ip : Ip} {mac : Mac}

/-- The packet answers a question of the host. -/
structure ArpAnswer (ourIp : Ip) (k : NetworkPacket) : Prop where
  header : validateArpHeader k.data k.index = true
  operation : readBe16 k.data (k.index + 6) = arpOperationReply
  distinct : readBe32 k.data (k.index + 14) ≠ readBe32 k.data (k.index + 24)
  target : readBe32 k.data (k.index + 24) = ourIp

/-- If the packet answers, it names the owner. -/
def Truthful (owner : Ip → Mac → Prop) (ourIp : Ip) (k : NetworkPacket) : Prop :=
  ArpAnswer ourIp k → owner (arpSendersIp k) (arpSendersMac k)

/-- If the frame that is received next answers a question of the host, it names the owner. -/
def HearsTruth (owner : Ip → Mac → Prop) (s : Stack) : Prop :=
  ∀ frame, nextFrame s = some frame → readBe16 frame.data (frame.index + 12) = etherTypeArp →
    Truthful owner s.ourIp (macStripped frame)

/-- The first packet of the pool comes into the caller's hands. -/
theorem Sound.handedOut {events : List Event} (h : Sound False U limit held s) (hpool : s.freeNetworkPackets = p :: rest)
    (hevents : ∀ event ∈ events, Neutral event) : Sound False U limit (p :: held) (Stack.advanced s rest events) := by
  induction events with
  | nil =>
    have howned : Owned (p :: held) (Stack.advanced s rest []) := by
      intro q
      have hq := h.owned q
      simp only [occurrences, hpool, List.count_cons, Stack.advanced] at hq ⊢
      omega
    exact { h with owned := howned }
  | cons event events ih =>
    have hrest := ih fun event' hmem => hevents event' (List.mem_cons_of_mem event hmem)
    exact hrest.observe event (hevents event List.mem_cons_self) False.elim

/-- A computation that starts with the first packet of the pool. -/
theorem wp_fresh {α : Type} {f : PacketId → Net α} {Q : α → Stack → Prop}
    (h : ∀ p rest, s.freeNetworkPackets = p :: rest → wp (allocateNetworkPacket >>= f) Q (fun _ _ => True) s) :
    wp (allocateNetworkPacket >>= f) Q (fun _ _ => True) s := by
  cases hpool : s.freeNetworkPackets with
  | nil =>
    rw [wp_bind]
    unfold wp
    rw [allocateNetworkPacket_nil hpool]
    trivial
  | cons p rest => exact h p rest hpool

/-- A packet of ARP lies in a packet that does not wait. -/
structure ArpBuilt (targetMac : Mac) (targetIp : Ip) (arpType : ArpType) (q : PacketId) (s t : Stack) : Prop where
  idle : Idle s t
  apart : ∀ e, q ∉ (t.arp.entries e).packetQueue
  ourMac : t.ourMac = s.ourMac
  packet : t.packets q = arpFilled s targetMac targetIp arpType (emptied (s.packets q))

/-- `send_arp_packet` fills the first packet of the pool and passes it to `mac_send`. -/
theorem wp_sendArpPacket {targetMac : Mac} {targetIp : Ip} {arpType : ArpType} {Q : Unit → Stack → Prop}
    (howned : Owned held s)
    (h : ∀ q built, ArpBuilt targetMac targetIp arpType q s built →
      wp (macSend q (if arpType = .reply then targetMac else broadcastMac) etherTypeArp) Q (fun _ _ => True) built) :
    wp (sendArpPacket targetMac targetIp arpType) Q (fun _ _ => True) s := by
  unfold sendArpPacket
  apply wp_fresh
  intro q rest hpool
  have hnot : ∀ e, q ∉ (s.arp.entries e).packetQueue := by
    apply howned.pool_not_queued
    rw [hpool]
    exact List.mem_cons_self
  let taken := Stack.advanced s rest [.window .sendArpPacket networkPacketHeaderSize 0 arpHeaderSize]
  let built := taken.write q (arpFilled s targetMac targetIp arpType (emptied (s.packets q)))
  have hidle : Idle s built := by
    apply Idle.trans (t := taken)
    · exact Idle.advanced (by simp [Event.frame]) rest
    · exact Idle.write (s := taken) hnot _
  show wp (sendArpPacket targetMac targetIp arpType) Q (fun _ _ => True) s
  unfold wp
  rw [sendArpPacket_eq hpool]
  exact h q built ⟨hidle, hnot, rfl, Function.update_self _ _ _⟩

section Calls

variable (hP : WireInvariant addresses owner P)

include hP

theorem Idles.wired {α : Type} {x : Net α} (hx : Idles x) (h : P s) :
    wp x (fun _ t => P t) (fun _ _ => True) s := by
  apply wp_next (hx s)
  intro _ t ht
  exact hP.idle h ht

/-- A received ARP frame is assumed to tell the truth about the MAC of its sender. -/
theorem handleArp_wired (hs : Sound False U limit (p :: held) s) (h : P s) (hown : addresses s.ourIp)
    (htrue : Truthful owner s.ourIp (s.packets p)) :
    wp (handleArp p) (fun _ t => P t) (fun _ _ => True) s := by
  let seen := s.observe (.window .handleArp (s.packets p).index (s.packets p).length arpHeaderSize)
  have hseen : P seen := hP.idle h (Idle.observe rfl s)
  have hfree : ∀ {t : Stack}, P t →
      wp (freeNetworkPacket p) (fun _ u => P u) (fun _ _ => True) t := (freeNetworkPacket_idles p).wired hP
  unfold handleArp
  simp only [wp_bind, wp_getPacket, wp_ite, wp_recordWindow, wp_get]
  split
  · exact hfree h
  split
  · exact hfree hseen
  next hheader =>
  split
  · next hoperation =>
    split
    · next haccepted =>
      have howner : owner (arpSendersIp (s.packets p)) (arpSendersMac (s.packets p)) :=
        htrue ⟨Bool.eq_true_of_not_eq_false hheader, hoperation, haccepted.1, haccepted.2⟩
      apply wp_next (hP.mapping (s := seen) (hs.observe _ trivial False.elim) hseen howner)
      intro _ t ht
      exact hfree ht
    · exact hfree hseen
  split
  · split
    · apply wp_next (hP.arpPacket (s := seen) hs.owned hseen hown (.inr rfl) _ _)
      intro _ t ht
      exact hfree ht
    · exact hfree hseen
  · exact hfree hseen

theorem arpEntryTask_wired (howned : Owned held s) (h : P s) (hown : addresses s.ourIp) (entry : ArpEntryId) :
    wp (arpEntryTask entry) (fun _ t => P t) (fun _ _ => True) s := by
  unfold arpEntryTask
  simp only [wp_bind, wp_get, wp_getTime, wp_ite, wp_pure]
  split
  · split
    · exact (freeEntry_idles entry).wired hP h
    · exact h
  split
  · split
    · apply wp_next (hP.arpPacket howned h hown (.inl rfl) _ _)
      intro _ t ht
      exact hP.idle ht (Idle.setEntry (.refl _) rfl (.same rfl rfl rfl))
    · exact (freeEntry_idles entry).wired hP h
  · exact h

theorem arpEntriesTask_wired {entries : List ArpEntryId} (hs : Sound False U limit held s) (h : P s)
    (hown : addresses s.ourIp)
    (hused : NoEviction s.trace → entries.Nodup ∧ ∀ a ∈ entries, a ∈ s.arp.usedEntries) :
    wp (arpEntriesTask entries) (fun _ t => P t) (fun _ _ => True) s := by
  induction entries generalizing s with
  | nil => exact h
  | cons e rest ih =>
    rw [arpEntriesTask, wp_bind]
    have hsound : wp (arpEntryTask e) _ (Stopped False U limit 96) s :=
      arpEntryTask_sound hs hs.owned.held_length fun hne => (hused hne).2 e List.mem_cons_self
    apply wp_partial (wp_and (wp_and hsound (arpEntryTask_wired hP hs.owned h hown e)) (arpEntryTask_delivers e s))
    rintro _ t ⟨⟨⟨ht, hkept⟩, hafter⟩, hframe⟩
    apply ih ht hafter
    · rw [hframe.sends.ourIp]
      exact hown
    · intro hne
      obtain ⟨hnodup, hmem⟩ := hused (hframe.sends.noEviction hne)
      obtain ⟨hfresh, hrest⟩ := List.nodup_cons.mp hnodup
      refine ⟨hrest, fun a ha => hkept a (hmem a (List.mem_cons_of_mem _ ha)) fun hae => ?_⟩
      exact hfresh (hae ▸ ha)

/-- Requests are sent from the address of the host. -/
theorem arpTask_wired (hs : Sound False U limit held s) (h : P s) (hown : addresses s.ourIp) :
    wp arpTask (fun _ t => P t) (fun _ _ => True) s := by
  unfold arpTask
  simp only [wp_bind, wp_get]
  apply arpEntriesTask_wired hP hs h hown
  intro hne
  exact ⟨(List.nodup_append.mp (hs.table hne).nodup).2.1, fun a ha => ha⟩

/-- What a builder makes of a fresh packet is sent, or waits. -/
theorem Builds.wired {x : Net Unit} {sourcePort destPort : Port} {content : NetworkPacket → NetworkPacket}
    {more : List Event} (hbuilds : Builds x p rest sourcePort destPort ip content more s)
    (hpool : s.freeNetworkPackets = p :: rest) (hs : Sound False U limit held s) (h : P s)
    (hown : addresses s.ourIp) 
    (hmore : ∀ event ∈ more, Neutral event ∧ Event.frame event = none ∧ Event.datagram event = none)
    (hlength : 0 ≤ (content (s.packets p)).length ∧ (content (s.packets p)).length ≤ 880) :
    wp x (fun _ t => P t) (fun _ _ => True) s := by
  let events := udpEvents sourcePort destPort ip (content (s.packets p)) ++ more
  let taken := Stack.advanced s rest events
  let built := taken.write p (udpIpFramed sourcePort destPort s.ourIp ip (content (s.packets p)))
  have hrun : x s = route p ip built := by
    have hself := hbuilds.run (s.packets p)
    rwa [Stack.write_self] at hself
  have hevents : ∀ event ∈ events, Neutral event ∧ Event.frame event = none := by
    intro event hmem
    rcases List.mem_append.mp hmem with hudp | hlast
    · simp only [udpEvents, List.mem_cons, List.not_mem_nil, or_false] at hudp
      rcases hudp with rfl | rfl | rfl
      · exact ⟨trivial, rfl⟩
      · exact ⟨trivial, rfl⟩
      · exact ⟨trivial, rfl⟩
    · exact ⟨(hmore event hlast).1, (hmore event hlast).2.1⟩
  have htaken : Sound False U limit (p :: held) taken := hs.handedOut hpool fun event hmem => (hevents event hmem).1
  have hidle : Idle s built := by
    apply Idle.trans (t := taken)
    · exact Idle.advanced (fun event hmem => (hevents event hmem).2) rest
    · exact Idle.write (htaken.owned.not_queued List.mem_cons_self) _
  have hsent : sentDatagrams built.trace =
      ⟨sourcePort, destPort, ip, (content (s.packets p)).payload⟩ :: sentDatagrams s.trace := by
    have hnone : more.filterMap Event.datagram = [] :=
      List.filterMap_eq_nil_iff.mpr fun event hmem => (hmore event hmem).2.2
    show (udpEvents sourcePort destPort ip (content (s.packets p)) ++ more ++ s.trace).filterMap Event.datagram = _
    rw [List.filterMap_append, List.filterMap_append, hnone]
    rfl
  have hpacket : built.packets p = udpIpFramed sourcePort destPort s.ourIp ip (content (s.packets p)) :=
    Function.update_self _ _ _
  unfold wp
  rw [hrun]
  exact hP.datagram (htaken.write List.mem_cons_self _) h hown ⟨hidle, _, _, _, hlength, hpacket, hsent⟩

/-- A datagram that is built in a packet of the pool, and leaves room for the headers. -/
theorem sendFilled_wired {sourcePort destPort : Port} {content : NetworkPacket → NetworkPacket}
    (hs : Sound False U limit held s) (h : P s) (hown : addresses s.ourIp)
    (hlength : ∀ old, 0 ≤ (content old).length ∧ (content old).length ≤ 880) :
    wp (do
      let packet ← allocateNetworkPacket
      modifyPacket packet content
      udpSendZeroCopy packet sourcePort destPort ip) (fun _ t => P t) (fun _ _ => True) s := by
  apply wp_fresh
  intro p rest hpool
  apply (filled_builds hpool content sourcePort destPort ip).wired hP hpool hs h hown
  · simp
  · exact hlength _

theorem udpSend_wired (hs : Sound False U limit held s) (h : P s) (hown : addresses s.ourIp)
    (data : Nat → UInt8) {size : Int} (hsize : 0 ≤ size) (sourcePort destPort : Port) (ip : Ip) :
    wp (udpSend data size sourcePort destPort ip) (fun _ t => P t) (fun _ _ => True) s := by
  apply sendFilled_wired hP hs h hown
  intro old
  dsimp only
  rw [networkPacketUserSize]
  split
  · omega
  · omega

theorem sendTftpPacket_wired (hs : Sound False U limit held s) (h : P s) (hown : addresses s.ourIp)
    (connection : TftpConnection) (destPort : Port) {bytes : List UInt8} (hsize : bytes.length ≤ 880) :
    wp (sendTftpPacket connection destPort bytes) (fun _ t => P t) (fun _ _ => True) s := by
  apply sendFilled_wired hP hs h hown
  intro old
  dsimp only
  omega

theorem dhcpSendPacket_wired (hs : Sound False U limit held s) (h : P s) (hown : addresses s.ourIp)
    (type : DhcpPacketType) :
    wp (dhcpSendPacket type) (fun _ t => P t) (fun _ _ => True) s := by
  unfold dhcpSendPacket
  apply wp_fresh
  intro p rest hpool
  apply (dhcp_builds hpool type).wired hP hpool hs h hown
  · simp [Neutral, Event.frame, Event.datagram]
  · have hshort := dhcpPacketOptions_length s.dhcp type
    simp only [dhcpFilled, dhcpHeaderSize, List.length_append, List.length_cons, List.length_nil]
    omega

/-- A ping is answered in its own packet. -/
theorem handleIcmp_wired (hs : Sound False U limit (p :: held) s) (h : P s) (hown : addresses s.ourIp)
    (hfits : Fits 0 (s.packets p)) :
    wp (handleIcmp p) (fun _ t => P t) (fun _ _ => True) s := by
  by_cases hping : IsPing (s.packets p)
  · obtain ⟨hindex, hpositive, hend⟩ := hfits
    have hlong := hping.1
    rw [sizeT_fits ⟨hindex, hpositive, hend⟩ (le_refl 0), icmpHeaderSize] at hlong
    let answered := icmpAnswered s p
    let window : Event := .window .ipSend ((answered.packets p).index - ipHeaderSize)
      ((answered.packets p).length + ipHeaderSize) ipHeaderSize
    let seen := answered.observe window
    have hnot : ∀ e, p ∉ (s.arp.entries e).packetQueue := hs.owned.not_queued List.mem_cons_self
    have hanswered : answered.packets p = pingAnswered (s.packets p) := Function.update_self _ _ _
    have hidle : Idle s (seen.write p
        (ipFramed ipProtocolIcmp answered.ourIp (s.packets p).sendersIp (answered.packets p))) := by
      apply Idle.trans (t := answered)
      · exact (Idle.observe rfl s).trans (Idle.write (s := s.observe _) hnot _)
      · exact (Idle.observe rfl answered).trans (Idle.write (s := seen) hnot _)
    have hsound : Sound False U limit (p :: held) answered :=
      (hs.observe (.window .handleIcmp (s.packets p).index (s.packets p).length icmpHeaderSize) trivial False.elim).write
        List.mem_cons_self _
    unfold wp
    rw [handleIcmp_ping hping, ipSend_eq]
    apply hP.echo ((hsound.observe window trivial False.elim).write List.mem_cons_self _) (hP.idle h hidle) hown
    refine ⟨s.packets p, ⟨hlong, by omega⟩, ?_⟩
    rw [Stack.write_packets, Function.update_self, hanswered]
    rfl
  · have hfree : ∀ {t : Stack}, P t →
        wp (freeNetworkPacket p) (fun _ u => P u) (fun _ _ => True) t := (freeNetworkPacket_idles p).wired hP
    unfold handleIcmp
    simp only [wp_bind, wp_getPacket, wp_ite, wp_recordWindow, wp_modifyPacket]
    split
    · exact hfree h
    · next hlong =>
      split
      · next htype => exact absurd ⟨not_lt.mp hlong, htype⟩ hping
      · exact hfree (hP.idle h (Idle.observe rfl s))

theorem handleUdp_wired (hs : Sound False U limit (p :: held) s) (h : P s) :
    wp (handleUdp p) (fun _ t => P t) (fun _ _ => True) s := by
  have hstripped : P ((s.observe (.window .handleUdp (s.packets p).index (s.packets p).length
      udpHeaderSize)).write p (udpStripped (s.packets p))) := by
    apply hP.idle h
    exact (Idle.observe rfl s).trans (Idle.write (s := s.observe _) (hs.owned.not_queued List.mem_cons_self) _)
  unfold handleUdp
  simp only [wp_bind, wp_getPacket, wp_ite, wp_recordWindow, wp_modifyPacket, wp_get]
  split
  · exact (freeNetworkPacket_idles p).wired hP h
  · split
    · exact (freeNetworkPacket_idles p).wired hP hstripped
    · exact (udpQueuePacket_idles _ _).wired hP hstripped

theorem handleIp_wired (hs : Sound False U limit (p :: held) s) (h : P s) (hown : addresses s.ourIp)
    (hfits : Fits 14 (s.packets p)) :
    wp (handleIp p) (fun _ t => P t) (fun _ _ => True) s := by
  let seen := s.observe (.window .handleIp (s.packets p).index (s.packets p).length ipHeaderSize)
  let refused := seen.write p (ipAddressed (s.packets p))
  let accepted := refused.write p (ipStripped (s.packets p))
  have hnot : ∀ e, p ∉ (s.arp.entries e).packetQueue := hs.owned.not_queued List.mem_cons_self
  have hrefused : P refused := hP.idle h ((Idle.observe rfl s).trans (Idle.write (s := seen) hnot _))
  have haccepted : P accepted := hP.idle hrefused (Idle.write (s := refused) hnot _)
  have hsound : Sound False U limit (p :: held) accepted :=
    ((hs.observe (.window .handleIp (s.packets p).index (s.packets p).length ipHeaderSize) trivial False.elim).write
      List.mem_cons_self _).write List.mem_cons_self _
  have hpacket : accepted.packets p = ipStripped (s.packets p) := Function.update_self _ _ _
  unfold handleIp
  simp only [wp_bind, wp_getPacket, wp_ite, wp_recordWindow, wp_modifyPacket, wp_get, Stack.observe_packets,
    Stack.write_packets, Function.update_self]
  split
  · exact (freeNetworkPacket_idles p).wired hP h
  split
  · exact (freeNetworkPacket_idles p).wired hP hrefused
  next hverify =>
  have hverified : verifyIpHeader (s.packets p).data (s.packets p).index (trimmedLength (s.packets p)) = true :=
    Bool.eq_true_of_not_eq_false hverify
  split
  · exact (freeNetworkPacket_idles p).wired hP haccepted
  split
  · exact handleUdp_wired hP hsound haccepted
  split
  · have hheader : 0 ≤ ipHeaderLength (s.packets p).data (s.packets p).index := by
      unfold ipHeaderLength
      omega
    apply handleIcmp_wired hP hsound haccepted hown
    rw [hpacket]
    exact (ipStripped_fits hfits (by omega) hverified).weaken (by omega)
  · exact (freeNetworkPacket_idles p).wired hP haccepted

/-- A received frame, from an intact state and from an address in `addresses`. -/
theorem handleMac_wired (hs : Sound False U limit (p :: held) s) (h : P s) (hown : addresses s.ourIp)
    (hfits : Fits 0 (s.packets p))
    (htrue : readBe16 (s.packets p).data ((s.packets p).index + 12) = etherTypeArp →
      Truthful owner s.ourIp (macStripped (s.packets p))) :
    wp (handleMac p) (fun _ t => P t) (fun _ _ => True) s := by
  let seen := s.observe (.window .handleMac (s.packets p).index (s.packets p).length macHeaderSize)
  have hnot : ∀ e, p ∉ (s.arp.entries e).packetQueue := hs.owned.not_queued List.mem_cons_self
  have hdelivered : P (macDelivered s p) :=
    hP.idle h ((Idle.observe rfl s).trans (Idle.write (s := seen) hnot _))
  have hsound : Sound False U limit (p :: held) (macDelivered s p) :=
    (hs.observe (.window .handleMac (s.packets p).index (s.packets p).length macHeaderSize) trivial False.elim).write
      List.mem_cons_self _
  unfold handleMac
  simp only [wp_bind, wp_getPacket, wp_ite, wp_recordWindow, wp_modifyPacket]
  split
  · exact (freeNetworkPacket_idles p).wired hP h
  next hlong =>
  split
  · next htype =>
    have hanswer : Truthful owner (macDelivered s p).ourIp ((macDelivered s p).packets p) := by
      rw [macDelivered_packet]
      exact htrue htype
    exact handleArp_wired hP hsound hdelivered hown hanswer
  split
  · have hheader : macHeaderSize ≤ (s.packets p).length := by
      rw [sizeT_fits hfits (le_refl 0)] at hlong
      omega
    apply handleIp_wired hP hsound hdelivered hown
    rw [macDelivered_packet]
    exact Fits.pull hfits hheader rfl rfl
  · exact (freeNetworkPacket_idles p).wired hP hdelivered

theorem allocateNetworkPacket_wired (howned : Owned held s) (h : P s) :
    wp allocateNetworkPacket (fun _ t => P t) (fun _ _ => True) s := by
  unfold allocateNetworkPacket
  simp only [wp_bind, wp_get]
  split
  · trivial
  · next p rest hpool =>
    have hnot : ∀ e, p ∉ (s.arp.entries e).packetQueue := by
      apply howned.pool_not_queued
      rw [hpool]
      exact List.mem_cons_self
    simp only [wp_bind, wp_modify, wp_modifyPacket, wp_pure]
    apply hP.idle h
    apply Idle.trans (t := s.setPool rest)
    · exact Idle.assign rfl rfl rfl
    · exact Idle.write (s := s.setPool rest) hnot _

theorem gmacReceive_wired (hs : Sound False U limit held s) (h : P s) :
    wp gmacReceive (fun _ t => P t) (fun _ _ => True) s := by
  unfold gmacReceive
  simp only [wp_bind, wp_get, wp_ite, wp_pure, wp_modify]
  split
  · exact h
  split
  · exact hP.idle h (Idle.assign rfl rfl rfl)
  split
  · trivial
  · next p hslot =>
    simp only [wp_bind, wp_modifyPacket]
    have hwritten := Idle.write (hs.owned.rx_not_queued hslot).1
    apply wp_next (allocateNetworkPacket_wired hP (s := s.write p _) hs.owned (hP.idle h (hwritten _)))
    intro _ t ht
    exact hP.idle ht (Idle.assign rfl rfl rfl)

theorem gmacReceiveDone_wired (hs : Sound False U limit held s) (h : P s) (slot : Fin 32) (status : RxStatus)
    (bytes : Memory) : wp (gmacReceiveDone slot status bytes) (fun _ t => P t) (fun _ _ => True) s := by
  unfold gmacReceiveDone
  simp only [wp_bind, wp_get, wp_ite, wp_pure]
  split
  · split
    · exact h
    · next p hslot =>
      simp only [wp_bind, wp_modifyPacket, wp_modify]
      have hwritten := Idle.write (hs.owned.rx_not_queued hslot).1
      exact hP.idle (hP.idle h (hwritten _)) (Idle.assign rfl rfl rfl)
  · exact h

/-- Taking the frame from the ring sends nothing. -/
theorem receivePacket_wired (hs : Sound False U limit held s) (h : P s) (hown : addresses s.ourIp)
    (htrue : HearsTruth owner s) :
    wp receivePacket (fun _ t => P t) (fun _ _ => True) s := by
  have hsound : wp gmacReceive _ (Stopped False U limit 96) s := gmacReceive_sound hs hs.owned.held_length
  unfold receivePacket
  rw [wp_bind]
  apply wp_partial (wp_and hsound (gmacReceive_wired hP hs h))
  rintro received t ⟨⟨ht, hip, _, hnext⟩, hafter⟩
  cases received with
  | none => exact hafter
  | some p =>
    obtain ⟨hframe, hfits⟩ := hnext p rfl
    rw [wp_bind]
    have hmac : wp (handleMac p) (fun _ u => P u) (fun _ _ => True) t := by
      apply handleMac_wired hP ht hafter _ hfits
      · rw [hip]
        exact htrue _ hframe
      · rw [hip]
        exact hown
    exact hmac

end Calls

end MiniIp.Invariant
