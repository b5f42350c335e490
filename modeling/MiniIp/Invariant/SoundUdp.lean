import MiniIp.Invariant.SoundArp

/-!
# IP sending and UDP keep the invariant

Sending pushes three headers in front of the content, so a packet that enters
`udp_send_zero_copy` needs room for 42 bytes. The UDP queues change in three
places: a connection is opened, a packet is taken, a packet is queued.
-/

set_option autoImplicit false

namespace MiniIp.Invariant

open MiniIp.Source MiniIp.Library.Counting MiniIp.Library.Wp

variable {W : Prop} {U : QueueContent} {limit most : ℕ}
  {held held' loose : List PacketId} {s : Stack} {p q : PacketId} {c : UdpConnectionId}
  {v : UdpConnection}

/-- `ip_send` pushes the IP header and hands a held packet to the layers below. -/
theorem ipSend_sound {ip : Ip} {protocol : UInt8} (h : Sound W U limit (p :: held) s)
    (hf : W → Fits 34 (s.packets p)) (hheld : held.length ≤ most) :
    wp (ipSend p ip protocol) (fun _ t => Sound W U limit held t) (Stopped W U limit most) s := by
  unfold ipSend
  simp only [wp_bind, wp_modifyPacket, wp_recordWindow, wp_get, wp_ite, Stack.write_packets,
    Stack.observe_packets, Function.update_self]
  let pushed : NetworkPacket := { s.packets p with
    index := (s.packets p).index - ipHeaderSize, length := (s.packets p).length + ipHeaderSize }
  have hfits : W → Fits 14 pushed := fun w => Fits.push (hf w) (by decide) rfl rfl
  have hseen : Sound W U limit (p :: held) ((s.write p pushed).observe
      (.window .ipSend pushed.index pushed.length ipHeaderSize)) := by
    refine (h.write List.mem_cons_self pushed).observe _ trivial fun w => ?_
    have hlength := (hf w).2.1
    apply (hfits w).inBuffer (by omega)
    show ipHeaderSize ≤ (s.packets p).length + ipHeaderSize
    omega
  have hready := fun content => hseen.write (List.mem_cons_self (a := p) (l := held)) content
  split
  · unfold macBroadcast
    apply macSend_sound (hready _)
    intro w
    simpa [Fits, pushed] using hfits w
  · apply arpSend_sound (hready _) _ hheld
    intro w
    simpa [Fits, pushed] using hfits w

/-- A datagram in the caller's hands, with room in front of it for the headers. -/
theorem udpSendZeroCopy_sound {sourcePort destPort : Port} {ip : Ip}
    (h : Sound W U limit (p :: held) s) (hf : W → Fits 42 (s.packets p))
    (hheld : held.length ≤ most) :
    wp (udpSendZeroCopy p sourcePort destPort ip) (fun _ t => Sound W U limit held t)
      (Stopped W U limit most) s := by
  unfold udpSendZeroCopy
  simp only [wp_bind, wp_getPacket, wp_emit, wp_modifyPacket, wp_recordWindow, wp_get,
    Stack.write_packets, Stack.observe_packets, Function.update_self]
  let pushed : NetworkPacket := { s.packets p with
    index := (s.packets p).index - udpHeaderSize, length := (s.packets p).length + udpHeaderSize }
  have hfits : W → Fits 34 pushed := fun w => Fits.push (hf w) (by decide) rfl rfl
  have hcalled := h.observe (.udpSend sourcePort destPort ip (s.packets p).payload) trivial
    fun _ => trivial
  have hseen : Sound W U limit (p :: held) (((s.observe (.udpSend sourcePort destPort ip
      (s.packets p).payload)).write p pushed).observe
        (.window .udpSendZeroCopy pushed.index pushed.length udpHeaderSize)) := by
    refine (hcalled.write List.mem_cons_self pushed).observe _ trivial fun w => ?_
    have hlength := (hf w).2.1
    apply (hfits w).inBuffer (by omega)
    show udpHeaderSize ≤ (s.packets p).length + udpHeaderSize
    omega
  apply ipSend_sound ((hseen.write List.mem_cons_self _).write List.mem_cons_self _) _ hheld
  intro w
  simpa [Fits, pushed] using hfits w

/-- A packet from the pool, filled with `bytes`, has room for the headers of UDP. -/
theorem sendFilled_sound {sourcePort destPort : Port} {ip : Ip}
    {content : NetworkPacket → NetworkPacket} (h : Sound W U limit held s) (hheld : held.length ≤ most)
    (hcontent : ∀ old : NetworkPacket, old.index = 144 → W → (content old).index = 144 ∧
      0 ≤ (content old).length ∧ (content old).length ≤ 880) :
    wp (do
      let packet ← allocateNetworkPacket
      modifyPacket packet content
      udpSendZeroCopy packet sourcePort destPort ip)
      (fun _ t => Sound W U limit held t) (Stopped W U limit most) s := by
  rw [wp_bind]
  refine wp_next (allocateNetworkPacket_sound h hheld) fun p t hpost => ?_
  obtain ⟨ht, hindex, _, _⟩ := hpost
  simp only [wp_bind, wp_modifyPacket]
  apply udpSendZeroCopy_sound (ht.write List.mem_cons_self _) _ hheld
  intro w
  obtain ⟨hplace, hpositive, hshort⟩ := hcontent _ hindex w
  rw [Stack.write_packets, Function.update_self]
  exact ⟨by omega, hpositive, by omega⟩

/-- `udp_send` keeps at most `NETWORK_PACKET_USER_SIZE` bytes of what it is given. -/
theorem udpSend_sound {data : Nat → UInt8} {size : Int} {sourcePort destPort : Port} {ip : Ip}
    (h : Sound W U limit held s) (hheld : held.length ≤ most) (hsize : W → 0 ≤ size) :
    wp (udpSend data size sourcePort destPort ip) (fun _ t => Sound W U limit held t)
      (Stopped W U limit most) s := by
  apply sendFilled_sound h hheld
  intro old hindex w
  have hpositive := hsize w
  refine ⟨hindex, ?_, ?_⟩
  · dsimp only
    split <;> simp [networkPacketUserSize, hpositive]
  · dsimp only
    split
    · next hsmall =>
      simp only [networkPacketUserSize] at hsmall
      omega
    · simp [networkPacketUserSize]

theorem UdpTable.setConnection (h : UdpTable limit s.udp)
    (hmax : v.maxPacketCount = (s.udp.connections c).maxPacketCount)
    (hempty : c ∈ s.udp.freeConnections → v.packetQueue = [])
    (hcounted : v.packetCount = v.packetQueue.length)
    (hbounded : v.packetQueue.length ≤ v.maxPacketCount.toNat) :
    UdpTable limit (s.setConnection c v).udp where
  nodup := h.nodup
  listed := h.listed
  freeEmpty a ha := by
    by_cases hac : a = c
    · subst hac
      simpa using hempty ha
    · simpa [Function.update_of_ne hac] using h.freeEmpty a ha
  counted a ha := by
    by_cases hac : a = c
    · simpa [hac] using hcounted
    · simpa [Function.update_of_ne hac] using h.counted a ha
  bounded a ha := by
    by_cases hac : a = c
    · simpa [hac] using hbounded
    · simpa [Function.update_of_ne hac] using h.bounded a ha
  limited := by
    have hsame : limitSum (s.setConnection c v).udp = limitSum s.udp := by
      unfold limitSum
      congr 1
      apply List.map_congr_left
      intro a _
      by_cases hac : a = c
      · simp [hac, hmax]
      · simp [Function.update_of_ne hac]
    rw [hsame]
    exact h.limited

theorem Owned.setConnection (h : Owned held s)
    (hcount : ∀ q, v.packetQueue.count q + held'.count q =
      (s.udp.connections c).packetQueue.count q + held.count q) :
    Owned held' (s.setConnection c v) := by
  intro q
  have hq := h q
  have hsum := sum_update_add s.udp.connections (fun w => w.packetQueue.count q) c v
  have hmove := hcount q
  simp only [occurrences, Stack.setConnection] at hq ⊢
  omega

theorem Sound.setConnection (h : Sound W U limit held s loose)
    (howned : Owned held' (s.setConnection c v))
    (hcontent : ∀ q ∈ v.packetQueue, U c v.port q (s.packets q))
    (hudp : UdpTable limit (s.setConnection c v).udp) :
    Sound W U limit held' (s.setConnection c v) loose where
  owned := howned
  udpContent a q hq := by
    by_cases hac : a = c
    · simp only [hac, Stack.setConnection_udp_connections, Function.update_self] at hq ⊢
      exact hcontent q hq
    · simp only [Stack.setConnection_udp_connections, Function.update_of_ne hac] at hq ⊢
      exact h.udpContent a q hq
  arpFits := h.arpFits
  windows := h.windows
  txSlots := h.txSlots
  rxSlots := h.rxSlots
  arp := h.arp
  table := h.table
  udp := hudp
  route := h.route

/-- The listener opens a connection that was free, with an empty queue. -/
theorem udpListen_sound {port : Port} {maxPacketCount : Int} (h : Sound W U limit held s)
    (hfree : s.udp.freeConnections ≠ [])
    (hlimit : limitSum s.udp + maxPacketCount.toNat ≤ limit) :
    wp (udpListen port maxPacketCount) (fun _ t => Sound W U limit held t) (Stopped W U limit most)
      s := by
  unfold udpListen
  simp only [wp_bind, wp_get]
  split
  · next hnil => exact absurd hnil hfree
  · next c rest hcons =>
    simp only [wp_bind, wp_modify, wp_modifyConnection]
    let v : UdpConnection := { s.udp.connections c with
      maxPacketCount := maxPacketCount, port := port, packetCount := 0 }
    have hnil : v.packetQueue = [] := h.udp.freeEmpty c (by simp [hcons])
    have hnodup := h.udp.nodup
    rw [hcons] at hnodup
    have hunused : c ∉ s.udp.usedConnections := by
      intro hmem
      simp [hmem] at hnodup
    have hopened : UdpTable limit
        ((s.setConnection c v).setConnectionLists rest (c :: s.udp.usedConnections)).udp := by
      constructor
      · show (rest ++ c :: s.udp.usedConnections).Nodup
        exact List.perm_middle.nodup_iff.mpr hnodup
      · intro a
        show a ∈ rest ∨ a ∈ c :: s.udp.usedConnections
        rcases h.udp.listed a with hold | hold
        · rw [hcons, List.mem_cons] at hold
          rcases hold with rfl | hold
          · exact .inr List.mem_cons_self
          · exact .inl hold
        · exact .inr (List.mem_cons_of_mem _ hold)
      · intro a ha
        have ha' : a ∈ rest := ha
        by_cases hac : a = c
        · simp [hac, hnil]
        · simpa [Function.update_of_ne hac] using h.udp.freeEmpty a (by simp [hcons, ha'])
      · intro a ha
        by_cases hac : a = c
        · simp [hac, hnil, v]
        · have ha' : a ∈ s.udp.usedConnections := List.mem_of_ne_of_mem hac ha
          simpa [Function.update_of_ne hac] using h.udp.counted a ha'
      · intro a ha
        by_cases hac : a = c
        · simp [hac, hnil]
        · have ha' : a ∈ s.udp.usedConnections := List.mem_of_ne_of_mem hac ha
          simpa [Function.update_of_ne hac] using h.udp.bounded a ha'
      · have hothers : (s.udp.usedConnections.map fun a =>
            ((s.setConnection c v).udp.connections a).maxPacketCount.toNat).sum = limitSum s.udp := by
          unfold limitSum
          congr 1
          apply List.map_congr_left
          intro a ha
          have hac : a ≠ c := fun heq => hunused (heq ▸ ha)
          simp [Function.update_of_ne hac]
        have hsum : limitSum ((s.setConnection c v).setConnectionLists rest
            (c :: s.udp.usedConnections)).udp = maxPacketCount.toNat + limitSum s.udp := by
          rw [← hothers]
          simp [limitSum, v]
        omega
    have howned : Owned held (s.setConnection c v) := h.owned.setConnection fun q => rfl
    have hsound : Sound W U limit held
        ((s.setConnection c v).setConnectionLists rest (c :: s.udp.usedConnections)) :=
      { h with
        owned := howned
        udpContent := fun a q hq => by
          by_cases hac : a = c
          · simp [hac, hnil] at hq
          · simp only [Stack.setConnectionLists_udp_connections, Stack.setConnection_udp_connections,
              Function.update_of_ne hac] at hq ⊢
            exact h.udpContent a q hq
        udp := hopened }
    exact hsound.congr rfl

/-- The state after `udp_listen` has taken a free connection. -/
structure Opened (s : Stack) (port : Port) (maxPacketCount : Int) (c : UdpConnectionId) (t : Stack) : Prop where
  free : s.udp.freeConnections = c :: t.udp.freeConnections
  used : t.udp.usedConnections = c :: s.udp.usedConnections
  connections : t.udp.connections = Function.update s.udp.connections c { s.udp.connections c with
    maxPacketCount := maxPacketCount, port := port, packetCount := 0 }
  packets : t.packets = s.packets
  application : t.application = s.application

theorem udpListen_opened (port : Port) (maxPacketCount : Int) :
    wp (udpListen port maxPacketCount) (fun _ t => ∃ c, Opened s port maxPacketCount c t)
      (fun e _ => e = .nullPointer ∧ s.udp.freeConnections = []) s := by
  unfold udpListen
  simp only [wp_bind, wp_get]
  split
  · next hnil => exact ⟨rfl, hnil⟩
  · next c rest hcons =>
    simp only [wp_bind, wp_modify, wp_modifyConnection]
    exact ⟨c, hcons, rfl, rfl, rfl, rfl⟩

namespace Opened

variable {port : Port} {maxPacketCount : Int} {t : Stack}

theorem mem_free (h : Opened s port maxPacketCount c t) : c ∈ s.udp.freeConnections := by
  rw [h.free]
  exact List.mem_cons_self

theorem other (h : Opened s port maxPacketCount c t) {c' : UdpConnectionId} (hne : c' ≠ c) :
    t.udp.connections c' = s.udp.connections c' := by
  rw [h.connections, Function.update_of_ne hne]

theorem unused (h : Opened s port maxPacketCount c t)
    (hnodup : (s.udp.freeConnections ++ s.udp.usedConnections).Nodup) : c ∉ s.udp.usedConnections :=
  List.disjoint_of_nodup_append hnodup h.mem_free

end Opened

theorem findConnection_mem {udp : Udp} {port : Port} (h : findConnection udp port = some c) :
    c ∈ udp.usedConnections ∧ (udp.connections c).port = port :=
  ⟨List.mem_of_find?_eq_some h, by simpa using List.find?_some h⟩

/-- The connection of a port, and the packet at the head of its queue. -/
def queueHead (s : Stack) (port : Port) : Option (UdpConnectionId × PacketId) :=
  (findConnection s.udp port).bind fun c =>
    (s.udp.connections c).packetQueue.head?.map fun p => (c, p)

/-- The state after the head of a queue has been taken. -/
def dequeued (s : Stack) (port : Port) (c : UdpConnectionId) (p : PacketId) : Stack :=
  (s.setConnection c { s.udp.connections c with
    packetQueue := (s.udp.connections c).packetQueue.tail
    packetCount := (s.udp.connections c).packetCount - 1 }).observe (.udpTaken port p (s.packets p))

theorem queueHead_some {port : Port} (h : queueHead s port = some (c, p)) :
    c ∈ s.udp.usedConnections ∧ (s.udp.connections c).port = port ∧
      (s.udp.connections c).packetQueue = p :: (s.udp.connections c).packetQueue.tail := by
  simp only [queueHead, Option.bind_eq_some_iff, Option.map_eq_some_iff, Prod.mk.injEq] at h
  obtain ⟨c', hfind, p', hhead, rfl, rfl⟩ := h
  obtain ⟨hused, hport⟩ := findConnection_mem hfind
  exact ⟨hused, hport, (List.cons_head?_tail hhead).symm⟩

/-- The datagram that the next call of `udp_receive_zero_copy` takes. -/
def headDatagram (s : Stack) (port : Port) : Option NetworkPacket :=
  (queueHead s port).map fun head => s.packets head.2

/-- The head of a queue after sending, seen from before. -/
theorem headDatagram_of_kept {t : Stack} (hudp : t.udp = s.udp) (port : Port)
    (hcontent : ∀ c, ∀ p ∈ (s.udp.connections c).packetQueue, t.packets p = s.packets p) :
    headDatagram t port = headDatagram s port := by
  have hhead : queueHead t port = queueHead s port := by rw [queueHead, queueHead, hudp]
  rw [headDatagram, headDatagram, hhead]
  cases hq : queueHead s port with
  | none => rfl
  | some head =>
    obtain ⟨_, _, hqueue⟩ := queueHead_some hq
    have hsame := hcontent head.1 head.2 (by rw [hqueue]; exact List.mem_cons_self)
    simp [hsame]

/-- `udp_receive_zero_copy` takes the head of the queue, if there is one. -/
theorem wp_udpReceiveZeroCopy {port : Port} {Q : Option PacketId → Stack → Prop}
    {E : Halt → Stack → Prop} (h : UdpTable limit s.udp) :
    wp (udpReceiveZeroCopy port) Q E s ↔
      match queueHead s port with
      | none => Q none s
      | some (c, p) => Q (some p) (dequeued s port c p) := by
  unfold udpReceiveZeroCopy queueHead
  simp only [wp_bind, wp_get]
  split
  · next hfind => simp [hfind]
  · next c hfind =>
    obtain ⟨hused, _⟩ := findConnection_mem hfind
    have hcounted := h.counted c hused
    simp only [hfind, wp_bind, wp_get, wp_ite]
    cases hqueue : (s.udp.connections c).packetQueue with
    | nil => simp [hcounted, hqueue]
    | cons p rest =>
      rw [hqueue, List.length_cons] at hcounted
      rw [if_neg (by omega)]
      simp [dequeued, hqueue]

theorem Sound.dequeued {port : Port} (h : Sound W U limit held s)
    (hhead : queueHead s port = some (c, p)) :
    Sound W U limit (p :: held) (dequeued s port c p) := by
  obtain ⟨hused, hport, hqueue⟩ := queueHead_some hhead
  have hcounted := h.udp.counted c hused
  have hbounded := h.udp.bounded c hused
  have hlength := congrArg List.length hqueue
  rw [List.length_cons] at hlength
  apply Sound.observe _ (.udpTaken port p (s.packets p)) trivial fun _ => trivial
  apply h.setConnection
  · apply h.owned.setConnection
    intro q
    have hcount := congrArg (List.count q) hqueue
    rw [List.count_cons] at hcount
    simp only [List.count_cons]
    omega
  · intro q hq
    exact h.udpContent c q (List.mem_of_mem_tail hq)
  · apply h.udp.setConnection
    · rfl
    · intro hfree
      have hdisjoint := List.disjoint_of_nodup_append h.udp.nodup hfree
      exact absurd hused hdisjoint
    · dsimp only
      omega
    · dsimp only
      omega

/-- A taken packet comes into the caller's hands, with what is known of the queue's packets. -/
theorem udpReceiveZeroCopy_sound {port : Port} (h : Sound W U limit held s) :
    wp (udpReceiveZeroCopy port)
      (fun taken t => Sound W U limit (taken.toList ++ held) t ∧
        ∀ p, taken = some p → ∃ c, U c port p (t.packets p) ∧
          queueHead s port = some (c, p) ∧ t.packets p = s.packets p)
      (Stopped W U limit most) s := by
  rw [wp_udpReceiveZeroCopy h.udp]
  split
  · exact ⟨h, by simp⟩
  · next c p hhead =>
    obtain ⟨_, hport, hqueue⟩ := queueHead_some hhead
    refine ⟨h.dequeued hhead, fun q hq => ?_⟩
    obtain rfl : p = q := Option.some.inj hq
    have hcontent := h.udpContent c p (by rw [hqueue]; exact List.mem_cons_self)
    exact ⟨c, hport ▸ hcontent, hhead, rfl⟩

/-- The datagram that is copied goes back to the pool. -/
theorem udpReceive_sound {size : Int} {port : Port} (h : Sound W U limit held s) :
    wp (udpReceive size port) (fun _ t => Sound W U limit held t) (Stopped W U limit most) s := by
  unfold udpReceive
  rw [wp_bind]
  refine wp_next (udpReceiveZeroCopy_sound h) fun taken t hpost => ?_
  obtain ⟨ht, _⟩ := hpost
  cases taken with
  | none => exact ht
  | some p => exact Sound.freed ht

/-- `handle_udp` puts the packet into the queue; a full queue gives its oldest packet back. -/
theorem udpQueuePacket_sound (h : Sound W U limit (p :: held) s) (hf : W → Fits 0 (s.packets p))
    (hused : c ∈ s.udp.usedConnections) (hU : U c (s.udp.connections c).port p (s.packets p)) :
    wp (udpQueuePacket c p) (fun _ t => Sound W U limit held t) (Stopped W U limit most) s := by
  unfold udpQueuePacket udpLimitQueue
  simp only [wp_bind, wp_modifyConnection, wp_recordWindow, wp_emit, wp_get, wp_ite]
  have hcounted := h.udp.counted c hused
  have hbounded := h.udp.bounded c hused
  have hunfree : c ∉ s.udp.freeConnections := fun hfree =>
    List.disjoint_of_nodup_append h.udp.nodup hfree hused
  have hwindow : W → InBuffer (.window .udpQueue (s.packets p).index (s.packets p).length 0) :=
    fun w => (hf w).inBuffer (by omega) (hf w).2.1
  have hmembers : ∀ q ∈ (s.udp.connections c).packetQueue ++ [p],
      U c (s.udp.connections c).port q (s.packets q) := by
    intro q hq
    rcases List.mem_append.mp hq with hold | hnew
    · exact h.udpContent c q hold
    · rw [List.mem_singleton.mp hnew]
      exact hU
  simp only [Stack.observe_udp, Stack.setConnection_udp_connections, Function.update_self]
  split
  · split
    · next hnil => simp at hnil
    · next old rest hqueue =>
      simp only [wp_bind, wp_modifyConnection, wp_freeNetworkPacket]
      let v : UdpConnection := { s.udp.connections c with
        packetQueue := rest, packetCount := (s.udp.connections c).packetCount + 1 - 1 }
      have hlength := congrArg List.length hqueue
      simp only [List.length_append, List.length_cons, List.length_nil] at hlength
      have hswapped : Sound W U limit (old :: held) (s.setConnection c v) := by
        apply h.setConnection
        · apply h.owned.setConnection
          intro q
          have hperm := congrArg (List.count q) hqueue
          simp only [v, List.count_append, List.count_cons, List.count_nil] at hperm ⊢
          omega
        · intro q hq
          exact hmembers q (hqueue ▸ List.mem_cons_of_mem _ hq)
        · apply h.udp.setConnection (v := v) rfl (fun hfree => absurd hfree hunfree)
          · show (s.udp.connections c).packetCount + 1 - 1 = (rest.length : Int)
            omega
          · show rest.length ≤ (s.udp.connections c).maxPacketCount.toNat
            omega
      have hseen := (hswapped.observe (.window .udpQueue (s.packets p).index (s.packets p).length 0)
        trivial hwindow).observe (.udpQueued (s.udp.connections c).port p) trivial fun _ => trivial
      exact hseen.freed.congr (by simp [stored, Stack.setConnection, v])
  · next hroom =>
    rw [wp_pure]
    let v : UdpConnection := { s.udp.connections c with
      packetQueue := (s.udp.connections c).packetQueue ++ [p]
      packetCount := (s.udp.connections c).packetCount + 1 }
    have hlength : v.packetQueue.length = (s.udp.connections c).packetQueue.length + 1 := by simp [v]
    have hqueued : Sound W U limit held (s.setConnection c v) := by
      apply h.setConnection
      · apply h.owned.setConnection
        intro q
        simp only [v, List.count_append, List.count_cons, List.count_nil]
        omega
      · exact hmembers
      · apply h.udp.setConnection (v := v) rfl (fun hfree => absurd hfree hunfree)
        · show (s.udp.connections c).packetCount + 1 = (v.packetQueue.length : Int)
          omega
        · show v.packetQueue.length ≤ (s.udp.connections c).maxPacketCount.toNat
          omega
    exact (hqueued.observe (.window .udpQueue (s.packets p).index (s.packets p).length 0) trivial
      hwindow).observe (.udpQueued (s.udp.connections c).port p) trivial fun _ => trivial

end MiniIp.Invariant
