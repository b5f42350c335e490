import MiniIp.Invariant.HandoverRun
import MiniIp.Invariant.Sound

/-!
# Packets that are built from a fresh buffer

The builders take the first packet of the pool, fill it, and pass it down. What they make of the state besides is the
same for every content of the old buffer. A packet is in the pool.
-/

set_option autoImplicit false

namespace MiniIp.Invariant

open MiniIp.Source MiniIp.Library.Counting MiniIp.Library.Wp MiniIp.Library.TwoRuns

variable {p : PacketId} {k k' : NetworkPacket} {base new : List Event} {s t : Stack} {rest : List PacketId}

/-- What `ip_send` does with a packet that has its header. -/
def route (packet : PacketId) (ip : Ip) : Net Unit := do
  if shouldBroadcast (← get).ourNetmask ip then
    macBroadcast packet etherTypeIpv4
  else
    arpSend packet ip

theorem shouldBroadcast_all (netmask : Ip) : shouldBroadcast netmask 0xFFFFFFFF = true := by
  rw [shouldBroadcast, decide_eq_true_iff]
  exact UInt32.and_neg_one

/-- The packet with the headers of UDP and IP. -/
def udpIpFramed (sourcePort destPort : Port) (ourIp ip : Ip) (p : NetworkPacket) : NetworkPacket :=
  ipFramed ipProtocolUdp ourIp ip (udpFramed sourcePort destPort ourIp ip p)

/-- What `udp_send_zero_copy` and `ip_send` observe of the packet. -/
def udpEvents (sourcePort destPort : Port) (ip : Ip) (p : NetworkPacket) : List Event :=
  [.window .ipSend (p.index - udpHeaderSize - ipHeaderSize) (p.length + udpHeaderSize + ipHeaderSize) ipHeaderSize,
    .window .udpSendZeroCopy (p.index - udpHeaderSize) (p.length + udpHeaderSize) udpHeaderSize,
    .udpSend sourcePort destPort ip p.payload]

/-- The state with other packets in the pool and more events. -/
def Stack.advanced (s : Stack) (pool : List PacketId) (events : List Event) : Stack :=
  { s with freeNetworkPackets := pool, trace := events ++ s.trace }

theorem Stack.write_self (s : Stack) (p : PacketId) : s.write p (s.packets p) = s := by
  simp only [Stack.write, Function.update_eq_self]

theorem udpSendZeroCopy_eq (sourcePort destPort : Port) (ip : Ip) :
    udpSendZeroCopy p sourcePort destPort ip s =
      route p ip ((Stack.advanced s s.freeNetworkPackets (udpEvents sourcePort destPort ip (s.packets p))).write p
        (udpIpFramed sourcePort destPort s.ourIp ip (s.packets p))) := by
  apply eq_of_wp
  intro Q E h
  unfold udpSendZeroCopy ipSend at h
  unfold route
  simp only [wp_bind, wp_getPacket, wp_emit, wp_modifyPacket, wp_recordWindow, wp_get, Stack.write_packets,
    Stack.observe_packets, Function.update_self] at h ⊢
  simp only [Stack.write, Stack.observe, Function.update_idem] at h
  exact h

theorem ipSend_eq (protocol : UInt8) (ip : Ip) :
    ipSend p ip protocol s =
      route p ip ((Stack.advanced s s.freeNetworkPackets [.window .ipSend ((s.packets p).index - ipHeaderSize)
        ((s.packets p).length + ipHeaderSize) ipHeaderSize]).write p (ipFramed protocol s.ourIp ip (s.packets p))) := by
  apply eq_of_wp
  intro Q E h
  unfold ipSend at h
  unfold route
  simp only [wp_bind, wp_modifyPacket, wp_recordWindow, wp_get, Stack.write_packets, Stack.observe_packets,
    Function.update_self] at h ⊢
  simp only [Stack.write, Stack.observe, Function.update_idem] at h
  exact h

/-- The events of a run of `x` from `s`. -/
def newEvents (x : Net Unit) (s : Stack) : List Event :=
  (final (x s)).trace.take ((final (x s)).trace.length - s.trace.length)

/-- What first becomes of a packet in a run. -/
def fateIn (p : PacketId) (x : Net Unit) (s : Stack) : Fate := fate p (newEvents x s)

theorem fateIn_eq {x : Net Unit} (h : (final (x s)).trace = new ++ s.trace) : fateIn p x s = fate p new := by
  unfold fateIn newEvents
  rw [h]
  simp

/-- The packet meets the same fate in both runs. -/
theorem fateIn_same {x : Net Unit} (hx : Blind p k k' s.trace True x) (hwaits : Waits p k s)
    (hsame : SameWindow k k') :
    fateIn p x (s.write p k') = fateIn p x s ∧ ∀ frame, fateIn p x s = .sent frame → Framed k frame := by
  have htogether : (overwritten p k k' s.trace).together s (s.write p k') :=
    ⟨rfl, hsame, hwaits, [], rfl, rfl⟩
  have hmeets := hx.meets trivial htogether
  have hends : ∃ new new', (final (x s)).trace = new ++ s.trace ∧
      (final (x (s.write p k'))).trace = new' ++ s.trace ∧ fate p new' = fate p new ∧
      ∀ frame, fate p new = .sent frame → Framed k frame := by
    generalize x s = r, x (s.write p k') = r' at hmeets
    cases hmeets with
    | returned value together =>
      obtain ⟨rfl, _, _, new, htrace, hnew⟩ := together
      refine ⟨new, new, htrace, htrace, rfl, ?_⟩
      rw [hnew]
      rintro _ ⟨⟩
    | stopped together =>
      obtain ⟨rfl, _, _, new, htrace, hnew⟩ := together
      refine ⟨new, new, htrace, htrace, rfl, ?_⟩
      rw [hnew]
      rintro _ ⟨⟩
    | parted parted =>
      obtain ⟨new, new', htrace, htrace', _, hfate, hframed⟩ := parted
      exact ⟨new, new', htrace, htrace', hfate, hframed⟩
  obtain ⟨new, new', htrace, htrace', hfate, hframed⟩ := hends
  have hleft : fateIn p x s = fate p new := fateIn_eq htrace
  have hright : fateIn p x (s.write p k') = fate p new' := fateIn_eq htrace'
  rw [hleft, hright]
  exact ⟨hfate, hframed⟩

theorem route_blind (ip : Ip) : Blind p k k' base True (route p ip) :=
  read_blind (fun _ => rfl) fun _ => .ite (fun _ => macSend_blind fun _ _ => rfl) fun _ => arpSend_blind _ _

theorem waits_of_unstored (h : occurrences s p = 0) : Waits p (s.packets p) s := by
  unfold occurrences at h
  constructor
  · rfl
  · apply List.count_eq_zero.mp
    omega
  · intro i hi
    have hmem := member_le_sum (fun j => if s.gmac.rxPackets j = some p then 1 else 0) i
    simp only [hi, if_true] at hmem
    unfold slots at h
    omega
  · intro c hc
    have hmem := member_le_sum (fun c => (s.udp.connections c).packetQueue.count p) c
    have hpos := List.count_pos_iff.mpr hc
    omega

/-- A packet in the pool is stored nowhere else. -/
theorem Owned.pool_once {held : List PacketId} (h : Owned held s) (hpool : s.freeNetworkPackets = p :: rest) :
    occurrences s p = 1 := by
  have hone := h p
  simp only [occurrences, hpool, List.count_cons_self] at hone ⊢
  omega

/-- The packet that has been taken from the pool is stored nowhere. -/
theorem waits_of_pool (h : occurrences s p = 1) (hpool : s.freeNetworkPackets = p :: rest) (events : List Event) :
    Waits p k ((Stack.advanced s rest events).write p k) := by
  have hunstored : occurrences ((Stack.advanced s rest events).write p k) p = 0 := by
    simp only [occurrences, Stack.write, Stack.advanced, hpool, List.count_cons_self] at h ⊢
    omega
  have hwaits := waits_of_unstored hunstored
  rwa [Stack.write_packets, Function.update_self] at hwaits

/-- The computation takes the first packet of the pool, makes `content` of what it had in it, and gives it to
UDP. -/
structure Builds (x : Net Unit) (p : PacketId) (rest : List PacketId) (sourcePort destPort : Port) (ip : Ip)
    (content : NetworkPacket → NetworkPacket) (more : List Event) (s : Stack) : Prop where
  run : ∀ old, x (s.write p old) =
    route p ip ((Stack.advanced s rest (udpEvents sourcePort destPort ip (content old) ++ more)).write p
      (udpIpFramed sourcePort destPort s.ourIp ip (content old)))
  quiet : fate p more = .waiting

theorem bind_eq {x y : Net Unit} (f : Unit → Net Unit) (h : x s = y t) : (x >>= f) s = (y >>= f) t := by
  simp only [bind, EStateM.bind, h]

theorem SameWindow.udpIpFramed (h : SameWindow k k') (sourcePort destPort : Port) (ourIp ip : Ip) :
    SameWindow (udpIpFramed sourcePort destPort ourIp ip k) (udpIpFramed sourcePort destPort ourIp ip k') :=
  (h.udpFramed sourcePort destPort ourIp ip).ipFramed ipProtocolUdp ourIp ip

/-- The headers lie in front of the packet. -/
theorem udpIpFramed_data (sourcePort destPort : Port) (ourIp ip : Ip) {place : Int} (h : k.index ≤ place) :
    (udpIpFramed sourcePort destPort ourIp ip k).data place = k.data place := by
  have hindex : (udpFramed sourcePort destPort ourIp ip k).index ≤ place := by
    simp only [udpFramed, udpHeaderSize]
    omega
  unfold udpIpFramed
  rw [ipFramed_data _ _ _ hindex, udpFramed_data _ _ _ _ h]

theorem SameWindow.udpEvents (h : SameWindow k k') (sourcePort destPort : Port) (ip : Ip) :
    udpEvents sourcePort destPort ip k' = udpEvents sourcePort destPort ip k := by
  unfold Invariant.udpEvents
  rw [h.index, h.length, h.payload]

/-- A run goes on from a state that differs in quiet events. -/
theorem fateIn_advanced {x y : Net Unit} {events : List Event} (h : x s = y t) (htrace : t.trace = events ++ s.trace)
    (hquiet : fate p events = .waiting) (hlater : t.trace <:+ (final (y t)).trace) :
    fateIn p x s = fateIn p y t := by
  obtain ⟨new, hnew⟩ := hlater
  have hright : fateIn p y t = fate p new := fateIn_eq hnew.symm
  have hleft : fateIn p x s = fate p (new ++ events) := by
    apply fateIn_eq
    rw [h, ← hnew, htrace, List.append_assoc]
  rw [hleft, hright, fate_append_waiting hquiet]

/-- The old content of the buffer has no part in what becomes of the packet, and a frame it is sent as is the
packet behind a MAC header. -/
theorem Builds.same {x : Net Unit} {sourcePort destPort : Port} {ip : Ip} {content : NetworkPacket → NetworkPacket}
    {more : List Event} {old : NetworkPacket}
    (h : Builds x p rest sourcePort destPort ip content more s) (honce : occurrences s p = 1)
    (hpool : s.freeNetworkPackets = p :: rest) (hsame : SameWindow (content (s.packets p)) (content old))
    (later : List Op) :
    fateIn p (x >>= fun _ => execAll later) (s.write p old) = fateIn p (x >>= fun _ => execAll later) s ∧
      ∀ frame, fateIn p (x >>= fun _ => execAll later) s = .sent frame →
        Framed (udpIpFramed sourcePort destPort s.ourIp ip (content (s.packets p))) frame := by
  let events := udpEvents sourcePort destPort ip (content (s.packets p)) ++ more
  let built := udpIpFramed sourcePort destPort s.ourIp ip (content (s.packets p))
  let built' := udpIpFramed sourcePort destPort s.ourIp ip (content old)
  let start := (Stack.advanced s rest events).write p built
  let y : Net Unit := route p ip >>= fun _ => execAll later
  have hquiet : fate p events = .waiting := by
    rw [fate_append_waiting h.quiet]
    rfl
  have hblind : Blind p built built' start.trace True y := .bind (route_blind ip) fun _ => execAll_blind later
  have hleft : fateIn p (x >>= fun _ => execAll later) s = fateIn p y start := by
    have htrace : start.trace = events ++ s.trace := rfl
    apply fateIn_advanced _ htrace hquiet (hblind.later start)
    apply bind_eq
    have hrun := h.run (s.packets p)
    rwa [Stack.write_self] at hrun
  have hright : fateIn p (x >>= fun _ => execAll later) (s.write p old) = fateIn p y (start.write p built') := by
    have htrace : (start.write p built').trace = events ++ (s.write p old).trace := rfl
    apply fateIn_advanced _ htrace hquiet (hblind.later _)
    apply bind_eq
    rw [h.run old, hsame.udpEvents]
    simp only [start, Stack.write, Function.update_idem, built', events]
  have hwaits : Waits p built start := waits_of_pool honce hpool events
  have hfates := fateIn_same hblind hwaits (hsame.udpIpFramed sourcePort destPort s.ourIp ip)
  rw [hleft, hright]
  exact hfates

/-- A builder that fills the packet and gives it to UDP. -/
theorem filled_builds (hpool : s.freeNetworkPackets = p :: rest) (content : NetworkPacket → NetworkPacket)
    (sourcePort destPort : Port) (ip : Ip) :
    Builds (do
      let packet ← allocateNetworkPacket
      modifyPacket packet content
      udpSendZeroCopy packet sourcePort destPort ip) p rest sourcePort destPort ip
      (fun old => content (emptied old)) [] s := by
  constructor
  · intro old
    have hpool' : (s.write p old).freeNetworkPackets = p :: rest := hpool
    let fresh := ((s.write p old).setPool rest).write p (emptied ((s.write p old).packets p))
    simp only [bind, EStateM.bind, allocateNetworkPacket_cons hpool']
    show udpSendZeroCopy p sourcePort destPort ip (fresh.write p (content (fresh.packets p))) = _
    rw [udpSendZeroCopy_eq]
    simp only [fresh, Stack.write, Stack.setPool, Stack.advanced, Function.update_idem, Function.update_self,
      List.append_nil]
  · rfl

/-- What `dhcp_send_packet` makes of an empty packet. -/
def dhcpFilled (s : Stack) (type : DhcpPacketType) (p : NetworkPacket) : NetworkPacket :=
  let options := dhcpPacketOptions s.dhcp type ++ [dhcpOptionEnd]
  { p with
    data := writeDhcpKind s.dhcp p.index (writeBytes options (p.index + dhcpHeaderSize)
      (writeDhcpHeader s.dhcp s.ourMac s.time p.index p.data)) type
    length := dhcpHeaderSize + options.length }

/-- The packet that the client sends next, as it is before the headers of UDP and IP are written. -/
theorem dhcp_builds (hpool : s.freeNetworkPackets = p :: rest) (type : DhcpPacketType) :
    Builds (dhcpSendPacket type) p rest dhcpClientPort dhcpServerPort 0xFFFFFFFF
      (fun old => dhcpFilled s type (emptied old)) [.dhcpSent type] s := by
  constructor
  · intro old
    have hpool' : (s.write p old).freeNetworkPackets = p :: rest := hpool
    let fresh := ((s.write p old).setPool rest).write p (emptied ((s.write p old).packets p))
    unfold dhcpSendPacket
    simp only [bind, EStateM.bind, allocateNetworkPacket_cons hpool']
    show udpSendZeroCopy p dhcpClientPort dhcpServerPort 0xFFFFFFFF
      ((fresh.write p (dhcpFilled fresh type (fresh.packets p))).observe (.dhcpSent type)) = _
    rw [udpSendZeroCopy_eq]
    simp only [fresh, Stack.write, Stack.observe, Stack.setPool, Stack.advanced, dhcpFilled, Function.update_idem,
      Function.update_self, List.append_assoc, List.singleton_append]
  · rfl

/-- What `send_arp_packet` finds in the place of its zero address, after it has observed the window. -/
def residueOf (s : Stack) : Mac := s.application.residue (s.trace.length + 1)

/-- What `send_arp_packet` makes of an empty packet. -/
def arpFilled (s : Stack) (targetMac : Mac) (targetIp : Ip) (arpType : ArpType) (p : NetworkPacket) : NetworkPacket :=
  let targetMac := if arpType ≠ .reply then residueOf s else targetMac
  let targetIp := if arpType = .announcement ∨ arpType = .gratuitous then s.ourIp else targetIp
  let sendersIp := if arpType = .probe then 0 else s.ourIp
  let operation :=
    if arpType = .gratuitous ∨ arpType = .reply then arpOperationReply else arpOperationRequest
  { p with
    length := arpHeaderSize
    data := writeArpHeader s.ourMac targetMac sendersIp targetIp operation p.index p.data }

theorem sendArpPacket_eq (hpool : s.freeNetworkPackets = p :: rest) (targetMac : Mac) (targetIp : Ip)
    (arpType : ArpType) :
    sendArpPacket targetMac targetIp arpType s =
      macSend p (if arpType = .reply then targetMac else broadcastMac) etherTypeArp
        ((Stack.advanced s rest [.window .sendArpPacket networkPacketHeaderSize 0 arpHeaderSize]).write p
          (arpFilled s targetMac targetIp arpType (emptied (s.packets p)))) := by
  let fresh := (s.setPool rest).write p (emptied (s.packets p))
  let built := (fresh.observe (.window .sendArpPacket (fresh.packets p).index (fresh.packets p).length
    arpHeaderSize)).write p (arpFilled fresh targetMac targetIp arpType (fresh.packets p))
  have hrun : sendArpPacket targetMac targetIp arpType s =
      macSend p (if arpType = .reply then targetMac else broadcastMac) etherTypeArp built := by
    unfold sendArpPacket
    simp only [bind, EStateM.bind, allocateNetworkPacket_cons hpool]
    cases arpType with
    | reply => rfl
    | gratuitous => rfl
    | probe => rfl
    | announcement => rfl
    | request => rfl
  rw [hrun]
  simp only [built, fresh, Stack.write, Stack.observe, Stack.setPool, Stack.advanced, Function.update_idem,
    Function.update_self]
  rfl

/-- The frame of an ARP packet that is built in a buffer. -/
def arpFrame (s : Stack) (targetMac : Mac) (targetIp : Ip) (arpType : ArpType) (old : NetworkPacket) : List UInt8 :=
  (macFramed (if arpType = .reply then targetMac else broadcastMac) s.ourMac etherTypeArp
    (arpFilled s targetMac targetIp arpType (emptied old))).payload

/-- A packet is in the pool: it is handed to the driver, also where the call then stops. -/
theorem sendArpPacket_handed (hpool : s.freeNetworkPackets = p :: rest) (targetMac : Mac) (targetIp : Ip)
    (arpType : ArpType) :
    wp (sendArpPacket targetMac targetIp arpType)
      (fun _ t => Handed p (arpFrame s targetMac targetIp arpType (s.packets p)) s t)
      (fun _ t => Handed p (arpFrame s targetMac targetIp arpType (s.packets p)) s t) s := by
  unfold wp
  rw [sendArpPacket_eq hpool]
  apply wp_mono (macSend_handed _ _ _)
  · intro _ t ht
    have hback := ht.before (s := s) rfl rfl
    rwa [Stack.write_packets, Function.update_self] at hback
  · intro _ t ht
    have hback := ht.before (s := s) rfl rfl
    rwa [Stack.write_packets, Function.update_self] at hback

/-- What has happened stays in the trace. -/
theorem execAll_suffix (ops : List Op) (s : Stack) : s.trace <:+ (final (execAll ops s)).trace :=
  (execAll_blind ops : Blind (0 : PacketId) (s.packets 0) (s.packets 0) [] True _).later s

/-- A packet that is handed over by the first computation. -/
theorem fateIn_handed {x : Net Unit} {frame : List UInt8}
    (h : wp x (fun _ t => Handed p frame s t) (fun _ t => Handed p frame s t) s) (later : List Op) :
    fateIn p (x >>= fun _ => execAll later) s = .sent frame := by
  have hhanded : Handed p frame s (final ((x >>= fun _ => execAll later) s)) := by
    apply final_of_wp
    rw [wp_bind]
    apply wp_mono h
    · intro _ t ht
      exact wp_of_final (ht.later (execAll_suffix later t))
    · intro _ t ht
      exact ht
  obtain ⟨new, htrace, hfate⟩ := hhanded
  rw [fateIn_eq htrace, hfate]

theorem fateIn_freed (later : List Op) (s : Stack) :
    fateIn p (freeNetworkPacket p >>= fun _ => execAll later) s = .freed := by
  let given : Stack := (s.setPool (p :: s.freeNetworkPackets)).observe (.freed p)
  obtain ⟨new, hnew⟩ := execAll_suffix later given
  have hfreed : fate p [.freed p] = .freed := by simp [fate, Fate.after]
  have htrace : (final ((freeNetworkPacket p >>= fun _ => execAll later) s)).trace = (new ++ [.freed p]) ++ s.trace := by
    rw [List.append_assoc]
    exact hnew.symm
  have hgone : fate p [.freed p] ≠ .waiting := by
    rw [hfreed]
    simp
  rw [fateIn_eq htrace, fate_append_gone hgone, hfreed]

/-- A packet whose window is filled with bytes. -/
theorem filled_same (bytes : List UInt8) {length : Int} (hlength : length ≤ bytes.length) (old old' : NetworkPacket) :
    SameWindow
      { emptied old with
        data := writeBytes bytes (emptied old).index (emptied old).data, length := length }
      { emptied old' with
        data := writeBytes bytes (emptied old').index (emptied old').data, length := length } where
  index := rfl
  length := rfl
  data := by
    intro x hle hlt
    dsimp only [emptied] at hle hlt ⊢
    have hnothing : Agree (fun _ => False) old.data old'.data := fun _ hx => hx.elim
    apply hnothing.writeBytes networkPacketHeaderSize bytes
    exact .inl ⟨hle, by omega⟩

/-- The fields of the DHCP header up to `client_mac`, and the magic cookie. -/
theorem agree_dhcpHeader {P : Int → Prop} {memory memory' : Memory} (h : Agree P memory memory') (d : Dhcp)
    (ourMac : Mac) (now : Time) (header : Int) :
    Agree (fun x => header ≤ x ∧ x < header + 34 ∨ header + 236 ≤ x ∧ x < header + 240 ∨ P x)
      (writeDhcpHeader d ourMac now header memory) (writeDhcpHeader d ourMac now header memory') := by
  have hbytes := (((h.writeByte header dhcpOpcodeRequest).writeByte (header + 1) 1).writeByte (header + 2) 6).writeByte
    (header + 3) 0
  have htimes := ((hbytes.writeBe32 (header + 4) d.transactionId).writeBe16 (header + 8)
    (getElapsed d.time now / 1000).toUInt16).writeBe16 (header + 10) 0
  have haddresses := (((htimes.writeBe32 (header + 12) 0).writeBe32 (header + 16) 0).writeBe32 (header + 20)
    0).writeBe32 (header + 24) 0
  apply ((haddresses.writeBe32 (header + 236) magicCookie).writeMac (header + 28) ourMac).weaken
  intro x hx
  rcases hx with hin | hin | hold
  · omega
  · omega
  · simp only [hold, or_true]

theorem agree_dhcpKind {P : Int → Prop} {memory memory' : Memory} (h : Agree P memory memory') (d : Dhcp)
    (header : Int) (type : DhcpPacketType) :
    Agree P (writeDhcpKind d header memory type) (writeDhcpKind d header memory' type) := by
  cases type with
  | discover => exact h
  | request => exact h
  | rebind => exact h
  | renew => exact (h.writeBe32 (header + 12) d.leasedIp).weaken fun _ hx => .inr hx
  | release =>
    exact ((h.writeBe32 (header + 12) d.leasedIp).writeBe16 (header + 8) 0).weaken fun _ hx => .inr (.inr hx)

/-- `dhcp_send_packet` does not write `padding`, `host_name` and `boot_filename`. -/
theorem dhcpFilled_same (s : Stack) (type : DhcpPacketType) {old old' : NetworkPacket}
    (h : ∀ x, 178 ≤ x → x < 380 → old'.data x = old.data x) :
    SameWindow (dhcpFilled s type (emptied old)) (dhcpFilled s type (emptied old')) where
  index := rfl
  length := rfl
  data := by
    intro x hle hlt
    dsimp only [dhcpFilled, emptied, networkPacketHeaderSize, dhcpHeaderSize] at hle hlt ⊢
    have hold : Agree (fun x => 178 ≤ x ∧ x < 380) old.data old'.data := fun x hx => h x hx.1 hx.2
    have hoptions := (agree_dhcpHeader hold s.dhcp s.ourMac s.time 144).writeBytes (144 + 240)
      (dhcpPacketOptions s.dhcp type ++ [dhcpOptionEnd])
    apply agree_dhcpKind hoptions
    omega

theorem dhcpFilled_data (s : Stack) (type : DhcpPacketType) (old : NetworkPacket) {place : Int} (hle : 178 ≤ place)
    (hlt : place < 380) : (dhcpFilled s type (emptied old)).data place = old.data place := by
  dsimp only [dhcpFilled, emptied, networkPacketHeaderSize, dhcpHeaderSize, writeDhcpHeader]
  cases type with
  | _ =>
    simp (disch := omega) only [writeDhcpKind, writeBytes_other, writeBe16_other, writeBe32_other, writeMac_other,
      writeByte_other]

end MiniIp.Invariant
