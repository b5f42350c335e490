import MiniIp.Invariant.SoundClients
import MiniIp.Library.Runs

/-!
# Every run keeps the invariant

`boot` establishes the invariant, and every operation keeps it under the
conditions of `Permitted`. What a `tftp_read` loses is added to the packets
that are held.
-/

set_option autoImplicit false

namespace MiniIp.Invariant

open MiniIp.Source MiniIp.Library.Counting MiniIp.Library.Runs MiniIp.Library.Wp

variable {W : Prop} {U : QueueContent} {limit most : ℕ}
  {held : List PacketId} {s : Stack} {p q : PacketId}

/-- The pool and the rings are set up from `s`, and everything else is as it was. -/
def SetUp (s t : Stack) : Prop :=
  ∃ packets gmac, t = { s with
    packets := packets, gmac := gmac, freeNetworkPackets := t.freeNetworkPackets }

theorem SetUp.trans {t u : Stack} (h : SetUp s t) (h' : SetUp t u) : SetUp s u := by
  obtain ⟨packets, gmac, heq⟩ := h
  obtain ⟨packets', gmac', heq'⟩ := h'
  refine ⟨packets', gmac', ?_⟩
  rw [heq] at heq'
  exact heq'

/-- `allocate_network_packet` on a pool that is not empty. -/
theorem allocateNetworkPacket_owned {rest : List PacketId} (h : Owned [] s)
    (hfree : s.freeNetworkPackets = p :: rest) :
    wp allocateNetworkPacket
      (fun q t => Owned [q] t ∧ t.freeNetworkPackets = rest ∧ t.gmac = s.gmac ∧ SetUp s t)
      (fun _ _ => False) s := by
  unfold allocateNetworkPacket
  simp only [wp_bind, wp_get, hfree, wp_modify, wp_modifyPacket, wp_pure]
  refine ⟨fun q => ?_, rfl, rfl, _, _, rfl⟩
  have hq := h q
  simp only [occurrences, hfree, List.count_cons, List.count_nil, Stack.setPool, Stack.write] at hq ⊢
  omega

/-- The transmit slots are filled one by one. -/
theorem gmacInitTransmit_owned {slots : List (Fin 8)} (h : Owned [] s) (hslots : slots.Nodup)
    (hempty : ∀ i ∈ slots, s.gmac.txPackets i = none)
    (hpool : slots.length ≤ s.freeNetworkPackets.length) :
    wp (gmacInitTransmit slots)
      (fun _ t => Owned [] t ∧ t.freeNetworkPackets = s.freeNetworkPackets.drop slots.length ∧
        (∀ i, i ∈ slots ∨ (s.gmac.txPackets i).isSome → (t.gmac.txPackets i).isSome) ∧
        t.gmac.rxPackets = s.gmac.rxPackets ∧ SetUp s t)
      (fun _ _ => False) s := by
  induction slots generalizing s with
  | nil => exact ⟨h, rfl, fun i hi => by simpa using hi, rfl, s.packets, s.gmac, rfl⟩
  | cons slot rest ih =>
    obtain ⟨hfresh, hnodup⟩ := List.nodup_cons.mp hslots
    cases hfree : s.freeNetworkPackets with
    | nil => simp [hfree] at hpool
    | cons p pool =>
      rw [gmacInitTransmit, wp_bind]
      refine wp_next (allocateNetworkPacket_owned h hfree) fun q t hpost => ?_
      obtain ⟨ht, hrest, hgmac, hset⟩ := hpost
      simp only [wp_bind, wp_modify]
      have hplaced : Owned [] (t.setTxPacket slot q) := by
        intro a
        have ha := ht a
        have hslot := slots_update_add t.gmac.txPackets slot (some q) a
        simp only [hgmac, hempty slot List.mem_cons_self, Option.some.injEq, reduceCtorEq,
          if_false] at hslot
        simp only [occurrences, hgmac, List.count_cons, List.count_nil, beq_iff_eq,
          Stack.setTxPacket] at ha ⊢
        omega
      have hnext := ih (s := (t.setTxPacket slot q).setTxDescriptor slot
          { (t.setTxPacket slot q).gmac.txDescriptors slot with owner := .cpu })
        hplaced hnodup (fun i hi => ?_) ?_
      · apply wp_next hnext
        intro _ u hpost
        obtain ⟨hu, hdrop, hfilled, hrx, hset'⟩ := hpost
        refine ⟨hu, ?_, fun i hi => hfilled i ?_, ?_, hset.trans ((?_ : SetUp t _).trans hset')⟩
        · rw [hdrop]
          simp [hrest]
        · by_cases his : i = slot
          · right
            simp [his]
          · rw [List.mem_cons] at hi
            simp only [Stack.setTxDescriptor_gmac_txPackets, Stack.setTxPacket_gmac_txPackets,
              Function.update_of_ne his, hgmac]
            tauto
        · rw [hrx]
          simp [hgmac]
        · exact ⟨_, _, rfl⟩
      · have his : i ≠ slot := fun heq => hfresh (heq ▸ hi)
        simp only [Stack.setTxDescriptor_gmac_txPackets, Stack.setTxPacket_gmac_txPackets,
          Function.update_of_ne his, hgmac]
        exact hempty i (List.mem_cons_of_mem _ hi)
      · simp only [hfree, List.length_cons] at hpool
        simp only [Stack.setTxDescriptor_freeNetworkPackets, Stack.setTxPacket_freeNetworkPackets,
          hrest]
        omega

/-- The receive slots are filled one by one. -/
theorem gmacInitReceive_owned {slots : List (Fin 32)} (h : Owned [] s) (hslots : slots.Nodup)
    (hempty : ∀ i ∈ slots, s.gmac.rxPackets i = none)
    (hpool : slots.length ≤ s.freeNetworkPackets.length) :
    wp (gmacInitReceive slots)
      (fun _ t => Owned [] t ∧
        (∀ i, i ∈ slots ∨ (s.gmac.rxPackets i).isSome → (t.gmac.rxPackets i).isSome) ∧
        t.gmac.txPackets = s.gmac.txPackets ∧ SetUp s t)
      (fun _ _ => False) s := by
  induction slots generalizing s with
  | nil => exact ⟨h, fun i hi => by simpa using hi, rfl, s.packets, s.gmac, rfl⟩
  | cons slot rest ih =>
    obtain ⟨hfresh, hnodup⟩ := List.nodup_cons.mp hslots
    cases hfree : s.freeNetworkPackets with
    | nil => simp [hfree] at hpool
    | cons p pool =>
      rw [gmacInitReceive, wp_bind]
      refine wp_next (allocateNetworkPacket_owned h hfree) fun q t hpost => ?_
      obtain ⟨ht, hrest, hgmac, hset⟩ := hpost
      simp only [wp_bind, wp_modify]
      have hplaced : Owned [] (t.setRxPacket slot q) := by
        intro a
        have ha := ht a
        have hslot := slots_update_add t.gmac.rxPackets slot (some q) a
        simp only [hgmac, hempty slot List.mem_cons_self, Option.some.injEq, reduceCtorEq,
          if_false] at hslot
        simp only [occurrences, hgmac, List.count_cons, List.count_nil, beq_iff_eq,
          Stack.setRxPacket] at ha ⊢
        omega
      have hnext := ih hplaced hnodup (fun i hi => ?_) ?_
      · apply wp_next hnext
        intro _ u hpost
        obtain ⟨hu, hfilled, htx, hset'⟩ := hpost
        refine ⟨hu, fun i hi => hfilled i ?_, ?_, hset.trans ((?_ : SetUp t _).trans hset')⟩
        · by_cases his : i = slot
          · right
            simp [his]
          · rw [List.mem_cons] at hi
            simp only [Stack.setRxPacket_gmac_rxPackets, Function.update_of_ne his, hgmac]
            tauto
        · rw [htx]
          simp [hgmac]
        · exact ⟨_, _, rfl⟩
      · have his : i ≠ slot := fun heq => hfresh (heq ▸ hi)
        simp only [Stack.setRxPacket_gmac_rxPackets, Function.update_of_ne his, hgmac]
        exact hempty i (List.mem_cons_of_mem _ hi)
      · simp only [hfree, List.length_cons] at hpool
        simp only [Stack.setRxPacket_freeNetworkPackets, hrest]
        omega

/-- After start-up no protocol has done anything yet. -/
structure Fresh (application : Application) (time : Time) (entropy : Nat → UInt32) (s : Stack) :
    Prop where
  arp : s.arp.freeEntries = (List.finRange 8).reverse ∧ s.arp.usedEntries = [] ∧
    ∀ e, s.arp.entries e = ⟨zeroMac, 0, false, 0, 0, [], 0⟩
  udp : s.udp.freeConnections = (List.finRange 16).reverse ∧ s.udp.usedConnections = [] ∧
    ∀ c, s.udp.connections c = ⟨0, [], 0, 0⟩
  dhcp : s.dhcp = ⟨.disabled, 0, 0, 0, 0, 0, 0, zeroBackoff, 0⟩
  ours : s.ourIp = 0 ∧ s.ourNetmask = 0
  application : s.application = application
  world : s.time = time ∧ s.entropy = entropy
  trace : s.trace = []

theorem Fresh.setUp {application : Application} {time : Time} {entropy : Nat → UInt32} {t : Stack}
    (h : Fresh application time entropy s) (hset : SetUp s t) : Fresh application time entropy t := by
  obtain ⟨packets, gmac, heq⟩ := hset
  rw [heq]
  exact { h with }

variable {application : Application} {time : Time} {entropy : Nat → UInt32}

theorem Fresh.sound (h : Fresh application time entropy s) (howned : Owned [] s)
    (htx : ∀ i, (s.gmac.txPackets i).isSome) (hrx : ∀ i, (s.gmac.rxPackets i).isSome) :
    Sound W U limit [] s := by
  obtain ⟨hfree, hused, hentries⟩ := h.arp
  obtain ⟨hfreeC, husedC, hconnections⟩ := h.udp
  have harp : ArpTable s.arp := by
    constructor
    · rw [hfree, hused]
      decide
    · simp [hused]
    · simp [hentries]
    · simp [hentries]
    · simp [hused]
  refine ⟨⟨howned, by simp [hconnections], by simp [hentries], by simp [h.trace], htx, hrx,
    ⟨fun e => ?_, by simp [hentries]⟩, fun _ => harp, ?_⟩, fun _ => ?_⟩
  · left
    rw [hfree]
    simp
  · refine ⟨?_, fun c => ?_, by simp [hconnections], by simp [husedC], by simp [husedC], ?_⟩
    · rw [hfreeC, husedC]
      decide
    · left
      rw [hfreeC]
      simp
    · simp [limitSum, husedC]
  · exact ⟨by simp [hentries], by simp [h.trace, pending], by simp [hentries], by simp [h.trace, Delivered]⟩

theorem networkInit_fresh :
    wp networkInit
      (fun _ t => Fresh application time entropy t ∧ Owned [] t ∧
        t.freeNetworkPackets = (List.finRange 96).reverse ∧ (∀ i, t.gmac.txPackets i = none) ∧
        ∀ i, t.gmac.rxPackets i = none)
      (fun _ _ => False) (powerOn application time entropy) := by
  unfold networkInit arpInit udpInit
  simp only [wp_bind, wp_modify]
  refine ⟨?_, fun p => ?_, by simp [powerOn]⟩
  · constructor <;> simp [powerOn]
  · simp [occurrences, slots, powerOn]

/-- `network_init` and `gmac_init` always return, with every packet in its place. -/
theorem boot_owned :
    wp boot
      (fun _ t => Fresh application time entropy t ∧ Owned [] t ∧
        (∀ i, (t.gmac.txPackets i).isSome) ∧ ∀ i, (t.gmac.rxPackets i).isSome)
      (fun _ _ => False) (powerOn application time entropy) := by
  unfold boot gmacInit
  simp only [wp_bind, wp_modify]
  apply wp_next networkInit_fresh
  intro _ start hstart
  obtain ⟨hfresh, howned, hpool, hnotx, hnorx⟩ := hstart
  refine wp_next (gmacInitTransmit_owned howned (List.nodup_finRange 8) (fun i _ => hnotx i) ?_)
    fun _ t hpost => ?_
  · simp [hpool]
  · obtain ⟨ht, hdrop, htx, hrx, hset⟩ := hpost
    refine wp_next (gmacInitReceive_owned ht (List.nodup_finRange 32) (fun i _ => ?_) ?_)
      fun _ u hfilled => ?_
    · rw [hrx]
      exact hnorx i
    · rw [hdrop]
      simp [hpool]
    · obtain ⟨hu, hrx', htx', hset'⟩ := hfilled
      refine ⟨((hfresh.setUp hset).setUp hset').setUp ⟨_, _, rfl⟩, hu, fun i => ?_, fun i => ?_⟩
      · have hfilled := htx i (.inl (List.mem_finRange i))
        rw [← htx'] at hfilled
        exact hfilled
      · exact hrx' i (.inl (List.mem_finRange i))

variable (application time entropy) in
theorem boot_returns :
    boot (powerOn application time entropy) = .ok () (booted application time entropy) := by
  obtain ⟨_, t, hboot, _⟩ := returns_of_wp (boot_owned : wp boot _ _ (powerOn application time entropy))
  simp [booted, hboot]

theorem booted_fresh : Fresh application time entropy (booted application time entropy) := by
  have hstart := wp_ok boot_owned (boot_returns application time entropy)
  exact hstart.1

/-- After `network_init` every packet is in one place, and nothing has happened. -/
theorem booted_sound : Sound W U limit [] (booted application time entropy) := by
  have hstart := wp_ok boot_owned (boot_returns application time entropy)
  obtain ⟨hfresh, howned, htx, hrx⟩ := hstart
  exact hfresh.sound howned htx hrx

/-- The conditions under which an operation keeps the invariant. -/
def Permitted (W : Prop) (U : QueueContent) (limit : ℕ) (s : Stack) :
    Op → Prop
  | .receive => Acceptable W U s
  | .udpListen _ maxPacketCount => CanListen limit maxPacketCount s
  | .dhcpStart | .downloadFile .. => CanListen limit 1 s
  | .udpSend _ size _ _ _ => W → 0 ≤ size
  | .readFile _ => W → SendsRequest s.application.connection s →
      RequestFits s.application.connection
  | .abortDownload errorMessage => W → errorMessage.length ≤ 875
  | _ => True

/-- The operation keeps hold of a datagram that is never given back. -/
def LosesPacket (s : Stack) : Op → Prop
  | .readFile _ => s.application.connection.state = .request ∧
      ShortHead s.application.connection s
  | _ => False

theorem sendToIp_sound {bytes : List UInt8} {ip : Ip} (h : Sound W U limit held s)
    (hheld : held.length ≤ most) :
    wp (sendToIp bytes ip) (fun _ t => Sound W U limit held t) (Stopped W U limit most) s := by
  unfold sendToIp
  rw [wp_bind]
  refine wp_next (allocateNetworkPacket_sound h hheld) fun p t hpost => ?_
  obtain ⟨ht, hindex, _, _⟩ := hpost
  simp only [wp_bind, wp_modifyPacket]
  apply arpSend_sound (ht.write List.mem_cons_self _) _ hheld
  intro _
  have hshort := List.length_take_le 880 bytes
  simp only [Fits, Stack.write_packets, Function.update_self, hindex]
  omega

/-- Every permitted operation keeps the invariant, up to the packet it may lose. -/
theorem exec_sound (most : ℕ) {op : Op} (h : Sound W U limit held s) (hheld : held.length + 1 ≤ most)
    (hop : Permitted W U limit s op) :
    wp op.exec
      (fun _ t => ∃ lost, Sound W U limit (lost ++ held) t ∧ (lost ≠ [] → LosesPacket s op))
      (Stopped W U limit most) s := by
  have hfew : held.length ≤ most := by omega
  have hkept : ∀ {x : Net Unit}, wp x (fun _ t => Sound W U limit held t) (Stopped W U limit most) s →
      wp x (fun _ t => ∃ lost, Sound W U limit (lost ++ held) t ∧ (lost ≠ [] → LosesPacket s op))
        (Stopped W U limit most) s :=
    fun hx => wp_next hx fun _ t ht => ⟨[], ht, by simp⟩
  cases op with
  | receiveDone slot status bytes => exact hkept (gmacReceiveDone_sound h)
  | transmitDone slot => exact ⟨[], h.congr rfl, by simp⟩
  | transmitStatus tsr => exact ⟨[], h.congr rfl, by simp⟩
  | tick now => exact ⟨[], h.congr rfl, by simp⟩
  | receive =>
    apply hkept
    simp only [Op.exec, wp_bind, wp_pure]
    exact receivePacket_sound h hheld hop
  | arpTask => exact hkept (arpTask_sound h hfew)
  | sendToIp bytes ip => exact hkept (sendToIp_sound h hfew)
  | udpListen port maxPacketCount => exact hkept (udpListen_sound h hop.1 hop.2)
  | udpSend data size sourcePort destPort ip => exact hkept (udpSend_sound h hfew hop)
  | udpReceive size port =>
    apply hkept
    simp only [Op.exec, wp_bind, wp_pure]
    exact udpReceive_sound h
  | dhcpStart => exact hkept (dhcpStart_sound h hop)
  | dhcpTask => exact hkept (dhcpTask_keeps hfew U s h)
  | dhcpRelease => exact hkept (dhcpSendPacket_keeps .release hfew U s h)
  | downloadFile filename serverIp =>
    apply hkept
    simp only [Op.exec, downloadFile, wp_bind, wp_get, wp_modify]
    exact wp_next (tftpDownloadFile_sound h hop) fun _ t ht => ht.congr rfl
  | readFile size =>
    simp only [Op.exec, readFile, wp_bind, wp_get, wp_modify]
    apply wp_next (tftpRead_sound h hheld hop)
    intro _ t hpost
    obtain ⟨lost, ht, hlost⟩ := hpost
    exact ⟨lost, ht.congr rfl, hlost⟩
  | abortDownload errorMessage =>
    apply hkept
    simp only [Op.exec, wp_bind, wp_get]
    exact sendErrorTo_keeps _ _ _ _ hfew hop U s h
  | setOurMac mac => exact ⟨[], h.congr rfl, by simp⟩
  | setOurIp ip => exact ⟨[], h.congr rfl, by simp⟩
  | setOurNetmask netmask => exact ⟨[], h.congr rfl, by simp⟩

/-- There are only 96 packets that can be held. -/
theorem Owned.held_length (h : Owned held s) : held.length ≤ 96 := by
  have hsum : ∑ p, held.count p ≤ ∑ _p : PacketId, 1 := by
    apply Finset.sum_le_sum
    intro p _
    have hone := h p
    omega
  rw [sum_count] at hsum
  simpa using hsum

/-- As long as fewer than 16 connections are open, one is free. -/
theorem UdpTable.free_ne_nil (h : UdpTable limit s.udp) (hfew : s.udp.usedConnections.length < 16) :
    s.udp.freeConnections ≠ [] := by
  intro hnil
  have hall : (Finset.univ : Finset UdpConnectionId) ⊆ s.udp.usedConnections.toFinset := by
    intro c _
    rw [List.mem_toFinset]
    have hlisted := h.listed c
    simpa [hnil] using hlisted
  have hcard := Finset.card_le_card hall
  have hlength := s.udp.usedConnections.toFinset_card_le
  simp only [Finset.card_univ, Fintype.card_fin] at hcard
  omega

/-- The limit of the queue sizes is a bound, not a part of the state. -/
theorem Sound.relimit {limit' : ℕ} (h : Sound W U limit held s) (hlimit : limitSum s.udp ≤ limit') :
    Sound W U limit' held s :=
  { h with udp := { h.udp with limited := hlimit } }

/-- The received frame is no ping that is answered in too little room, and what is sent fits. -/
def LeavesRoom (s : Stack) : Op → Prop
  | .receive => ∀ frame, nextFrame s = some frame → ¬ ShortHeaderPing s.ourIp frame
  | .udpSend _ size _ _ _ => 0 ≤ size
  | .readFile _ => SendsRequest s.application.connection s → RequestFits s.application.connection
  | .abortDownload errorMessage => errorMessage.length ≤ 875
  | _ => True

theorem brings_any (s : Stack) : Brings (fun _ _ _ _ => True) s := fun _ _ _ _ _ _ => trivial

/-- The invariant, with nothing asked of the queue sizes and of what has been lost. -/
def Intact (W : Prop) (U : QueueContent) (s : Stack) : Prop :=
  ∃ limit lost, Sound W U limit lost s

/-- What is left of the invariant when a call never returns. -/
def IntactTrace (W : Prop) (trace : List Event) : Prop :=
  (W → ∀ event ∈ trace, InBuffer event) ∧ (NoEviction trace → Delivered trace)

/-- Every operation keeps this much, the windows under a condition on the operation. -/
theorem exec_intact {op : Op} (h : Intact W U s) (hroom : W → LeavesRoom s op)
    (hbrings : op = .receive → Brings U s) :
    wp op.exec (fun _ t => Intact W U t) (fun _ t => IntactTrace W t.trace) s := by
  obtain ⟨limit, lost, hs⟩ := h
  have hlost := hs.owned.held_length
  have hpermitted : ∀ limit', limitSum s.udp ≤ limit' →
      Permitted W U limit' s op →
      wp op.exec (fun _ t => Intact W U t) (fun _ t => IntactTrace W t.trace) s := by
    intro limit' hlimit hop
    have hrun := exec_sound 97 (hs.relimit hlimit) (by omega) hop
    apply wp_mono hrun
    · intro _ t hpost
      obtain ⟨more, ht, _⟩ := hpost
      exact ⟨limit', _, ht⟩
    · intro _ t ht
      exact ⟨ht.windows, ht.delivered⟩
  have hlisten : ∀ maxPacketCount : Int, s.udp.freeConnections ≠ [] →
      CanListen (limitSum s.udp + maxPacketCount.toNat) maxPacketCount s :=
    fun _ hfree => ⟨hfree, le_refl _⟩
  have htrace : IntactTrace W s.trace := ⟨hs.windows, fun hne => (hs.route hne).delivered⟩
  cases op with
  | receive => exact hpermitted _ (le_refl _) ⟨hbrings rfl, hroom⟩
  | udpSend data size sourcePort destPort ip => exact hpermitted _ (le_refl _) hroom
  | readFile size => exact hpermitted _ (le_refl _) hroom
  | abortDownload errorMessage => exact hpermitted _ (le_refl _) hroom
  | udpListen port maxPacketCount =>
    by_cases hfree : s.udp.freeConnections = []
    · -- without a free connection the call stops before it changes anything
      simpa [Op.exec, udpListen, hfree] using htrace
    · exact hpermitted _ (by omega) (hlisten maxPacketCount hfree)
  | dhcpStart =>
    by_cases hfree : s.udp.freeConnections = []
    · have hseen := hs.observe (.dhcpState .discover) trivial fun _ => trivial
      have hstopped : IntactTrace W (s.observe (.dhcpState .discover)).trace :=
        ⟨hseen.windows, fun hne => (hseen.route hne).delivered⟩
      simpa [Op.exec, dhcpStart, setDhcpState, udpListen, hfree] using hstopped
    · exact hpermitted _ (by omega) (hlisten 1 hfree)
  | downloadFile filename serverIp =>
    by_cases hfree : s.udp.freeConnections = []
    · simpa [Op.exec, downloadFile, tftpDownloadFile, udpListen, hfree] using htrace
    · exact hpermitted _ (by omega) (hlisten 1 hfree)
  | _ => exact hpermitted _ (le_refl _) trivial

/-- The invariant holds in every reachable state. Where `W` asks for it, every operation leaves room for its headers. -/
theorem reaches_intact (W : Prop) {ok : Stack → Op → Prop}
    (h : Reaches Op.exec ok (booted application time entropy) s)
    (hroom : W → ∀ s op, ok s op → LeavesRoom s op) : Intact W (fun _ _ _ _ => True) s := by
  apply h.invariant (I := Intact W _) ⟨0, [], booted_sound⟩
  intro s op _ hs met
  exact wp_partial (exec_intact hs (fun w => hroom w s op met) (fun _ => brings_any s)) fun _ _ ht => ht

/-- Where no operation loses a packet, none is ever held between two operations. -/
theorem reaches_sound_lossless {ok : Stack → Op → Prop}
    (h : Reaches Op.exec ok (booted application time entropy) s)
    (hok : ∀ s op, ok s op → Permitted W U limit s op ∧ ¬ LosesPacket s op) :
    Sound W U limit [] s := by
  apply h.invariant (I := Sound W U limit []) booted_sound
  intro s op _ hs met
  obtain ⟨hpermitted, hlossless⟩ := hok s op met
  refine wp_mono (exec_sound 1 hs (by simp) hpermitted) (fun _ t hpost => ?_)
    fun _ _ _ => trivial
  obtain ⟨lost, ht, hlost⟩ := hpost
  cases lost with
  | nil => exact ht
  | cons p rest => exact absurd (hlost (by simp)) hlossless

end MiniIp.Invariant
