import MiniIp.Invariant.SoundRun

/-!
# Packet conservation

In every run of the base stack each of the 96 packets is in exactly one place
between two calls: the pool, a slot of one of the two rings, the queue of an ARP
entry or the queue of a UDP connection. The lists are sequences, and a packet
that is twice in one list is counted twice.
-/

set_option autoImplicit false

namespace MiniIp.Guarantees.PacketConservation

open MiniIp.Source MiniIp.Invariant MiniIp.Library.Counting MiniIp.Library.Runs MiniIp.Library.Wp

/-- The calls of the base stack, with at most 16 connections opened. -/
def BaseStack (s : Stack) : Op → Prop
  | .udpListen .. | .dhcpStart => s.udp.usedConnections.length < 16
  | .downloadFile .. | .readFile _ | .abortDownload _ => False
  | _ => True

/-- The places where a packet can be between two calls. -/
inductive Place where
  | pool
  | transmit (slot : Fin 8)
  | receive (slot : Fin 32)
  | arpQueue (entry : ArpEntryId)
  | udpQueue (connection : UdpConnectionId)
  deriving DecidableEq

def Place.equivSum : Place ≃ Unit ⊕ Fin 8 ⊕ Fin 32 ⊕ ArpEntryId ⊕ UdpConnectionId where
  toFun
    | .pool => .inl ()
    | .transmit slot => .inr (.inl slot)
    | .receive slot => .inr (.inr (.inl slot))
    | .arpQueue entry => .inr (.inr (.inr (.inl entry)))
    | .udpQueue connection => .inr (.inr (.inr (.inr connection)))
  invFun
    | .inl () => .pool
    | .inr (.inl slot) => .transmit slot
    | .inr (.inr (.inl slot)) => .receive slot
    | .inr (.inr (.inr (.inl entry))) => .arpQueue entry
    | .inr (.inr (.inr (.inr connection))) => .udpQueue connection
  left_inv place := by cases place <;> rfl
  right_inv place := by rcases place with _ | _ | _ | _ | _ <;> rfl

instance : Fintype Place := Fintype.ofEquiv _ Place.equivSum.symm

/-- How often a packet is stored in a place. -/
def storedIn (s : Stack) (p : PacketId) : Place → ℕ
  | .pool => s.freeNetworkPackets.count p
  | .transmit slot => if s.gmac.txPackets slot = some p then 1 else 0
  | .receive slot => if s.gmac.rxPackets slot = some p then 1 else 0
  | .arpQueue entry => (s.arp.entries entry).packetQueue.count p
  | .udpQueue connection => (s.udp.connections connection).packetQueue.count p

/-- The packet is stored once in one place, and nowhere else. -/
def InOnePlace (s : Stack) (p : PacketId) : Prop :=
  ∃ place, storedIn s p place = 1 ∧ ∀ other, other ≠ place → storedIn s p other = 0

/-- The count of the invariant is the count over the places. -/
theorem sum_storedIn (s : Stack) (p : PacketId) : ∑ place, storedIn s p place = occurrences s p := by
  rw [Fintype.sum_equiv Place.equivSum _ (fun place => storedIn s p (Place.equivSum.symm place))
    fun place => by rw [Equiv.symm_apply_apply]]
  simp only [Fintype.sum_sum_type, Finset.univ_unique, Finset.sum_singleton]
  simp only [occurrences, slots, Nat.add_assoc]
  rfl

theorem inOnePlace_of_owned {s : Stack} (h : Owned [] s) (p : PacketId) : InOnePlace s p := by
  apply exists_single_of_sum_eq_one
  rw [sum_storedIn]
  simpa using h p

/-- The invariant of these runs: no packet is held between two calls. -/
def Conserved (s : Stack) : Prop := ∃ limit, Sound False (fun _ _ _ _ => True) limit [] s

/-- The calls of the base stack keep it, whichever way they end, and use no missing list node. -/
theorem exec_conserved {s : Stack} {op : Op} (h : Conserved s) (hop : BaseStack s op) :
    wp op.exec (fun _ t => Conserved t) (fun halt _ => halt ≠ .nullPointer) s := by
  obtain ⟨limit, hs⟩ := h
  have hpermitted : ∀ limit', limitSum s.udp ≤ limit' →
      Permitted False (fun _ _ _ _ => True) limit' s op → ¬ LosesPacket s op →
      wp op.exec (fun _ t => Conserved t) (fun halt _ => halt ≠ .nullPointer) s := by
    intro limit' hlimit hpermitted hlossless
    have hrun := exec_sound 1 (hs.relimit hlimit) (by simp) hpermitted
    refine wp_mono hrun (fun _ t hpost => ?_) fun _ _ ht => ht.node
    obtain ⟨lost, ht, hlost⟩ := hpost
    cases lost with
    | nil => exact ⟨limit', ht⟩
    | cons p rest => exact absurd (hlost (by simp)) hlossless
  have hlisten : ∀ maxPacketCount : Int, s.udp.usedConnections.length < 16 →
      CanListen (limitSum s.udp + maxPacketCount.toNat) maxPacketCount s :=
    fun _ hfew => ⟨hs.udp.free_ne_nil hfew, le_refl _⟩
  cases op with
  | receive =>
    exact hpermitted _ (le_refl _) ⟨brings_any s, fun w => w.elim⟩ id
  | udpSend data size sourcePort destPort ip => exact hpermitted _ (le_refl _) (fun w => w.elim) id
  | udpListen port maxPacketCount =>
    exact hpermitted _ (by omega) (hlisten maxPacketCount hop) id
  | dhcpStart => exact hpermitted _ (by omega) (hlisten 1 hop) id
  | downloadFile filename serverIp => exact hop.elim
  | readFile size => exact hop.elim
  | abortDownload errorMessage => exact hop.elim
  | _ => exact hpermitted _ (le_refl _) trivial id

variable {application : Application} {time : Time} {entropy : Nat → UInt32} {s : Stack}

theorem reaches_conserved (h : Reaches Op.exec BaseStack (booted application time entropy) s) :
    Conserved s := by
  apply h.invariant (I := Conserved) ⟨0, booted_sound⟩
  intro s op _ hs hop
  exact wp_mono (exec_conserved hs hop) (fun _ _ ht => ht) fun _ _ _ => trivial

/-- Between any two calls of the base stack every packet is in exactly one place. -/
theorem packets_conserved (h : Reaches Op.exec BaseStack (booted application time entropy) s)
    (p : PacketId) : InOnePlace s p := by
  obtain ⟨_, hs⟩ := reaches_conserved h
  exact inOnePlace_of_owned hs.owned p

/-- Frames, an ARP request for an unknown host, a completed transmission and a listener. -/
theorem packets_conserved_busy :
    ∃ s, Reaches Op.exec BaseStack (booted zeroApplication 0 fun _ => 0) s ∧
      s.freeNetworkPackets.length = 55 ∧ ∀ p, InOnePlace s p := by
  have hrun : runs Op.exec (fun _ _ => true) (fun s => s.freeNetworkPackets.length = 55)
      [.sendToIp [1, 2, 3] 0x0A000002, .transmitDone 0, .deliver 0 60 [], .receive, .tick 1500,
        .arpTask] (booted zeroApplication 0 fun _ => 0) = true := by
    decide +kernel
  obtain ⟨s, hreach, hlength⟩ := reaches_of_runs BaseStack .start
    (by simp [BaseStack, Op.deliver]) hrun
  exact ⟨s, hreach, by simpa using hlength, packets_conserved hreach⟩

end MiniIp.Guarantees.PacketConservation
