import MiniIp.Invariant.SoundRun

/-!
# The ARP table and where packets are sent

As long as no entry is evicted from a full table, every entry is in exactly one
of the two lists, the addresses in use are distinct, entries start with an empty
queue, and a packet that waits for a mapping goes to a MAC that a reply supplied
for its destination.

`allocate_entry` (arp.c:101-121) puts an evicted entry into `used_entries` and
leaves it in `free_entries` as well. From the ninth destination on one object
stands for two addresses.
-/

set_option autoImplicit false

namespace MiniIp.Guarantees.AddressResolution

open MiniIp.Source MiniIp.Invariant MiniIp.Library.Runs MiniIp.Library.Wp

variable {application : Application} {time : Time} {entropy : Nat → UInt32} {s : Stack}
  {e : ArpEntryId}

/-- What the ARP table is meant to be between two operations. -/
structure TableIntact (s : Stack) : Prop where
  once : ∀ e, (s.arp.freeEntries ++ s.arp.usedEntries).count e = 1
  distinctIps : ∀ e ∈ s.arp.usedEntries, ∀ e' ∈ s.arp.usedEntries,
    (s.arp.entries e).ip = (s.arp.entries e').ip → e = e'
  freeEmpty : ∀ e ∈ s.arp.freeEntries, (s.arp.entries e).packetQueue = []
  freshEmpty : ∀ e t, allocateEntry s = .ok e t → (t.arp.entries e).packetQueue = []

/-- `free_entry` leaves the queue of the entry empty. -/
theorem freeEntryPackets_empty {packets : List PacketId} {E : Halt → Stack → Prop}
    (hqueue : (s.arp.entries e).packetQueue = packets) :
    wp (freeEntryPackets e packets) (fun _ t => (t.arp.entries e).packetQueue = []) E s := by
  induction packets generalizing s with
  | nil => exact hqueue
  | cons p rest ih =>
    simp only [freeEntryPackets, wp_bind, wp_modifyEntry, wp_freeNetworkPacket]
    apply ih
    simp

/-- A freshly allocated entry has an empty queue, if those in `free_entries` have. -/
theorem allocateEntry_empty
    (hfree : ∀ e ∈ s.arp.freeEntries, (s.arp.entries e).packetQueue = []) :
    wp allocateEntry (fun e t => (t.arp.entries e).packetQueue = []) (fun _ _ => True) s := by
  unfold allocateEntry
  simp only [wp_bind, wp_get]
  split
  · next e rest hcons =>
    have hempty := hfree e (by simp [hcons])
    simpa [takeEntry] using hempty
  · simp only [wp_bind, wp_get]
    split
    · trivial
    · next e rest _ =>
      simp only [freeEntry, wp_bind, wp_emit, wp_get, wp_modify]
      apply wp_next (freeEntryPackets_empty rfl)
      intro _ t hempty
      simpa [takeEntry] using hempty

/-- In every run in which no entry has been evicted, the table is what it is meant to be. -/
theorem table_intact {ok : Stack → Op → Prop}
    (h : Reaches Op.exec ok (booted application time entropy) s) (hkept : NoEviction s.trace) :
    TableIntact s := by
  obtain ⟨_, _, hs⟩ := reaches_intact False h fun w => w.elim
  have htable := hs.table hkept
  constructor
  · intro e
    apply List.count_eq_one_of_mem htable.nodup
    rcases hs.arp.listed e with hfree | hused
    · exact List.mem_append_left _ hfree
    · exact List.mem_append_right _ hused
  · exact htable.distinctIps
  · exact htable.freeEmpty
  · intro e t hallocate
    have hempty := wp_ok (allocateEntry_empty htable.freeEmpty) hallocate
    exact hempty

/-- The operations of address resolution: sends, ARP frames, the periodic task and the clock. -/
def Resolution (s : Stack) : Op → Prop
  | .sendToIp .. | .receiveDone .. | .transmitDone _ | .tick _ | .arpTask | .setOurMac _ |
    .setOurIp _ => True
  | .receive => ∀ frame, nextFrame s = some frame →
      readBe16 frame.data (frame.index + 12) = etherTypeArp
  | _ => False

/-- The same, computed. -/
def resolutionGuard (s : Stack) : Op → Bool
  | .sendToIp .. | .receiveDone .. | .transmitDone _ | .tick _ | .arpTask | .setOurMac _ |
    .setOurIp _ => true
  | .receive => (nextFrame s).all fun frame => readBe16 frame.data (frame.index + 12) = etherTypeArp
  | _ => false

theorem resolution_of_guard {op : Op} (h : resolutionGuard s op = true) : Resolution s op := by
  cases op with
  | receive =>
    intro frame hframe
    simpa [resolutionGuard, hframe] using h
  | sendToIp bytes ip => trivial
  | receiveDone slot status bytes => trivial
  | transmitDone slot => trivial
  | tick now => trivial
  | arpTask => trivial
  | setOurMac mac => trivial
  | setOurIp ip => trivial
  | _ => cases h

/-- One packet to each of the hosts 10.0.0.1, 10.0.0.2 and so on. -/
def sendToHosts (hosts : ℕ) : List Op :=
  (List.range hosts).map fun host => .sendToIp [] (0x0A000001 + UInt32.ofNat host)

theorem table_intact_eight_hosts :
    ∃ s, Reaches Op.exec Resolution (booted zeroApplication 0 fun _ => 0) s ∧
      s.arp.freeEntries = [] ∧ TableIntact s := by
  have hrun : runs Op.exec resolutionGuard
      (fun s => s.arp.freeEntries = [] ∧ NoEviction s.trace) (sendToHosts 8)
      (booted zeroApplication 0 fun _ => 0) = true := by
    decide +kernel
  obtain ⟨s, hreach, hcheck⟩ := reaches_of_runs Resolution .start
    (fun _ _ _ => resolution_of_guard) hrun
  obtain ⟨hfull, hkept⟩ := of_decide_eq_true hcheck
  exact ⟨s, hreach, hfull, table_intact hreach hkept⟩

/-- With the ninth destination the evicted entry is in both lists. -/
theorem table_broken :
    ∃ s, Reaches Op.exec Resolution (booted zeroApplication 0 fun _ => 0) s ∧
      7 ∈ s.arp.freeEntries ∧ 7 ∈ s.arp.usedEntries ∧ ¬ TableIntact s := by
  have hrun : runs Op.exec resolutionGuard
      (fun s => 7 ∈ s.arp.freeEntries ∧ 7 ∈ s.arp.usedEntries) (sendToHosts 9)
      (booted zeroApplication 0 fun _ => 0) = true := by
    decide +kernel
  obtain ⟨s, hreach, hcheck⟩ := reaches_of_runs Resolution .start
    (fun _ _ _ => resolution_of_guard) hrun
  obtain ⟨hfree, hused⟩ := of_decide_eq_true hcheck
  refine ⟨s, hreach, hfree, hused, fun hintact => ?_⟩
  have hone := hintact.once 7
  have hfree' := List.count_pos_iff.mpr hfree
  have hused' := List.count_pos_iff.mpr hused
  rw [List.count_append] at hone
  omega

/-- Whenever a packet that `arp_send` was given for an address is passed to `mac_send` as an IPv4
packet, a reply has supplied the MAC for that address. -/
def DeliversRight (trace : List Event) : Prop :=
  ∀ after packet mac before ip, trace = after ++ .macSend packet mac etherTypeIpv4 :: before →
    pending before packet = some ip → .arpMapped ip mac ∈ before

theorem delivered_iff {trace : List Event} : Delivered trace ↔ DeliversRight trace := by
  induction trace with
  | nil => simp [Delivered, DeliversRight]
  | cons event past ih =>
    have hpast : DeliversRight (event :: past) → DeliversRight past := by
      intro h after packet mac before ip htrace hpending
      exact h (event :: after) packet mac before ip (by rw [htrace, List.cons_append]) hpending
    have hrest : Delivered past → ∀ after packet mac before ip, after ≠ [] →
        event :: past = after ++ .macSend packet mac etherTypeIpv4 :: before →
        pending before packet = some ip → .arpMapped ip mac ∈ before := by
      intro h after packet mac before ip hne htrace hpending
      cases after with
      | nil => exact absurd rfl hne
      | cons first rest =>
        rw [List.cons_append, List.cons.injEq] at htrace
        exact ih.mp h rest packet mac before ip htrace.2 hpending
    constructor
    · intro h after packet mac before ip htrace hpending
      by_cases hnil : after = []
      · subst hnil
        rw [List.nil_append, List.cons.injEq] at htrace
        obtain ⟨rfl, rfl⟩ := htrace
        exact h.1 rfl ip hpending
      · have hold : Delivered past := by
          cases event with
          | macSend p mac' etherType => exact h.2
          | _ => exact h
        exact hrest hold after packet mac before ip hnil htrace hpending
    · intro h
      have hold := ih.mpr (hpast h)
      cases event with
      | macSend p mac etherType =>
        refine ⟨fun htype ip hpending => ?_, hold⟩
        subst htype
        exact h [] p mac past ip rfl hpending
      | _ => exact hold

/-- In every run, as long as no entry is evicted, no packet is sent to the MAC of another host,
also when the next call never returns. -/
theorem delivered_right {ok : Stack → Op → Prop}
    (h : Reaches Op.exec ok (booted application time entropy) s) :
    (NoEviction s.trace → DeliversRight s.trace) ∧
      ∀ (op : Op) (halt : Halt) (t : Stack), op.exec s = .error halt t → NoEviction t.trace →
        DeliversRight t.trace := by
  have hintact := reaches_intact False h fun w => w.elim
  constructor
  · intro hkept
    obtain ⟨_, _, hs⟩ := hintact
    exact delivered_iff.mp (hs.route hkept).delivered
  · intro op halt t hstopped hkept
    have htrace := wp_error (exec_intact hintact (fun w => w.elim) (fun _ => brings_any _)) hstopped
    exact delivered_iff.mp (htrace.2 hkept)

def supplies (ip : Ip) (mac : Mac) : Event → Bool
  | .arpMapped ip' mac' => ip' = ip ∧ mac' = mac
  | _ => false

theorem arpMapped_mem_iff {ip : Ip} {mac : Mac} {past : List Event} :
    .arpMapped ip mac ∈ past ↔ ∃ event ∈ past, supplies ip mac event = true := by
  constructor
  · intro hmem
    exact ⟨_, hmem, by simp [supplies]⟩
  · rintro ⟨event, hmem, hsupplies⟩
    cases event with
    | arpMapped ip' mac' =>
      obtain ⟨rfl, rfl⟩ : ip' = ip ∧ mac' = mac := by simpa [supplies] using hsupplies
      exact hmem
    | _ => cases hsupplies

instance (ip : Ip) (mac : Mac) (past : List Event) : Decidable (.arpMapped ip mac ∈ past) :=
  decidable_of_iff _ arpMapped_mem_iff.symm

instance decidableDelivered : DecidablePred Delivered
  | [] => .isTrue trivial
  | .macSend packet mac etherType :: past =>
    let _ := decidableDelivered past
    decidable_of_iff ((etherType = etherTypeIpv4 →
        (pending past packet).all (fun ip => .arpMapped ip mac ∈ past) = true) ∧ Delivered past) (by
      cases h : pending past packet <;> simp [Delivered, h])
  | .window .. :: past | .freed _ :: past | .gmacSend .. :: past | .arpSend .. :: past |
    .arpEvicted _ :: past | .arpMapped .. :: past | .udpSend .. :: past | .udpQueued .. :: past |
    .udpTaken .. :: past | .dhcpSent _ :: past | .dhcpState _ :: past | .dhcpOffer :: past |
    .dhcpAck :: past => decidableDelivered past

/-- An ARP reply from the host with the given last byte, in its IP and in its MAC, to 10.0.0.99. -/
def arpReply (host : UInt8) : List UInt8 :=
  [2, 0, 0, 0, 0, 99, 2, 0, 0, 0, 0, host, 0x08, 0x06,
    0, 1, 0x08, 0x00, 6, 4, 0, 2, 2, 0, 0, 0, 0, host, 10, 0, 0, host,
    2, 0, 0, 0, 0, 99, 10, 0, 0, 99]

/-- Packets to the first hosts, and then the reply of one of them. -/
def replyAfter (hosts : ℕ) (host : UInt8) : List Op :=
  .setOurIp 0x0A000063 :: sendToHosts hosts ++ [.deliver 0 60 (arpReply host), .receive]

def isIpv4Send : Event → Bool
  | .macSend _ _ etherType => etherType = etherTypeIpv4
  | _ => false

/-- A packet that waited for the only host is sent when the host answers. -/
theorem delivered_right_one_host :
    ∃ s, Reaches Op.exec Resolution (booted zeroApplication 0 fun _ => 0) s ∧
      (∃ event ∈ s.trace, isIpv4Send event) ∧ DeliversRight s.trace := by
  have hrun : runs Op.exec resolutionGuard
      (fun s => (∃ event ∈ s.trace, isIpv4Send event) ∧ NoEviction s.trace) (replyAfter 1 1)
      (booted zeroApplication 0 fun _ => 0) = true := by
    decide +kernel
  obtain ⟨s, hreach, hcheck⟩ := reaches_of_runs Resolution .start
    (fun _ _ _ => resolution_of_guard) hrun
  obtain ⟨hsent, hkept⟩ := of_decide_eq_true hcheck
  exact ⟨s, hreach, hsent, (delivered_right hreach).1 hkept⟩

/-- The reply of the tenth host makes the packet for the ninth go to the tenth. -/
theorem delivered_wrong :
    ∃ s, Reaches Op.exec Resolution (booted zeroApplication 0 fun _ => 0) s ∧
      ¬ DeliversRight s.trace := by
  have hrun : runs Op.exec resolutionGuard (fun s => ¬ Delivered s.trace) (replyAfter 10 10)
      (booted zeroApplication 0 fun _ => 0) = true := by
    decide +kernel
  obtain ⟨s, hreach, hcheck⟩ := reaches_of_runs Resolution .start
    (fun _ _ _ => resolution_of_guard) hrun
  refine ⟨s, hreach, fun hright => ?_⟩
  exact of_decide_eq_true hcheck (delivered_iff.mpr hright)

end MiniIp.Guarantees.AddressResolution
