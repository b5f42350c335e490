import MiniIp.Guarantees.EchoReply
import MiniIp.Guarantees.UdpChecksum
import MiniIp.Invariant.ArpFrame
import MiniIp.Invariant.SentDatagrams

/-!
# What goes out on the wire

`WireFrame addresses owner trace frame` says byte for byte what a frame of this stack is: a packet of ARP, or a packet of
IPv4 with one of the datagrams that have been sent or an echo reply in it. Every length field is the number of bytes
that follow, every checksum is right, and the sender's address is one of `addresses`. A packet of IPv4 goes to all hosts,
or to the `owner` of its target address.

Source: the headers that arp.c:133-157, icmp.c:59-62, ip.c:116-135, udp.c:75-85 and mac.c:68-79 write.
-/

set_option autoImplicit false

namespace MiniIp.Invariant

open MiniIp.Source MiniIp.Guarantees MiniIp.Library.OnesComplement

/-- A packet of IPv4, unfragmented and without options. -/
def IpPacket (protocol : UInt8) (ourIp ip : Ip) (body packet : List UInt8) : Prop :=
  ∃ length checksum : UInt16, length.toNat = 20 + body.length ∧
    onesSum (ipHeaderBytes length checksum protocol ourIp ip) = 0xFFFF ∧
    packet = ipHeaderBytes length checksum protocol ourIp ip ++ body

/-- A datagram with its header. Its checksum covers the addresses and the length too. -/
def UdpBody (d : Datagram) (ourIp : Ip) (body : List UInt8) : Prop :=
  ∃ length checksum : UInt16, length.toNat = 8 + d.payload.length ∧
    onesSum (UdpChecksum.pseudoHeader ourIp d.ip length ++ body) = 0xFFFF ∧
    body = udpHeaderBytes d.sourcePort d.destPort length checksum ++ d.payload

/-- An echo reply. What it answers is not told: the state does not keep the requests. -/
def EchoBody (body : List UInt8) : Prop :=
  ∃ (checksum : UInt16) (rest : List UInt8), 4 ≤ rest.length ∧ onesSum body = 0xFFFF ∧
    body = [icmpTypePingReply, 0] ++ be16Bytes checksum ++ rest

/-- What is behind the MAC header of a frame of IPv4 to this target. -/
inductive IpContent (addresses : Ip → Prop) (datagrams : List Datagram) : Ip → List UInt8 → Prop
  | datagram {d : Datagram} {ourIp : Ip} {body packet : List UInt8} (sent : d ∈ datagrams) (own : addresses ourIp)
      (udp : UdpBody d ourIp body) (packed : IpPacket ipProtocolUdp ourIp d.ip body packet) :
      IpContent addresses datagrams d.ip packet
  | echo {ourIp ip : Ip} {body packet : List UInt8} (own : addresses ourIp) (icmp : EchoBody body)
      (packed : IpPacket ipProtocolIcmp ourIp ip body packet) : IpContent addresses datagrams ip packet

/-- To all hosts, or to the owner of the address. An evicted entry may be in use for two addresses, and then its packets
may go to the wrong one. -/
def Towards (owner : Ip → Mac → Prop) (trace : List Event) (mac : Mac) (ip : Ip) : Prop :=
  mac = broadcastMac ∨ (NoEviction trace → owner ip mac)

def macHeaderBytes (mac ourMac : Mac) (etherType : UInt16) : List UInt8 :=
  macBytes mac ++ macBytes ourMac ++ be16Bytes etherType

/-- A request of ARP names any target MAC: the receiver does not look at it, and the sender does not set it. -/
inductive WireFrame (addresses : Ip → Prop) (owner : Ip → Mac → Prop) (trace : List Event) : List UInt8 → Prop
  | ip {packet : List UInt8} {mac : Mac} {ip : Ip} (ourMac : Mac) (content : IpContent addresses (sentDatagrams trace) ip packet)
      (towards : Towards owner trace mac ip) : WireFrame addresses owner trace (macHeaderBytes mac ourMac etherTypeIpv4 ++ packet)
  | arpRequest {ourIp : Ip} (mac ourMac : Mac) (targetIp : Ip) (own : addresses ourIp) : WireFrame addresses owner trace
      (macHeaderBytes broadcastMac ourMac etherTypeArp ++ arpBytes arpOperationRequest ourMac ourIp mac targetIp)
  | arpReply {ourIp : Ip} (mac ourMac : Mac) (targetIp : Ip) (own : addresses ourIp) : WireFrame addresses owner trace
      (macHeaderBytes mac ourMac etherTypeArp ++ arpBytes arpOperationReply ourMac ourIp mac targetIp)

/-- The packet may be sent to its target as it is. -/
structure Sendable (addresses : Ip → Prop) (datagrams : List Datagram) (ip : Ip) (k : NetworkPacket) : Prop where
  length : 0 ≤ k.length
  content : IpContent addresses datagrams ip k.payload

variable {addresses : Ip → Prop} {owner : Ip → Mac → Prop}
  {trace trace' : List Event} {datagrams datagrams' : List Datagram} {k : NetworkPacket}
  {packet frame : List UInt8} {mac : Mac} {ip : Ip}

theorem IpContent.later (h : IpContent addresses datagrams ip packet) (hsub : datagrams ⊆ datagrams') :
    IpContent addresses datagrams' ip packet := by
  cases h with
  | datagram sent own udp packed => exact .datagram (hsub sent) own udp packed
  | echo own icmp packed => exact .echo own icmp packed

theorem Sendable.later (h : Sendable addresses datagrams ip k) (hsub : datagrams ⊆ datagrams') :
    Sendable addresses datagrams' ip k := ⟨h.length, h.content.later hsub⟩

theorem sentDatagrams_later (hpast : trace <:+ trace') : sentDatagrams trace ⊆ sentDatagrams trace' :=
  (hpast.filterMap Event.datagram).subset

theorem Towards.later (h : Towards owner trace mac ip) (hpast : trace <:+ trace') : Towards owner trace' mac ip := by
  rcases h with hall | howner
  · exact .inl hall
  · exact .inr fun hno => howner fun e hmem => hno e (hpast.subset hmem)

theorem WireFrame.later (h : WireFrame addresses owner trace frame) (hpast : trace <:+ trace') :
    WireFrame addresses owner trace' frame := by
  cases h with
  | ip ourMac content towards => exact .ip ourMac (content.later (sentDatagrams_later hpast)) (towards.later hpast)
  | arpRequest mac ourMac targetIp own => exact .arpRequest mac ourMac targetIp own
  | arpReply mac ourMac targetIp own => exact .arpReply mac ourMac targetIp own

theorem Sendable.framed (h : Sendable addresses (sentDatagrams trace) ip k) (hmac : Towards owner trace mac ip) (ourMac : Mac) :
    WireFrame addresses owner trace (macFramed mac ourMac etherTypeIpv4 k).payload := by
  rw [macFramed_frame mac ourMac etherTypeIpv4 h.length]
  exact .ip ourMac h.content hmac

theorem ipFramed_packet (protocol : UInt8) (ourIp ip : Ip) (h : 0 ≤ k.length) (hshort : k.length ≤ 1024) :
    IpPacket protocol ourIp ip k.payload (ipFramed protocol ourIp ip k).payload := by
  obtain ⟨checksum, hbytes⟩ := readBytes_ipHeader k.data (k.index - ipHeaderSize)
    (UInt16.ofInt (k.length + ipHeaderSize)) protocol ourIp ip
  have hsum := onesSum_ipHeader k.data (k.index - ipHeaderSize) (UInt16.ofInt (k.length + ipHeaderSize)) protocol ourIp ip
  have hlong : 20 ≤ (k.length + ipHeaderSize).toNat := by
    rw [ipHeaderSize]
    omega
  have hheader : (ipFramed protocol ourIp ip k).payload.take 20 =
      ipHeaderBytes (UInt16.ofInt (k.length + ipHeaderSize)) checksum protocol ourIp ip := by
    rw [← hbytes]
    exact take_readBytes _ _ hlong
  refine ⟨UInt16.ofInt (k.length + ipHeaderSize), checksum, ?_, ?_, ?_⟩
  · rw [ofInt_toNat, payload_length, ipHeaderSize]
    omega
  · rw [← hbytes]
    exact hsum
  · rw [← hheader, ← ipFramed_payload protocol ourIp ip h, List.take_append_drop]

theorem udpFramed_body (sourcePort destPort : Port) (ourIp ip : Ip) (h : 0 ≤ k.length) (hshort : k.length ≤ 880) :
    UdpBody ⟨sourcePort, destPort, ip, k.payload⟩ ourIp (udpFramed sourcePort destPort ourIp ip k).payload := by
  have hlength : 0 ≤ k.length ∧ k.length + 8 < 65536 := by omega
  have hchecksum : (computeUdpChecksum (udpPushed sourcePort destPort k) ourIp ip).toNat = _ :=
    UdpChecksum.computeUdpChecksum_toNat hlength
  have hdatagram : (udpFramed sourcePort destPort ourIp ip k).payload = _ := UdpChecksum.udpFramed_datagram h
  refine ⟨UInt16.ofNat (8 + k.payload.length), computeUdpChecksum (udpPushed sourcePort destPort k) ourIp ip, ?_, ?_, hdatagram⟩
  · rw [UInt16.toNat_ofNat', payload_length]
    omega
  · rw [hdatagram]
    exact UdpChecksum.onesSum_datagram hchecksum

/-- A datagram on its way down. -/
theorem udpIpFramed_sendable {sourcePort destPort : Port} {ourIp ip : Ip} (h : 0 ≤ k.length) (hshort : k.length ≤ 880)
    (hsent : ⟨sourcePort, destPort, ip, k.payload⟩ ∈ datagrams) (hown : addresses ourIp) :
    Sendable addresses datagrams ip (udpIpFramed sourcePort destPort ourIp ip k) := by
  have hlength : (udpFramed sourcePort destPort ourIp ip k).length = k.length + 8 := rfl
  constructor
  · show 0 ≤ k.length + 8 + 20
    omega
  · have hpacket : IpPacket ipProtocolUdp ourIp ip (udpFramed sourcePort destPort ourIp ip k).payload
        (udpIpFramed sourcePort destPort ourIp ip k).payload := by
      apply ipFramed_packet
      · omega
      · omega
    exact .datagram hsent hown (udpFramed_body sourcePort destPort ourIp ip h hshort) hpacket

/-- An answer to a ping on its way down. -/
theorem pingAnswered_sendable {ourIp ip : Ip} (h : 8 ≤ k.length) (hshort : k.length ≤ 1024) (hown : addresses ourIp) :
    Sendable addresses datagrams ip (ipFramed ipProtocolIcmp ourIp ip (pingAnswered k)) := by
  have hsize : ((k.length.toNat : ℕ) : Int) = k.length := by omega
  have hanswer : (pingAnswered k).payload =
      readBytes (writePingReply k.length.toNat k.index k.data) k.index k.length.toNat := by
    rw [hsize]
    rfl
  have hlong : 8 ≤ k.length.toNat := by omega
  have hreply : ∃ checksum : UInt16, readBytes (writePingReply k.length.toNat k.index k.data) k.index k.length.toNat = _ :=
    EchoReply.readBytes_pingReply hlong
  obtain ⟨checksum, hbytes⟩ := hreply
  have hpacket : IpPacket ipProtocolIcmp ourIp ip (pingAnswered k).payload
      (ipFramed ipProtocolIcmp ourIp ip (pingAnswered k)).payload := by
    apply ipFramed_packet
    · show 0 ≤ k.length
      omega
    · exact hshort
  constructor
  · show 0 ≤ k.length + 20
    omega
  · refine .echo hown ⟨checksum, (readBytes k.data k.index k.length.toNat).drop 4, ?_, ?_, ?_⟩ hpacket
    · rw [List.length_drop, readBytes_length]
      omega
    · rw [hanswer]
      apply EchoReply.onesSum_pingReply
      · omega
      · omega
    · rw [hanswer, hbytes]

/-- The two packets of ARP. -/
theorem arpFrame_wire (s : Stack) (targetMac : Mac) (targetIp : Ip) (old : NetworkPacket) (hown : addresses s.ourIp) :
    WireFrame addresses owner trace (arpFrame s targetMac targetIp .request old) ∧
      WireFrame addresses owner trace (arpFrame s targetMac targetIp .reply old) := by
  constructor
  · rw [arpFrame_request]
    exact .arpRequest (residueOf s) s.ourMac targetIp hown
  · rw [arpFrame_reply]
    exact .arpReply targetMac s.ourMac targetIp hown

end MiniIp.Invariant
