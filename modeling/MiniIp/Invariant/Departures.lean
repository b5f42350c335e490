import MiniIp.Invariant.ArpRequests
import MiniIp.Invariant.WireFormat
import MiniIp.Library.Lanes

/-!
# How a datagram leaves

A datagram to an address leaves as a packet of IPv4, to all hosts or to one. `departures ip trace` reads the datagrams to
`ip` off the frames that have been sent, `datagramsTo ip trace` off the calls of `udp_send_zero_copy`.
-/

set_option autoImplicit false

namespace MiniIp.Invariant

open MiniIp.Source MiniIp.Library.Lanes

/-- A packet of IPv4, in a frame to all hosts or to one. -/
structure Departure where
  toAll : Bool
  packet : List UInt8
  deriving DecidableEq

/-- The packet, if it has a datagram to `ip` in it. -/
def departure (ip : Ip) (toAll : Bool) (packet : List UInt8) : Option Departure :=
  if (packet.drop 9).take 1 = [ipProtocolUdp] ∧ (packet.drop 16).take 4 = be32Bytes ip then some ⟨toAll, packet⟩ else none

/-- A datagram that a frame carries to the address, and whether the frame goes to all hosts. -/
def frameDeparture (ip : Ip) (frame : List UInt8) : Option Departure :=
  if (frame.drop 12).take 2 = be16Bytes etherTypeIpv4 then
    departure ip (frame.take 6 = macBytes broadcastMac) (frame.drop 14)
  else none

/-- The datagrams that have left for the address, the latest first. -/
def departures (ip : Ip) (trace : List Event) : List Departure := (sentFrames trace).filterMap (frameDeparture ip)

/-- The datagrams that have been sent to it, the latest first. -/
def datagramsTo (ip : Ip) (trace : List Event) : List Datagram := (sentDatagrams trace).filter (·.ip = ip)

/-- The packet has the datagram in it, with headers whose lengths and checksums are right. -/
def Carries (out : Departure) (d : Datagram) : Prop :=
  ∃ ourIp body, UdpBody d ourIp body ∧ IpPacket ipProtocolUdp ourIp d.ip body out.packet

/-- What goes out comes from what was given, in order: to all hosts at once, to one host when its MAC is known. -/
abbrev Ordered (out : List Departure) (given : List Datagram) : Prop := InLanes Carries Departure.toAll out given

variable {ip ip' ourIp : Ip} {protocol : UInt8} {body packet : List UInt8} {toAll : Bool} {mac ourMac : Mac}
  {k : NetworkPacket} {trace trace' : List Event}

theorem IpPacket.fields (h : IpPacket protocol ourIp ip' body packet) :
    (packet.drop 9).take 1 = [protocol] ∧ (packet.drop 16).take 4 = be32Bytes ip' := by
  obtain ⟨length, checksum, _, _, rfl⟩ := h
  exact ⟨rfl, rfl⟩

/-- A datagram for the address is seen in the packet that carries it. -/
theorem IpPacket.departs (h : IpPacket ipProtocolUdp ourIp ip body packet) :
    departure ip toAll packet = some ⟨toAll, packet⟩ := by
  rw [departure, if_pos h.fields]

theorem IpPacket.elsewhere (h : IpPacket protocol ourIp ip' body packet) (hne : ip' ≠ ip) :
    departure ip toAll packet = none := by
  rw [departure, if_neg]
  rintro ⟨_, htarget⟩
  rw [h.fields.2] at htarget
  exact hne (be32Bytes_injective htarget)

theorem IpPacket.other (h : IpPacket protocol ourIp ip' body packet) (hne : protocol ≠ ipProtocolUdp) :
    departure ip toAll packet = none := by
  rw [departure, if_neg]
  rintro ⟨hprotocol, _⟩
  rw [h.fields.1] at hprotocol
  exact hne (List.singleton_injective hprotocol)

theorem departure_toAll {out : Departure} (h : departure ip toAll packet = some out) : out.toAll = toAll := by
  unfold departure at h
  split at h
  · cases h
    rfl
  · cases h

theorem frameDeparture_ipv4 (ip : Ip) (mac ourMac : Mac) (h : 0 ≤ k.length) :
    frameDeparture ip (macFramed mac ourMac etherTypeIpv4 k).payload = departure ip (mac = broadcastMac) k.payload := by
  obtain ⟨hmac, htype, hpacket⟩ := frame_parts k.payload (macBytes_length mac) (macBytes_length ourMac)
    (be16Bytes_length etherTypeIpv4)
  have hsame : macBytes mac = macBytes broadcastMac ↔ mac = broadcastMac := ⟨macBytes_injective, congrArg macBytes⟩
  rw [frameDeparture, macFramed_frame _ _ _ h, if_pos htype, hmac, hpacket]
  simp only [hsame]

theorem frameDeparture_arp (ip : Ip) (mac ourMac : Mac) (h : 0 ≤ k.length) :
    frameDeparture ip (macFramed mac ourMac etherTypeArp k).payload = none := by
  obtain ⟨_, htype, _⟩ := frame_parts k.payload (macBytes_length mac) (macBytes_length ourMac) (be16Bytes_length etherTypeArp)
  have hother : be16Bytes etherTypeArp ≠ be16Bytes etherTypeIpv4 := by decide
  rw [frameDeparture, macFramed_frame _ _ _ h, htype, if_neg hother]

/-- A frame more has been sent. -/
theorem departures_cons {frame : List UInt8} (h : sentFrames trace' = frame :: sentFrames trace) :
    departures ip trace' = (frameDeparture ip frame).toList ++ departures ip trace := by
  rw [departures, departures, h, List.filterMap_cons]
  cases frameDeparture ip frame with
  | none => rfl
  | some out => rfl

/-- The packet is for `target`. Either it has the newest datagram to `ip` in it, or no datagram to `ip`. -/
inductive Joins (ip target : Ip) (packet : List UInt8) (given : List Datagram) : List Datagram → Prop
  | counted (d : Datagram) (here : target = ip) (departs : ∀ toAll, departure ip toAll packet = some ⟨toAll, packet⟩)
      (carries : ∀ toAll, Carries ⟨toAll, packet⟩ d) : Joins ip target packet given (d :: given)
  | other (none : ∀ toAll, departure ip toAll packet = none) : Joins ip target packet given given

namespace Joins

variable {target : Ip} {given given' : List Datagram} {waiting out : List Departure}

theorem later (h : Joins ip target packet given given') : given <:+ given' := by
  cases h with
  | counted d _ _ _ => exact List.suffix_cons d given
  | other _ => exact List.suffix_rfl

theorem elsewhere (h : Joins ip target packet given given') (hne : target ≠ ip) : departure ip toAll packet = none := by
  cases h with
  | counted _ here _ _ => exact absurd here hne
  | other none => exact none toAll

/-- It goes out past what waits, or nothing waits. -/
theorem pass (h : Joins ip target packet given given') (hordered : Ordered (waiting ++ out) given)
    (hslow : ∀ x ∈ waiting, x.toAll = false) (hlane : target = ip → toAll = true ∨ waiting = []) :
    Ordered (waiting ++ ((departure ip toAll packet).toList ++ out)) given' := by
  cases h with
  | counted d here departs carries =>
    rw [departs toAll]
    exact InLanes.pass hordered (carries toAll) hslow (hlane here)
  | other none =>
    rw [none toAll]
    exact hordered

theorem push (h : Joins ip target packet given given') (hordered : Ordered out given) :
    Ordered ((departure ip toAll packet).toList ++ out) given' := by
  have hpass : Ordered ([] ++ ((departure ip toAll packet).toList ++ out)) given' :=
    h.pass hordered (by simp) fun _ => .inr rfl
  exact hpass

end Joins

theorem datagramsTo_later (ip : Ip) (hpast : trace <:+ trace') : datagramsTo ip trace <:+ datagramsTo ip trace' :=
  (hpast.filterMap Event.datagram).filter _

end MiniIp.Invariant
