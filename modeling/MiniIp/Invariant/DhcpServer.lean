import MiniIp.Invariant.OptionGrammar
import MiniIp.Invariant.SoundUdp
import MiniIp.Library.Runs

/-!
# The replies of a DHCP server

The bytes of an OFFER, an ACK or a NAK, as a server sends them to the client.
-/

set_option autoImplicit false

namespace MiniIp.Invariant

open MiniIp.Source MiniIp.Library.Runs MiniIp.Library.TagLength

def subnetMaskOption (netmask : Ip) : List UInt8 :=
  dhcpOptionSubnetMask :: 4 :: be32Bytes netmask

def leaseTimeOption (seconds : UInt32) : List UInt8 :=
  dhcpOptionLeaseTime :: 4 :: be32Bytes seconds

/-- A reply to the client with MAC 00:00:00:00:00:00. -/
def dhcpReply (transactionId : UInt32) (yourIp : Ip) (options : List UInt8) : List UInt8 :=
  [dhcpOpcodeReply, 1, 6, 0] ++ be32Bytes transactionId ++ List.replicate 8 0 ++ be32Bytes yourIp ++
    List.replicate 216 0 ++ be32Bytes magicCookie ++ options ++ [dhcpOptionEnd]

/-- The options of a reply of the server at 10.0.0.2, with a lease of 100 seconds. -/
def replyOptions (messageType : UInt8) : List UInt8 :=
  messageTypeOption messageType ++ serverIdentifierOption 0x0A000002 ++ leaseTimeOption 100

/-- The server at 10.0.0.2 leases 10.0.0.1 in 10.0.0.0/24. -/
def serverReply (messageType : UInt8) : List UInt8 :=
  dhcpReply 0 0x0A000001 (replyOptions messageType ++ subnetMaskOption 0xFFFFFF00)

theorem area_messageType {area : List UInt8} {items : List Item} (type : UInt8) (h : Area optionFormat area items) :
    Area optionFormat (messageTypeOption type ++ area) ((dhcpOptionMessageType, [type]) :: items) :=
  .item (by decide) (by decide) rfl (by simp [optionFormat]; decide) h

/-- The options of four bytes. -/
theorem area_be32 {area : List UInt8} {items : List Item} {type : UInt8} (value : UInt32)
    (htype : type = dhcpOptionSubnetMask ∨ type = dhcpOptionLeaseTime ∨ type = dhcpOptionServerIdentifier)
    (h : Area optionFormat area items) :
    Area optionFormat ((type :: 4 :: be32Bytes value) ++ area) ((type, be32Bytes value) :: items) := by
  have hlength : (be32Bytes value).length = (4 : UInt8).toNat := rfl
  rcases htype with rfl | rfl | rfl
  all_goals exact .item (by decide) (by decide) hlength (by simp [optionFormat, hlength]; decide) h

theorem area_subnetMask {area : List UInt8} {items : List Item} (netmask : Ip) (h : Area optionFormat area items) :
    Area optionFormat (subnetMaskOption netmask ++ area) ((dhcpOptionSubnetMask, be32Bytes netmask) :: items) :=
  area_be32 netmask (by decide) h

theorem area_leaseTime {area : List UInt8} {items : List Item} (seconds : UInt32) (h : Area optionFormat area items) :
    Area optionFormat (leaseTimeOption seconds ++ area) ((dhcpOptionLeaseTime, be32Bytes seconds) :: items) :=
  area_be32 seconds (by decide) h

theorem area_serverIdentifier {area : List UInt8} {items : List Item} (ip : Ip) (h : Area optionFormat area items) :
    Area optionFormat (serverIdentifierOption ip ++ area) ((dhcpOptionServerIdentifier, be32Bytes ip) :: items) :=
  area_be32 ip (by decide) h

/-- The options of a reply of the server at 10.0.0.2. -/
theorem area_reply {area : List UInt8} {items : List Item} (type : UInt8) (h : Area optionFormat area items) :
    Area optionFormat (replyOptions type ++ subnetMaskOption 0xFFFFFF00 ++ area)
      ([(dhcpOptionMessageType, [type]), (dhcpOptionServerIdentifier, be32Bytes 0x0A000002),
        (dhcpOptionLeaseTime, be32Bytes 100), (dhcpOptionSubnetMask, be32Bytes 0xFFFFFF00)] ++ items) := by
  simp only [replyOptions, List.append_assoc]
  exact area_messageType type (area_serverIdentifier _ (area_leaseTime _ (area_subnetMask _ h)))

/-- A reply arrives in a slot of the receive ring and in the client's queue, and is read. -/
def answered (slot : Fin 32) (reply : List UInt8) : List Op :=
  [.deliverUdp slot dhcpServerPort dhcpClientPort reply, .receive, .dhcpTask]

/-- The client gets a lease. -/
def getsLease : List Op :=
  .dhcpStart :: answered 0 (serverReply dhcpMessageTypeOffer) ++
    answered 1 (serverReply dhcpMessageTypeAck)

/-- The client has been started, and a reply waits to be read. -/
def receivesReply (options : List UInt8) : List Op :=
  [.dhcpStart, .deliverUdp 0 dhcpServerPort dhcpClientPort (dhcpReply 0 0x0A000001 options), .receive]

/-- The client has made a request, and the answer waits to be read. -/
def receivesAnswer (options : List UInt8) : List Op :=
  .dhcpStart :: answered 0 (serverReply dhcpMessageTypeOffer) ++
    [.deliverUdp 1 dhcpServerPort dhcpClientPort (dhcpReply 0 0x0A000001 options), .receive]

/-- The reply waits, for this client, and `check` holds of it. -/
def waitsFor (check : Stack → NetworkPacket → Bool) (s : Stack) : Bool :=
  (headDatagram s dhcpClientPort).any fun p => decide (240 ≤ p.length) &&
    (verifyDhcpHeader s.dhcp.transactionId s.ourMac p.data p.index && check s p)

theorem waiting_of_runs {check : Stack → NetworkPacket → Bool} {ops : List Op}
    (hrun : runs Op.exec (fun _ _ => true) (waitsFor check) ops (booted zeroApplication 0 fun _ => 0) = true) :
    ∃ s p, Reaches Op.exec (fun _ _ => True) (booted zeroApplication 0 fun _ => 0) s ∧
      headDatagram s dhcpClientPort = some p ∧ 240 ≤ p.length ∧
      verifyDhcpHeader s.dhcp.transactionId s.ourMac p.data p.index = true ∧ check s p = true := by
  obtain ⟨s, hreach, hwaits⟩ := reaches_of_runs (fun _ _ => True) .start (fun _ _ _ _ => trivial) hrun
  unfold waitsFor at hwaits
  rw [Option.any_eq_true] at hwaits
  obtain ⟨p, hhead, hchecks⟩ := hwaits
  simp only [Bool.and_eq_true, decide_eq_true_eq] at hchecks
  obtain ⟨hlong, hverified, hcheck⟩ := hchecks
  exact ⟨s, p, hreach, hhead, hlong, hverified, hcheck⟩

end MiniIp.Invariant
