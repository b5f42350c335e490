import MiniIp.Invariant.Poll
import MiniIp.Library.StopAndWait

/-!
# The server of a download

A server serves one file from one address and port, in blocks of 512 bytes. It
answers the request with an OACK and sends DATA and ERROR messages. `number` is
what stands in a message where DATA has the block number.
-/

set_option autoImplicit false

namespace MiniIp.Invariant

open MiniIp.Source MiniIp.Library.StopAndWait

/-- A server of TFTP with one file, that sends from one port. -/
structure Server where
  ip : Ip
  port : Port
  file : List UInt8

/-- What it sends: the answer to the options, or a block. -/
inductive Message where
  | oack
  | data (i : ℕ)
  | error (code : UInt16) (text : List UInt8)
  deriving DecidableEq

def tftpOpcodeData : UInt16 := 3

/-- The answer to a request for blocks of 512 bytes. -/
def oackOptions : List UInt8 :=
  stringFollowedByZero blksizeString ++ stringFollowedByZero blockSizeString

/-- The bytes of a message. -/
def Server.bytes (server : Server) : Message → List UInt8
  | .oack => be16Bytes tftpOpcodeOack ++ oackOptions
  | .data i => be16Bytes tftpOpcodeData ++ (be16Bytes (UInt16.ofNat i) ++ block 512 server.file i)
  | .error code text => be16Bytes tftpOpcodeError ++ (be16Bytes code ++ text)

/-- DATA has one of the numbers of the file's blocks. -/
def Server.Offers (server : Server) : Message → Prop
  | .data i => 1 ≤ i ∧ i ≤ lastBlock 512 server.file
  | .oack | .error .. => True

instance (server : Server) : DecidablePred server.Offers
  | .data _ => inferInstanceAs (Decidable (_ ∧ _))
  | .oack | .error .. => inferInstanceAs (Decidable True)

/-- The datagram is this message of the server. -/
structure Server.Sent (server : Server) (m : Message) (content : NetworkPacket) : Prop where
  sender : content.sendersIp = server.ip
  port : content.sourcePort = server.port
  payload : content.payload = server.bytes m
  offered : server.Offers m

/-- The bytes of "bl" in "blksize". -/
def oackNumber : UInt16 := 25196

def Message.opcode : Message → UInt16
  | .oack => tftpOpcodeOack
  | .data _ => tftpOpcodeData
  | .error .. => tftpOpcodeError

def Message.number : Message → UInt16
  | .oack => oackNumber
  | .data i => UInt16.ofNat i
  | .error code _ => code

variable {server : Server} {m : Message} {content : NetworkPacket}

theorem Server.bytes_eq (server : Server) (m : Message) :
    ∃ rest, server.bytes m = be16Bytes m.opcode ++ (be16Bytes m.number ++ rest) := by
  cases m with
  | oack => exact ⟨_, (rfl : _ = be16Bytes tftpOpcodeOack ++ (be16Bytes oackNumber ++
      [107, 115, 105, 122, 101, 0, 53, 49, 50, 0]))⟩
  | data i => exact ⟨_, rfl⟩
  | error code text => exact ⟨_, rfl⟩

namespace Server.Sent

theorem opcode (h : server.Sent m content) : readBe16 content.data content.index = m.opcode := by
  obtain ⟨rest, hbytes⟩ := server.bytes_eq m
  have hpayload := h.payload
  rw [hbytes] at hpayload
  exact readBe16_eq hpayload

theorem number (h : server.Sent m content) :
    readBe16 content.data (content.index + 2) = m.number := by
  obtain ⟨rest, hbytes⟩ := server.bytes_eq m
  have hpayload := congrArg (List.drop 2) h.payload
  rw [hbytes, NetworkPacket.payload, drop_readBytes] at hpayload
  exact readBe16_eq (hpayload : _ = be16Bytes m.number ++ rest)

theorem length (h : server.Sent m content) : content.length = (server.bytes m).length := by
  obtain ⟨rest, hbytes⟩ := server.bytes_eq m
  have hlength := congrArg List.length h.payload
  rw [NetworkPacket.payload, readBytes_length] at hlength
  have hpositive : 0 < (server.bytes m).length := by
    rw [hbytes]
    simp [be16Bytes]
  omega

/-- What `try_read_data` copies of a message it takes for DATA. -/
theorem data (h : server.Sent m content) :
    readBytes content.data (content.index + tftpDataHeaderSize)
      (content.length - tftpDataHeaderSize).toNat = (server.bytes m).drop 4 := by
  rw [← h.payload, NetworkPacket.payload, drop_readBytes]
  congr 1
  rw [tftpDataHeaderSize]
  omega

end Server.Sent

end MiniIp.Invariant
