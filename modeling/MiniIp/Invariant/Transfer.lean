import MiniIp.Invariant.FileServer

/-!
# A poll is a step of the receiver

`polled_message` says what a poll makes of a message of the server: it takes the
next block or takes nothing. It holds of DATA as it is, and of the other
messages as long as their second word is not the number of the next block.
-/

set_option autoImplicit false

namespace MiniIp.Invariant

open MiniIp.Source MiniIp.Library.StopAndWait

/-- What the application has of the file. -/
def receiver (a : Application) : Receiver UInt8 := ⟨a.connection.blockNumber.toNat, a.received⟩

/-- The code would take the datagram for the next block although it is not DATA. -/
def MisreadAsData (connection : TftpConnection) (content : NetworkPacket) : Prop :=
  readBe16 content.data content.index ≠ tftpOpcodeData ∧
    (readBe16 content.data (content.index + 2)).toNat = connection.blockNumber.toNat + 1

/-- The poll takes nothing. -/
structure TakesNothing (connection : TftpConnection) (out : TftpResult × TftpConnection) : Prop where
  bytes : out.1.bytes = []
  connection : out.2 = connection

/-- The poll takes block `i`. -/
structure TakesBlock (server : Server) (connection : TftpConnection) (i : ℕ)
    (out : TftpResult × TftpConnection) : Prop where
  next : i = connection.blockNumber.toNat + 1
  bytes : out.1.bytes = block 512 server.file i
  connection : out.2 = { connection with
    blockNumber := UInt16.ofNat i
    state := if 0 < (block 512 server.file i).length ∧ (block 512 server.file i).length < 512 then .done
      else connection.state }

variable {server : Server} {m : Message} {content : NetworkPacket} {connection : TftpConnection}
  {size : Int}

theorem toNat_ofNat_block {i : ℕ} (hi : i ≤ lastBlock 512 server.file)
    (hfile : lastBlock 512 server.file ≤ 65535) : (UInt16.ofNat i).toNat = i := by
  rw [UInt16.toNat_ofNat']
  exact Nat.mod_eq_of_lt (by omega)

/-- A datagram that is not the next block is left alone. -/
theorem polled_left (h : ¬ TakenAsNext connection content) :
    TakesNothing connection (polled connection size (some content)) := by
  rw [polled, readData_left h]
  exact ⟨rfl, rfl⟩

theorem polled_other (h : (readBe16 content.data (content.index + 2)).toNat ≠
    connection.blockNumber.toNat + 1) :
    TakesNothing connection (polled connection size (some content)) :=
  polled_left fun htaken => h htaken.number

theorem polled_foreign (hport : connection.serverPort ≠ tftpInitialServerPort)
    (hsource : connection.serverPort ≠ content.sourcePort) :
    TakesNothing connection (polled connection size (some content)) := by
  apply polled_left
  intro htaken
  rcases htaken.port with heq | heq
  · exact hport heq
  · exact hsource heq

theorem limitDataSize_block {k : ℕ} (hk : k ≤ 512) (hsize : 512 ≤ size ∧ size < 2147483648) :
    limitDataSize size (4 + k) = k := by
  unfold limitDataSize sizeT tftpDataHeaderSize
  rw [if_neg (by omega)]
  omega

/-- The next block is taken whole, and a short one that is not empty ends the transfer. -/
theorem polled_block {i : ℕ} (hsent : server.Sent (.data i) content)
    (hport : ¬ (connection.serverPort ≠ tftpInitialServerPort ∧
      connection.serverPort ≠ content.sourcePort))
    (hnext : i = connection.blockNumber.toNat + 1) (hfile : lastBlock 512 server.file ≤ 65535)
    (hsize : 512 ≤ size ∧ size < 2147483648) :
    TakesBlock server connection i (polled connection size (some content)) := by
  have hnumber := hsent.number
  have hi := toNat_ofNat_block hsent.offered.2 hfile
  have hlength : content.length = 4 + ((block 512 server.file i).length : Int) := by
    rw [hsent.length]
    simp only [Server.bytes, be16Bytes, List.length_append, List.length_cons, List.length_nil]
    omega
  have hle : (block 512 server.file i).length ≤ 512 := block_length_le i
  have hcount := limitDataSize_block hle hsize
  have hdata := hsent.data
  have hdrop : (server.bytes (.data i)).drop 4 = block 512 server.file i := rfl
  have hk : ((block 512 server.file i).length : Int).toNat =
      (content.length - tftpDataHeaderSize).toNat := by
    rw [hlength, tftpDataHeaderSize]
    omega
  have hread : readData connection size (some content) =
      (⟨(block 512 server.file i).length, block 512 server.file i⟩,
        { connection with blockNumber := UInt16.ofNat i }) := by
    simp only [readData, if_neg hport, hnumber, Message.number, hi, if_pos hnext, hlength, hcount]
    rw [hk, hdata, hdrop]
  rw [polled, hread]
  dsimp only
  split
  · next hempty =>
    have hnil : (block 512 server.file i).length = 0 := by omega
    refine ⟨hnext, (List.eq_nil_of_length_eq_zero hnil).symm, ?_⟩
    rw [if_neg (by omega)]
  · next hsome =>
    split
    · exact ⟨hnext, rfl, by rw [if_pos (by omega)]⟩
    · exact ⟨hnext, rfl, by rw [if_neg (by omega)]⟩

/-- A poll that finds a message of the server takes the next block or nothing. -/
theorem polled_message (size : Int) (hsent : server.Sent m content) (hread : ¬ MisreadAsData connection content)
    (hfile : lastBlock 512 server.file ≤ 65535) (hsize : 512 ≤ size ∧ size < 2147483648) :
    TakesNothing connection (polled connection size (some content)) ∨
      ∃ i, m = .data i ∧ TakesBlock server connection i (polled connection size (some content)) := by
  have hnumber := hsent.number
  have hother : m.number.toNat ≠ connection.blockNumber.toNat + 1 →
      TakesNothing connection (polled connection size (some content)) := by
    intro hne
    exact polled_other (hnumber ▸ hne)
  have hdata : m.opcode ≠ tftpOpcodeData → m.number.toNat ≠ connection.blockNumber.toNat + 1 := by
    intro hopcode hnext
    exact hread ⟨hsent.opcode ▸ hopcode, hnumber ▸ hnext⟩
  cases m with
  | oack => exact .inl (hother (hdata (by decide)))
  | error code text => exact .inl (hother (hdata (show tftpOpcodeError ≠ tftpOpcodeData by decide)))
  | data i =>
    have hi := toNat_ofNat_block hsent.offered.2 hfile
    by_cases hnext : i = connection.blockNumber.toNat + 1
    · by_cases hport : connection.serverPort ≠ tftpInitialServerPort ∧
          connection.serverPort ≠ content.sourcePort
      · exact .inl (polled_foreign hport.1 hport.2)
      · exact .inr ⟨i, rfl, polled_block hsent hport hnext hfile hsize⟩
    · refine .inl (hother ?_)
      rw [Message.number, hi]
      exact hnext

end MiniIp.Invariant
