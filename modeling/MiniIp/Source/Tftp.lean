import MiniIp.Source.Backoff
import MiniIp.Source.Receive

/-!
# TFTP client

Source: tftp.c:5-285. A connection belongs to the caller: the functions take it
and return what they make of it. Strings are the bytes before their terminator.
-/

set_option autoImplicit false

namespace MiniIp.Source

def tftpBackoffStartTimeout : Time := 500
def tftpBackoffMaxTimeout : Time := 10000
def tftpBackoffJitterFraction : UInt32 := 4

def tftpInitialServerPort : Port := 69
def tftpClientPort : Port := 23456

def tftpOpcodeReadRequest : UInt16 := 1
def tftpOpcodeAck : UInt16 := 4
def tftpOpcodeError : UInt16 := 5
def tftpOpcodeOack : UInt16 := 6

def tftpErrorNotDefined : UInt16 := 0
def tftpErrorUnknownTid : UInt16 := 5

inductive TftpStatus where
  | ok | error | retry
  deriving DecidableEq, Repr

/-- `sizeof(TftpDataHeader)`: opcode 0, block number 2. -/
def tftpDataHeaderSize : Int := 4

/-- "octet" -/
def octetString : List UInt8 := [111, 99, 116, 101, 116]

/-- "blksize" -/
def blksizeString : List UInt8 := [98, 108, 107, 115, 105, 122, 101]

/-- "512" -/
def blockSizeString : List UInt8 := [53, 49, 50]

/-- "wrong port" -/
def wrongPortString : List UInt8 := [119, 114, 111, 110, 103, 32, 112, 111, 114, 116]

/-- The C string that starts at a piece of memory. -/
def cString (memory : List UInt8) : List UInt8 :=
  memory.takeWhile fun c => c ≠ 0

/-- The copy loop stops at 64 characters or at the end of the name; it stores no terminator. -/
def copyFilename (filename : List UInt8) (old : Vector UInt8 64) : Vector UInt8 64 :=
  Vector.ofFn fun i => ((cString filename)[i.val]?).getD old[i]

def tftpDownloadFile (connection : TftpConnection) (filename : List UInt8) (serverIp : Ip) :
    Net TftpConnection := do
  udpListen tftpClientPort 1
  return { connection with
    clientPort := tftpClientPort
    serverPort := tftpInitialServerPort
    serverIp := serverIp
    state := .request
    blockNumber := 0
    backoff := backoffInit connection.backoff tftpBackoffStartTimeout tftpBackoffMaxTimeout
      tftpBackoffJitterFraction
    filename := copyFilename filename connection.filename }

/-- `add_string_followed_by_zero`, as the bytes it appends. -/
def stringFollowedByZero (string : List UInt8) : List UInt8 := string ++ [0]

def be16Bytes (value : UInt16) : List UInt8 := [(value >>> 8).toUInt8, value.toUInt8]

/-- The string at `connection->filename`, which runs on behind an array without terminator. -/
def filenameString (connection : TftpConnection) : List UInt8 :=
  cString (connection.filename.toList ++ connection.behind)

/-- Allocate a packet, fill it with `bytes` and send it; the frame of the three senders. -/
def sendTftpPacket (connection : TftpConnection) (destPort : Port) (bytes : List UInt8) :
    Net Unit := do
  let packet ← allocateNetworkPacket
  modifyPacket packet fun p => { p with
    data := writeBytes bytes p.index p.data, length := bytes.length }
  udpSendZeroCopy packet connection.clientPort destPort connection.serverIp

def tftpRequestBytes (connection : TftpConnection) : List UInt8 :=
  be16Bytes tftpOpcodeReadRequest ++ stringFollowedByZero (filenameString connection) ++
    stringFollowedByZero octetString ++ stringFollowedByZero blksizeString ++
    stringFollowedByZero blockSizeString

def sendTftpRequest (connection : TftpConnection) : Net Unit :=
  sendTftpPacket connection connection.serverPort (tftpRequestBytes connection)

def ackBytes (blockNumber : UInt16) : List UInt8 :=
  be16Bytes tftpOpcodeAck ++ be16Bytes blockNumber

def ackCurrentBlock (connection : TftpConnection) : Net Unit :=
  sendTftpPacket connection connection.serverPort (ackBytes connection.blockNumber)

def sendErrorTo (connection : TftpConnection) (destPort : Port) (errorCode : UInt16)
    (errorMessage : List UInt8) : Net Unit :=
  sendTftpPacket connection destPort
    (be16Bytes tftpOpcodeError ++ be16Bytes errorCode ++ stringFollowedByZero errorMessage)

def sendError (connection : TftpConnection) (errorCode : UInt16) (errorMessage : List UInt8) :
    Net Unit :=
  sendErrorTo connection connection.serverPort errorCode errorMessage

/-- The loop of `compare_option`: `none` on a difference, else where `source` stands. Every byte is read with `read`. -/
def compareOptionLoop {m : Type → Type} [Monad m] (read : Int → m UInt8) (stop : Int) :
    List UInt8 → Int → m (Option Int)
  | [], source => pure (some source)
  | c :: rest, source =>
    if source = stop then pure (some source)
    else do
      let byte ← read source
      if c ≠ byte then pure none else compareOptionLoop read stop rest (source + 1)

/-- The result, and the value of `*data` afterwards. -/
def compareOptionWith {m : Type → Type} [Monad m] (read : Int → m UInt8) (data stop : Int) (string : List UInt8) :
    m (Bool × Int) := do
  match (← compareOptionLoop read stop string data) with
  | none => pure (false, data)
  | some source =>
    if source = stop then pure (false, source + 1)
    else do
      let byte ← read source
      pure (byte = 0, source + 1)

/-- `compare_option` on bytes that can all be read. -/
def compareOption (memory : Memory) (data stop : Int) (string : List UInt8) : Bool × Int :=
  Id.run (compareOptionWith (fun address => pure (memory address)) data stop string)

/-- What `try_read_oack` makes of a datagram of at least two bytes. -/
def oackStatus (p : NetworkPacket) : TftpStatus :=
  let stop := p.index + p.length
  if readBe16 p.data p.index ≠ tftpOpcodeOack then .error
  else
    let blksize := compareOption p.data (p.index + 2) stop blksizeString
    if blksize.1 = false then .error
    else if (compareOption p.data blksize.2 stop blockSizeString).1 = false then .error
    else .ok

/-- A datagram shorter than two bytes is taken out of the queue and not freed. -/
def tryReadOack (connection : TftpConnection) : Net (TftpStatus × TftpConnection) := do
  match (← udpReceiveZeroCopy connection.clientPort) with
  | none => return (.retry, connection)
  | some packet =>
    let p ← getPacket packet
    if p.length < 2 then
      return (.retry, connection)
    else
      freeNetworkPacket packet
      match oackStatus p with
      | .ok => return (.ok, { connection with serverPort := p.sourcePort })
      | status => return (status, connection)

/-- The value `tftp_read` returns, and the bytes it has written to the caller's buffer. -/
structure TftpResult where
  count : Int
  bytes : List UInt8
  deriving DecidableEq, Repr

def TftpResult.nothing : TftpResult := ⟨0, []⟩

/-- `limit(size, packet->length - sizeof(TftpDataHeader))`, computed in `size_t`. -/
def limitDataSize (size length : Int) : Int :=
  if sizeT size < sizeT (length - tftpDataHeaderSize) then size else length - tftpDataHeaderSize

/-- The opcode is read and not looked at. -/
def tryReadData (connection : TftpConnection) (size : Int) : Net (TftpResult × TftpConnection) := do
  match (← udpReceiveZeroCopy connection.clientPort) with
  | none => return (.nothing, connection)
  | some packet =>
    let p ← getPacket packet
    let blockNumber := readBe16 p.data (p.index + 2)
    if connection.serverPort ≠ tftpInitialServerPort ∧ connection.serverPort ≠ p.sourcePort then
      sendErrorTo connection p.sourcePort tftpErrorUnknownTid wrongPortString
      freeNetworkPacket packet
      return (.nothing, connection)
    else if blockNumber = connection.blockNumber then
      ackCurrentBlock connection
      freeNetworkPacket packet
      return (.nothing, connection)
    else if blockNumber.toNat = connection.blockNumber.toNat + 1 then
      let count := limitDataSize size p.length
      freeNetworkPacket packet
      return (⟨count, readBytes p.data (p.index + tftpDataHeaderSize) count.toNat⟩,
        { connection with blockNumber := blockNumber })
    else
      freeNetworkPacket packet
      return (.nothing, connection)

/-- `next_backoff` on the backoff of a connection. -/
def nextTftpBackoff (connection : TftpConnection) : Net TftpConnection := do
  let r ← random
  let now ← getTime
  return { connection with backoff := nextBackoff connection.backoff now r }

/-- `if (backoff_timeout(..)) { send(..); next_backoff(..); }` -/
def tftpSendOnTimeout (connection : TftpConnection) (send : Net Unit) : Net TftpConnection := do
  if backoffTimeout connection.backoff (← getTime) then
    send
    nextTftpBackoff connection
  else
    return connection

def resetTftpBackoff (connection : TftpConnection) : TftpConnection :=
  { connection with backoff := backoffReset connection.backoff }

/-- What the REQUEST state makes of the result of `try_read_oack`. -/
def handleOack : TftpStatus × TftpConnection → TftpConnection
  | (.ok, connection) => { resetTftpBackoff connection with state := .read, blockNumber := 0 }
  | (.error, connection) => { connection with state := .error }
  | (.retry, connection) => connection

def tftpReadRequestState (connection : TftpConnection) : Net TftpConnection := do
  let connection ← tftpSendOnTimeout connection (sendTftpRequest connection)
  return handleOack (← tryReadOack connection)

def tftpReadReadState (connection : TftpConnection) (size : Int) :
    Net (TftpResult × TftpConnection) := do
  let connection ← tftpSendOnTimeout connection (ackCurrentBlock connection)
  let (result, connection) ← tryReadData connection size
  if result.count ≠ 0 then
    let connection := resetTftpBackoff connection
    if result.count < 512 then
      ackCurrentBlock connection
      return (result, { connection with state := .done })
    else
      return (result, connection)
  else
    return (.nothing, connection)

def tftpRead (connection : TftpConnection) (size : Int) : Net (TftpResult × TftpConnection) := do
  match connection.state with
  | .request => return (.nothing, ← tftpReadRequestState connection)
  | .read => tftpReadReadState connection size
  | .done => return (.nothing, connection)
  | .error => return (.nothing, connection)

def tftpAbortDownload (connection : TftpConnection) (errorMessage : List UInt8) : Net Unit :=
  sendError connection tftpErrorNotDefined errorMessage

end MiniIp.Source
