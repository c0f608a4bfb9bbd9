import Mathlib.Data.List.Basic

/-!
# ArtNet packets, the message batch and the sink's constructor

The data model of `ArtNet.cpp`.  An `ArtNetOutputData` sink owns one 18-byte
ArtDmx header per universe, built once by its constructor from the
`ArtNetHeader` template; at output time a queued `mmsghdr` aliases that header
and a window of the show buffer as two scatter/gather segments.  All sinks of a
tick append their messages to one `UDPOutputMessages` batch, keyed by
destination port, which is flushed once after every sink has contributed.

Because the dispatch loop writes neither the show buffer nor the headers
between a sink's `PrepareData` and the flush of that tick, a queued message is
recorded here with the bytes its segments reference at the flush (`segments`),
next to the identity of the iovec it points at (`msgIov`), which is what
`PostPrepareData` compares.

Machine integers: `startChannel` and `channelCount` are the non-negative ints
of the configuration and are kept as `Nat`; the universe number stays an `Int`, and the
`(char)` casts of the header bytes are `cByte`, reduction modulo 256.  Channels
are numbered from 1, and a sink's window starts at channel 1 or later
(`one_le_startChannel`), where `startChannel - 1` in `Nat` is the C++ value.
-/

namespace ChannelOutput

/-! ## Show buffer windows -/

/-- The `len` bytes of a byte-addressed buffer starting at offset `off`. -/
def slice (b : Nat → UInt8) (off len : Nat) : List UInt8 :=
  (List.range len).map fun i => b (off + i)

/-- A stored byte array read as a buffer, zero past its end. -/
def ofList (d : List UInt8) : Nat → UInt8 := fun i => d.getD i 0

@[simp] theorem length_slice (b : Nat → UInt8) (off len : Nat) :
    (slice b off len).length = len := by
  simp [slice]

theorem getD_slice (b : Nat → UInt8) {off len i : Nat} (h : i < len) :
    (slice b off len).getD i 0 = b (off + i) := by
  simp [slice, List.getD_eq_getElem?_getD, h]

/-- A window of a window is a window of the buffer. -/
theorem slice_ofList_slice (b : Nat → UInt8) {off len start count : Nat}
    (h : start + count ≤ len) :
    slice (ofList (slice b off len)) start count = slice b (off + start) count := by
  refine List.map_congr_left fun i hi => ?_
  have hi : i < count := List.mem_range.mp hi
  show (slice b off len).getD (start + i) 0 = b (off + start + i)
  rw [getD_slice b (by omega), Nat.add_assoc]

/-- `(char)v` stored into an `unsigned char`: the value modulo 256. -/
def cByte (v : Int) : UInt8 := UInt8.ofNat (v % 256).toNat

/-! ## Constants and templates of `ArtNet.cpp` -/

/-- `ARTNET_HEADER_LENGTH`. -/
def artnetHeaderLength : Nat := 18
/-- `ARTNET_SYNC_PACKET_LENGTH`. -/
def artnetSyncPacketLength : Nat := 14
/-- `ARTNET_DEST_PORT`, also the source port every ArtNet socket must bind. -/
def artnetDestPort : Nat := 6454
/-- `ARTNET_SEQUENCE_INDEX`. -/
def artnetSequenceIndex : Nat := 12
/-- `ARTNET_UNIVERSE_INDEX`. -/
def artnetUniverseIndex : Nat := 14
/-- `ARTNET_LENGTH_INDEX`. -/
def artnetLengthIndex : Nat := 16
/-- `ARTNET_TYPE_BROADCAST`. -/
def artnetTypeBroadcast : Nat := 2
/-- `ARTNET_TYPE_UNICAST`. -/
def artnetTypeUnicast : Nat := 3

/-- `ArtNetHeader`: "Art-Net" NUL, opcode 0x5000 low byte first, protocol
version 14, then zeroed sequence, physical, universe and length bytes. -/
def artNetHeader : List UInt8 :=
  [0x41, 0x72, 0x74, 0x2D, 0x4E, 0x65, 0x74, 0x00, 0x00, 0x50, 0x00, 0x0E,
   0x00, 0x00, 0x00, 0x00, 0x00, 0x00]

/-- `ArtNetSyncPacket`: the same ID, opcode 0x5200, version 14, two aux bytes. -/
def artNetSyncPacket : List UInt8 :=
  [0x41, 0x72, 0x74, 0x2D, 0x4E, 0x65, 0x74, 0x00, 0x00, 0x52, 0x00, 0x0E,
   0x00, 0x00]

/-- `inet_addr("255.255.255.255")`. -/
def broadcastAddr : UInt32 := 0xFFFFFFFF

/-- `struct sockaddr_in`, reduced to the port and the address (`sin_family` is
always `AF_INET`; the port is kept in host order). -/
structure SockaddrIn where
  sinPort : Nat
  sinAddr : UInt32
  deriving DecidableEq, Repr

/-- `ArtNetSyncAddress`: the broadcast address on the ArtNet port. -/
def artNetSyncAddress : SockaddrIn := ⟨artnetDestPort, broadcastAddr⟩

/-! ## Messages and the batch -/

/-- What a queued message's `msg_iov` points at: the queuing sink's header and
payload pair `&anIovecs[x * 2]`, or the shared `&ArtNetSyncIovecs`. -/
inductive MsgIov
  | anIovecs (x : Nat)
  | artNetSyncIovecs
  deriving DecidableEq, Repr

/-- A queued `struct mmsghdr`: destination, iovec identity, iovec count, length,
and the bytes of its segments when the batch is flushed. -/
structure Mmsghdr where
  msgName : SockaddrIn
  msgIov : MsgIov
  msgIovlen : Nat
  msgLen : Nat
  segments : List (List UInt8)
  deriving DecidableEq, Repr

/-- The first segment of a message: the header of a data datagram. -/
def Mmsghdr.header (m : Mmsghdr) : List UInt8 := m.segments.getD 0 []

/-- The second segment of a message: the payload window of a data datagram. -/
def Mmsghdr.payload (m : Mmsghdr) : List UInt8 := m.segments.getD 1 []

/-- Whether a message is an ArtSync datagram, as `PostPrepareData` tests it. -/
def Mmsghdr.isSync (m : Mmsghdr) : Bool := m.msgIov == .artNetSyncIovecs

/-- The message `PostPrepareData` appends: one 14-byte iovec to the broadcast
address. -/
def artNetSyncMsg : Mmsghdr where
  msgName := artNetSyncAddress
  msgIov := .artNetSyncIovecs
  msgIovlen := 1
  msgLen := artnetSyncPacketLength
  segments := [artNetSyncPacket]

/-- Modelled from the spec: `UDPOutputMessages` (UDPOutput.h, not under src/),
the batch of one tick: per destination port the pending messages and the socket
they go out on (`-1` when none).  `forceSocketCalls` records every
`ForceSocket(port, fd)` call made on the batch, in order. -/
structure UDPOutputMessages where
  messages : Nat → List Mmsghdr
  sockets : Nat → Int
  forceSocketCalls : List (Nat × Int)

namespace UDPOutputMessages

/-- The batch at the start of a tick: no messages, no sockets, no calls. -/
def empty : UDPOutputMessages := ⟨fun _ => [], fun _ => -1, []⟩

/-- Modelled from the spec: `GetSocket(port)`, `-1` when the port has none. -/
def getSocket (m : UDPOutputMessages) (port : Nat) : Int := m.sockets port

/-- Modelled from the spec: `ForceSocket(port, fd)` binds `fd` to the port. -/
def forceSocket (m : UDPOutputMessages) (port : Nat) (fd : Int) : UDPOutputMessages :=
  { m with
    sockets := fun p => if p = port then fd else m.sockets p
    forceSocketCalls := m.forceSocketCalls ++ [(port, fd)] }

/-- `messages[port]` with `msgs` pushed back in order. -/
def append (m : UDPOutputMessages) (port : Nat) (msgs : List Mmsghdr) :
    UDPOutputMessages :=
  { m with messages := fun p => if p = port then m.messages p ++ msgs else m.messages p }

@[simp] theorem append_messages (m : UDPOutputMessages) (port : Nat) (msgs : List Mmsghdr) :
    (m.append port msgs).messages port = m.messages port ++ msgs := by
  simp [append]

@[simp] theorem append_sockets (m : UDPOutputMessages) (port : Nat) (msgs : List Mmsghdr) :
    (m.append port msgs).sockets = m.sockets := rfl

@[simp] theorem append_forceSocketCalls (m : UDPOutputMessages) (port : Nat)
    (msgs : List Mmsghdr) :
    (m.append port msgs).forceSocketCalls = m.forceSocketCalls := rfl

@[simp] theorem append_getSocket (m : UDPOutputMessages) (port q : Nat) (msgs : List Mmsghdr) :
    (m.append port msgs).getSocket q = m.getSocket q := rfl

@[simp] theorem forceSocket_messages (m : UDPOutputMessages) (port : Nat) (fd : Int) :
    (m.forceSocket port fd).messages = m.messages := rfl

@[simp] theorem forceSocket_forceSocketCalls (m : UDPOutputMessages) (port : Nat) (fd : Int) :
    (m.forceSocket port fd).forceSocketCalls = m.forceSocketCalls ++ [(port, fd)] := rfl

@[simp] theorem getSocket_forceSocket (m : UDPOutputMessages) (port : Nat) (fd : Int) :
    (m.forceSocket port fd).getSocket port = fd := by
  simp [forceSocket, getSocket]

end UDPOutputMessages

/-! ## The sink and its constructor -/

/-- The state of an `ArtNetOutputData` sink that its methods read and write:
the `UDPOutputData` base fields (`valid`, `active`, the channel window, the
skipped-frame counter and the frame snapshot `lastData`), then its own, with
`universe` (a Lean keyword) as `universeId`.  A window from channel 1 on
and the constructor's guarantees are fields: at least one universe, and one
18-byte header per universe. -/
structure ArtNetOutputData where
  valid : Bool
  active : Bool
  startChannel : Nat
  channelCount : Nat
  skippedFrames : Nat
  lastData : Option (List UInt8)
  universeId : Int
  universeCount : Nat
  anAddress : SockaddrIn
  sequenceNumber : UInt8
  anHeaders : List (List UInt8)
  one_le_startChannel : 1 ≤ startChannel
  one_le_universeCount : 1 ≤ universeCount
  anHeaders_length : anHeaders.length = universeCount
  anHeaders_size : ∀ h ∈ anHeaders, h.length = artnetHeaderLength

/-- The `UDPOutputData` base as its constructor (not under src/) leaves it,
with a window from channel 1 on. -/
structure UDPOutputBase where
  valid : Bool
  active : Bool
  startChannel : Nat
  channelCount : Nat
  type : Nat
  ipAddress : String
  one_le_startChannel : 1 ≤ startChannel

/-- The members of `config` the constructor reads; `universeCount` is `none`
when `config.isMember("universeCount")` fails. -/
structure ArtNetConfig where
  id : Int
  universeCount : Option Int
  address : String

/-- The header the constructor's loop builds for universe number `uni`. -/
def universeHeader (uni : Int) (channelCount : Nat) : List UInt8 :=
  (((artNetHeader.set artnetUniverseIndex (cByte (uni.tmod 256))).set
    (artnetUniverseIndex + 1) (cByte (uni.tdiv 256))).set
    artnetLengthIndex (cByte (channelCount / 256))).set
    (artnetLengthIndex + 1) (cByte (channelCount % 256))

theorem length_universeHeader (uni : Int) (channelCount : Nat) :
    (universeHeader uni channelCount).length = artnetHeaderLength := by
  simp [universeHeader, artNetHeader, artnetHeaderLength]

/-- The clamped universe count: `config["universeCount"]` when present, at
least 1. -/
def clampUniverseCount (uc : Option Int) : Nat :=
  if uc.getD 1 < 1 then 1 else (uc.getD 1).toNat

theorem one_le_clampUniverseCount (uc : Option Int) : 1 ≤ clampUniverseCount uc := by
  unfold clampUniverseCount; split <;> omega

/-- The host that unicast addressing resolves: `""` for broadcast, the
configured address for unicast, the base's otherwise. -/
def ArtNetConfig.ipAddress (config : ArtNetConfig) (base : UDPOutputBase) : String :=
  if base.type = artnetTypeBroadcast then ""
  else if base.type = artnetTypeUnicast then config.address else base.ipAddress

/-- Address resolution of the constructor: the broadcast address, or
`toInetAddr(ipAddress, valid)`, which returns the address and sets `valid`. -/
def resolveAddress (base : UDPOutputBase) (ipAddress : String)
    (toInetAddr : String → UInt32 × Bool) : UInt32 × Bool :=
  if base.type = artnetTypeBroadcast then (broadcastAddr, base.valid)
  else toInetAddr ipAddress

/-- `ArtNetOutputData::ArtNetOutputData(config)`, with the warnings it adds.
A sink whose host does not resolve is left invalid and, if it was active,
inactive with a warning.  The frame snapshot starts empty and the sequence
number at 1. -/
def ArtNetOutputData.ofConfig (base : UDPOutputBase) (config : ArtNetConfig)
    (toInetAddr : String → UInt32 × Bool) : ArtNetOutputData × List String :=
  let uc := clampUniverseCount config.universeCount
  let ip := config.ipAddress base
  let (addr, valid) := resolveAddress base ip toInetAddr
  let disable := base.type ≠ artnetTypeBroadcast && !valid && base.active
  ({ valid := valid
     active := if disable then false else base.active
     startChannel := base.startChannel
     channelCount := base.channelCount
     skippedFrames := 0
     lastData := none
     universeId := config.id
     universeCount := uc
     anAddress := ⟨artnetDestPort, addr⟩
     sequenceNumber := 1
     anHeaders := (List.range uc).map fun x : Nat =>
       universeHeader (config.id + (x : Int)) base.channelCount
     one_le_startChannel := base.one_le_startChannel
     one_le_universeCount := one_le_clampUniverseCount _
     anHeaders_length := by rw [List.length_map, List.length_range]
     anHeaders_size := fun _ hh => by
       obtain ⟨x, -, rfl⟩ := List.mem_map.mp hh
       exact length_universeHeader _ _ },
   if disable then ["Could not resolve host name " ++ ip ++ " - disabling output"] else [])

/-- A two-universe broadcast sink on channels 1..4, as its constructor builds it. -/
def exampleSink : ArtNetOutputData :=
  (ArtNetOutputData.ofConfig ⟨true, true, 1, 2, artnetTypeBroadcast, "", le_rfl⟩ ⟨0, some 2, ""⟩
    fun _ => (0, false)).1

end ChannelOutput
