import Fpp.ChannelOutput.ArtNet.Packet

/-!
# `PrepareData` and `PostPrepareData` of the ArtNet sink

`PrepareData` walks the sink's universes with two cursors, `cur` into the show
buffer and `start` into the sink's window, queues one datagram per universe
whose window changed since the last saved frame, stamps the sequence number
into that universe's header, then advances the sequence number (skipping 0),
counts a skipped frame if any universe was left out, and saves the window if
any universe went out.

The loop is given in the source's form (`universeStep`, folded over
`0 .. universeCount-1`), and `foldl_universeStep` states once what its first
`n` iterations have done (`loopAfter`); every later proof cites that closed
form instead of the loop.  `NeedToOutputFrame` and `SaveFrame` live in the
`UDPOutputData` base, outside src/, and are modelled from the spec.
-/

namespace ChannelOutput

namespace ArtNetOutputData

/-- Modelled from the spec: `UDPOutputData::NeedToOutputFrame(channelData,
startChannel, start, count)` (UDPOutput.cpp, not under src/).  A sub-range needs
output when no frame has been saved yet or when its `count` bytes at `start`
differ from the saved frame's bytes at `start`. -/
def needToOutputFrame (lastData : Option (List UInt8)) (channelData : Nat → UInt8)
    (startChannel start count : Nat) : Bool :=
  match lastData with
  | none => true
  | some d => slice (ofList d) start count != slice channelData (startChannel + start) count

/-- Modelled from the spec: `UDPOutputData::SaveFrame(data, size)` (UDPOutput.cpp,
not under src/) overwrites the saved frame with the `size` bytes at `data`. -/
def saveFrame (channelData : Nat → UInt8) (off size : Nat) : Option (List UInt8) :=
  some (slice channelData off size)

/-- The locals of the universe loop of `PrepareData`. -/
structure UniverseLoop where
  cur : Nat
  start : Nat
  skipped : Bool
  allSkipped : Bool
  msgs : List Mmsghdr
  anHeaders : List (List UInt8)

/-- `sequenceNumber++; if (sequenceNumber == 0) sequenceNumber++;` on the
unsigned byte counter. -/
def nextSequenceNumber (n : UInt8) : UInt8 :=
  if n + 1 = 0 then n + 1 + 1 else n + 1

theorem toNat_add_one (a : UInt8) : (a + 1).toNat = (a.toNat + 1) % 256 := by
  simp [UInt8.toNat, UInt8.add_def, BitVec.toNat_add]

/-- The counter steps through `1 .. 255` and wraps from 255 to 1. -/
theorem toNat_nextSequenceNumber {n : UInt8} (h : 1 ≤ n.toNat) :
    (nextSequenceNumber n).toNat = n.toNat % 255 + 1 := by
  have hn : n.toNat < 256 := n.toNat_lt_size
  have hz : n + 1 = 0 ↔ n.toNat = 255 := by
    constructor
    · intro h0
      have := congrArg UInt8.toNat h0
      rw [toNat_add_one] at this
      simp at this
      omega
    · intro h255
      apply UInt8.toNat.inj
      rw [toNat_add_one, h255]
      rfl
  unfold nextSequenceNumber
  by_cases h0 : n + 1 = 0
  · rw [if_pos h0, toNat_add_one, h0, hz.mp h0]; rfl
  · rw [if_neg h0, toNat_add_one]; have := mt hz.mpr h0; omega

variable (s : ArtNetOutputData) (channelData : Nat → UInt8)

/-- The `mmsghdr` queued for universe `x`: its header `hdr` and the
`channelCount` bytes at `cur`. -/
def universeMsg (hdr : List UInt8) (x cur : Nat) : Mmsghdr where
  msgName := s.anAddress
  msgIov := .anIovecs x
  msgIovlen := 2
  msgLen := s.channelCount + artnetHeaderLength
  segments := [hdr, slice channelData cur s.channelCount]

/-- One iteration of the universe loop of `PrepareData`. -/
def universeStep (l : UniverseLoop) (x : Nat) : UniverseLoop :=
  if needToOutputFrame s.lastData channelData (s.startChannel - 1) l.start s.channelCount then
    let hdrs := l.anHeaders.set x
      ((l.anHeaders.getD x []).set artnetSequenceIndex s.sequenceNumber)
    { cur := l.cur + s.channelCount
      start := l.start + s.channelCount
      skipped := l.skipped
      allSkipped := false
      msgs := l.msgs ++ [universeMsg s channelData (hdrs.getD x []) x l.cur]
      anHeaders := hdrs }
  else
    { l with cur := l.cur + s.channelCount, start := l.start + s.channelCount, skipped := true }

/-- The loop's locals before the first iteration. -/
def loopInit : UniverseLoop := ⟨s.startChannel - 1, 0, false, true, [], s.anHeaders⟩

/-- The whole universe loop. -/
def universeLoop : UniverseLoop :=
  (List.range s.universeCount).foldl (universeStep s channelData) (loopInit s)

/-! ## The loop in closed form -/

/-- Universe `x` is queued: its window differs from the saved frame's. -/
def queues (x : Nat) : Bool :=
  needToOutputFrame s.lastData channelData (s.startChannel - 1) (x * s.channelCount)
    s.channelCount

/-- The header universe `x` goes out with: its own, with the current sequence
number. -/
def sequencedHeader (x : Nat) : List UInt8 :=
  (s.anHeaders.getD x []).set artnetSequenceIndex s.sequenceNumber

/-- The datagram universe `x` contributes, if it is queued. -/
def queuedMsg (x : Nat) : Option Mmsghdr :=
  if queues s channelData x then
    some (universeMsg s channelData (sequencedHeader s x) x
      (s.startChannel - 1 + x * s.channelCount))
  else none

/-- The headers once the first `n` universes have been processed. -/
def headersAfter (n : Nat) : List (List UInt8) :=
  s.anHeaders.mapIdx fun x h =>
    if x < n ∧ queues s channelData x = true then h.set artnetSequenceIndex s.sequenceNumber
    else h

/-- The loop's locals after its first `n` iterations. -/
def loopAfter (n : Nat) : UniverseLoop where
  cur := s.startChannel - 1 + n * s.channelCount
  start := n * s.channelCount
  skipped := (List.range n).any fun x => !queues s channelData x
  allSkipped := (List.range n).all fun x => !queues s channelData x
  msgs := (List.range n).filterMap (queuedMsg s channelData)
  anHeaders := headersAfter s channelData n

theorem headersAfter_zero : headersAfter s channelData 0 = s.anHeaders := by
  refine List.ext_getElem? fun i => ?_
  simp [headersAfter, List.getElem?_mapIdx]

theorem length_headersAfter (n : Nat) :
    (headersAfter s channelData n).length = s.universeCount := by
  rw [headersAfter, List.length_mapIdx, s.anHeaders_length]

theorem size_headersAfter (n : Nat) :
    ∀ h ∈ headersAfter s channelData n, h.length = artnetHeaderLength := by
  intro h hh
  obtain ⟨i, hi, rfl⟩ := List.getElem_of_mem hh
  simp only [headersAfter, List.getElem_mapIdx]
  split <;> simp [s.anHeaders_size _ (List.getElem_mem _)]

theorem getD_headersAfter_self (n : Nat) :
    (headersAfter s channelData n).getD n [] = s.anHeaders.getD n [] := by
  simp [headersAfter, List.getD_eq_getElem?_getD, List.getElem?_mapIdx]

theorem headersAfter_succ (n : Nat) :
    headersAfter s channelData (n + 1) =
      if queues s channelData n then (headersAfter s channelData n).set n (sequencedHeader s n)
      else headersAfter s channelData n := by
  refine List.ext_getElem? fun i => ?_
  rcases Nat.lt_trichotomy i n with hi | rfl | hi
  · split <;> simp [headersAfter, List.getElem?_mapIdx, List.getElem?_set, hi, hi.ne',
      Nat.lt_succ_of_lt hi]
  · rcases Nat.lt_or_ge i s.anHeaders.length with hl | hl <;>
    cases hq : queues s channelData i <;>
      simp [headersAfter, List.getElem?_mapIdx, List.getElem?_set, hq, sequencedHeader,
        List.getD_eq_getElem?_getD, hl, List.getElem?_eq_getElem, List.getElem?_eq_none]
  · have h1 : ¬ i < n + 1 := by omega
    have h2 : ¬ i < n := by omega
    split <;> simp [headersAfter, List.getElem?_mapIdx, List.getElem?_set, h1, h2, hi.ne]

/-- **One iteration.**  Processing universe `n` takes the closed form of the
first `n` iterations to that of the first `n + 1`. -/
theorem universeStep_loopAfter {n : Nat} (hn : n < s.universeCount) :
    universeStep s channelData (loopAfter s channelData n) n = loopAfter s channelData (n + 1) := by
  have hlen : n < (headersAfter s channelData n).length := by
    rw [length_headersAfter]; exact hn
  unfold universeStep
  simp only [loopAfter, headersAfter_succ, List.range_succ, List.any_append, List.all_append,
    List.filterMap_append]
  cases hq : queues s channelData n
  · have hq' : needToOutputFrame s.lastData channelData (s.startChannel - 1)
        (n * s.channelCount) s.channelCount = false := hq
    simp [hq', hq, queuedMsg, Nat.succ_mul, Nat.add_assoc]
  · have hq' : needToOutputFrame s.lastData channelData (s.startChannel - 1)
        (n * s.channelCount) s.channelCount = true := hq
    simp only [hq', if_true, getD_headersAfter_self]
    simp [hq, queuedMsg, Nat.succ_mul, Nat.add_assoc, List.getD_eq_getElem?_getD,
      List.getElem?_set, hlen, sequencedHeader]

/-- **The universe loop in closed form.** -/
theorem foldl_universeStep {n : Nat} (hn : n ≤ s.universeCount) :
    (List.range n).foldl (universeStep s channelData) (loopInit s) = loopAfter s channelData n := by
  induction n with
  | zero => simp [loopInit, loopAfter, headersAfter_zero]
  | succ n ih =>
      rw [List.range_succ, List.foldl_append, ih (by omega)]
      exact universeStep_loopAfter s channelData (by omega)

theorem universeLoop_eq :
    universeLoop s channelData = loopAfter s channelData s.universeCount :=
  foldl_universeStep s channelData le_rfl

/-! ## The method bodies -/

/-- The body of `PrepareData` under `if (valid && active)`, after the socket
check: the sink after the call and the datagrams it pushes onto
`messages[ARTNET_DEST_PORT]`, in order. -/
def prepare : ArtNetOutputData × List Mmsghdr :=
  ({ s with
      anHeaders := (universeLoop s channelData).anHeaders
      sequenceNumber := nextSequenceNumber s.sequenceNumber
      skippedFrames :=
        if (universeLoop s channelData).skipped then s.skippedFrames + 1 else s.skippedFrames
      lastData :=
        if !(universeLoop s channelData).allSkipped then
          saveFrame channelData (s.startChannel - 1) (universeLoop s channelData).start
        else s.lastData
      anHeaders_length := by rw [universeLoop_eq]; exact length_headersAfter _ _ _
      anHeaders_size := by rw [universeLoop_eq]; exact size_headersAfter _ _ _ },
   (universeLoop s channelData).msgs)

/-- What `PrepareData` does to the sink and to `messages[ARTNET_DEST_PORT]`:
nothing unless the sink is valid and active. -/
def sinkStep : ArtNetOutputData × List Mmsghdr :=
  if s.valid && s.active then prepare s channelData else (s, [])

/-- `ArtNetOutputData::PrepareData(channelData, messages)`; `createArtNetSocket`
is what `CreateArtNetSocket()` returns if this call makes it. -/
def prepareData (createArtNetSocket : Int) (messages : UDPOutputMessages) :
    ArtNetOutputData × UDPOutputMessages :=
  if s.valid && s.active then
    let messages :=
      if messages.getSocket artnetDestPort = -1 then
        messages.forceSocket artnetDestPort createArtNetSocket
      else messages
    ((prepare s channelData).1, messages.append artnetDestPort (prepare s channelData).2)
  else (s, messages)

/-- `ArtNetOutputData::PostPrepareData(channelData, msgs)`: append one ArtSync
datagram unless the port's list already holds one. -/
def postPrepareData (msgs : UDPOutputMessages) : UDPOutputMessages :=
  if s.valid && s.active then
    if (msgs.messages artnetDestPort).any Mmsghdr.isSync then msgs
    else msgs.append artnetDestPort [artNetSyncMsg]
  else msgs

/-- `ArtNetOutputData::GetRequiredChannelRange(min, max)`. -/
def getRequiredChannelRange : Int × Int :=
  ((s.startChannel : Int) - 1, s.startChannel + s.channelCount * s.universeCount - 1)

/-! ## Spec lemmas -/

@[simp] theorem prepare_msgs :
    (prepare s channelData).2 = (List.range s.universeCount).filterMap (queuedMsg s channelData) := by
  simp [prepare, universeLoop_eq, loopAfter]

@[simp] theorem prepare_sequenceNumber :
    (prepare s channelData).1.sequenceNumber = nextSequenceNumber s.sequenceNumber := rfl

@[simp] theorem prepare_anHeaders :
    (prepare s channelData).1.anHeaders = headersAfter s channelData s.universeCount := by
  simp [prepare, universeLoop_eq, loopAfter]

@[simp] theorem prepare_skippedFrames :
    (prepare s channelData).1.skippedFrames =
      if (List.range s.universeCount).any (fun x => !queues s channelData x) then
        s.skippedFrames + 1 else s.skippedFrames := by
  simp [prepare, universeLoop_eq, loopAfter]

@[simp] theorem prepare_lastData :
    (prepare s channelData).1.lastData =
      if (List.range s.universeCount).all (fun x => !queues s channelData x) then s.lastData
      else saveFrame channelData (s.startChannel - 1) (s.universeCount * s.channelCount) := by
  simp only [prepare, universeLoop_eq, loopAfter]
  cases (List.range s.universeCount).all (fun x => !queues s channelData x) <;> rfl

theorem prepareData_fst (fd : Int) (m : UDPOutputMessages) :
    (prepareData s channelData fd m).1 = (sinkStep s channelData).1 := by
  unfold prepareData sinkStep; split <;> rfl

theorem prepareData_messages (fd : Int) (m : UDPOutputMessages) :
    (prepareData s channelData fd m).2.messages artnetDestPort =
      m.messages artnetDestPort ++ (sinkStep s channelData).2 := by
  unfold prepareData sinkStep; split <;> (try split) <;> simp

@[simp] theorem sinkStep_sequenceNumber :
    (sinkStep s channelData).1.sequenceNumber =
      if s.valid && s.active then nextSequenceNumber s.sequenceNumber else s.sequenceNumber := by
  unfold sinkStep; split <;> rfl

@[simp] theorem sinkStep_universeCount :
    (sinkStep s channelData).1.universeCount = s.universeCount := by
  unfold sinkStep; split <;> rfl
@[simp] theorem sinkStep_channelCount :
    (sinkStep s channelData).1.channelCount = s.channelCount := by
  unfold sinkStep; split <;> rfl
@[simp] theorem sinkStep_startChannel :
    (sinkStep s channelData).1.startChannel = s.startChannel := by
  unfold sinkStep; split <;> rfl
@[simp] theorem sinkStep_valid : (sinkStep s channelData).1.valid = s.valid := by
  unfold sinkStep; split <;> rfl
@[simp] theorem sinkStep_active : (sinkStep s channelData).1.active = s.active := by
  unfold sinkStep; split <;> rfl

theorem sinkStep_of_inactive (h : (s.valid && s.active) = false) :
    sinkStep s channelData = (s, []) := by
  simp [sinkStep, h]

@[simp] theorem prepare_valid : (prepare s channelData).1.valid = s.valid := rfl
@[simp] theorem prepare_active : (prepare s channelData).1.active = s.active := rfl
@[simp] theorem prepare_startChannel :
    (prepare s channelData).1.startChannel = s.startChannel := rfl
@[simp] theorem prepare_channelCount :
    (prepare s channelData).1.channelCount = s.channelCount := rfl
@[simp] theorem prepare_universeCount :
    (prepare s channelData).1.universeCount = s.universeCount := rfl
@[simp] theorem prepare_anAddress :
    (prepare s channelData).1.anAddress = s.anAddress := rfl

end ArtNetOutputData

end ChannelOutput
