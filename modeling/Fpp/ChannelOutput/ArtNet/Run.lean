import Fpp.ChannelOutput.ArtNet.PrepareData

/-!
# Runs of `PrepareData` on one sink

Two facts about every run of calls, whatever the buffers and whichever
universes change from call to call.

* The frame snapshot never hides a change.  Over the run, the saved frame
  holds, window by window, exactly the payload last queued for each universe
  (`SnapshotMatches`), so a universe is skipped only when its bytes equal the
  bytes last sent for it, and after every call the last payload queued for each
  universe is that universe's current window (`prepareData_frameDiff`).  The
  invariant is per universe although `SaveFrame` rewrites the whole window at
  once: in a mixed call the skipped universes' windows are rewritten with bytes
  equal to the old ones, which is where the invariant is needed.
* The sequence byte of every datagram of the `k`-th call is `(k-1) % 255 + 1`
  (`prepareData_sequenceNumber`): the unsigned byte counter wraps from 255 to
  0 and the zero is stepped over, also in calls that queue nothing.
-/

namespace ChannelOutput

namespace ArtNetOutputData

/-- The sink after `PrepareData` has been called with each buffer of `bufs`. -/
def afterCalls (s : ArtNetOutputData) (bufs : List (Nat → UInt8)) : ArtNetOutputData :=
  bufs.foldl (fun s b => (sinkStep s b).1) s

/-- Every datagram those calls queued, in order. -/
def queuedDuring : ArtNetOutputData → List (Nat → UInt8) → List Mmsghdr
  | _, [] => []
  | s, b :: bufs => (sinkStep s b).2 ++ queuedDuring (sinkStep s b).1 bufs

/-- The payload of the datagram most recently queued for universe `x`. -/
def lastPayload (msgs : List Mmsghdr) (x : Nat) : Option (List UInt8) :=
  (msgs.reverse.find? fun m => m.msgIov == .anIovecs x).map Mmsghdr.payload

/-- The invariant: whenever a frame has been saved, each universe's window of
it is the payload last queued for that universe. -/
def SnapshotMatches (s : ArtNetOutputData) (hist : List Mmsghdr) : Prop :=
  ∀ d, s.lastData = some d → ∀ x < s.universeCount,
    lastPayload hist x = some (slice (ofList d) (x * s.channelCount) s.channelCount)

theorem afterCalls_append_singleton (s : ArtNetOutputData) (bufs : List (Nat → UInt8))
    (b : Nat → UInt8) :
    afterCalls s (bufs ++ [b]) = (sinkStep (afterCalls s bufs) b).1 := by
  simp [afterCalls, List.foldl_append]

theorem queuedDuring_append_singleton (s : ArtNetOutputData) (bufs : List (Nat → UInt8))
    (b : Nat → UInt8) :
    queuedDuring s (bufs ++ [b]) = queuedDuring s bufs ++ (sinkStep (afterCalls s bufs) b).2 := by
  induction bufs generalizing s with
  | nil => simp [queuedDuring, afterCalls]
  | cons c bufs ih => simp [queuedDuring, ih, afterCalls]

theorem lastPayload_append (h new : List Mmsghdr) (x : Nat) :
    lastPayload (h ++ new) x = (lastPayload new x).or (lastPayload h x) := by
  simp only [lastPayload, List.reverse_append, List.find?_append]
  cases List.find? (fun m => m.msgIov == .anIovecs x) new.reverse <;> rfl

theorem afterCalls_universeCount (s : ArtNetOutputData) (bufs : List (Nat → UInt8)) :
    (afterCalls s bufs).universeCount = s.universeCount ∧
      (afterCalls s bufs).channelCount = s.channelCount ∧
      (afterCalls s bufs).startChannel = s.startChannel ∧
      (afterCalls s bufs).valid = s.valid ∧ (afterCalls s bufs).active = s.active := by
  induction bufs generalizing s with
  | nil => simp [afterCalls]
  | cons b bufs ih => simpa [afterCalls] using ih (sinkStep s b).1

variable (s : ArtNetOutputData) (b : Nat → UInt8)

/-- Among the datagrams one call queues, the one for universe `x` is found
exactly when `x` is queued. -/
theorem find_queued {x n : Nat} :
    ((List.range n).filterMap (queuedMsg s b)).reverse.find? (fun m => m.msgIov == .anIovecs x) =
      if x < n ∧ queues s b x = true then
        some (universeMsg s b (sequencedHeader s x) x (s.startChannel - 1 + x * s.channelCount))
      else none := by
  induction n with
  | zero => simp
  | succ n ih =>
      rw [List.range_succ, List.filterMap_append, List.reverse_append, List.find?_append, ih]
      rcases Nat.lt_trichotomy x n with hx | rfl | hx
      · cases hq : queues s b n <;>
          simp [queuedMsg, hq, universeMsg, hx.ne', Nat.lt_succ_of_lt hx, hx]
      · cases hq : queues s b x <;> simp [queuedMsg, hq, universeMsg]
      · have h1 : ¬ x < n + 1 := by omega
        have h2 : ¬ x < n := by omega
        cases hq : queues s b n <;> simp [queuedMsg, hq, universeMsg, hx.ne, h1, h2]

/-- The payload one call queues for universe `x`, if any. -/
theorem lastPayload_queued {x n : Nat} :
    lastPayload ((List.range n).filterMap (queuedMsg s b)) x =
      if x < n ∧ queues s b x = true then
        some (slice b (s.startChannel - 1 + x * s.channelCount) s.channelCount)
      else none := by
  rw [lastPayload, find_queued]
  split <;> rfl

/-- After a call on a valid and active sink, the last payload queued for `x`
is `x`'s current window, queued now or, if skipped, before. -/
theorem lastPayload_sinkStep {hist : List Mmsghdr} (hva : (s.valid && s.active) = true)
    (hs : SnapshotMatches s hist) {x : Nat} (hx : x < s.universeCount) :
    lastPayload (hist ++ (sinkStep s b).2) x =
      some (slice b (s.startChannel - 1 + x * s.channelCount) s.channelCount) := by
  rw [lastPayload_append, sinkStep, if_pos hva, prepare_msgs, lastPayload_queued]
  cases hq : queues s b x
  · -- skipped: a frame was saved and its window of `x` equals the buffer's
    unfold queues needToOutputFrame at hq
    split at hq
    · simp at hq
    · rename_i d hd
      simp only [bne_eq_false_iff_eq] at hq
      simp [hs d hd x hx, hq]
  · simp [hx]

/-- **Step lemma.**  One `PrepareData` call keeps the snapshot in step with
the payloads queued. -/
theorem snapshotMatches_sinkStep {hist : List Mmsghdr} (hs : SnapshotMatches s hist) :
    SnapshotMatches (sinkStep s b).1 (hist ++ (sinkStep s b).2) := by
  cases hva : s.valid && s.active
  · rw [sinkStep_of_inactive s b hva]; simpa using hs
  · intro d hd x hx
    have hx' : x < s.universeCount := by simpa [sinkStep, hva] using hx
    rw [lastPayload_sinkStep s b hva hs hx']
    simp only [sinkStep, hva, if_true, prepare_lastData, prepare_channelCount] at hd ⊢
    split at hd
    · -- nothing queued: the saved frame and the queued payloads are unchanged
      rename_i hall
      rw [← lastPayload_sinkStep s b hva hs hx', lastPayload_append, hs d hd x hx']
      simp only [List.all_eq_true, List.mem_range, Bool.not_eq_true'] at hall
      simp [sinkStep, hva, lastPayload_queued, hall x hx']
    · simp only [saveFrame, Option.some.injEq] at hd
      subst hd
      have hle : x * s.channelCount + s.channelCount ≤ s.universeCount * s.channelCount := by
        have := Nat.mul_le_mul_right s.channelCount hx'
        rwa [Nat.succ_mul] at this
      rw [slice_ofList_slice b hle]

theorem queuedMsg_eq_none {x : Nat} : queuedMsg s b x = none ↔ queues s b x = false := by
  unfold queuedMsg; split <;> simp_all

/-- One call queues nothing exactly when every universe is skipped. -/
theorem queued_eq_nil_iff {n : Nat} :
    (List.range n).filterMap (queuedMsg s b) = [] ↔
      (List.range n).all (fun x => !queues s b x) = true := by
  simp [List.filterMap_eq_nil_iff, queuedMsg_eq_none]

/-- One call queues fewer datagrams than universes exactly when some universe
is skipped. -/
theorem length_queued_lt_iff {n : Nat} :
    ((List.range n).filterMap (queuedMsg s b)).length < n ↔
      (List.range n).any (fun x => !queues s b x) = true := by
  induction n with
  | zero => simp
  | succ n ih =>
      have hle := List.length_filterMap_le (queuedMsg s b) (List.range n)
      rw [List.length_range] at hle
      cases hq : queues s b n
      · simp [List.range_succ, List.filterMap_append, queuedMsg, hq]; omega
      · simp [List.range_succ, List.filterMap_append, queuedMsg, hq, ← ih]

end ArtNetOutputData

variable (s : ArtNetOutputData)

open ArtNetOutputData in
/-- **Run lemma.**  From a sink that has saved no frame yet, as the
constructor leaves it, every run of calls keeps the snapshot in step with the
datagrams queued. -/
theorem snapshotMatches_afterCalls (hfresh : s.lastData = none) (bufs : List (Nat → UInt8)) :
    SnapshotMatches (afterCalls s bufs) (queuedDuring s bufs) := by
  induction bufs using List.reverseRecOn with
  | nil => intro d hd; simp [afterCalls, hfresh] at hd
  | append_singleton bufs b ih =>
      rw [afterCalls_append_singleton, queuedDuring_append_singleton]
      exact snapshotMatches_sinkStep _ _ ih

open ArtNetOutputData in
/-- **No change is left unsent.**  Take a valid, active sink that has saved no
frame, any earlier buffers `pre` and the current buffer `b`.  After the call
with `b`, the payload last queued for every universe is that universe's window
of `b`; the snapshot becomes the sink's whole window of `b` when the call
queued anything and is unchanged otherwise; and `skippedFrames` grows by one
exactly when the call queued fewer datagrams than there are universes. -/
theorem prepareData_frameDiff (hva : s.valid = true ∧ s.active = true)
    (hfresh : s.lastData = none) (pre : List (Nat → UInt8)) (b : Nat → UInt8) :
    (∀ x < s.universeCount, lastPayload (queuedDuring s (pre ++ [b])) x =
        some (slice b (s.startChannel - 1 + x * s.channelCount) s.channelCount)) ∧
    (afterCalls s (pre ++ [b])).lastData =
      (if (sinkStep (afterCalls s pre) b).2 = [] then (afterCalls s pre).lastData
       else some (slice b (s.startChannel - 1) (s.universeCount * s.channelCount))) ∧
    (afterCalls s (pre ++ [b])).skippedFrames = (afterCalls s pre).skippedFrames +
      (if (sinkStep (afterCalls s pre) b).2.length < s.universeCount then 1 else 0) := by
  obtain ⟨huc, hcc, hsc, hv, ha⟩ := afterCalls_universeCount s pre
  have hva' : ((afterCalls s pre).valid && (afterCalls s pre).active) = true := by
    simp [hv, ha, hva.1, hva.2]
  refine ⟨fun x hx => ?_, ?_, ?_⟩
  · rw [queuedDuring_append_singleton, lastPayload_sinkStep _ b hva'
      (snapshotMatches_afterCalls s hfresh pre) (huc ▸ hx), hsc, hcc]
  · rw [afterCalls_append_singleton]
    simp only [sinkStep, hva', if_true, prepare_lastData, prepare_msgs, queued_eq_nil_iff,
      huc, hcc, hsc, saveFrame]
  · rw [afterCalls_append_singleton]
    simp only [sinkStep, hva', if_true, prepare_skippedFrames, prepare_msgs,
      length_queued_lt_iff, huc]
    split <;> rfl

open ArtNetOutputData in
theorem prepareData_frameDiff_exampleSink :
    (exampleSink.valid = true ∧ exampleSink.active = true) ∧ exampleSink.lastData = none ∧
      ∀ x < exampleSink.universeCount,
        lastPayload (queuedDuring exampleSink ([] ++ [fun _ => 7])) x = some [7, 7] :=
  ⟨⟨rfl, rfl⟩, rfl, (prepareData_frameDiff exampleSink ⟨rfl, rfl⟩ rfl [] fun _ => 7).1⟩

/-! ## The sequence byte -/

namespace ArtNetOutputData

variable (b : Nat → UInt8)

/-- Every datagram of a call carries the sequence number the call started with. -/
theorem sequenceByte_of_mem_sinkStep {m : Mmsghdr} (hm : m ∈ (sinkStep s b).2) :
    m.header.getD artnetSequenceIndex 0 = s.sequenceNumber := by
  unfold sinkStep at hm
  split at hm
  · rw [prepare_msgs, List.mem_filterMap] at hm
    obtain ⟨x, hx, hq⟩ := hm
    unfold queuedMsg at hq
    split at hq
    · cases hq
      have hx' : x < s.anHeaders.length := by
        rw [s.anHeaders_length]; exact List.mem_range.mp hx
      have hlen : artnetSequenceIndex < s.anHeaders[x].length := by
        rw [s.anHeaders_size _ (List.getElem_mem hx')]; decide
      simp [Mmsghdr.header, universeMsg, sequencedHeader, List.getD_eq_getElem?_getD, hx',
        List.getElem?_set_self hlen]
    · cases hq
  · cases hm

/-- Over a run of an active sink the counter has advanced once per call. -/
theorem toNat_sequenceNumber_afterCalls (hseq : s.sequenceNumber = 1)
    (hva : (s.valid && s.active) = true) (pre : List (Nat → UInt8)) :
    (afterCalls s pre).sequenceNumber.toNat = pre.length % 255 + 1 := by
  induction pre using List.reverseRecOn with
  | nil => simp [afterCalls, hseq]
  | append_singleton pre b ih =>
      obtain ⟨-, -, -, hv, ha⟩ := afterCalls_universeCount s pre
      rw [afterCalls_append_singleton, sinkStep_sequenceNumber, hv, ha, hva, if_pos rfl,
        toNat_nextSequenceNumber (by omega), ih, List.length_append, List.length_singleton]
      omega

end ArtNetOutputData

open ArtNetOutputData in
/-- **Sequence numbers cycle through 1..255.**  On a sink whose counter starts
at 1, as the constructor sets it, every datagram queued by the call that
follows `pre` carries `pre.length % 255 + 1` in header byte 12. -/
theorem prepareData_sequenceNumber (hseq : s.sequenceNumber = 1)
    (pre : List (Nat → UInt8)) (b : Nat → UInt8) :
    ∀ m ∈ (sinkStep (afterCalls s pre) b).2,
      (m.header.getD artnetSequenceIndex 0).toNat = pre.length % 255 + 1 := by
  intro m hm
  cases hva : s.valid && s.active
  · obtain ⟨-, -, -, hv, ha⟩ := afterCalls_universeCount s pre
    rw [sinkStep_of_inactive _ b (by rw [hv, ha]; exact hva)] at hm
    cases hm
  · rw [sequenceByte_of_mem_sinkStep _ b hm, toNat_sequenceNumber_afterCalls s hseq hva]

open ArtNetOutputData in
theorem prepareData_sequenceNumber_exampleSink :
    exampleSink.sequenceNumber = 1 ∧
      (∀ m ∈ (sinkStep (afterCalls exampleSink [fun _ => 0]) fun _ => 1).2,
        (m.header.getD artnetSequenceIndex 0).toNat = 2) ∧
      (sinkStep (afterCalls exampleSink [fun _ => 0]) fun _ => 1).2.map
        (fun m => m.header.getD artnetSequenceIndex 0) = [2, 2] :=
  ⟨rfl, prepareData_sequenceNumber exampleSink rfl [fun _ => 0] (fun _ => 1), by decide⟩

end ChannelOutput
