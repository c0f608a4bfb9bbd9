import Fpp.ChannelOutput.ArtNet.Run

/-!
# The ArtDmx datagrams on the wire

What a datagram queued by `PrepareData` carries, on every sink the
constructor can build and after any run of earlier calls.

* `HeadersBuilt`: each universe's header is the one the constructor's loop
  built for it, except for the sequence byte, which every call that queues the
  universe overwrites.  The constructor establishes it (`headersBuilt_ofConfig`)
  and every call keeps it (`headersBuilt_sinkStep`, `headersBuilt_afterCalls`).
* `mem_sinkStep_segments`: a queued datagram is universe `x`'s header with the
  current sequence number, followed by the `channelCount` bytes at
  `startChannel - 1 + x * channelCount`.
* `universeHeader_fields`: how those 18 bytes decode, while the universe
  number fits the 15 bits ArtDmx gives it and the length fits 16 bits.
* `prepareData_datagram_layout`: all of it together, with the universes'
  windows tiling `GetRequiredChannelRange` exactly.
-/

namespace ChannelOutput

/-! ## The header bytes -/

/-- `(char)v` read back as an unsigned byte is `v` modulo 256. -/
theorem toInt_cByte (v : Int) : ((cByte v).toNat : Int) = v % 256 := by
  have h : (v % 256).toNat < UInt8.size := by simp only [UInt8.size]; omega
  rw [cByte, UInt8.toNat_ofNat_of_lt h]
  omega

/-- **The header of universe number `u`**, whatever its sequence byte `q`: 18
bytes, the ArtDmx prefix ("Art-Net" NUL, opcode 0x5000 low byte first,
protocol version 14), physical port 0, the universe number low byte first with
a 7-bit high byte, and the length high byte first. -/
theorem universeHeader_fields {u : Int} {c : Nat} (q : UInt8) (hu0 : 0 ≤ u)
    (hu : u ≤ 32767) (hc : c ≤ 65535) :
    let h := (universeHeader u c).set artnetSequenceIndex q
    h.length = artnetHeaderLength ∧
    h.take 12 = [0x41, 0x72, 0x74, 0x2D, 0x4E, 0x65, 0x74, 0x00, 0x00, 0x50, 0x00, 0x0E] ∧
    h.getD 13 0 = 0 ∧
    ((h.getD 14 0).toNat + 256 * (h.getD 15 0).toNat : Int) = u ∧
    (h.getD 15 0).toNat < 128 ∧
    256 * (h.getD 16 0).toNat + (h.getD 17 0).toNat = c := by
  have lo := toInt_cByte (u.tmod 256)
  have hi := toInt_cByte (u.tdiv 256)
  have lenHi := toInt_cByte ((c : Int) / 256)
  have lenLo := toInt_cByte ((c : Int) % 256)
  have hmod : u.tmod 256 = u % 256 := Int.tmod_eq_emod hu0 (by decide)
  have hdiv : u.tdiv 256 = u / 256 := Int.tdiv_eq_ediv hu0 (by decide)
  refine ⟨rfl, rfl, rfl, ?_, ?_, ?_⟩
  · show ((cByte (u.tmod 256)).toNat + 256 * (cByte (u.tdiv 256)).toNat : Int) = u
    omega
  · show (cByte (u.tdiv 256)).toNat < 128
    omega
  · show 256 * (cByte ((c : Int) / 256)).toNat + (cByte ((c : Int) % 256)).toNat = c
    omega

/-! ## The headers a sink keeps -/

namespace ArtNetOutputData

/-- Each universe's header is the constructor's, up to the sequence byte. -/
def HeadersBuilt (s : ArtNetOutputData) : Prop :=
  ∀ x < s.universeCount, ∃ q, s.anHeaders.getD x [] =
    (universeHeader (s.universeId + x) s.channelCount).set artnetSequenceIndex q

@[simp] theorem prepare_universeId (s : ArtNetOutputData) (b : Nat → UInt8) :
    (prepare s b).1.universeId = s.universeId := rfl

@[simp] theorem sinkStep_universeId (s : ArtNetOutputData) (b : Nat → UInt8) :
    (sinkStep s b).1.universeId = s.universeId := by
  unfold sinkStep; split <;> rfl

theorem afterCalls_universeId (s : ArtNetOutputData) (bufs : List (Nat → UInt8)) :
    (afterCalls s bufs).universeId = s.universeId := by
  induction bufs generalizing s with
  | nil => rfl
  | cons b bufs ih => simpa [afterCalls] using ih (sinkStep s b).1

theorem getD_headersAfter (s : ArtNetOutputData) (b : Nat → UInt8) (n x : Nat) :
    (headersAfter s b n).getD x [] =
      if x < n ∧ queues s b x = true then
        (s.anHeaders.getD x []).set artnetSequenceIndex s.sequenceNumber
      else s.anHeaders.getD x [] := by
  simp only [headersAfter, List.getD_eq_getElem?_getD, List.getElem?_mapIdx]
  cases s.anHeaders[x]? <;> split <;> rfl

/-- The constructor builds each header from the template. -/
theorem headersBuilt_ofConfig (base : UDPOutputBase) (config : ArtNetConfig)
    (toInetAddr : String → UInt32 × Bool) :
    HeadersBuilt (ofConfig base config toInetAddr).1 := by
  intro x (hx : x < clampUniverseCount config.universeCount)
  refine ⟨0, ?_⟩
  simp only [ofConfig, List.getD_eq_getElem?_getD, List.getElem?_map,
    List.getElem?_range hx, Option.map_some', Option.getD_some]
  rfl

/-- **Step lemma.**  A call only rewrites sequence bytes. -/
theorem headersBuilt_sinkStep {s : ArtNetOutputData} (hs : HeadersBuilt s)
    (b : Nat → UInt8) : HeadersBuilt (sinkStep s b).1 := by
  intro x hx
  rw [sinkStep_universeCount] at hx
  obtain ⟨q, hq⟩ := hs x hx
  unfold sinkStep
  split
  · simp only [prepare_anHeaders, prepare_universeId, prepare_channelCount, getD_headersAfter]
    split
    · exact ⟨s.sequenceNumber, by rw [hq, List.set_set]⟩
    · exact ⟨q, hq⟩
  · exact ⟨q, hq⟩

/-- **Run lemma.** -/
theorem headersBuilt_afterCalls {s : ArtNetOutputData} (hs : HeadersBuilt s)
    (bufs : List (Nat → UInt8)) : HeadersBuilt (afterCalls s bufs) := by
  induction bufs generalizing s with
  | nil => exact hs
  | cons b bufs ih => exact ih (headersBuilt_sinkStep hs b)

/-- A datagram of a call is universe `x`'s header, stamped with the call's
sequence number, and universe `x`'s window of the show buffer. -/
theorem mem_sinkStep_segments {s : ArtNetOutputData} (hs : HeadersBuilt s)
    (b : Nat → UInt8) {m : Mmsghdr} (hm : m ∈ (sinkStep s b).2) :
    ∃ x < s.universeCount, m.msgIov = .anIovecs x ∧ m.segments =
      [(universeHeader (s.universeId + x) s.channelCount).set artnetSequenceIndex
          s.sequenceNumber,
        slice b (s.startChannel - 1 + x * s.channelCount) s.channelCount] := by
  unfold sinkStep at hm
  split at hm
  · rw [prepare_msgs, List.mem_filterMap] at hm
    obtain ⟨x, hx, hq⟩ := hm
    have hx : x < s.universeCount := List.mem_range.mp hx
    unfold queuedMsg at hq
    split at hq
    · cases hq
      obtain ⟨q, hq⟩ := hs x hx
      exact ⟨x, hx, rfl, by simp only [universeMsg, sequencedHeader, hq, List.set_set]⟩
    · cases hq
  · cases hm

end ArtNetOutputData

/-! ## The windows of the universes -/

/-- Universes' windows never overlap. -/
theorem universeWindows_disjoint {a c x y i : Nat} (hxy : x ≠ y) :
    ¬ ((a + x * c ≤ i ∧ i < a + (x + 1) * c) ∧ (a + y * c ≤ i ∧ i < a + (y + 1) * c)) := by
  rintro ⟨⟨hx0, hx1⟩, hy0, hy1⟩
  rcases Nat.lt_or_gt_of_ne hxy with h | h
  · have := Nat.mul_le_mul_right c (show x + 1 ≤ y by omega); omega
  · have := Nat.mul_le_mul_right c (show y + 1 ≤ x by omega); omega

/-- The windows of `n` universes of `c` channels from `a` tile `[a, a + c * n)`. -/
theorem mem_universeWindows {a c n i : Nat} :
    (a ≤ i ∧ i < a + c * n) ↔ ∃ x < n, a + x * c ≤ i ∧ i < a + (x + 1) * c := by
  constructor
  · rintro ⟨h0, h1⟩
    have hc : 0 < c := Nat.pos_of_ne_zero fun h => by subst h; omega
    refine ⟨(i - a) / c, (Nat.div_lt_iff_lt_mul hc).mpr (by rw [Nat.mul_comm]; omega),
      ?_, ?_⟩
    · have := Nat.div_mul_le_self (i - a) c; omega
    · have := Nat.lt_div_mul_add (a := i - a) hc; rw [Nat.succ_mul]; omega
  · rintro ⟨x, hx, h0, h1⟩
    have := Nat.mul_le_mul_right c (show x + 1 ≤ n by omega)
    rw [Nat.mul_comm n] at this
    omega

open ArtNetOutputData in
/-- **The datagrams of `PrepareData`.**  Take a sink as the constructor builds
it, whose first channel is at least 1, whose universe numbers
`universe .. universe + universeCount - 1` fit in 15 bits and whose
`channelCount` fits in 16, and any run of earlier calls `pre`.  Every datagram
the next call queues belongs to a universe `x < universeCount` and has exactly
two segments: an 18-byte ArtDmx header (the fixed prefix, physical port 0,
universe `universe + x` low byte first with a high byte below 128,
`channelCount` high byte first) and the `channelCount` bytes of the buffer from
`startChannel - 1 + x * channelCount`.  Those windows are pairwise disjoint and
together are exactly `[min, max)` of `GetRequiredChannelRange`. -/
theorem prepareData_datagram_layout (base : UDPOutputBase) (config : ArtNetConfig)
    (toInetAddr : String → UInt32 × Bool) (hsc : 1 ≤ base.startChannel)
    (hid : 0 ≤ config.id)
    (hmax : config.id + clampUniverseCount config.universeCount - 1 ≤ 32767)
    (hcc : base.channelCount ≤ 65535) (pre : List (Nat → UInt8)) (b : Nat → UInt8) :
    let s := afterCalls (ofConfig base config toInetAddr).1 pre
    (∀ m ∈ (sinkStep s b).2, ∃ x < s.universeCount, m.msgIov = .anIovecs x ∧
        m.segments = [m.header, m.payload] ∧
        m.header.length = artnetHeaderLength ∧
        m.header.take 12 =
          [0x41, 0x72, 0x74, 0x2D, 0x4E, 0x65, 0x74, 0x00, 0x00, 0x50, 0x00, 0x0E] ∧
        m.header.getD 13 0 = 0 ∧
        ((m.header.getD 14 0).toNat + 256 * (m.header.getD 15 0).toNat : Int) =
          s.universeId + x ∧
        (m.header.getD 15 0).toNat < 128 ∧
        256 * (m.header.getD 16 0).toNat + (m.header.getD 17 0).toNat = s.channelCount ∧
        m.payload = slice b (s.startChannel - 1 + x * s.channelCount) s.channelCount) ∧
    (∀ x < s.universeCount, ∀ y < s.universeCount, x ≠ y → ∀ i,
        ¬ ((s.startChannel - 1 + x * s.channelCount ≤ i ∧
              i < s.startChannel - 1 + (x + 1) * s.channelCount) ∧
            (s.startChannel - 1 + y * s.channelCount ≤ i ∧
              i < s.startChannel - 1 + (y + 1) * s.channelCount))) ∧
    (∀ i : Int, (s.getRequiredChannelRange.1 ≤ i ∧ i < s.getRequiredChannelRange.2) ↔
        ∃ x < s.universeCount,
          ((s.startChannel - 1 + x * s.channelCount : Nat) : Int) ≤ i ∧
          i < ((s.startChannel - 1 + (x + 1) * s.channelCount : Nat) : Int)) := by
  intro s
  obtain ⟨huc, hcc', hsc', -, -⟩ := afterCalls_universeCount (ofConfig base config toInetAddr).1 pre
  have huid : s.universeId = config.id := afterCalls_universeId _ pre
  have hbuilt : HeadersBuilt s := headersBuilt_afterCalls (headersBuilt_ofConfig _ _ _) pre
  have hsc : 1 ≤ s.startChannel := hsc'.symm ▸ hsc
  refine ⟨fun m hm => ?_, fun x _ y _ hxy i => universeWindows_disjoint hxy, fun i => ?_⟩
  · obtain ⟨x, hx, hiov, hseg⟩ := mem_sinkStep_segments hbuilt b hm
    have huc' : s.universeCount = clampUniverseCount config.universeCount := huc
    have hcc' : s.channelCount = base.channelCount := hcc'
    have hh : m.header = (universeHeader (s.universeId + x) s.channelCount).set
        artnetSequenceIndex s.sequenceNumber := by rw [Mmsghdr.header, hseg]; rfl
    have hp : m.payload = slice b (s.startChannel - 1 + x * s.channelCount) s.channelCount := by
      rw [Mmsghdr.payload, hseg]; rfl
    refine ⟨x, hx, hiov, by rw [hseg, hh, hp], ?_⟩
    obtain ⟨hlen, hpre, h13, huni, h15, hlenf⟩ := universeHeader_fields
      (u := s.universeId + x) (c := s.channelCount) s.sequenceNumber (by omega) (by omega)
      (by omega)
    rw [hh, hp]
    exact ⟨hlen, hpre, h13, huni, h15, hlenf, rfl⟩
  · by_cases hi : 0 ≤ i
    · obtain ⟨n, rfl⟩ := Int.eq_ofNat_of_zero_le hi
      have := mem_universeWindows (a := s.startChannel - 1) (c := s.channelCount)
        (n := s.universeCount) (i := n)
      simp only [getRequiredChannelRange]
      constructor
      · rintro ⟨h0, h1⟩
        obtain ⟨x, hx, hw⟩ := this.mp ⟨by omega, by omega⟩
        exact ⟨x, hx, by omega, by omega⟩
      · rintro ⟨x, hx, h0, h1⟩
        have := this.mpr ⟨x, hx, by omega, by omega⟩
        omega
    · simp only [getRequiredChannelRange]
      constructor
      · rintro ⟨h0, -⟩; omega
      · rintro ⟨x, -, h0, -⟩; omega

open ArtNetOutputData in
theorem prepareData_datagram_layout_exampleSink :
    (1 ≤ exampleSink.startChannel ∧ 0 ≤ exampleSink.universeId ∧
      exampleSink.universeId + exampleSink.universeCount - 1 ≤ 32767 ∧
      exampleSink.channelCount ≤ 65535) ∧
    (sinkStep exampleSink fun i => i.toUInt8).2.map Mmsghdr.segments =
      [[[0x41, 0x72, 0x74, 0x2D, 0x4E, 0x65, 0x74, 0x00, 0x00, 0x50, 0x00, 0x0E, 1, 0, 0, 0, 0, 2],
          [0, 1]],
        [[0x41, 0x72, 0x74, 0x2D, 0x4E, 0x65, 0x74, 0x00, 0x00, 0x50, 0x00, 0x0E, 1, 0, 1, 0, 0, 2],
          [2, 3]]] ∧
    (∀ m ∈ (sinkStep exampleSink fun i => i.toUInt8).2, ∃ x < exampleSink.universeCount,
      m.msgIov = .anIovecs x ∧ m.segments = [m.header, m.payload] ∧
      ((m.header.getD 14 0).toNat + 256 * (m.header.getD 15 0).toNat : Int) =
        exampleSink.universeId + x ∧
      m.payload = slice (fun i => i.toUInt8)
        (exampleSink.startChannel - 1 + x * exampleSink.channelCount) exampleSink.channelCount) ∧
    ∀ i : Int, (exampleSink.getRequiredChannelRange.1 ≤ i ∧
        i < exampleSink.getRequiredChannelRange.2) ↔
      ∃ x < exampleSink.universeCount,
        ((exampleSink.startChannel - 1 + x * exampleSink.channelCount : Nat) : Int) ≤ i ∧
        i < ((exampleSink.startChannel - 1 + (x + 1) * exampleSink.channelCount : Nat) : Int) :=
  have layout := prepareData_datagram_layout ⟨true, true, 1, 2, artnetTypeBroadcast, "", le_rfl⟩
    ⟨0, some 2, ""⟩ (fun _ => (0, false)) (by decide) (by decide) (by decide) (by decide) []
    fun i => i.toUInt8
  ⟨by decide, by decide, fun m hm => by
    obtain ⟨x, hx, hiov, hseg, -, -, -, huni, -, -, hpay⟩ := layout.1 m hm
    exact ⟨x, hx, hiov, hseg, huni, hpay⟩, layout.2.2⟩

end ChannelOutput
