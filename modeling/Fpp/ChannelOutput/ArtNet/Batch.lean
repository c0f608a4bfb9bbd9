import Fpp.ChannelOutput.ArtNet.PrepareData

/-!
# One tick of the shared ArtNet batch

In a tick the dispatch loop calls `PrepareData` on every sink, then
`PostPrepareData` on every sink, and only then flushes the batch.  All ArtNet
sinks share the port-6454 list and the one socket bound to that port.  For any
number of sinks, any mix of valid and active flags, any `PrepareData` order and
any `PostPrepareData` order (`artNetTick_batch`):

* the port-6454 list is what it was, then the data datagrams of the valid and
  active sinks in `PrepareData` order, then exactly one ArtSync datagram if any
  sink is valid and active, and none otherwise;
* every `ForceSocket` call is made by a valid and active sink on port 6454, and
  there is at most one when `CreateArtNetSocket()` never returns `-1`.

The first phase is `prepareAll`, the second `postPrepareAll`; each gets its own
run lemma, and the second phase is shown not to depend on the order.
-/

namespace ChannelOutput

namespace ArtNetOutputData

/-- A sink that acts in a tick: `valid && active`. -/
def live (s : ArtNetOutputData) : Bool := s.valid && s.active

/-- The `PrepareData` phase of a tick over the sinks in call order, each with
what `CreateArtNetSocket()` returns if that call makes it: the sinks after
their calls, and the batch. -/
def prepareAll (b : Nat → UInt8) :
    List (ArtNetOutputData × Int) → UDPOutputMessages → List ArtNetOutputData × UDPOutputMessages
  | [], m => ([], m)
  | (s, fd) :: rest, m =>
      let r := prepareData s b fd m
      let r' := prepareAll b rest r.2
      (r.1 :: r'.1, r'.2)

/-- The `PostPrepareData` phase of a tick over the sinks in call order. -/
def postPrepareAll (sinks : List ArtNetOutputData) (m : UDPOutputMessages) : UDPOutputMessages :=
  sinks.foldl (fun m s => postPrepareData s m) m

/-- Whether the port-6454 list holds an ArtSync datagram. -/
def HasSync (m : UDPOutputMessages) : Prop :=
  (m.messages artnetDestPort).any Mmsghdr.isSync = true

variable (b : Nat → UInt8)

theorem isSync_of_mem_sinkStep {s : ArtNetOutputData} {msg : Mmsghdr}
    (h : msg ∈ (sinkStep s b).2) : msg.isSync = false := by
  unfold sinkStep at h
  split at h
  · rw [prepare_msgs, List.mem_filterMap] at h
    obtain ⟨x, -, hq⟩ := h
    unfold queuedMsg at hq
    split at hq
    · cases hq; rfl
    · cases hq
  · cases h

theorem prepareData_messages_ne (s : ArtNetOutputData) (fd : Int) (m : UDPOutputMessages)
    {p : Nat} (hp : p ≠ artnetDestPort) :
    (prepareData s b fd m).2.messages p = m.messages p := by
  unfold prepareData; split <;> (try split) <;> simp [UDPOutputMessages.append, hp]

/-- A `PrepareData` call either leaves the socket log alone or, on a live sink
finding no socket, forces `fd` on port 6454; afterwards that port's socket is
`fd` or what it was. -/
theorem prepareData_forceSocketCalls (s : ArtNetOutputData) (fd : Int) (m : UDPOutputMessages) :
    ((prepareData s b fd m).2.forceSocketCalls = m.forceSocketCalls ∧
      ((prepareData s b fd m).2.getSocket artnetDestPort = m.getSocket artnetDestPort)) ∨
    (live s = true ∧ m.getSocket artnetDestPort = -1 ∧
      (prepareData s b fd m).2.forceSocketCalls = m.forceSocketCalls ++ [(artnetDestPort, fd)] ∧
      (prepareData s b fd m).2.getSocket artnetDestPort = fd) := by
  unfold prepareData live
  split
  · split
    · exact .inr ⟨by assumption, by assumption, by simp, by simp⟩
    · exact .inl ⟨by simp, by simp⟩
  · exact .inl ⟨rfl, rfl⟩

/-- **Run lemma of the first phase.** -/
theorem prepareAll_spec (calls : List (ArtNetOutputData × Int)) (m : UDPOutputMessages) :
    (prepareAll b calls m).1 = calls.map (fun c => (sinkStep c.1 b).1) ∧
    (prepareAll b calls m).2.messages artnetDestPort =
      m.messages artnetDestPort ++ (calls.map fun c => (sinkStep c.1 b).2).flatten ∧
    (∀ p ≠ artnetDestPort, (prepareAll b calls m).2.messages p = m.messages p) ∧
    ∃ new, (prepareAll b calls m).2.forceSocketCalls = m.forceSocketCalls ++ new ∧
      (∀ e ∈ new, e.1 = artnetDestPort ∧ ∃ c ∈ calls, live c.1 = true ∧ e.2 = c.2) ∧
      ((∀ c ∈ calls, c.2 ≠ -1) →
        new.length ≤ if m.getSocket artnetDestPort = -1 then 1 else 0) := by
  induction calls generalizing m with
  | nil => exact ⟨rfl, by simp [prepareAll], fun _ _ => rfl, [], by simp [prepareAll]⟩
  | cons c rest ih =>
      obtain ⟨s, fd⟩ := c
      obtain ⟨h1, h2, h3, new, h4, h5, h6⟩ := ih (prepareData s b fd m).2
      refine ⟨by simp [prepareAll, h1, prepareData_fst], ?_, fun p hp => ?_, ?_⟩
      · simp [prepareAll, h2, prepareData_messages]
      · simp [prepareAll, h3 p hp, prepareData_messages_ne b s fd m hp]
      · rcases prepareData_forceSocketCalls b s fd m with ⟨hf, hg⟩ | ⟨hl, hg0, hf, hg⟩
        · refine ⟨new, by simp [prepareAll, h4, hf], fun e he => ?_, fun hfd => ?_⟩
          · obtain ⟨hp, c, hc, hlc, he2⟩ := h5 e he
            exact ⟨hp, c, List.mem_cons_of_mem _ hc, hlc, he2⟩
          · rw [← hg]; exact h6 fun c hc => hfd c (List.mem_cons_of_mem _ hc)
        · refine ⟨(artnetDestPort, fd) :: new, by simp [prepareAll, h4, hf], ?_, fun hfd => ?_⟩
          · intro e he
            rcases List.mem_cons.mp he with rfl | he
            · exact ⟨rfl, (s, fd), List.mem_cons_self _ _, hl, rfl⟩
            · obtain ⟨hp, c, hc, hlc, he2⟩ := h5 e he
              exact ⟨hp, c, List.mem_cons_of_mem _ hc, hlc, he2⟩
          · have hne : fd ≠ -1 := hfd (s, fd) (List.mem_cons_self _ _)
            have := h6 fun c hc => hfd c (List.mem_cons_of_mem _ hc)
            rw [hg, if_neg hne] at this
            rw [hg0, if_pos rfl, List.length_cons]; omega

/-- The datagrams of the first phase are those of its live sinks. -/
theorem flatten_sinkStep (calls : List (ArtNetOutputData × Int)) :
    (calls.map fun c => (sinkStep c.1 b).2).flatten =
      ((calls.filter fun c => live c.1).map fun c => (prepare c.1 b).2).flatten := by
  induction calls with
  | nil => rfl
  | cons c rest ih =>
      cases hc : live c.1
      · rw [List.filter_cons_of_neg (by simp [hc]), ← ih, List.map_cons, List.flatten_cons,
          sinkStep_of_inactive _ b hc]
        rfl
      · have hva : (c.1.valid && c.1.active) = true := hc
        simp only [List.filter_cons, hc, if_true, List.map_cons, List.flatten_cons, ← ih, sinkStep,
          hva]

theorem postPrepareData_of_hasSync (s : ArtNetOutputData) {m : UDPOutputMessages}
    (h : HasSync m) : postPrepareData s m = m := by
  unfold postPrepareData; unfold HasSync at h; simp [h]

theorem postPrepareData_of_not_live {s : ArtNetOutputData} (hs : live s = false)
    (m : UDPOutputMessages) : postPrepareData s m = m := by
  unfold postPrepareData; unfold live at hs; simp [hs]

theorem postPrepareData_of_live {s : ArtNetOutputData} (hs : live s = true)
    {m : UDPOutputMessages} (h : ¬ HasSync m) :
    postPrepareData s m = m.append artnetDestPort [artNetSyncMsg] := by
  unfold postPrepareData; unfold live at hs; unfold HasSync at h; simp [hs, h]

theorem hasSync_append_sync (m : UDPOutputMessages) :
    HasSync (m.append artnetDestPort [artNetSyncMsg]) := by
  simp [HasSync, artNetSyncMsg, Mmsghdr.isSync]

/-- Once the list holds an ArtSync datagram, the phase changes nothing. -/
theorem postPrepareAll_of_hasSync (sinks : List ArtNetOutputData) {m : UDPOutputMessages}
    (h : HasSync m) : postPrepareAll sinks m = m := by
  induction sinks with
  | nil => rfl
  | cons s rest ih => rw [postPrepareAll, List.foldl_cons, postPrepareData_of_hasSync s h]; exact ih

/-- **Run lemma of the second phase.**  From a list without an ArtSync
datagram, the phase appends one exactly when some sink is live. -/
theorem postPrepareAll_of_not_hasSync (sinks : List ArtNetOutputData) {m : UDPOutputMessages}
    (h : ¬ HasSync m) :
    postPrepareAll sinks m =
      if sinks.any live then m.append artnetDestPort [artNetSyncMsg] else m := by
  induction sinks generalizing m with
  | nil => rfl
  | cons s rest ih =>
      rw [postPrepareAll, List.foldl_cons, List.any_cons]
      cases hs : live s
      · rw [postPrepareData_of_not_live hs]; exact ih h
      · rw [postPrepareData_of_live hs h]
        exact postPrepareAll_of_hasSync rest (hasSync_append_sync m)

end ArtNetOutputData

open ArtNetOutputData

/-- **One tick of the shared batch.**  Let the sinks be prepared in the order
of `calls`, each with the socket `CreateArtNetSocket()` would return there,
starting from a batch whose port-6454 list holds no ArtSync datagram, and then
post-prepared in any order `post`.  The port-6454 list ends as the old list,
the data datagrams of the live sinks in call order, and one ArtSync datagram
exactly when a sink is live; no other port changes; every `ForceSocket` call of
the tick is a live sink's call on port 6454, and there is at most one when no
call gets `-1`. -/
theorem artNetTick_batch (calls : List (ArtNetOutputData × Int)) (b : Nat → UInt8)
    (m : UDPOutputMessages) (hm : ¬ HasSync m) (post : List ArtNetOutputData)
    (hpost : post.Perm (prepareAll b calls m).1) :
    (postPrepareAll post (prepareAll b calls m).2).messages artnetDestPort =
      m.messages artnetDestPort ++
        ((calls.filter fun c => live c.1).map fun c => (prepare c.1 b).2).flatten ++
        (if calls.any (fun c => live c.1) then [artNetSyncMsg] else []) ∧
    (∀ p ≠ artnetDestPort,
      (postPrepareAll post (prepareAll b calls m).2).messages p = m.messages p) ∧
    ∃ new, (postPrepareAll post (prepareAll b calls m).2).forceSocketCalls =
        m.forceSocketCalls ++ new ∧
      (∀ e ∈ new, e.1 = artnetDestPort ∧ ∃ c ∈ calls, live c.1 = true ∧ e.2 = c.2) ∧
      ((∀ c ∈ calls, c.2 ≠ -1) → new.length ≤ 1) := by
  obtain ⟨h1, h2, h3, new, h4, h5, h6⟩ := prepareAll_spec b calls m
  have hlive : post.any live = calls.any fun c => live c.1 := by
    rw [Bool.eq_iff_iff, List.any_eq_true, List.any_eq_true]
    simp only [hpost.mem_iff, h1, List.mem_map]
    constructor
    · rintro ⟨_, ⟨c, hc, rfl⟩, hl⟩; exact ⟨c, hc, by simpa [live] using hl⟩
    · rintro ⟨c, hc, hl⟩; exact ⟨_, ⟨c, hc, rfl⟩, by simpa [live] using hl⟩
  have hnot : ¬ HasSync (prepareAll b calls m).2 := by
    simp only [HasSync, h2, List.any_append, Bool.or_eq_true, not_or]
    refine ⟨by simpa [HasSync] using hm, ?_⟩
    simp only [List.any_eq_true, List.mem_flatten, List.mem_map, not_exists, not_and]
    rintro msg ⟨_, ⟨c, -, rfl⟩, hmsg⟩
    simp [isSync_of_mem_sinkStep b hmsg]
  simp only [postPrepareAll_of_not_hasSync post hnot, hlive]
  refine ⟨?_, fun p hp => ?_, new, ?_, h5, fun hfd => (h6 hfd).trans (by split <;> omega)⟩
  · split <;> simp [h2, flatten_sinkStep]
  · split <;> simp [UDPOutputMessages.append, hp, h3 p hp]
  · split <;> simp [h4]

/-- `exampleSink` switched off. -/
def inactiveSink : ArtNetOutputData := { exampleSink with active := false }

/-- A one-universe broadcast sink for universe 2 on channels 5..7. -/
def universe2Sink : ArtNetOutputData :=
  (ArtNetOutputData.ofConfig ⟨true, true, 5, 3, artnetTypeBroadcast, "", by decide⟩ ⟨2, none, ""⟩
    fun _ => (0, false)).1

/-- Three sinks prepared in turn, the middle one inactive, each offered
socket 3. -/
def threeCalls : List (ArtNetOutputData × Int) :=
  [(exampleSink, 3), (inactiveSink, 3), (universe2Sink, 3)]

theorem artNetTick_batch_threeSinks :
    ¬ HasSync .empty ∧
      (prepareAll (fun _ => 0) threeCalls .empty).1.reverse.Perm
        (prepareAll (fun _ => 0) threeCalls .empty).1 ∧
      (postPrepareAll (prepareAll (fun _ => 0) threeCalls .empty).1.reverse
          (prepareAll (fun _ => 0) threeCalls .empty).2).messages artnetDestPort =
        ([] : List Mmsghdr) ++
          ((threeCalls.filter fun c => live c.1).map fun c => (prepare c.1 fun _ => 0).2).flatten ++
          (if threeCalls.any (fun c => live c.1) then [artNetSyncMsg] else []) ∧
      ((postPrepareAll (prepareAll (fun _ => 0) threeCalls .empty).1.reverse
          (prepareAll (fun _ => 0) threeCalls .empty).2).messages artnetDestPort).map
        (fun m => (m.isSync, m.header.getD artnetUniverseIndex 0)) =
        [(false, 0), (false, 1), (false, 2), (true, 0)] ∧
      (postPrepareAll (prepareAll (fun _ => 0) threeCalls .empty).1.reverse
          (prepareAll (fun _ => 0) threeCalls .empty).2).forceSocketCalls = [(artnetDestPort, 3)] :=
  ⟨by simp [HasSync, UDPOutputMessages.empty], List.reverse_perm _,
    (artNetTick_batch threeCalls (fun _ => 0) .empty
      (by simp [HasSync, UDPOutputMessages.empty]) _ (List.reverse_perm _)).1, by decide, by decide⟩

end ChannelOutput
