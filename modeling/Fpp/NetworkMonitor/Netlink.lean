import Mathlib.Algebra.Group.Nat.Basic
import Mathlib.Data.List.GetD
import Fpp.NetworkMonitor.Registry

/-!
# The netlink poll handler of `NetworkMonitor::Init`

`Init` registers on the netlink socket a handler that drains the socket:
`recvmsg` copies the next datagram into the 4096-byte stack buffer `buf` and
returns its length `status`, and while `status > 0` the handler walks the
messages of the datagram with `NLMSG_OK`/`NLMSG_NEXT`, decoding link and IPv4
address messages into `callCallbacks` calls, until a `NLMSG_DONE` or
`NLMSG_ERROR` message or the end of the datagram.

The model keeps the C arithmetic of the walk: `NLMSG_OK` is evaluated on
`(unsigned int)status`, and `NLMSG_NEXT` subtracts the 32-bit
`NLMSG_ALIGN(nlmsg_len)` from it, so `u` below is `status` modulo `2 ^ 32`.
`buf` is a byte function: past the datagram it holds whatever an earlier
datagram or the stack left there.  Each walk records the structures it
dereferences (`NlAccess`), and runs on fuel, since on some byte contents it
never ends.  Fields are read in the host's byte order, little-endian.

* `walk_wellFormed`, `pollHandler_spec`: on datagrams that are
  concatenations of well-formed messages the walk visits exactly those
  messages, reads only the datagram, and the handler makes the calls the
  messages announce (`specEvents`); `pollHandler_events` and
  `pollHandler_reads_within` state the two halves.
* `pollHandler_stops_at_empty`: a zero-length datagram ends the drain.
* `walk_aligned`, `pollHandler_aligned`: on datagrams whose length is a
  multiple of four, whatever their bytes, every walk ends, the handler drains
  the socket, and every header it reads lies inside its datagram; only the
  decoded message bodies can reach past it.
* `pollHandler_walk_unsafe`: a short link message is decoded past the
  datagram, and an unaligned last message sends the walk into stale bytes
  where it never ends.
-/

namespace NetworkMonitor

/-! ## Constants of `linux/netlink.h`, `linux/rtnetlink.h` and `net/if.h` -/

/-- `sizeof(struct nlmsghdr)`, also `NLMSG_HDRLEN`. -/
def nlmsghdrSize : Nat := 16
/-- `sizeof(struct ifinfomsg)`. -/
def ifinfomsgSize : Nat := 16
/-- `sizeof(struct ifaddrmsg)`. -/
def ifaddrmsgSize : Nat := 8
/-- `NLMSG_ERROR`. -/
def nlmsgError : Nat := 2
/-- `NLMSG_DONE`. -/
def nlmsgDone : Nat := 3
/-- `RTM_NEWLINK`. -/
def rtmNewlink : Nat := 16
/-- `RTM_DELLINK`. -/
def rtmDellink : Nat := 17
/-- `RTM_NEWADDR`. -/
def rtmNewaddr : Nat := 20
/-- `RTM_DELADDR`. -/
def rtmDeladdr : Nat := 21
/-- `IFF_RUNNING`. -/
def iffRunning : Nat := 0x40
/-- `AF_INET`. -/
def afInet : Nat := 2
/-- `sizeof buf`. -/
def bufSize : Nat := 4096

/-! ## Reading the buffer -/

/-- The unsigned field of `n` bytes at `off`, least significant byte first. -/
def readLE (buf : Nat → UInt8) (off : Nat) : Nat → Nat
  | 0 => 0
  | n + 1 => (buf off).toNat + 256 * readLE buf (off + 1) n

/-- A field reads the same from two buffers that agree on its bytes. -/
theorem readLE_congr {f g : Nat → UInt8} {a b : Nat} :
    ∀ {n : Nat}, (∀ i < n, f (a + i) = g (b + i)) → readLE f a n = readLE g b n
  | 0, _ => rfl
  | n + 1, h => by
      simp only [readLE]
      rw [show f a = g b from h 0 (by omega), readLE_congr (a := a + 1) (b := b + 1)
        fun i hi => by simpa only [Nat.add_assoc, Nat.add_comm 1 i] using h (i + 1) (by omega)]

/-- `NLMSG_ALIGN(len)` on the 32-bit `nlmsg_len`: `(len + 3) & ~3`. -/
def nlmsgAlign (len : Nat) : Nat := (len + 3) % 2 ^ 32 / 4 * 4

theorem nlmsgAlign_of_aligned {len : Nat} (h4 : len % 4 = 0) (hlt : len < 2 ^ 32 - 3) :
    nlmsgAlign len = len := by
  unfold nlmsgAlign
  rw [Nat.mod_eq_of_lt (by omega)]
  omega

/-- A structure the walk dereferences, at its offset in `buf`. -/
inductive NlAccess
  | nlmsghdr (off : Nat)
  | ifinfomsg (off : Nat)
  | ifaddrmsg (off : Nat)
  deriving DecidableEq, Repr

/-- Where a structure starts. -/
def NlAccess.start : NlAccess → Nat
  | .nlmsghdr off | .ifinfomsg off | .ifaddrmsg off => off

/-- The size of a structure. -/
def NlAccess.size : NlAccess → Nat
  | .nlmsghdr _ => nlmsghdrSize
  | .ifinfomsg _ => ifinfomsgSize
  | .ifaddrmsg _ => ifaddrmsgSize

/-- A structure lies within the bytes `[lo, hi)`. -/
def NlAccess.Within (lo hi : Nat) (a : NlAccess) : Prop := lo ≤ a.start ∧ a.start + a.size ≤ hi

/-! ## The handler -/

section Handler

variable (ifIndextoname : Nat → Option String) (buf : Nat → UInt8)

/-- The `switch` on the message at `off`: whether the walk goes on (`OK`), the
`callCallbacks` call it makes, and the structure it decodes.  A failed
`if_indextoname` leaves the name empty. -/
def handleMessage (off : Nat) : Bool × List NetEvent × List NlAccess :=
  let type := readLE buf (off + 4) 2
  if type = nlmsgDone ∨ type = nlmsgError then (false, [], [])
  else if type = rtmNewlink ∨ type = rtmDellink then
    let ifi := off + nlmsghdrSize
    (true, [⟨if type = rtmNewlink then .newLink else .delLink,
        if readLE buf (ifi + 8) 4 &&& iffRunning ≠ 0 then 1 else 0,
        (ifIndextoname (readLE buf (ifi + 4) 4)).getD ""⟩], [.ifinfomsg ifi])
  else if type = rtmNewaddr ∨ type = rtmDeladdr then
    let ifa := off + nlmsghdrSize
    if (buf ifa).toNat = afInet then
      (true, [⟨if type = rtmNewaddr then .newAddr else .delAddr,
          if type = rtmNewaddr then 1 else 0,
          (ifIndextoname (readLE buf (ifa + 4) 4)).getD ""⟩], [.ifaddrmsg ifa])
    else (true, [], [.ifaddrmsg ifa])
  else (true, [], [])

/-- The `for` loop over the messages of one datagram, with `h` at `off` and
`(unsigned int)status` at `u`: the calls made and the structures
dereferenced, or `none` if `fuel` iterations do not finish it.  `NLMSG_OK`
tests `u` first and reads `nlmsg_len` only if `u >= 16`. -/
def walk : Nat → Nat → Nat → Option (List NetEvent × List NlAccess)
  | 0, _, _ => none
  | fuel + 1, off, u =>
    if u < nlmsghdrSize then some ([], [])
    else
      let len := readLE buf off 4
      if len < nlmsghdrSize ∨ u < len then some ([], [.nlmsghdr off])
      else
        let r := handleMessage ifIndextoname buf off
        let rest := if r.1 then
            walk fuel (off + nlmsgAlign len) ((u + 2 ^ 32 - nlmsgAlign len) % 2 ^ 32)
          else some ([], [])
        rest.map fun t => (r.2.1 ++ t.1, .nlmsghdr off :: r.2.2 ++ t.2)

/-- `NLMSG_OK` fails on the length left: the walk stops. -/
theorem walk_of_lt {off u fuel : Nat} (hu : u < nlmsghdrSize) :
    walk ifIndextoname buf (fuel + 1) off u = some ([], []) := by
  simp only [walk, if_pos hu]

/-- `NLMSG_OK` holds: the `switch` runs on the message, then `NLMSG_NEXT`. -/
theorem walk_step {off u fuel len : Nat} (hu : nlmsghdrSize ≤ u)
    (hlen : readLE buf off 4 = len) (hhdr : nlmsghdrSize ≤ len) (hlu : len ≤ u) :
    walk ifIndextoname buf (fuel + 1) off u =
      (if (handleMessage ifIndextoname buf off).1 then
          walk ifIndextoname buf fuel (off + nlmsgAlign len) ((u + 2 ^ 32 - nlmsgAlign len) % 2 ^ 32)
        else some ([], [])).map fun t =>
        ((handleMessage ifIndextoname buf off).2.1 ++ t.1,
          .nlmsghdr off :: (handleMessage ifIndextoname buf off).2.2 ++ t.2) := by
  simp only [walk, hlen]
  rw [if_neg (by omega), if_neg (by omega)]

/-- A datagram's last message, 4-aligned, claiming all the length left: the
walk handles it and stops there, whether or not the `switch` ends the walk. -/
theorem walk_last_aligned {off u fuel : Nat} (hu : nlmsghdrSize ≤ u)
    (hlen : readLE buf off 4 = u) (h4 : u % 4 = 0) (hlt : u < 2 ^ 32 - 3) :
    walk ifIndextoname buf (fuel + 2) off u =
      some ((handleMessage ifIndextoname buf off).2.1,
        .nlmsghdr off :: (handleMessage ifIndextoname buf off).2.2) := by
  rw [walk_step ifIndextoname buf hu hlen hu le_rfl, nlmsgAlign_of_aligned h4 hlt,
    show (u + 2 ^ 32 - u) % 2 ^ 32 = 0 by omega]
  split <;> simp only [walk_of_lt ifIndextoname buf (show 0 < nlmsghdrSize by decide),
    Option.map_some', List.append_nil]

end Handler

/-- `buf` once `recvmsg` has copied datagram `d` in: its first `4096` bytes
at the start, the rest of `buf` as before. -/
def received (buf : Nat → UInt8) (d : List UInt8) : Nat → UInt8 :=
  fun i => if i < min d.length bufSize then d.getD i 0 else buf i

/-- The poll handler, on the queue of datagrams of the socket.  `recvmsg`
pops the next datagram and returns its length, cut to `sizeof buf`, or `-1`
once the queue is empty; `while (status > 0)` walks it and receives again.
The result: for each datagram walked, its `status`, the calls and the
structures dereferenced; then the datagrams left queued. -/
def pollHandler (ifIndextoname : Nat → Option String) (fuel : Nat) (buf : Nat → UInt8) :
    List (List UInt8) → Option (List (Nat × List NetEvent × List NlAccess) × List (List UInt8))
  | [] => some ([], [])
  | d :: rest =>
    if min d.length bufSize = 0 then some ([], rest)
    else
      (walk ifIndextoname (received buf d) fuel 0 (min d.length bufSize)).bind fun w =>
        (pollHandler ifIndextoname fuel (received buf d) rest).map fun r =>
          ((min d.length bufSize, w) :: r.1, r.2)

/-! ## The messages a datagram announces -/

/-- A message's bytes, read as a buffer. -/
def msgBytes (m : List UInt8) : Nat → UInt8 := fun i => m.getD i 0

/-- `nlmsg_type` of a message. -/
def msgType (m : List UInt8) : Nat := readLE (msgBytes m) 4 2

/-- Whether a message ends the walk of its datagram: `NLMSG_DONE` or
`NLMSG_ERROR`. -/
def endsDatagram (m : List UInt8) : Bool := msgType m = nlmsgDone ∨ msgType m = nlmsgError

/-- A netlink message as the kernel sends it: `nlmsg_len` is its length, a
multiple of 4 and at least a header, and a link or address message holds its
`ifinfomsg` or `ifaddrmsg`. -/
structure WellFormedMsg (m : List UInt8) : Prop where
  len_eq : readLE (msgBytes m) 0 4 = m.length
  aligned : m.length % 4 = 0
  hdr_le : nlmsghdrSize ≤ m.length
  link_le : msgType m = rtmNewlink ∨ msgType m = rtmDellink →
    nlmsghdrSize + ifinfomsgSize ≤ m.length
  addr_le : msgType m = rtmNewaddr ∨ msgType m = rtmDeladdr →
    nlmsghdrSize + ifaddrmsgSize ≤ m.length

/-- The specification's reading of a message, against which the poll
handler's `switch` is checked (`pollHandler_events`): the call the message
announces.  A link message
gives `NEW_LINK` or `DEL_LINK`, 1 iff `IFF_RUNNING` is set in `ifi_flags`, and
the name of `ifi_index`; an IPv4 address message gives `NEW_ADDR` with 1 or
`DEL_ADDR` with 0, and the name of `ifa_index`; any other message none. -/
def specMessageEvent (ifIndextoname : Nat → Option String) (m : List UInt8) :
    Option NetEvent :=
  if msgType m = rtmNewlink ∨ msgType m = rtmDellink then
    some ⟨if msgType m = rtmNewlink then .newLink else .delLink,
      if readLE (msgBytes m) 24 4 &&& iffRunning ≠ 0 then 1 else 0,
      (ifIndextoname (readLE (msgBytes m) 20 4)).getD ""⟩
  else if (msgType m = rtmNewaddr ∨ msgType m = rtmDeladdr) ∧ (msgBytes m 16).toNat = afInet then
    some ⟨if msgType m = rtmNewaddr then .newAddr else .delAddr,
      if msgType m = rtmNewaddr then 1 else 0,
      (ifIndextoname (readLE (msgBytes m) 20 4)).getD ""⟩
  else none

/-- The specification's reading of a datagram: the calls its messages
announce, up to its first `NLMSG_DONE` or `NLMSG_ERROR`. -/
def specEvents (ifIndextoname : Nat → Option String) (msgs : List (List UInt8)) :
    List NetEvent :=
  (msgs.takeWhile fun m => !endsDatagram m).filterMap (specMessageEvent ifIndextoname)

theorem specEvents_cons (ifIndextoname : Nat → Option String) (m : List UInt8)
    (msgs : List (List UInt8)) :
    specEvents ifIndextoname (m :: msgs) =
      if endsDatagram m then []
      else (specMessageEvent ifIndextoname m).toList ++ specEvents ifIndextoname msgs := by
  unfold specEvents
  cases h : endsDatagram m <;> cases h' : specMessageEvent ifIndextoname m <;>
    simp [List.takeWhile_cons, List.filterMap_cons, h, h']

/-! ## Well-formed datagrams -/

section WellFormed

variable (ifIndextoname : Nat → Option String)

/-- Reading a message in place: a field within the message reads as in the
message's own bytes. -/
theorem readLE_msg {buf : Nat → UInt8} {off : Nat} {m : List UInt8}
    (hbuf : ∀ i < m.length, buf (off + i) = m.getD i 0) {k n : Nat} (h : k + n ≤ m.length) :
    readLE buf (off + k) n = readLE (msgBytes m) k n :=
  readLE_congr fun i hi => by rw [Nat.add_assoc]; exact hbuf (k + i) (by omega)

/-- **One message in place.**  The `switch` goes on exactly when the message
does not end the datagram, makes the call the message announces, and
decodes only bytes of the message. -/
theorem handleMessage_msg {buf : Nat → UInt8} {off : Nat} {m : List UInt8}
    (hm : WellFormedMsg m) (hbuf : ∀ i < m.length, buf (off + i) = m.getD i 0) :
    (handleMessage ifIndextoname buf off).1 = !endsDatagram m ∧
    (handleMessage ifIndextoname buf off).2.1 =
      (if endsDatagram m then [] else (specMessageEvent ifIndextoname m).toList) ∧
    ∀ a ∈ (handleMessage ifIndextoname buf off).2.2, a.Within off (off + m.length) := by
  have hhdr := hm.hdr_le
  simp only [nlmsghdrSize] at hhdr
  have htype : readLE buf (off + 4) 2 = msgType m := readLE_msg hbuf (by omega)
  unfold handleMessage endsDatagram specMessageEvent
  simp only [htype]
  by_cases hstop : msgType m = nlmsgDone ∨ msgType m = nlmsgError
  · simp [hstop]
  by_cases hlink : msgType m = rtmNewlink ∨ msgType m = rtmDellink
  · have hl := hm.link_le hlink
    simp only [nlmsghdrSize, ifinfomsgSize] at hl
    have hflags : readLE buf (off + nlmsghdrSize + 8) 4 = readLE (msgBytes m) 24 4 := by
      rw [Nat.add_assoc]; exact readLE_msg hbuf (by simp only [nlmsghdrSize]; omega)
    have hindex : readLE buf (off + nlmsghdrSize + 4) 4 = readLE (msgBytes m) 20 4 := by
      rw [Nat.add_assoc]; exact readLE_msg hbuf (by simp only [nlmsghdrSize]; omega)
    rw [hflags, hindex]
    simp [hstop, hlink, NlAccess.Within, NlAccess.start, NlAccess.size, nlmsghdrSize,
      ifinfomsgSize]
    omega
  by_cases haddr : msgType m = rtmNewaddr ∨ msgType m = rtmDeladdr
  · have hl := hm.addr_le haddr
    simp only [nlmsghdrSize, ifaddrmsgSize] at hl
    have hindex : readLE buf (off + nlmsghdrSize + 4) 4 = readLE (msgBytes m) 20 4 := by
      rw [Nat.add_assoc]; exact readLE_msg hbuf (by simp only [nlmsghdrSize]; omega)
    have hfam : buf (off + nlmsghdrSize) = msgBytes m 16 := hbuf 16 (by omega)
    rw [hfam, hindex]
    by_cases hfam' : (msgBytes m 16).toNat = afInet <;>
      simp [hstop, hlink, haddr, hfam', NlAccess.Within, NlAccess.start, NlAccess.size,
        nlmsghdrSize, ifaddrmsgSize] <;> omega
  · simp [hstop, hlink, haddr]

/-- Well-formed messages are at least a header each. -/
theorem length_le_flatten {msgs : List (List UInt8)} (hwf : ∀ m ∈ msgs, WellFormedMsg m) :
    nlmsghdrSize * msgs.length ≤ msgs.flatten.length := by
  induction msgs with
  | nil => simp
  | cons m ms ih =>
    have := (hwf m (List.mem_cons_self _ _)).hdr_le
    have := ih fun m' h => hwf m' (List.mem_cons_of_mem _ h)
    simp only [List.length_cons, List.flatten_cons, List.length_append, Nat.mul_succ]
    omega

/-- **The walk over well-formed messages.**  From `h` at the first of a run
of well-formed messages lying in `buf`, with `status` their total length,
the walk visits exactly those messages: it makes the calls they announce,
stops at the first `NLMSG_DONE` or `NLMSG_ERROR`, dereferences only their
bytes, and needs one iteration per message and one to stop. -/
theorem walk_wellFormed : ∀ {msgs : List (List UInt8)}, (∀ m ∈ msgs, WellFormedMsg m) →
    ∀ {buf : Nat → UInt8} {off : Nat},
    (∀ i < msgs.flatten.length, buf (off + i) = msgs.flatten.getD i 0) →
    msgs.flatten.length < 2 ^ 32 - 3 → ∀ {fuel : Nat}, msgs.length < fuel →
    ∃ acc, walk ifIndextoname buf fuel off msgs.flatten.length =
        some (specEvents ifIndextoname msgs, acc) ∧
      ∀ a ∈ acc, a.Within off (off + msgs.flatten.length)
  | [], _, buf, off, _, _, fuel + 1, _ => ⟨[], rfl, fun _ h => absurd h (List.not_mem_nil _)⟩
  | m :: ms, hwf, buf, off, hbuf, hlen, fuel + 1, hfuel => by
    have hm := hwf m (List.mem_cons_self _ _)
    have hhdr := hm.hdr_le
    simp only [nlmsghdrSize] at hhdr
    simp only [List.flatten_cons, List.length_append] at hbuf hlen ⊢
    have hbm : ∀ i < m.length, buf (off + i) = m.getD i 0 := fun i hi => by
      rw [hbuf i (by omega), List.getD_append _ _ _ _ hi]
    have hbms : ∀ i < ms.flatten.length, buf (off + m.length + i) = ms.flatten.getD i 0 :=
      fun i hi => by
        rw [Nat.add_assoc, hbuf _ (by omega), List.getD_append_right _ _ _ _ (by omega),
          Nat.add_sub_cancel_left]
    have hread : readLE buf off 4 = m.length := by
      have := readLE_msg hbm (k := 0) (n := 4) (by omega)
      rwa [Nat.add_zero, hm.len_eq] at this
    obtain ⟨hcont, hevs, hacc⟩ := handleMessage_msg ifIndextoname hm hbm
    simp only [walk, hread, nlmsghdrSize]
    rw [if_neg (by omega), if_neg (by omega), hcont]
    cases hstop : endsDatagram m
    · -- the walk goes on with the next message
      have hfuel' : ms.length < fuel := by simp only [List.length_cons] at hfuel; omega
      obtain ⟨acc, hw, hin⟩ := walk_wellFormed
        (fun m' h => hwf m' (List.mem_cons_of_mem _ h)) hbms (by omega) hfuel'
      rw [nlmsgAlign_of_aligned hm.aligned (by omega),
        show (m.length + ms.flatten.length + 2 ^ 32 - m.length) % 2 ^ 32 = ms.flatten.length
          by omega]
      refine ⟨.nlmsghdr off :: (handleMessage ifIndextoname buf off).2.2 ++ acc, ?_,
        fun a ha => ?_⟩
      · simp only [Bool.not_false, if_true, hw, Option.map_some', specEvents_cons, hevs, hstop,
          Bool.false_eq_true, if_false]
      simp only [List.mem_cons, List.mem_append] at ha
      rcases ha with (rfl | ha) | ha
      · simp only [NlAccess.Within, NlAccess.start, NlAccess.size, nlmsghdrSize]; omega
      · have := hacc a ha; simp only [NlAccess.Within] at this ⊢; omega
      · have := hin a ha; simp only [NlAccess.Within] at this ⊢; omega
    · -- `NLMSG_DONE` or `NLMSG_ERROR`: `OK = false` ends the walk
      refine ⟨.nlmsghdr off :: (handleMessage ifIndextoname buf off).2.2 ++ [], ?_,
        fun a ha => ?_⟩
      · simp only [Bool.not_true, Bool.false_eq_true, if_false, Option.map_some',
          specEvents_cons, hevs, hstop, if_true, List.append_nil]
      simp only [List.mem_cons, List.mem_append, List.append_nil] at ha
      rcases ha with rfl | ha
      · simp only [NlAccess.Within, NlAccess.start, NlAccess.size, nlmsghdrSize]; omega
      · have := hacc a ha; simp only [NlAccess.Within] at this ⊢; omega

/-- **The poll handler on well-formed datagrams.**  On a queue of non-empty
datagrams of at most 4096 bytes, each a run of well-formed messages, one
invocation with enough fuel drains the queue, walks each datagram as
`walk_wellFormed` says, and so dereferences only the bytes received. -/
theorem pollHandler_spec {queue : List (List (List UInt8))}
    (hq : ∀ msgs ∈ queue, msgs ≠ [] ∧ (∀ m ∈ msgs, WellFormedMsg m) ∧
      msgs.flatten.length ≤ bufSize)
    {fuel : Nat} (hfuel : 256 < fuel) (buf : Nat → UInt8) :
    ∃ walks, pollHandler ifIndextoname fuel buf (queue.map List.flatten) = some (walks, []) ∧
      walks.flatMap (fun w => w.2.1) = queue.flatMap (specEvents ifIndextoname) ∧
      ∀ w ∈ walks, ∀ a ∈ w.2.2, a.Within 0 w.1 := by
  induction queue generalizing buf with
  | nil => exact ⟨[], rfl, rfl, fun _ h => absurd h (List.not_mem_nil _)⟩
  | cons msgs q ih =>
    obtain ⟨hne, hwf, hsize⟩ := hq msgs (List.mem_cons_self _ _)
    have hcount := length_le_flatten hwf
    have hone : 1 ≤ msgs.length := List.length_pos.mpr hne
    simp only [nlmsghdrSize, bufSize] at hcount hsize
    have hmin : min msgs.flatten.length bufSize = msgs.flatten.length := Nat.min_eq_left hsize
    have hbuf : ∀ i < msgs.flatten.length, received buf msgs.flatten (0 + i) =
        msgs.flatten.getD i 0 := fun i hi => by
      simp only [received, hmin, Nat.zero_add, if_pos hi]
    obtain ⟨acc, hw, hin⟩ := walk_wellFormed ifIndextoname hwf hbuf (by omega)
      (show msgs.length < fuel by omega)
    obtain ⟨walks, hp, hev, hwin⟩ :=
      ih (fun m h => hq m (List.mem_cons_of_mem _ h)) (received buf msgs.flatten)
    refine ⟨(msgs.flatten.length, specEvents ifIndextoname msgs, acc) :: walks, ?_, ?_, ?_⟩
    · rw [List.map_cons, pollHandler, hmin, if_neg (by omega), hw, Option.some_bind, hp]
      rfl
    · rw [List.flatMap_cons, List.flatMap_cons, hev]
    · rintro w (_ | ⟨_, hw'⟩)
      · simpa only [Nat.zero_add] using hin
      · exact hwin w hw'

end WellFormed

/-- **The calls of the poll handler.**  For every queue of non-empty
datagrams of at most 4096 bytes, each a run of well-formed netlink messages
(`nlmsg_len` the message's length, 4-aligned and at least 16, link and
address messages holding their payload), with any name oracle and any prior
contents of `buf`: one invocation, given enough iterations, consumes every
datagram and makes exactly the calls the messages announce, in queue and
message order, stopping each datagram at its first `NLMSG_DONE` or
`NLMSG_ERROR`. -/
theorem pollHandler_events (ifIndextoname : Nat → Option String) (buf : Nat → UInt8)
    {queue : List (List (List UInt8))}
    (hq : ∀ msgs ∈ queue, msgs ≠ [] ∧ (∀ m ∈ msgs, WellFormedMsg m) ∧
      msgs.flatten.length ≤ bufSize)
    {fuel : Nat} (hfuel : 256 < fuel) :
    ∃ walks, pollHandler ifIndextoname fuel buf (queue.map List.flatten) = some (walks, []) ∧
      walks.flatMap (fun w => w.2.1) = queue.flatMap (specEvents ifIndextoname) :=
  let ⟨walks, hp, hev, _⟩ := pollHandler_spec ifIndextoname hq hfuel buf
  ⟨walks, hp, hev⟩

/-- **The poll handler reads only what it received.**  On the same queues,
every `nlmsghdr`, `ifinfomsg` and `ifaddrmsg` the walk of a datagram
dereferences lies within its `status` bytes. -/
theorem pollHandler_reads_within (ifIndextoname : Nat → Option String) (buf : Nat → UInt8)
    {queue : List (List (List UInt8))}
    (hq : ∀ msgs ∈ queue, msgs ≠ [] ∧ (∀ m ∈ msgs, WellFormedMsg m) ∧
      msgs.flatten.length ≤ bufSize)
    {fuel : Nat} (hfuel : 256 < fuel) :
    ∃ walks, pollHandler ifIndextoname fuel buf (queue.map List.flatten) = some (walks, []) ∧
      ∀ w ∈ walks, ∀ a ∈ w.2.2, a.Within 0 w.1 :=
  let ⟨walks, hp, _, hin⟩ := pollHandler_spec ifIndextoname hq hfuel buf
  ⟨walks, hp, hin⟩

/-! ## Fixtures -/

/-- An `RTM_NEWLINK` message for interface 2, up and running. -/
def linkUpMsg : List UInt8 :=
  [32, 0, 0, 0, 16, 0, 0, 0, 0, 0, 0, 0, 0, 0, 0, 0,
   0, 0, 0, 0, 2, 0, 0, 0, 0x41, 0, 0, 0, 0, 0, 0, 0]

theorem wellFormedMsg_linkUpMsg : WellFormedMsg linkUpMsg :=
  ⟨rfl, rfl, by decide, fun _ => by decide, fun h => absurd h (by decide)⟩

/-- The queue of one datagram holding `linkUpMsg` is a queue of well-formed
datagrams. -/
theorem linkUp_queue_wellFormed : ∀ msgs ∈ [[linkUpMsg]], msgs ≠ [] ∧
    (∀ m ∈ msgs, WellFormedMsg m) ∧ msgs.flatten.length ≤ bufSize := by
  intro msgs hm
  rw [List.mem_singleton.mp hm]
  exact ⟨List.cons_ne_nil _ _, fun m h => List.mem_singleton.mp h ▸ wellFormedMsg_linkUpMsg,
    by decide⟩

theorem pollHandler_events_linkUp :
    (∀ msgs ∈ [[linkUpMsg]], msgs ≠ [] ∧ (∀ m ∈ msgs, WellFormedMsg m) ∧
      msgs.flatten.length ≤ bufSize) ∧ 256 < 257 ∧
    ∃ walks, pollHandler (fun _ => some "eth0") 257 (fun _ => 0) ([[linkUpMsg]].map List.flatten) =
        some (walks, []) ∧
      walks.flatMap (fun w => w.2.1) = [[linkUpMsg]].flatMap (specEvents fun _ => some "eth0") :=
  ⟨linkUp_queue_wellFormed, by decide,
    pollHandler_events (fun _ => some "eth0") (fun _ => 0) linkUp_queue_wellFormed (by decide)⟩

theorem pollHandler_reads_within_linkUp :
    (∀ msgs ∈ [[linkUpMsg]], msgs ≠ [] ∧ (∀ m ∈ msgs, WellFormedMsg m) ∧
      msgs.flatten.length ≤ bufSize) ∧ 256 < 257 ∧
    ∃ walks, pollHandler (fun _ => some "eth0") 257 (fun _ => 0) ([[linkUpMsg]].map List.flatten) =
        some (walks, []) ∧ ∀ w ∈ walks, ∀ a ∈ w.2.2, a.Within 0 w.1 :=
  ⟨linkUp_queue_wellFormed, by decide,
    pollHandler_reads_within (fun _ => some "eth0") (fun _ => 0) linkUp_queue_wellFormed
      (by decide)⟩

/-- A zero-length datagram ends the drain: `recvmsg` returns 0, and the
datagrams behind it stay queued. -/
theorem pollHandler_stops_at_empty (ifIndextoname : Nat → Option String) (fuel : Nat)
    (buf : Nat → UInt8) (rest : List (List UInt8)) :
    pollHandler ifIndextoname fuel buf ([] :: rest) = some ([], rest) := rfl

/-- A zero-length datagram before a link-up message: both are runs of
well-formed messages, the second announces a call, and the handler returns
with the second still queued and no call made. -/
theorem pollHandler_empty_datagram_leaves_queue :
    (∀ msgs ∈ [[], [linkUpMsg]], (∀ m ∈ msgs, WellFormedMsg m) ∧
      msgs.flatten.length ≤ bufSize) ∧
    pollHandler (fun _ => some "eth0") 257 (fun _ => 0) ([[], [linkUpMsg]].map List.flatten) =
      some ([], [linkUpMsg]) ∧
    [[], [linkUpMsg]].flatMap (specEvents fun _ => some "eth0") = [⟨.newLink, 1, "eth0"⟩] := by
  refine ⟨fun msgs hm => ?_, pollHandler_stops_at_empty _ _ _ _, rfl⟩
  simp only [List.mem_cons, List.not_mem_nil, or_false] at hm
  rcases hm with rfl | rfl
  · exact ⟨fun m h => absurd h (List.not_mem_nil _), by decide⟩
  · exact ⟨fun m h => List.mem_singleton.mp h ▸ wellFormedMsg_linkUpMsg, by decide⟩


/-! ## Arbitrary bytes -/

/-- Once `status` has wrapped to within 3 of `2 ^ 32`, a `nlmsg_len` there
passes `NLMSG_OK`, and `NLMSG_ALIGN` wraps it to 0: unless the message ends the
walk, `h` and `status` never move again. -/
theorem walk_of_wrapped (ifIndextoname : Nat → Option String) {buf : Nat → UInt8} {off u : Nat}
    (hlen : readLE buf off 4 = u) (hwrap : 2 ^ 32 - 3 ≤ u) (hu : u < 2 ^ 32)
    (hok : (handleMessage ifIndextoname buf off).1 = true) :
    ∀ fuel, walk ifIndextoname buf fuel off u = none := by
  intro fuel
  induction fuel with
  | zero => rfl
  | succ k ih =>
    have halign : nlmsgAlign u = 0 := by unfold nlmsgAlign; omega
    rw [walk_step ifIndextoname buf (by simp only [nlmsghdrSize]; omega) hlen
      (by simp only [nlmsghdrSize]; omega) le_rfl, hok, if_pos rfl, halign, Nat.add_zero,
      Nat.sub_zero, Nat.add_mod_right, Nat.mod_eq_of_lt hu, ih]
    rfl

/-- A link message of a bare header: `nlmsg_len` 16, `RTM_NEWLINK`. -/
def shortLinkMsg : List UInt8 := [16, 0, 0, 0, 16, 0, 0, 0, 0, 0, 0, 0, 0, 0, 0, 0]

/-- A 28-byte `NLMSG_NOOP` message whose payload ends with the bytes
`FD FF FF FF 01 00 00 00`. -/
def staleMsg : List UInt8 :=
  [28, 0, 0, 0, 1, 0, 0, 0, 0, 0, 0, 0, 0, 0, 0, 0,
   0, 0, 0, 0, 0xFD, 0xFF, 0xFF, 0xFF, 1, 0, 0, 0]

/-- A 17-byte `NLMSG_NOOP` message: `nlmsg_len` 17 is not 4-aligned. -/
def unalignedMsg : List UInt8 := [17, 0, 0, 0, 1, 0, 0, 0, 0, 0, 0, 0, 0, 0, 0, 0, 0]

/-- **The walk over arbitrary bytes leaves the datagram.**  A 16-byte
datagram holding a bare `RTM_NEWLINK` header passes `NLMSG_OK`, and its
`ifinfomsg` is decoded from bytes 16 to 32, past the 16 received.  And after
a 28-byte datagram, a 17-byte one whose `nlmsg_len` is 17 drives `status` to
`-3`: `NLMSG_OK` on `(unsigned int)-3` accepts the stale header at byte 20,
whose `nlmsg_len` `0xFFFFFFFD` aligns to 0, and the handler never returns. -/
theorem pollHandler_walk_unsafe :
    (∀ (ifIndextoname : Nat → Option String) (buf : Nat → UInt8) (fuel : Nat),
      (pollHandler ifIndextoname (fuel + 2) buf [shortLinkMsg]).map
          (fun r => r.1.map fun w => (w.1, w.2.2)) =
        some [(16, [.nlmsghdr 0, .ifinfomsg 16])]) ∧
    ¬ (NlAccess.ifinfomsg 16).Within 0 16 ∧
    (∀ (ifIndextoname : Nat → Option String) (buf : Nat → UInt8) (fuel : Nat),
      pollHandler ifIndextoname fuel buf [staleMsg, unalignedMsg] = none) := by
  refine ⟨fun ifIndextoname buf fuel => ?_, by
    simp [NlAccess.Within, NlAccess.start, NlAccess.size, ifinfomsgSize], fun ifIndextoname buf fuel => ?_⟩
  · -- the bare link header: its `ifinfomsg` is decoded, then `status` is 0
    have hlen : readLE (received buf shortLinkMsg) 0 4 = 16 := rfl
    have hacc : (handleMessage ifIndextoname (received buf shortLinkMsg) 0).2.2 =
        [.ifinfomsg 16] := rfl
    rw [pollHandler, show min shortLinkMsg.length bufSize = 16 from rfl, if_neg (by omega),
      walk_last_aligned ifIndextoname _ (by decide) hlen rfl (by omega)]
    simp only [Option.map_some', Option.some_bind, pollHandler, hacc, List.map_cons,
      List.map_nil]
  · -- the 28-byte datagram walks normally; the 17-byte one never finishes
    have hm1 : min staleMsg.length bufSize = 28 := rfl
    have hm2 : min unalignedMsg.length bufSize = 17 := rfl
    have hlen1 : readLE (received buf staleMsg) 0 4 = 28 := rfl
    rcases fuel with _ | _ | k
    · rfl
    · rw [pollHandler, hm1, if_neg (by omega),
        walk_step ifIndextoname _ (by decide) hlen1 (by decide) le_rfl]
      rfl
    · have hlen2 : readLE (received (received buf staleMsg) unalignedMsg) 0 4 = 17 := rfl
      -- bytes 20 to 24 are left from the 28-byte datagram
      have hstale : readLE (received (received buf staleMsg) unalignedMsg) 20 4 = 2 ^ 32 - 3 := by
        rw [readLE_congr (g := msgBytes staleMsg) (b := 20) fun i hi => by
          simp only [received, msgBytes, unalignedMsg, staleMsg, bufSize, List.length_cons,
            List.length_nil]
          rw [if_neg (by omega), if_pos (by omega)]]
        have h20 : (msgBytes staleMsg 20).toNat = 253 := rfl
        have h21 : (msgBytes staleMsg 21).toNat = 255 := rfl
        have h22 : (msgBytes staleMsg 22).toNat = 255 := rfl
        have h23 : (msgBytes staleMsg 23).toNat = 255 := rfl
        calc readLE (msgBytes staleMsg) 20 4
            = (msgBytes staleMsg 20).toNat + 256 * ((msgBytes staleMsg 21).toNat +
                256 * ((msgBytes staleMsg 22).toNat + 256 * ((msgBytes staleMsg 23).toNat +
                  256 * 0))) := rfl
          _ = 253 + 256 * (255 + 256 * (255 + 256 * (255 + 256 * 0))) := by
            rw [h20, h21, h22, h23]
          _ = 2 ^ 32 - 3 := by omega
      rw [pollHandler, hm1, if_neg (by omega),
        walk_last_aligned ifIndextoname _ (by decide) hlen1 rfl (by omega), Option.some_bind,
        pollHandler, hm2, if_neg (by omega),
        walk_step ifIndextoname _ (by decide) hlen2 (by decide) le_rfl,
        show (handleMessage ifIndextoname (received (received buf staleMsg) unalignedMsg) 0).1 =
          true from rfl, if_pos rfl, show nlmsgAlign 17 = 20 from rfl, Nat.zero_add,
        show (17 + 2 ^ 32 - 20) % 2 ^ 32 = 2 ^ 32 - 3 by omega,
        walk_of_wrapped ifIndextoname hstale (by omega) (by omega) rfl]
      rfl

/-! ## Aligned datagrams of arbitrary bytes -/

/-- Where an access of a walk over the bytes `[lo, hi)` lies: a header within
them, a decoded `ifinfomsg` or `ifaddrmsg` starting within them or at their
end, so that it runs at most its own size past `hi`. -/
def NlAccess.InDatagram (lo hi : Nat) : NlAccess → Prop
  | .nlmsghdr s => lo ≤ s ∧ s + nlmsghdrSize ≤ hi
  | .ifinfomsg s | .ifaddrmsg s => lo ≤ s ∧ s ≤ hi

section Aligned

variable (ifIndextoname : Nat → Option String) (buf : Nat → UInt8)

/-- The structures the `switch` on one message decodes: at most one
`ifinfomsg` or `ifaddrmsg`, right after the header. -/
theorem mem_handleMessage_accesses {off : Nat} {a : NlAccess}
    (ha : a ∈ (handleMessage ifIndextoname buf off).2.2) :
    a = .ifinfomsg (off + nlmsghdrSize) ∨ a = .ifaddrmsg (off + nlmsghdrSize) := by
  dsimp only [handleMessage] at ha
  split_ifs at ha <;> simp_all

/-- A message header at `off` and what the `switch` decodes from it lie at
the start of the `u ≥ 16` bytes from `off`. -/
theorem inDatagram_handleMessage (off : Nat) {u : Nat} (hu : nlmsghdrSize ≤ u) :
    ∀ a ∈ NlAccess.nlmsghdr off :: (handleMessage ifIndextoname buf off).2.2,
      a.InDatagram off (off + u) := by
  simp only [nlmsghdrSize] at hu
  intro a ha
  rcases List.mem_cons.mp ha with rfl | ha
  · exact ⟨Nat.le_refl _, by simp only [nlmsghdrSize]; omega⟩
  · rcases mem_handleMessage_accesses ifIndextoname buf ha with rfl | rfl <;>
      exact ⟨by simp only [nlmsghdrSize]; omega, by simp only [nlmsghdrSize]; omega⟩

/-- **The walk over an aligned length.**  With `u` a multiple of 4 and any
bytes in `buf`, a message the walk accepts has `16 ≤ nlmsg_len ≤ u`, so
`NLMSG_ALIGN(nlmsg_len)` is at most `u` and `status` stays a multiple of 4
while it drops by at least 16.  The walk ends within `u / 16 + 1`
iterations, reads every header within the `u` bytes and starts every
structure it decodes within them. -/
theorem walk_aligned : ∀ (fuel off u : Nat), u % 4 = 0 → u < 2 ^ 32 - 3 → u / 16 < fuel →
    ∃ r, walk ifIndextoname buf fuel off u = some r ∧ ∀ a ∈ r.2, a.InDatagram off (off + u)
  | 0, _, _, _, _, h => absurd h (Nat.not_lt_zero _)
  | fuel + 1, off, u, h4, hlt, hfuel => by
    by_cases hu : u < nlmsghdrSize
    · exact ⟨_, walk_of_lt ifIndextoname buf hu, fun a ha => absurd ha (List.not_mem_nil _)⟩
    obtain ⟨len, hlen⟩ : ∃ len, readLE buf off 4 = len := ⟨_, rfl⟩
    rw [Nat.not_lt] at hu
    by_cases hbad : len < nlmsghdrSize ∨ u < len
    · refine ⟨([], [.nlmsghdr off]), by simp only [walk, hlen, if_neg (Nat.not_lt.mpr hu),
        if_pos hbad], fun a ha => ?_⟩
      rw [List.mem_singleton.mp ha]
      exact ⟨Nat.le_refl _, by omega⟩
    rw [not_or, Nat.not_lt, Nat.not_lt] at hbad
    simp only [nlmsghdrSize] at hu hbad
    -- `NLMSG_NEXT` on an aligned length: the next length is aligned and smaller
    have halign : nlmsgAlign len = (len + 3) / 4 * 4 := by
      unfold nlmsgAlign; rw [Nat.mod_eq_of_lt (by omega)]
    have hnext : (u + 2 ^ 32 - nlmsgAlign len) % 2 ^ 32 = u - nlmsgAlign len := by omega
    obtain ⟨r, hw, hr⟩ := walk_aligned fuel (off + nlmsgAlign len) (u - nlmsgAlign len)
      (by omega) (by omega) (by omega)
    have hhead := inDatagram_handleMessage ifIndextoname buf off hu
    rw [walk_step ifIndextoname buf hu hlen hbad.1 hbad.2, hnext]
    split
    · rw [hw, Option.map_some']
      refine ⟨_, rfl, List.forall_mem_append.2 ⟨hhead, fun a ha => ?_⟩⟩
      -- the rest of the walk lies within the rest of the bytes
      have := hr a ha
      cases a <;> simp only [NlAccess.InDatagram] at this ⊢ <;> omega
    · exact ⟨_, rfl, List.forall_mem_append.2 ⟨hhead, fun a ha => absurd ha (List.not_mem_nil _)⟩⟩

end Aligned

/-- **The poll handler on aligned datagrams.**  When every datagram's length
is a multiple of 4, as the kernel sends them, one invocation with enough
iterations returns on any bytes, having drained the queue unless it met an
empty datagram: the walk of each datagram reads every `nlmsghdr` within its
`status` bytes, and every `ifinfomsg` or `ifaddrmsg` it decodes starts within
them, so that it reads at most 16 bytes past them.  The bare link header of
`pollHandler_walk_unsafe` reaches that bound. -/
theorem pollHandler_aligned (ifIndextoname : Nat → Option String) :
    ∀ (queue : List (List UInt8)), (∀ d ∈ queue, d.length % 4 = 0) →
      ∀ (buf : Nat → UInt8) {fuel : Nat}, 256 < fuel →
        ∃ walks rest, pollHandler ifIndextoname fuel buf queue = some (walks, rest) ∧
          ((∀ d ∈ queue, d ≠ []) → rest = []) ∧ ∀ w ∈ walks, ∀ a ∈ w.2.2, a.InDatagram 0 w.1
  | [], _, _, _, _ => ⟨[], [], rfl, fun _ => rfl, fun _ h => absurd h (List.not_mem_nil _)⟩
  | d :: q, hq, buf, fuel, hfuel => by
    have h4 : min d.length bufSize % 4 = 0 := by
      have := hq d (List.mem_cons_self _ _)
      simp only [bufSize]; omega
    by_cases h0 : min d.length bufSize = 0
    · refine ⟨[], q, by rw [pollHandler, if_pos h0], fun hne => ?_,
        fun _ h => absurd h (List.not_mem_nil _)⟩
      have := List.length_pos.mpr (hne d (List.mem_cons_self _ _))
      simp only [bufSize] at h0; omega
    obtain ⟨r, hw, hr⟩ := walk_aligned ifIndextoname (received buf d) fuel 0 _ h4
      (by simp only [bufSize]; omega) (by simp only [bufSize]; omega)
    obtain ⟨walks, rest, hp, hrest, hwalks⟩ :=
      pollHandler_aligned ifIndextoname q (fun d' h => hq d' (List.mem_cons_of_mem _ h))
        (received buf d) hfuel
    refine ⟨(min d.length bufSize, r) :: walks, rest, ?_,
      fun hne => hrest fun d' h => hne d' (List.mem_cons_of_mem _ h), ?_⟩
    · rw [pollHandler, if_neg h0, hw, Option.some_bind, hp, Option.map_some']
    · rintro w (_ | ⟨_, hw'⟩)
      · simpa only [Nat.zero_add] using hr
      · exact hwalks w hw'

theorem pollHandler_aligned_shortLink :
    (∀ d ∈ [shortLinkMsg], d.length % 4 = 0) ∧ 256 < 257 ∧
      ∃ walks rest, pollHandler (fun _ => some "eth0") 257 (fun _ => 0) [shortLinkMsg] =
        some (walks, rest) ∧ ((∀ d ∈ [shortLinkMsg], d ≠ []) → rest = []) ∧
        ∀ w ∈ walks, ∀ a ∈ w.2.2, a.InDatagram 0 w.1 :=
  have hq : ∀ d ∈ [shortLinkMsg], d.length % 4 = 0 := by decide
  ⟨hq, by decide, pollHandler_aligned (fun _ => some "eth0") [shortLinkMsg] hq (fun _ => 0)
    (by decide)⟩

end NetworkMonitor
