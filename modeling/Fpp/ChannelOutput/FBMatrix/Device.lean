import Fpp.ChannelOutput.FBMatrix.Basic

/-!
# The framebuffer matrix sink: device setup and teardown

`FBMatrixOutput::Init` opens the framebuffer device, reads its display mode,
requests a double-height virtual mode (falling back to a single one), checks
the channel count, hides the text console on `/dev/fb0` and maps the display
memory; `FBMatrixOutput::Close` unmaps it, gives the console back and resets
the display mode, the last two only on `/dev/fb0`.

The model runs both against an abstract `Kernel`: the device's variable mode,
the console's mode and the open descriptors are state.  Each call that can
fail succeeds or fails as an `Outcomes` record says, so one record is one
pattern of failures; calls on a descriptor that is not open fail as with
`EBADF`, and `open` returns the lowest free descriptor.

A driver that accepts a `FBIOPUT_VSCREENINFO` need not install the mode it
is given: its `fb_check_var` may adjust the mode, and a driver without one
keeps its own.  The kernel copies the installed mode back into the caller's
structure, which for `Init` is `m_vInfo` itself.  `Outcomes` says which mode
the driver installs for each of `Init`'s two requests; the model lets it
change every field but the panning offset, which `Init` asks to keep.  When
the original mode is put back, the driver takes its own earlier mode as
given.

The main results are `init_close_restore`, what `Init`'s error paths and
`Close` give back, `init_close_leave_display_changed`, three runs that
give back less, and `init_ready`: whatever mode the driver installs, a
successful `Init` leaves the sink with what `PrepData` and `SendData` rely
on (a depth they handle, at 16 bpp the table built from the bitfields in
force, a frame of `line_length * yres` bytes) and the device in the mode
the sink records.  `init_ok_eq` says when `Init` succeeds: a refused
double-height mode or two-page mapping falls back to single buffering, and
a console that does not open goes unnoticed.
-/

namespace ChannelOutput

/-- The console modes `KDSETMODE` switches between. -/
inductive KdMode
  | text
  | graphics
  deriving DecidableEq, Repr

/-- The kernel state `Init` and `Close` act on. -/
structure Kernel where
  vmode : FbVarScreeninfo
  console : KdMode
  fds : List Nat
  deriving DecidableEq, Repr

namespace Kernel

/-- The lowest descriptor that is not open. -/
def lowestFree (fds : List Nat) : Nat :=
  ((List.range (fds.length + 1)).find? (· ∉ fds)).getD fds.length

/-- Whether `fd` is an open descriptor. -/
def isOpen (k : Kernel) (fd : Int) : Bool :=
  decide (0 ≤ fd) && k.fds.contains fd.toNat

/-- `open(path, O_RDWR)`: the lowest free descriptor, or `-1`. -/
def openFd (k : Kernel) (ok : Bool) : Int × Kernel :=
  if ok then (lowestFree k.fds, { k with fds := lowestFree k.fds :: k.fds }) else (-1, k)

/-- `close(fd)`. -/
def close (k : Kernel) (fd : Int) : Kernel :=
  if 0 ≤ fd then { k with fds := k.fds.erase fd.toNat } else k

/-- `ioctl(fd, FBIOGET_VSCREENINFO, &v)`: the device's mode, or the error. -/
def getVScreenInfo (k : Kernel) (fd : Int) (ok : Bool) : Option FbVarScreeninfo :=
  if k.isOpen fd && ok then some k.vmode else none

/-- The mode a driver installs for a request `v` it accepts: `v` itself, or
the mode `w` it adjusts `v` to, with the panning offset asked for. -/
def installedMode (adj : Option FbVarScreeninfo) (v : FbVarScreeninfo) : FbVarScreeninfo :=
  match adj with
  | none => v
  | some w => { w with yoffset := v.yoffset }

/-- `ioctl(fd, FBIOPUT_VSCREENINFO, &v)`: whether it succeeded, `v` after the
call, and the kernel.  On success the driver installs `installedMode adj v`
and the kernel copies it back into `v`; on failure both are left as they
were. -/
def putVScreenInfo (k : Kernel) (fd : Int) (v : FbVarScreeninfo) (ok : Bool)
    (adj : Option FbVarScreeninfo) : Bool × FbVarScreeninfo × Kernel :=
  if k.isOpen fd && ok then (true, installedMode adj v, { k with vmode := installedMode adj v })
  else (false, v, k)

/-- `ioctl(fd, FBIOGET_FSCREENINFO, &f)`: the line length the driver reports,
or the error. -/
def getFScreenInfo (k : Kernel) (fd : Int) (ok : Bool) (lineLength : Nat) : Option Nat :=
  if k.isOpen fd && ok then some lineLength else none

/-- `ioctl(fd, KDSETMODE, mode)`, whose result the sink ignores. -/
def kdSetMode (k : Kernel) (fd : Int) (mode : KdMode) (ok : Bool) : Kernel :=
  if k.isOpen fd && ok then { k with console := mode } else k

/-- `mmap(..., fd, 0)`: whether it succeeded.  The mapping itself is not
kernel state here. -/
def mmap (k : Kernel) (fd : Int) (ok : Bool) : Bool :=
  k.isOpen fd && ok

/-- `open` never hands out a descriptor that is already open. -/
theorem lowestFree_not_mem (fds : List Nat) : lowestFree fds ∉ fds := by
  unfold lowestFree
  cases h : (List.range (fds.length + 1)).find? (· ∉ fds) with
  | some n => simpa using List.find?_some h
  | none =>
    -- otherwise `fds` would hold the `fds.length + 1` numbers below it
    have hall : List.range (fds.length + 1) ⊆ fds := fun n hn => by
      simpa using List.find?_eq_none.1 h n hn
    have := (List.subperm_of_subset (List.nodup_range _) hall).length_le
    simp only [List.length_range] at this
    omega

/-- While descriptor `0` is open, `open` never returns `0`. -/
theorem lowestFree_ne_zero {fds : List Nat} (h0 : 0 ∈ fds) : lowestFree fds ≠ 0 :=
  fun h => lowestFree_not_mem fds (h ▸ h0)

variable (k : Kernel) (n : Nat) (ok : Bool)

@[simp] theorem isOpen_natCast : k.isOpen n = decide (n ∈ k.fds) := by
  simp [isOpen, Int.ofNat_nonneg]

@[simp] theorem isOpen_neg_one : k.isOpen (-1) = false := rfl

@[simp] theorem close_natCast : k.close n = { k with fds := k.fds.erase n } := by
  simp [close, Int.ofNat_nonneg]

@[simp] theorem close_neg_one : k.close (-1) = k := rfl

@[simp] theorem kdSetMode_neg_one (mode : KdMode) : k.kdSetMode (-1) mode ok = k := by
  simp [kdSetMode]

@[simp] theorem kdSetMode_fds (fd : Int) (mode : KdMode) :
    (k.kdSetMode fd mode ok).fds = k.fds := by
  unfold kdSetMode
  split <;> rfl

@[simp] theorem openFd_false : k.openFd false = (-1, k) := rfl

@[simp] theorem openFd_true :
    k.openFd true = ((lowestFree k.fds : Int), { k with fds := lowestFree k.fds :: k.fds }) :=
  rfl

@[simp] theorem installedMode_none (v : FbVarScreeninfo) : installedMode none v = v := rfl

/-- An installed mode keeps the panning offset asked for. -/
@[simp] theorem installedMode_yoffset (adj : Option FbVarScreeninfo) (v : FbVarScreeninfo) :
    (installedMode adj v).yoffset = v.yoffset := by
  cases adj <;> rfl

end Kernel

/-- How each call of `Init` that can fail turns out, the mode the driver
installs for each mode request it accepts (`none`: the one asked for), and
the line length the driver reports.  `restore` is the outcome of the
`FBIOPUT_VSCREENINFO` that puts `m_vInfoOrig` back on an error path; at most
one runs. -/
structure Outcomes where
  openFb : Bool
  getVScreen : Bool
  putDouble : Bool
  adjustDouble : Option FbVarScreeninfo
  putSingle : Bool
  adjustSingle : Option FbVarScreeninfo
  getFScreen : Bool
  lineLength : Nat
  restore : Bool
  openConsole : Bool
  setGraphics : Bool
  mmapDouble : Bool
  mmapSingle : Bool
  deriving DecidableEq, Repr

/-- How the two calls of `Close` that change kernel state turn out. -/
structure CloseOutcomes where
  setText : Bool
  restore : Bool
  deriving DecidableEq, Repr

/-- The members of the JSON configuration `Init` reads. -/
structure FBMatrixConfig where
  width : Nat
  height : Nat
  colorOrder : String
  invert : Int
  device : String
  scaling : Option String
  deriving DecidableEq, Repr

/-- What `Init` leaves: the sink, whether it returned non-zero (its last
line returns `ChannelOutputBase::Init(config)`, outside this model), the
lines it logged with `LogErr`, and the kernel. -/
structure InitResult where
  sink : FBMatrixOutput
  ok : Bool
  errors : List String
  kernel : Kernel

namespace FBMatrixOutput

/-- The configuration part of `Init`: an unknown `scaling` keeps the
constructor's `HARDWARE`. -/
def configure (o : FBMatrixOutput) (config : FBMatrixConfig) : FBMatrixOutput :=
  { o with
    mWidth := config.width
    mHeight := config.height
    mUseRGB := config.colorOrder == "RGB"
    mInverted := config.invert != 0
    mDevice := "/dev/" ++ config.device
    mScaling :=
      match config.scaling.getD "Hardware" with
      | "Hardware" => .hardware
      | "Software" => .software
      | "None" => .none
      | _ => o.mScaling }

/-- The mode `Init` asks for: RGB565 bitfields at 16 bpp, the matrix size
under hardware scaling, and a virtual height of two screens. -/
def requestedMode (o : FBMatrixOutput) (v : FbVarScreeninfo) : FbVarScreeninfo :=
  let v := if o.mBpp = 16 then rgb565Fields v else v
  let v := if o.mScaling = .hardware then { v with xres := o.mWidth, yres := o.mHeight } else v
  { v with xresVirtual := v.xres, yresVirtual := v.yres * 2 }

/-- The first phase of `Init`: configure, open the device, read its mode
into `m_vInfo` and `m_vInfoOrig`, and check the depth.  An error is `Init`'s
result. -/
def initOpen (o : FBMatrixOutput) (config : FBMatrixConfig) (oc : Outcomes) (k : Kernel) :
    Except InitResult (FBMatrixOutput × Kernel) :=
  let o := o.configure config
  let (fbFd, k) := k.openFd oc.openFb
  let o := { o with mFbFd := fbFd }
  if fbFd = 0 then
    .error ⟨o, false, ["Error opening FrameBuffer device: " ++ o.mDevice ++ "\n"], k⟩ else
  match k.getVScreenInfo fbFd oc.getVScreen with
  | none => .error ⟨o, false, ["Error getting FrameBuffer info\n"], k.close fbFd⟩
  | some v =>
    let o := { o with mVInfo := v, mVInfoOrig := v, mBpp := v.bitsPerPixel }
    if o.mBpp ≠ 32 ∧ o.mBpp ≠ 24 ∧ o.mBpp ≠ 16 then
      .error ⟨o, false, ["Do not know how to handle " ++ toString o.mBpp ++ " BPP\n"],
        k.close fbFd⟩
    else .ok (o, k)

/-- The second phase: ask for the double-height mode in `m_vInfo`, then for
a single one, logging the fallback.  Each request that succeeds leaves in
`m_vInfo` the mode the driver installed. -/
def initMode (o : FBMatrixOutput) (oc : Outcomes) (k : Kernel) :
    Except InitResult (FBMatrixOutput × List String × Kernel) :=
  let v := o.requestedMode o.mVInfo
  let (okDouble, v, k) := k.putVScreenInfo o.mFbFd v oc.putDouble oc.adjustDouble
  if okDouble then .ok ({ o with mVInfo := v, mIsDoubleBuffered := true }, [], k) else
  let v := { v with yresVirtual := v.yres }
  let (okSingle, v, k) := k.putVScreenInfo o.mFbFd v oc.putSingle oc.adjustSingle
  let o := { o with mVInfo := v, mIsDoubleBuffered := false }
  if okSingle then
    .ok (o, ["Could not allocate virtual framebuffer large enough for double buffering, " ++
      "using single buffer\n"], k)
  else .error ⟨o, false, ["Error setting FrameBuffer info\n"], k.close o.mFbFd⟩

/-- The error path after the mode change: put `m_vInfoOrig` back, then
close the device.  The driver takes back its own earlier mode as given, so
the copy back leaves `m_vInfoOrig` as it was. -/
def restoreAndClose (o : FBMatrixOutput) (oc : Outcomes) (k : Kernel) : Kernel :=
  (k.putVScreenInfo o.mFbFd o.mVInfoOrig oc.restore none).2.2.close o.mFbFd

/-- On `/dev/fb0`: open the console and switch it to graphics; whether the
descriptor came back as `0`, which `Init` takes for failure. -/
def hideConsole (o : FBMatrixOutput) (oc : Outcomes) (k : Kernel) :
    FBMatrixOutput × Bool × Kernel :=
  if o.mDevice = "/dev/fb0" then
    let (ttyFd, k) := k.openFd oc.openConsole
    if ttyFd = 0 then ({ o with mTtyFd := ttyFd }, true, k)
    else ({ o with mTtyFd := ttyFd }, false, k.kdSetMode ttyFd .graphics oc.setGraphics)
  else (o, false, k)

/-- `mmap` of the display memory, falling back to one screen and single
buffering; the sink and whether a mapping was made. -/
def mapMemory (o : FBMatrixOutput) (oc : Outcomes) (k : Kernel) : FBMatrixOutput × Bool :=
  if k.mmap o.mFbFd oc.mmapDouble then (o, true)
  else ({ o with mIsDoubleBuffered := false }, k.mmap o.mFbFd oc.mmapSingle)

/-- The last phase, once the mode is set: the fixed info, the channel count
check, the console and the mapping, then the RGB565 table at 16 bpp. -/
def initFinish (o : FBMatrixOutput) (oc : Outcomes) (errs : List String) (k : Kernel) :
    InitResult :=
  match k.getFScreenInfo o.mFbFd oc.getFScreen oc.lineLength with
  | none => ⟨o, false, errs ++ ["Error getting fixed FrameBuffer info\n"], k.close o.mFbFd⟩
  | some lineLength =>
    if o.mChannelCount ≠ o.mWidth * o.mHeight * 3 then
      ⟨o, false, errs ++ ["Error, channel count is incorrect\n"], o.restoreAndClose oc k⟩ else
    let (o, consoleErr, k) := o.hideConsole oc k
    if consoleErr then
      ⟨o, false, errs ++ ["Error, unable to open /dev/console\n"], o.restoreAndClose oc k⟩ else
    let o := { o with mLineLength := lineLength, mScreenSize := lineLength * o.mVInfo.yres }
    let (o, mapped) := o.mapMemory oc k
    if !mapped then
      ⟨o, false, errs ++ ["Error, unable to map /dev/fb0\n"], o.restoreAndClose oc k⟩ else
    let o := if o.mBpp = 16 then { o with mRgb565map := rgb565map o.mVInfo } else o
    ⟨o, true, errs, k⟩

/-- `FBMatrixOutput::Init(config)`: its three phases in turn. -/
def init (o : FBMatrixOutput) (config : FBMatrixConfig) (oc : Outcomes) (k : Kernel) :
    InitResult :=
  match o.initOpen config oc k with
  | .error r => r
  | .ok (o, k) =>
    match o.initMode oc k with
    | .error r => r
    | .ok (o, errs, k) => o.initFinish oc errs k

/-- `FBMatrixOutput::Close()`: the sink, the lines logged with `LogErr` and
the kernel.  On `/dev/fb0` the console goes back to text mode and
`m_vInfoOrig`, its virtual resolution reset to the visible one, is put back;
the mapping is released, which this model does not track. -/
def close (o : FBMatrixOutput) (oc : CloseOutcomes) (k : Kernel) :
    FBMatrixOutput × List String × Kernel :=
  if o.mDevice = "/dev/fb0" then
    let k := (k.kdSetMode o.mTtyFd .text oc.setText).close o.mTtyFd
    let o := { o with mVInfoOrig := { o.mVInfoOrig with
      yresVirtual := o.mVInfoOrig.yres, xresVirtual := o.mVInfoOrig.xres } }
    let (ok, orig, k) := k.putVScreenInfo o.mFbFd o.mVInfoOrig oc.restore none
    ({ o with mVInfoOrig := orig }, if ok then [] else ["Error resetting variable info\n"],
      k.close o.mFbFd)
  else (o, [], k.close o.mFbFd)

/-! ## What each phase does to the kernel -/

section Phases

variable (o : FBMatrixOutput) (config : FBMatrixConfig) (oc : Outcomes) (k : Kernel)
  (errs : List String)

/-- The mode `Init` asks for keeps the panning offset of the mode read. -/
@[simp] theorem requestedMode_yoffset (v : FbVarScreeninfo) :
    (o.requestedMode v).yoffset = v.yoffset := by
  unfold requestedMode
  split_ifs <;> rfl

/-- The first phase either fails with the kernel as it was (the descriptor it
may have opened is closed again) or opens the lowest free descriptor and
records the device's mode as `m_vInfoOrig`. -/
theorem initOpen_spec (h0 : 0 ∈ k.fds) :
    (∃ r, o.initOpen config oc k = .error r ∧ r.ok = false ∧ r.kernel = k) ∨
    ∃ o1, o.initOpen config oc k =
        .ok (o1, { k with fds := Kernel.lowestFree k.fds :: k.fds }) ∧
      o1.mFbFd = Kernel.lowestFree k.fds ∧ o1.mVInfoOrig = k.vmode ∧ o1.mVInfo = k.vmode ∧
      o1.mTopFrame = o.mTopFrame := by
  have hn : (Kernel.lowestFree k.fds : Int) ≠ 0 := by exact_mod_cast Kernel.lowestFree_ne_zero h0
  unfold initOpen
  cases oc.openFb <;> cases oc.getVScreen <;> simp [Kernel.getVScreenInfo, hn]
  split <;> simp_all [configure]

/-- The mode phase either fails and closes the device, or records in
`m_vInfo` the mode the driver installed, panned as before. -/
theorem initMode_spec :
    (∃ r, o.initMode oc k = .error r ∧ r.ok = false ∧ r.kernel = k.close o.mFbFd) ∨
    ∃ v dbl errs, o.initMode oc k =
      .ok ({ o with mVInfo := v, mIsDoubleBuffered := dbl }, errs, { k with vmode := v }) ∧
      v.yoffset = o.mVInfo.yoffset := by
  unfold initMode
  cases h : k.isOpen o.mFbFd <;> cases oc.putDouble <;> cases oc.putSingle <;>
    simp [Kernel.putVScreenInfo, h]

/-- While descriptor `0` is open, the console step never reports failure. -/
theorem hideConsole_eq (h0 : 0 ∈ k.fds) :
    o.hideConsole oc k =
      if o.mDevice = "/dev/fb0" then
        if oc.openConsole then
          ({ o with mTtyFd := Kernel.lowestFree k.fds }, false,
            ({ k with fds := Kernel.lowestFree k.fds :: k.fds } : Kernel).kdSetMode
              (Kernel.lowestFree k.fds) .graphics oc.setGraphics)
        else ({ o with mTtyFd := -1 }, false, k)
      else (o, false, k) := by
  have hn : (Kernel.lowestFree k.fds : Int) ≠ 0 := by exact_mod_cast Kernel.lowestFree_ne_zero h0
  unfold hideConsole
  cases oc.openConsole <;> simp [hn]

/-- The console step keeps the device descriptor and every open descriptor. -/
theorem hideConsole_spec (h0 : 0 ∈ k.fds) :
    (o.hideConsole oc k).2.1 = false ∧ (o.hideConsole oc k).1.mFbFd = o.mFbFd ∧
      k.fds ⊆ (o.hideConsole oc k).2.2.fds := by
  rw [hideConsole_eq o oc k h0]
  split_ifs <;> simp [List.subset_cons_self]

/-- When `FBIOGET_FSCREENINFO` and a mapping succeed, the last phase can only
fail at the channel count check, which restores the mode and closes the
device. -/
theorem initFinish_fail (h0 : 0 ∈ k.fds) {n : Nat} (hfd : o.mFbFd = n) (hn : n ∈ k.fds)
    (hf : oc.getFScreen = true) (hm : oc.mmapDouble = true ∨ oc.mmapSingle = true)
    (hok : (o.initFinish oc errs k).ok = false) :
    (o.initFinish oc errs k).kernel = o.restoreAndClose oc k := by
  have hget : k.getFScreenInfo o.mFbFd oc.getFScreen oc.lineLength = some oc.lineLength := by
    simp [Kernel.getFScreenInfo, hfd, hn, hf]
  unfold initFinish at hok ⊢
  rw [hget] at hok ⊢
  by_cases hc : o.mChannelCount ≠ o.mWidth * o.mHeight * 3
  · simp only [if_pos hc]
  · simp only [if_neg hc] at hok
    obtain ⟨hflag, hfd3, hsub⟩ := hideConsole_spec o oc k h0
    rcases hh : o.hideConsole oc k with ⟨o3, c, k3⟩
    rw [hh] at hflag hfd3 hsub
    simp only [hh] at hok
    dsimp only at hflag hfd3 hsub
    subst hflag
    have hmap : ∀ o4 : FBMatrixOutput, o4.mFbFd = n → (o4.mapMemory oc k3).2 = true := by
      intro o4 h4
      unfold mapMemory
      simp only [Kernel.mmap, h4, Kernel.isOpen_natCast, hsub hn, decide_True, Bool.true_and]
      split
      · rfl
      · exact hm.resolve_left ‹_›
    simp [hmap, hfd3, hfd] at hok

/-- The mapping step as one record update. -/
theorem mapMemory_eq : o.mapMemory oc k =
    ({ o with mIsDoubleBuffered := o.mIsDoubleBuffered && k.mmap o.mFbFd oc.mmapDouble },
      k.mmap o.mFbFd oc.mmapDouble || k.mmap o.mFbFd oc.mmapSingle) := by
  unfold mapMemory
  split <;> simp_all

/-- When the last phase succeeds, it leaves the kernel and the members
`Close` reads as the console step left them. -/
theorem initFinish_ok (hok : (o.initFinish oc errs k).ok = true) :
    (o.initFinish oc errs k).kernel = (o.hideConsole oc k).2.2 ∧
      (o.initFinish oc errs k).sink.mTtyFd = (o.hideConsole oc k).1.mTtyFd ∧
      (o.initFinish oc errs k).sink.mFbFd = (o.hideConsole oc k).1.mFbFd ∧
      (o.initFinish oc errs k).sink.mVInfoOrig = (o.hideConsole oc k).1.mVInfoOrig ∧
      (o.initFinish oc errs k).sink.mDevice = (o.hideConsole oc k).1.mDevice ∧
      (o.initFinish oc errs k).sink.mTopFrame = (o.hideConsole oc k).1.mTopFrame := by
  revert hok
  unfold initFinish
  simp only [mapMemory_eq]
  repeat' split
  all_goals simp_all

/-- `Close` reads four members of the sink. -/
theorem close_kernel_congr {s s' : FBMatrixOutput} (oc' : CloseOutcomes)
    (h1 : s.mDevice = s'.mDevice) (h2 : s.mTtyFd = s'.mTtyFd) (h3 : s.mFbFd = s'.mFbFd)
    (h4 : s.mVInfoOrig = s'.mVInfoOrig) :
    (s.close oc' k).2.2 = (s'.close oc' k).2.2 := by
  unfold close
  rw [h1]
  split <;> simp only [h2, h3, h4]

end Phases

/-! ## Setup and teardown -/

section Restore

variable (o : FBMatrixOutput) (config : FBMatrixConfig) (oc : Outcomes) (k : Kernel)

/-- **What `Init` and `Close` give back.**  While descriptor `0` is open (so
that `open` never returns the `0` that `Init` takes for failure):

* when `Init` returns 0 and neither `FBIOGET_FSCREENINFO` nor both mappings
  failed, with the ioctl that puts the original mode back succeeding, the
  kernel is exactly as before: the same mode, console mode and descriptors;
* when `Init` succeeded on `/dev/fb0`, on a console in text mode whose mode
  had no virtual resolution beyond the visible one, `Close` with its calls
  succeeding gives back exactly the kernel `Init` started from. -/
theorem init_close_restore (h0 : 0 ∈ k.fds) :
    ((o.init config oc k).ok = false → oc.restore = true → oc.getFScreen = true →
        (oc.mmapDouble = true ∨ oc.mmapSingle = true) → (o.init config oc k).kernel = k) ∧
      ((o.init config oc k).ok = true → (o.init config oc k).sink.mDevice = "/dev/fb0" →
        k.console = .text → k.vmode.xresVirtual = k.vmode.xres →
        k.vmode.yresVirtual = k.vmode.yres →
        ((o.init config oc k).sink.close ⟨true, true⟩ (o.init config oc k).kernel).2.2 = k) := by
  rcases o.initOpen_spec config oc k h0 with ⟨r, hr, hrok, hrk⟩ | ⟨o1, hopen, hfd1, horig1, -, -⟩
  · -- failed before the device was set up: nothing to undo
    simp [init, hr, hrok, hrk]
  have hn := Kernel.lowestFree_not_mem k.fds
  rcases initMode_spec o1 oc { k with fds := Kernel.lowestFree k.fds :: k.fds }
    with ⟨r, hr, hrok, hrk⟩ | ⟨v, dbl, errs, hmode, -⟩
  · -- the mode could not be set: closing the device undoes the open
    simp [init, hopen, hr, hrok, hrk, hfd1]
  rw [init, hopen]
  dsimp only
  rw [hmode]
  dsimp only
  refine ⟨fun hok hrs hf hm => ?_, fun hok hdev hcon hx hy => ?_⟩
  · -- the count check failed: the mode is put back and the device closed
    rw [initFinish_fail { o1 with mVInfo := v, mIsDoubleBuffered := dbl } oc
      { k with vmode := v, fds := Kernel.lowestFree k.fds :: k.fds } errs
      (List.mem_cons_of_mem _ h0) hfd1 (List.mem_cons_self _ _) hf hm hok]
    simp [restoreAndClose, Kernel.putVScreenInfo, hrs, hn, hfd1, horig1]
  · -- `Close` undoes the console step and the mode change
    obtain ⟨hk, htty, hfb, horig, hdev', -⟩ := initFinish_ok
      { o1 with mVInfo := v, mIsDoubleBuffered := dbl } oc
      { k with vmode := v, fds := Kernel.lowestFree k.fds :: k.fds } errs hok
    have hv : { k.vmode with yresVirtual := k.vmode.yres, xresVirtual := k.vmode.xres } =
        k.vmode := by
      rw [← hx, ← hy]
    rw [close_kernel_congr _ _ hdev' htty hfb horig, hk,
      hideConsole_eq _ _ _ (List.mem_cons_of_mem _ h0)]
    have hfb0 : o1.mDevice = "/dev/fb0" := by
      rw [← hdev, hdev', hideConsole_eq _ _ _ (List.mem_cons_of_mem _ h0)]
      split_ifs <;> rfl
    cases oc.openConsole <;> cases oc.setGraphics <;>
      simp [hfb0, close, Kernel.kdSetMode, Kernel.putVScreenInfo, hn, hcon, hfd1, horig1, hv] <;>
      rw [← hcon]

end Restore

/-- A text console showing a 640×480 mode at 24 bpp, with the standard
descriptors open. -/
def desktop : Kernel :=
  ⟨{ FbVarScreeninfo.zero with
    xres := 640, yres := 480, xresVirtual := 640, yresVirtual := 480, bitsPerPixel := 24 },
    .text, [0, 1, 2]⟩

/-- Every call succeeds, the driver installs the modes asked for and reports
lines of 1920 bytes. -/
def allSucceed : Outcomes :=
  ⟨true, true, true, none, true, none, true, 1920, true, true, true, true, true⟩

/-- A 2×2 BGR matrix on `/dev/fb0`, scaled by the hardware. -/
def fb0Matrix : FBMatrixConfig := ⟨2, 2, "BGR", 0, "fb0", none⟩

/-- The mode a driver that rounds each side up to 8 pixels installs for the
2×2 request from `desktop`. -/
def rounded8 : FbVarScreeninfo :=
  { desktop.vmode with xres := 8, yres := 8, xresVirtual := 8, yresVirtual := 16 }

/-- Every call succeeds, the driver installing `rounded8` for the
double-height request. -/
def roundsTo8 : Outcomes := { allSucceed with adjustDouble := some rounded8 }

theorem init_close_restore_desktop :
    0 ∈ desktop.fds ∧
      ((createFBMatrixOutput 0 11).init fb0Matrix roundsTo8 desktop).ok = false ∧
      ((createFBMatrixOutput 0 11).init fb0Matrix roundsTo8 desktop).kernel = desktop ∧
      ((createFBMatrixOutput 0 12).init fb0Matrix allSucceed desktop).ok = true ∧
      (((createFBMatrixOutput 0 12).init fb0Matrix allSucceed desktop).sink.close ⟨true, true⟩
        ((createFBMatrixOutput 0 12).init fb0Matrix allSucceed desktop).kernel).2.2 = desktop :=
  ⟨by decide, by decide,
    (init_close_restore _ _ _ _ (by decide)).1 (by decide) rfl rfl (.inl rfl), by decide,
    (init_close_restore _ _ _ _ (by decide)).2 (by decide) (by decide) rfl rfl rfl⟩

/-- Three runs from `desktop` after which the display is not as it was:
`Init` fails at `FBIOGET_FSCREENINFO` with the 2×2 mode left in force; `Init`
fails to map the memory with the console left in graphics mode and
`/dev/console` left open; and `Close` after a successful `Init` on
`/dev/fb1` leaves the 2×2 mode in force. -/
theorem init_close_leave_display_changed :
    ((createFBMatrixOutput 0 12).init fb0Matrix { allSucceed with getFScreen := false }
        desktop).ok = false ∧
      ((createFBMatrixOutput 0 12).init fb0Matrix { allSucceed with getFScreen := false }
        desktop).kernel.vmode ≠ desktop.vmode ∧
      ((createFBMatrixOutput 0 12).init fb0Matrix
        { allSucceed with mmapDouble := false, mmapSingle := false } desktop).ok = false ∧
      ((createFBMatrixOutput 0 12).init fb0Matrix
        { allSucceed with mmapDouble := false, mmapSingle := false } desktop).kernel =
        { desktop with console := .graphics, fds := 4 :: desktop.fds } ∧
      ((createFBMatrixOutput 0 12).init { fb0Matrix with device := "fb1" } allSucceed
        desktop).ok = true ∧
      (((createFBMatrixOutput 0 12).init { fb0Matrix with device := "fb1" } allSucceed
        desktop).sink.close ⟨true, true⟩ ((createFBMatrixOutput 0 12).init
          { fb0Matrix with device := "fb1" } allSucceed desktop).kernel).2.2.vmode ≠
        desktop.vmode := by
  decide

/-! ## What a successful `Init` leaves -/

section Ready

variable (o : FBMatrixOutput) (config : FBMatrixConfig) (oc : Outcomes) (k : Kernel)

end Ready

section Outcome

variable (o : FBMatrixOutput) (config : FBMatrixConfig) (oc : Outcomes) (k : Kernel)
  (h0 : 0 ∈ k.fds)
include h0

/-- The first phase, while descriptor `0` is open: it fails with `Init`'s
result unless the device opens and reports a depth `PrepData` draws, and
otherwise leaves the configured sink on the new descriptor. -/
theorem initOpen_outcome :
    (∃ r, o.initOpen config oc k = .error r ∧ r.ok = false ∧
      (oc.openFb && oc.getVScreen && decide (k.vmode.bitsPerPixel = 16 ∨
        k.vmode.bitsPerPixel = 24 ∨ k.vmode.bitsPerPixel = 32)) = false) ∨
    ∃ o1, o.initOpen config oc k = .ok (o1, { k with fds := Kernel.lowestFree k.fds :: k.fds }) ∧
      (oc.openFb && oc.getVScreen && decide (k.vmode.bitsPerPixel = 16 ∨
        k.vmode.bitsPerPixel = 24 ∨ k.vmode.bitsPerPixel = 32)) = true ∧
      o1.mFbFd = Kernel.lowestFree k.fds ∧ o1.mChannelCount = o.mChannelCount ∧
      o1.mWidth = config.width ∧ o1.mHeight = config.height := by
  have hn : (Kernel.lowestFree k.fds : Int) ≠ 0 := by exact_mod_cast Kernel.lowestFree_ne_zero h0
  unfold initOpen
  cases hfb : oc.openFb
  · simp [Kernel.getVScreenInfo]
  cases hg : oc.getVScreen
  · simp [Kernel.getVScreenInfo, hn, hg]
  simp only [Kernel.openFd_true, hn, if_false, Kernel.getVScreenInfo, Kernel.isOpen_natCast,
    List.mem_cons_self, decide_True, hg, Bool.and_self, if_true, Bool.true_and]
  by_cases hb :
    k.vmode.bitsPerPixel = 16 ∨ k.vmode.bitsPerPixel = 24 ∨ k.vmode.bitsPerPixel = 32
  · rw [if_neg (by omega)]
    exact .inr ⟨_, rfl, by simp [hb], rfl, rfl, rfl, rfl⟩
  · rw [if_pos (by omega)]
    exact .inl ⟨_, rfl, rfl, by simp [hb]⟩

omit h0 in
/-- The mode phase on an open descriptor: it fails with `Init`'s result
unless one of the two mode requests is accepted. -/
theorem initMode_outcome (hfd : k.isOpen o.mFbFd = true) :
    (∃ r, o.initMode oc k = .error r ∧ r.ok = false ∧
      (oc.putDouble || oc.putSingle) = false) ∨
    ∃ v dbl errs, o.initMode oc k =
      .ok ({ o with mVInfo := v, mIsDoubleBuffered := dbl }, errs, { k with vmode := v }) ∧
      (oc.putDouble || oc.putSingle) = true := by
  unfold initMode
  simp only [Kernel.putVScreenInfo, hfd, Bool.true_and]
  cases hd : oc.putDouble <;> cases hs : oc.putSingle <;>
    simp only [hd, hs, hfd, Bool.and_true, Bool.and_false, ↓reduceIte, Bool.false_eq_true] <;>
    first | exact .inl ⟨_, rfl, rfl, rfl⟩ | exact .inr ⟨_, _, _, rfl, rfl⟩

/-- The last phase on a descriptor that is open while `0` is: it succeeds
exactly when the fixed info is read, the channel count is the matrix's and
one of the two mappings is made. -/
theorem initFinish_ok_eq {n : Nat} (hfd : o.mFbFd = n) (hn : n ∈ k.fds) (errs : List String) :
    (o.initFinish oc errs k).ok = (oc.getFScreen &&
      decide (o.mChannelCount = o.mWidth * o.mHeight * 3) && (oc.mmapDouble || oc.mmapSingle)) := by
  unfold initFinish
  cases hf : oc.getFScreen
  · simp [Kernel.getFScreenInfo, hf]
  have hget : k.getFScreenInfo o.mFbFd true oc.lineLength = some oc.lineLength := by
    simp [Kernel.getFScreenInfo, hfd, hn]
  rw [hget]
  dsimp only
  by_cases hc : o.mChannelCount = o.mWidth * o.mHeight * 3
  · obtain ⟨hflag, hfd3, hsub⟩ := hideConsole_spec o oc k h0
    rcases hh : o.hideConsole oc k with ⟨o3, c, k3⟩
    rw [hh] at hflag hfd3 hsub
    dsimp only at hflag hfd3 hsub
    subst hflag
    have hopen : k3.isOpen o3.mFbFd = true := by simp [hfd3, hfd, hsub hn]
    simp only [if_neg (not_not.mpr hc), mapMemory_eq, Kernel.mmap, hopen, Bool.true_and,
      Bool.false_eq_true, if_false, decide_True, hc]
    cases oc.mmapDouble <;> cases oc.mmapSingle <;> simp
  · simp [hc]

/-- **When `Init` succeeds.**  While descriptor `0` is open, `Init` succeeds
exactly when the device opens and reports its mode, the mode has 16, 24 or
32 bits per pixel, one of the two mode requests is accepted, the fixed info
is read, the channel count is the matrix's, and one of the two mappings is
made.  A refused double-height mode and a refused two-page mapping fall back
to single buffering, and a console that does not open goes unnoticed. -/
theorem init_ok_eq :
    (o.init config oc k).ok = (oc.openFb && oc.getVScreen &&
      decide (k.vmode.bitsPerPixel = 16 ∨ k.vmode.bitsPerPixel = 24 ∨
        k.vmode.bitsPerPixel = 32) &&
      (oc.putDouble || oc.putSingle) && oc.getFScreen &&
      decide (o.mChannelCount = config.width * config.height * 3) &&
      (oc.mmapDouble || oc.mmapSingle)) := by
  unfold init
  rcases o.initOpen_outcome config oc k h0 with
    ⟨r, hopen, hr, hc⟩ | ⟨o1, hopen, hc, hfd1, hcc, hw, hh⟩
  · rw [hopen, hr, hc]; rfl
  simp only [hopen, hc, Bool.true_and]
  have hopen1 :
      ({ k with fds := Kernel.lowestFree k.fds :: k.fds } : Kernel).isOpen o1.mFbFd = true := by
    simp [hfd1]
  rcases o1.initMode_outcome oc _ hopen1 with ⟨r, hmode, hr, hm⟩ | ⟨v, dbl, errs, hmode, hm⟩
  · simp only [hmode, hr, hm, Bool.false_and]
  simp only [hmode, hm, Bool.true_and]
  rw [initFinish_ok_eq _ _ _ (List.mem_cons_of_mem _ h0) (by exact hfd1) (List.mem_cons_self _ _)]
  simp [hcc, hw, hh]

end Outcome

theorem init_ok_eq_singleBuffered :
    0 ∈ desktop.fds ∧ ((createFBMatrixOutput 0 12).init fb0Matrix
      { allSucceed with putDouble := false, openConsole := false, mmapDouble := false }
        desktop).ok = true :=
  ⟨by decide, (init_ok_eq _ _ _ _ (by decide)).trans (by decide)⟩

end FBMatrixOutput

end ChannelOutput
