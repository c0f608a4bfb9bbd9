import Mathlib.Data.List.Basic

/-!
# The framebuffer matrix sink: state

The data model of `FBMatrix.cpp`: the display mode records the kernel hands
back (`fb_var_screeninfo`, reduced to the fields the sink reads or sets), the
sink's members, the RGB565 lookup table `Init` precomputes, and the channel
range the sink asks for.  Sizes and counts are the non-negative ints of the
configuration and the driver, kept as `Nat`.
-/

namespace ChannelOutput

/-- `m_scaling`: `HARDWARE`, `SOFTWARE` or `NONE`. -/
inductive Scaling
  | hardware
  | software
  | none
  deriving DecidableEq, Repr

/-- A `struct fb_bitfield`. -/
structure FbBitfield where
  offset : Nat
  length : Nat
  deriving DecidableEq, Repr

/-- The fields of `struct fb_var_screeninfo` the sink reads or sets. -/
structure FbVarScreeninfo where
  xres : Nat
  yres : Nat
  xresVirtual : Nat
  yresVirtual : Nat
  yoffset : Nat
  bitsPerPixel : Nat
  red : FbBitfield
  green : FbBitfield
  blue : FbBitfield
  transp : FbBitfield
  deriving DecidableEq, Repr

/-- A display mode of zeros. -/
def FbVarScreeninfo.zero : FbVarScreeninfo :=
  ⟨0, 0, 0, 0, 0, 0, ⟨0, 0⟩, ⟨0, 0⟩, ⟨0, 0⟩, ⟨0, 0⟩⟩

/-- The members of `FBMatrixOutput`: the channel window, the configuration
`Init` reads, the descriptors and display modes it sets up, the line length
and frame size, and the precomputed RGB565 table `m_rgb565map[i][j][k]`.
The mapping `m_fbp` and the frame `m_frame` are not members here: the frame
is the memory `PrepData` runs over, and the mapping is not modelled. -/
structure FBMatrixOutput where
  mStartChannel : Nat
  mChannelCount : Nat
  mScaling : Scaling
  mFbFd : Int
  mTtyFd : Int
  mWidth : Nat
  mHeight : Nat
  mUseRGB : Bool
  mInverted : Bool
  mBpp : Nat
  mDevice : String
  mVInfo : FbVarScreeninfo
  mVInfoOrig : FbVarScreeninfo
  mLineLength : Nat
  mScreenSize : Nat
  mRgb565map : Nat → Nat → Nat → UInt16
  mIsDoubleBuffered : Bool
  mTopFrame : Bool

namespace FBMatrixOutput

/-- `createFBMatrixOutput(startChannel, channelCount)`: the constructor's
initial members.  The display modes and the line length, which the source
leaves uninitialised until `Init`, are zero here. -/
def createFBMatrixOutput (startChannel channelCount : Nat) : FBMatrixOutput where
  mStartChannel := startChannel
  mChannelCount := channelCount
  mScaling := .hardware
  mFbFd := 0
  mTtyFd := 0
  mWidth := 0
  mHeight := 0
  mUseRGB := false
  mInverted := false
  mBpp := 24
  mDevice := "/dev/fb0"
  mVInfo := .zero
  mVInfoOrig := .zero
  mLineLength := 0
  mScreenSize := 0
  mRgb565map := fun _ _ _ => 0
  mIsDoubleBuffered := false
  mTopFrame := true

/-- `FBMatrixOutput::GetRequiredChannelRanges(addRange)`: the one inclusive
range it adds. -/
def getRequiredChannelRanges (o : FBMatrixOutput) : Int × Int :=
  (o.mStartChannel, o.mStartChannel + o.mWidth * o.mHeight * 3 - 1)

/-- One shift of the table loop: `v >> shift` when `shift >= 0`, else
`v << abs(shift)`. -/
def shiftBy (v : Nat) (shift : Int) : Nat :=
  if 0 ≤ shift then v >>> shift.toNat else v <<< shift.natAbs

/-- `m_rgb565map[b][g][r]` as `Init` fills it from the bitfields of
`m_vInfo`, truncated to the `uint16_t` it is stored in. -/
def rgb565map (v : FbVarScreeninfo) (b g r : Nat) : UInt16 :=
  let rShift : Int := v.red.offset - (8 + (8 - v.red.length : Int))
  let gShift : Int := v.green.offset - (8 + (8 - v.green.length : Int))
  let bShift : Int := v.blue.offset - (8 + (8 - v.blue.length : Int))
  UInt16.ofNat (shiftBy r rShift ||| shiftBy g gShift ||| shiftBy b bShift)

/-- The RGB565 bitfields `Init` requests for a 16 bpp display. -/
def rgb565Fields (v : FbVarScreeninfo) : FbVarScreeninfo :=
  { v with red := ⟨11, 5⟩, green := ⟨5, 6⟩, blue := ⟨0, 5⟩, transp := ⟨0, 0⟩ }

end FBMatrixOutput

end ChannelOutput
