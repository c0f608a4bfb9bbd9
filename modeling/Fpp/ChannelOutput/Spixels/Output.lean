import Mathlib.Data.List.Basic

/-!
# The Spixels pixel-bus sink

`SpixelsOutput::Init` turns each configured output into a `PixelString` and a
strip of `m_outputChannels / 3` pixels on one connector of the shared
multi-SPI driver, dropping strings of no pixel and stopping at the first entry
whose string or protocol is rejected.  `PrepData` walks each string three
channels at a time, looking each channel byte up through that channel's
brightness table, and sets one strip pixel per step.
`GetRequiredChannelRanges` reports, per string, the least and greatest channel
its output map references below `FPPD_MAX_CHANNELS`.

`PixelString::Init` is outside src/: an output entry carries the string it
builds (`OutputConfig.pixelString`), and the string is taken as it comes, any
map and any channel count.  `PrepData` is modelled as the list of accesses it
makes, in order: reads of the output map, of the brightness tables and of the
show buffer, and `SetPixel` calls.
-/

namespace ChannelOutput

/-- `RGBc(r, g, b)`. -/
structure RGBc where
  r : UInt8
  g : UInt8
  b : UInt8
  deriving DecidableEq, Repr

/-- The parts of a `PixelString` the sink reads: the number of output
channels, the show-buffer channel each takes, and one brightness table per
output channel, as `PixelString::Init` sizes them. -/
structure PixelString where
  mOutputChannels : Nat
  mOutputMap : List Nat
  mBrightnessMaps : List (UInt8 → UInt8)
  mOutputMap_length : mOutputMap.length = mOutputChannels
  mBrightnessMaps_length : mBrightnessMaps.length = mOutputChannels

/-- A strip made by `CreateWS2801Strip` and its siblings: its protocol, its
connector and its pixel count. -/
structure LEDStrip where
  protocol : String
  connector : Nat
  pixels : Nat
  deriving DecidableEq, Repr

/-- The strings and strips of a `SpixelsOutput`, index by index. -/
structure SpixelsOutput where
  mStrings : List PixelString
  mStrips : List LEDStrip

/-- One entry of `config["outputs"]`: its protocol, its port, and the string
`PixelString::Init` builds from it (`none` when that fails). -/
structure OutputConfig where
  protocol : String
  portNumber : Int
  pixelString : Option PixelString

namespace SpixelsOutput

/-- FPP's `toLower`, ASCII lower case in place. -/
def toLower (s : String) : String := ⟨s.data.map Char.toLower⟩

/-- The `switch` on `portNumber`: `k + 1` stands for `MultiSPI::SPI_P(k+1)`,
0 for a port outside 0..15, which leaves `connector` at 0. -/
def connectorOf (portNumber : Int) : Nat :=
  if 0 ≤ portNumber ∧ portNumber ≤ 15 then portNumber.toNat + 1 else 0

/-- The strip the protocol names, if it is one of the four. -/
def createStrip (protocol : String) (connector pixels : Nat) : Option LEDStrip :=
  if protocol = "ws2801" ∨ protocol = "apa102" ∨ protocol = "lpd6803" ∨ protocol = "lpd8806" then
    some ⟨protocol, connector, pixels⟩
  else none

/-- The loop of `SpixelsOutput::Init` over the outputs: the state it leaves,
whether it ran to the end, and the errors it logs. -/
def initLoop : List OutputConfig → SpixelsOutput → SpixelsOutput × Bool × List String
  | [], o => (o, true, [])
  | s :: rest, o =>
      match s.pixelString with
      | none => (o, false, [])
      | some ps =>
          let pixels := ps.mOutputChannels / 3
          if pixels = 0 then initLoop rest o
          else
            match createStrip (toLower s.protocol) (connectorOf s.portNumber) pixels with
            | none => (o, false, ["Unknown Pixel Protocol: " ++ s.protocol ++ "\n"])
            | some strip => initLoop rest ⟨o.mStrings ++ [ps], o.mStrips ++ [strip]⟩

/-- `SpixelsOutput::Init(config)` on a fresh sink; when the loop runs to the
end it goes on to `ThreadedChannelOutput::Init` (not under src/). -/
def init (outputs : List OutputConfig) : SpixelsOutput × Bool × List String :=
  initLoop outputs ⟨[], []⟩

/-! ## `GetRequiredChannelRanges` -/

/-- The `min`/`max` loop over one string: the least and greatest mapped
channel below `maxChannels`, from `(maxChannels, 0)`. -/
def stringRange (maxChannels : Nat) (ps : PixelString) : Nat × Nat :=
  (List.range ps.mOutputChannels).foldl
    (fun r p =>
      let ch := ps.mOutputMap.getD p 0
      if ch < maxChannels then (min r.1 ch, max r.2 ch) else r)
    (maxChannels, 0)

/-- `SpixelsOutput::GetRequiredChannelRanges(addRange)`: the `addRange(min,
max)` calls, one per string whose `min < max`. -/
def getRequiredChannelRanges (maxChannels : Nat) (o : SpixelsOutput) : List (Nat × Nat) :=
  o.mStrings.filterMap fun ps =>
    if (stringRange maxChannels ps).1 < (stringRange maxChannels ps).2 then
      some (stringRange maxChannels ps) else none

/-! ## `PrepData` -/

/-- An access `PrepData` makes while on string `s`. -/
inductive Access
  | outputMap (s i : Nat)
  | brightnessMap (s i : Nat)
  | channel (s c : Nat)
  | setPixel (s pix : Nat) (color : RGBc)
  deriving DecidableEq, Repr

/-- `ps->m_brightnessMaps[i][channelData[ps->m_outputMap[i]]]` with its three
reads. -/
def channelAccesses (s : Nat) (ps : PixelString) (i : Nat) : List Access :=
  [.outputMap s i, .channel s (ps.mOutputMap.getD i 0), .brightnessMap s i]

/-- The brightness-mapped byte of output channel `i`. -/
def mapped (ps : PixelString) (channelData : Nat → UInt8) (i : Nat) : UInt8 :=
  (ps.mBrightnessMaps.getD i fun _ => 0) (channelData (ps.mOutputMap.getD i 0))

/-- One iteration of the pixel loop, at channel `p` and pixel `pix`. -/
def pixelAccesses (s : Nat) (ps : PixelString) (channelData : Nat → UInt8) (p pix : Nat) :
    List Access :=
  channelAccesses s ps p ++ channelAccesses s ps (p + 1) ++ channelAccesses s ps (p + 2) ++
    [.setPixel s pix ⟨mapped ps channelData p, mapped ps channelData (p + 1),
      mapped ps channelData (p + 2)⟩]

/-- `for (p = 0, pix = 0; p < ps->m_outputChannels; pix++)`, three channels
per iteration; `fuel` bounds the iterations. -/
def pixelLoop (s : Nat) (ps : PixelString) (channelData : Nat → UInt8) :
    Nat → Nat → Nat → List Access
  | 0, _, _ => []
  | fuel + 1, p, pix =>
      if p < ps.mOutputChannels then
        pixelAccesses s ps channelData p pix ++ pixelLoop s ps channelData fuel (p + 3) (pix + 1)
      else []

/-- `SpixelsOutput::PrepData(channelData)`: the pixel loop of every string,
with as much fuel as the string has channels. -/
def prepData (o : SpixelsOutput) (channelData : Nat → UInt8) : List Access :=
  o.mStrings.enum.flatMap fun e => pixelLoop e.1 e.2 channelData e.2.mOutputChannels 0 0

end SpixelsOutput

end ChannelOutput
