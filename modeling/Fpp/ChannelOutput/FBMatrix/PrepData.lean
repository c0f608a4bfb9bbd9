import Fpp.ChannelOutput.FBMatrix.Basic

/-!
# The framebuffer matrix sink: `PrepData`

`FBMatrixOutput::PrepData` renders the sink's channel window into the
off-screen frame `m_frame`, row by row, along one of three paths: an RGB565
table lookup at 16 bpp; a per-pixel byte copy, with nearest-neighbour
resampling through the index tables `xpos`/`ypos` under software scaling;
and a `memcpy` per row otherwise.

The model runs over a `Mem`: the frame's bytes and the log of every access
the code makes, in program order (channel reads, frame reads and writes,
table lookups and the divisions filling the tables), so that the bounds
results of `Fpp.ChannelOutput.FBMatrix.Bounds` are statements about the log.
Pointers become offsets: `sR` is an index into the show buffer, the
destination pointers are signed offsets into `m_frame`, since the inverted
paths walk them downwards.
-/

namespace ChannelOutput

namespace FBMatrixOutput

/-- One access `PrepData` makes: a read of `channelData`, a read or write of
a byte of `m_frame`, a lookup in `xpos` or `ypos`, or a division while
filling them. -/
inductive Access
  | channel (i : Nat)
  | frameRead (off : Int)
  | write (off : Int)
  | xpos (i : Nat)
  | ypos (i : Nat)
  | divide (d : Nat)
  deriving DecidableEq, Repr

/-- The frame `PrepData` renders into, and the accesses made so far. -/
structure Mem where
  frame : Int → UInt8
  log : List Access

namespace Mem

/-- Record accesses that change no byte of the frame. -/
def note (m : Mem) (as : List Access) : Mem := ⟨m.frame, m.log ++ as⟩

/-- `*(m_frame + off) = v`. -/
def write (m : Mem) (off : Int) (v : UInt8) : Mem :=
  ⟨fun i => if i = off then v else m.frame i, m.log ++ [.write off]⟩

/-- `*(m_frame + dst) = channelData[src]`. -/
def copyByte (m : Mem) (cd : Nat → UInt8) (dst : Int) (src : Nat) : Mem :=
  (m.note [.channel src]).write dst (cd src)

/-- `memcpy(m_frame + dst, channelData + src, n)`. -/
def copyIn (m : Mem) (cd : Nat → UInt8) (dst : Int) (src n : Nat) : Mem :=
  (List.range n).foldl (fun m (k : Nat) => m.copyByte cd (dst + k) (src + k)) m

/-- `memcpy(m_frame + dst, m_frame + src, n)`, byte by byte: the rows it
copies never overlap. -/
def copyRow (m : Mem) (dst src : Int) (n : Nat) : Mem :=
  (List.range n).foldl
    (fun m (k : Nat) => (m.note [.frameRead (src + k)]).write (dst + k) (m.frame (src + k))) m

variable (m : Mem) (cd : Nat → UInt8)

@[simp] theorem note_log (as : List Access) : (m.note as).log = m.log ++ as := rfl

@[simp] theorem note_frame (as : List Access) : (m.note as).frame = m.frame := rfl

@[simp] theorem write_log (off : Int) (v : UInt8) : (m.write off v).log = m.log ++ [.write off] :=
  rfl

theorem write_frame (off : Int) (v : UInt8) (i : Int) :
    (m.write off v).frame i = if i = off then v else m.frame i := rfl

@[simp] theorem copyByte_log (dst : Int) (src : Nat) :
    (m.copyByte cd dst src).log = m.log ++ [.channel src, .write dst] := by
  simp [copyByte]

/-- A `memcpy` from the show buffer reads and writes its bytes in turn. -/
theorem copyIn_log (dst : Int) (src n : Nat) :
    (m.copyIn cd dst src n).log =
      m.log ++ (List.range n).flatMap fun k => [.channel (src + k), .write (dst + k)] := by
  induction n with
  | zero => simp [copyIn]
  | succ n ih =>
    simp only [copyIn] at ih
    simp [copyIn, List.range_succ, ih]

/-- A row copy within the frame reads and writes its bytes in turn. -/
theorem copyRow_log (dst src : Int) (n : Nat) :
    (m.copyRow dst src n).log =
      m.log ++ (List.range n).flatMap fun k => [.frameRead (src + k), .write (dst + k)] := by
  induction n with
  | zero => simp [copyRow]
  | succ n ih =>
    simp only [copyRow] at ih
    simp [copyRow, List.range_succ, ih]

end Mem

variable (o : FBMatrixOutput) (cd : Nat → UInt8)

/-- `width`: the matrix width, or the display's under software scaling. -/
def outWidth : Nat := if o.mScaling = .software then o.mVInfo.xres else o.mWidth

/-- `height`: the matrix height, or the display's under software scaling. -/
def outHeight : Nat := if o.mScaling = .software then o.mVInfo.yres else o.mHeight

/-- The first `drow`: the bottom row of `height` when inverted. -/
def drow0 : Int := if o.mInverted then (o.outHeight : Int) - 1 else 0

/-- `drow += m_inverted ? -1 : 1`. -/
def nextRow (drow : Int) : Int := if o.mInverted then drow - 1 else drow + 1

/-! ## 16 bpp: the RGB565 table -/

/-- The table word for the pixel whose channels start at `s`:
`m_rgb565map[*sR >> 3][*sG >> 2][*sB >> 3]` for RGB data, the red and blue
indices swapped for BGR. -/
def pixel565 (s : Nat) : UInt16 :=
  if o.mUseRGB then o.mRgb565map ((cd s).toNat >>> 3) ((cd (s + 1)).toNat >>> 2) ((cd (s + 2)).toNat >>> 3)
  else o.mRgb565map ((cd (s + 2)).toNat >>> 3) ((cd (s + 1)).toNat >>> 2) ((cd s).toNat >>> 3)

/-- One pixel of the 16 bpp loop, over the memory, `sR` and `d`: the word is
stored little-endian, as on the ARM boards the sink runs on. -/
def pixel16 : Mem × Nat × Int → Nat → Mem × Nat × Int
  | (m, s, d), _ =>
    let w := o.pixel565 cd s
    (((m.note [.channel s, .channel (s + 1), .channel (s + 2)]).write d w.toUInt8).write
      (d + 1) (w >>> 8).toUInt8, s + 3, d + 2)

/-- One row `y` of the 16 bpp loop, over the memory, `sR` and `drow`. -/
def row16 : Mem × Nat × Int → Nat → Mem × Nat × Int
  | (m, s, drow), _ =>
    let r := (List.range o.mWidth).foldl (o.pixel16 cd) (m, s, drow * o.mLineLength)
    (r.1, r.2.1, o.nextRow drow)

/-- The 16 bpp path: `m_height` rows of `m_width` pixels. -/
def prepData16 (m : Mem) : Mem :=
  ((List.range o.mHeight).foldl (o.row16 cd) (m, o.mStartChannel, o.drow0)).1

/-! ## The per-pixel path and software scaling -/

/-- `xpos[vx] = vx * m_width / width`. -/
def xpos (vx : Nat) : Nat := vx * o.mWidth / o.outWidth

/-- `ypos[vy] = vy * m_height / height`. -/
def ypos (vy : Nat) : Nat := vy * o.mHeight / o.outHeight

/-- The divisions filling `xpos` (`width + 1` entries) and then `ypos`. -/
def tableAccesses : List Access :=
  List.replicate (o.outWidth + 1) (.divide o.outWidth) ++
    List.replicate (o.outHeight + 1) (.divide o.outHeight)

/-- `add = m_bpp / 8`: the bytes of one display pixel. -/
def add : Nat := o.mBpp / 8

/-- Where `dR` starts within a pixel: the framebuffer is BGR. -/
def rOff : Int := if o.mUseRGB then 2 else 0

/-- Where `dB` starts within a pixel. -/
def bOff : Int := if o.mUseRGB then 0 else 2

/-- One pixel `vx` of the per-pixel loop, over the memory, `sR` and the
pixel's first byte `dG - 1`: copy three channels, step the destination by
`m_bpp / 8`, and step the source unless software scaling samples the same
matrix column again. -/
def pixelScaled : Mem × Nat × Int → Nat → Mem × Nat × Int
  | (m, s, d), vx =>
    let m := ((m.copyByte cd (d + o.rOff) s).copyByte cd (d + 1) (s + 1)).copyByte cd
      (d + o.bOff) (s + 2)
    if o.mScaling = .software then
      (m.note [.xpos vx, .xpos (vx + 1)],
        if o.xpos vx ≠ o.xpos (vx + 1) then s + 3 else s, d + o.add)
    else (m, s + 3, d + o.add)

/-- The pixel loop of one display row: draws row `drow` from `sR = s` and
returns the memory and the new `sR`. -/
def renderRow (m : Mem) (s : Nat) (drow : Int) : Mem × Nat :=
  let r := (List.range o.outWidth).foldl (o.pixelScaled cd) (m, s, drow * o.mLineLength)
  (r.1, r.2.1)

/-- `while ((ypos[vy] == ypos[vy+1]) && vy < height)`: while the next display
row samples the same matrix row, copy the row just drawn onto it.  The state
is the memory, `vy` and `drow`; a pass that copies needs `vy < height`, so
at most `height` passes copy and one more makes the test that ends the loop:
`height + 1` passes of fuel never run out.  (At `m_height = 0` every test
holds up to `vy = height`, and the last one reads `ypos[height + 1]`.) -/
def dupRows : Nat → Mem × Nat × Int → Mem × Nat × Int
  | 0, st => st
  | fuel + 1, (m, vy, drow) =>
    let m := m.note [.ypos vy, .ypos (vy + 1)]
    if o.ypos vy = o.ypos (vy + 1) ∧ vy < o.outHeight then
      dupRows fuel (m.copyRow (o.nextRow drow * o.mLineLength) (drow * o.mLineLength)
        o.mLineLength, vy + 1, o.nextRow drow)
    else (m, vy, drow)

/-- One pass of the row loop of the per-pixel path, over the memory, `sR`,
`vy` and `drow`: draw row `vy`, duplicate it under software scaling, then
`drow += ...` and `vy++`. -/
def rowPass : Mem × Nat × Nat × Int → Mem × Nat × Nat × Int
  | (m, s, vy, drow) =>
    let r := o.renderRow cd m s drow
    let d := if o.mScaling = .software then o.dupRows (o.outHeight + 1) (r.1, vy, drow)
      else (r.1, vy, drow)
    (d.1, r.2, d.2.1 + 1, o.nextRow d.2.2)

/-- The row loop `for (vy = 0; vy < height; vy++)` of the per-pixel path;
every pass raises `vy`, so `height` passes of fuel never run out. -/
def rowsScaled : Nat → Mem × Nat × Nat × Int → Mem × Nat × Nat × Int
  | 0, st => st
  | fuel + 1, st => if st.2.2.1 < o.outHeight then rowsScaled fuel (o.rowPass cd st) else st

/-- The per-pixel path: fill the index tables, then the row loop. -/
def prepDataScaled (m : Mem) : Mem :=
  (o.rowsScaled cd o.outHeight (m.note o.tableAccesses, o.mStartChannel, 0, o.drow0)).1

/-! ## The direct copy -/

/-- One row of the direct copy, over the memory, `src` and `dst`. -/
def rowCopy : Mem × Nat × Int → Nat → Mem × Nat × Int
  | (m, src, dst), _ =>
    (m.copyIn cd dst src (o.mWidth * 3), src + o.mWidth * 3,
      if o.mInverted then dst - o.mLineLength else dst + o.mLineLength)

/-- The direct copy: one `memcpy` of `m_width * 3` bytes per row, from the
last row up when inverted. -/
def prepDataCopy (m : Mem) : Mem :=
  ((List.range o.mHeight).foldl (o.rowCopy cd)
    (m, o.mStartChannel,
      if o.mInverted then (o.mLineLength : Int) * ((o.mHeight : Int) - 1) else 0)).1

/-- `FBMatrixOutput::PrepData(channelData)`, with `channelData` advanced by
`m_startChannel`. -/
def prepData (m : Mem) : Mem :=
  if o.mBpp = 16 then o.prepData16 cd m
  else if o.mUseRGB ∨ o.mBpp = 32 ∨ o.mScaling = .software then o.prepDataScaled cd m
  else o.prepDataCopy cd m

/-! ## Access logs of the loops

Each loop's log in closed form over its counters.  The per-pixel row loop,
whose duplication pass depends on the index tables, gets an invariant
instead (`Fpp.ChannelOutput.FBMatrix.Bounds`). -/

/-- `drow` after `k` rows. -/
def rowAt (k : Nat) : Int := if o.mInverted then o.drow0 - k else o.drow0 + k

@[simp] theorem rowAt_zero : o.rowAt 0 = o.drow0 := by simp [rowAt]

theorem nextRow_rowAt (k : Nat) : o.nextRow (o.rowAt k) = o.rowAt (k + 1) := by
  unfold nextRow rowAt
  split <;> omega

/-- The accesses of one 16 bpp pixel: its three channels, then the word. -/
def pixel16Accesses (s : Nat) (d : Int) : List Access :=
  [.channel s, .channel (s + 1), .channel (s + 2), .write d, .write (d + 1)]

@[simp] theorem channel_mem_pixel16Accesses {i s : Nat} {d : Int} :
    Access.channel i ∈ pixel16Accesses s d ↔ i = s ∨ i = s + 1 ∨ i = s + 2 := by
  simp [pixel16Accesses]

theorem foldl_pixel16 (n : Nat) (m : Mem) (s : Nat) (d : Int) :
    ((List.range n).foldl (o.pixel16 cd) (m, s, d)).2 = (s + 3 * n, d + 2 * n) ∧
    ((List.range n).foldl (o.pixel16 cd) (m, s, d)).1.log =
      m.log ++ (List.range n).flatMap fun x => pixel16Accesses (s + 3 * x) (d + 2 * x) := by
  induction n with
  | zero => simp
  | succ n ih =>
    rcases hr : (List.range n).foldl (o.pixel16 cd) (m, s, d) with ⟨m', s', d'⟩
    rw [hr] at ih
    obtain ⟨h2, hlog⟩ := ih
    obtain ⟨rfl, rfl⟩ := Prod.mk.inj h2
    simp only [List.range_succ, List.foldl_append, hr, List.foldl_cons, List.foldl_nil, pixel16]
    exact ⟨by simp only [Prod.mk.injEq]; omega, by simp_all [pixel16Accesses]⟩

/-- The accesses of row `y` of the 16 bpp path. -/
def row16Accesses (y : Nat) : List Access :=
  (List.range o.mWidth).flatMap fun x =>
    pixel16Accesses (o.mStartChannel + 3 * (o.mWidth * y) + 3 * x)
      (o.rowAt y * o.mLineLength + 2 * x)

theorem foldl_row16 (n : Nat) (m : Mem) :
    ((List.range n).foldl (o.row16 cd) (m, o.mStartChannel, o.drow0)).2 =
      (o.mStartChannel + 3 * (o.mWidth * n), o.rowAt n) ∧
    ((List.range n).foldl (o.row16 cd) (m, o.mStartChannel, o.drow0)).1.log =
      m.log ++ (List.range n).flatMap o.row16Accesses := by
  induction n with
  | zero => simp
  | succ n ih =>
    rcases hr : (List.range n).foldl (o.row16 cd) (m, o.mStartChannel, o.drow0) with ⟨m', s', d'⟩
    rw [hr] at ih
    obtain ⟨h2, hlog⟩ := ih
    obtain ⟨rfl, rfl⟩ := Prod.mk.inj h2
    obtain ⟨hp2, hplog⟩ := o.foldl_pixel16 cd o.mWidth m' (o.mStartChannel + 3 * (o.mWidth * n))
      (o.rowAt n * o.mLineLength)
    simp only [List.range_succ, List.foldl_append, hr, List.foldl_cons, List.foldl_nil, row16,
      hp2, hplog, nextRow_rowAt, List.flatMap_append, List.flatMap_singleton, List.append_assoc,
      Prod.mk.injEq, and_true]
    exact ⟨by rw [Nat.mul_add_one o.mWidth n]; omega, by simp_all [row16Accesses]⟩

/-- The 16 bpp path reads and writes pixel after pixel, row after row. -/
theorem prepData16_log (m : Mem) :
    (o.prepData16 cd m).log = m.log ++ (List.range o.mHeight).flatMap o.row16Accesses :=
  (o.foldl_row16 cd o.mHeight m).2

/-- `dst` at row `y` of the direct copy. -/
def copyDst (y : Nat) : Int :=
  if o.mInverted then (o.mLineLength : Int) * ((o.mHeight : Int) - 1) - o.mLineLength * y
  else o.mLineLength * y

/-- The accesses of row `y` of the direct copy. -/
def rowCopyAccesses (y : Nat) : List Access :=
  (List.range (o.mWidth * 3)).flatMap fun k =>
    [.channel (o.mStartChannel + 3 * (o.mWidth * y) + k), .write (o.copyDst y + k)]

theorem copyDst_succ (n : Nat) :
    (if o.mInverted then o.copyDst n - o.mLineLength else o.copyDst n + o.mLineLength) =
      o.copyDst (n + 1) := by
  unfold copyDst
  push_cast
  rw [Int.mul_add, Int.mul_one]
  split <;> omega

theorem foldl_rowCopy (n : Nat) (m : Mem) :
    ((List.range n).foldl (o.rowCopy cd) (m, o.mStartChannel, o.copyDst 0)).2 =
      (o.mStartChannel + 3 * (o.mWidth * n), o.copyDst n) ∧
    ((List.range n).foldl (o.rowCopy cd) (m, o.mStartChannel, o.copyDst 0)).1.log =
      m.log ++ (List.range n).flatMap o.rowCopyAccesses := by
  induction n with
  | zero => simp
  | succ n ih =>
    rcases hr : (List.range n).foldl (o.rowCopy cd) (m, o.mStartChannel, o.copyDst 0)
      with ⟨m', s', d'⟩
    rw [hr] at ih
    obtain ⟨h2, hlog⟩ := ih
    obtain ⟨rfl, rfl⟩ := Prod.mk.inj h2
    simp only [List.range_succ, List.foldl_append, hr, List.foldl_cons, List.foldl_nil, rowCopy,
      Mem.copyIn_log, copyDst_succ, List.flatMap_append, List.flatMap_singleton,
      List.append_assoc, Prod.mk.injEq, and_true]
    exact ⟨by rw [Nat.mul_add_one o.mWidth n]; omega, by simp_all [rowCopyAccesses]⟩

/-- The direct copy reads and writes row after row. -/
theorem prepDataCopy_log (m : Mem) :
    (o.prepDataCopy cd m).log = m.log ++ (List.range o.mHeight).flatMap o.rowCopyAccesses := by
  have h0 : o.copyDst 0 = if o.mInverted then (o.mLineLength : Int) * ((o.mHeight : Int) - 1)
      else 0 := by simp [copyDst]
  simpa only [prepDataCopy, h0] using (o.foldl_rowCopy cd o.mHeight m).2

/-- Whether column `vx` steps the source on: always, unless software scaling
samples the same matrix column at `vx + 1`. -/
def advance (vx : Nat) : Nat :=
  if o.mScaling = .software ∧ o.xpos vx = o.xpos (vx + 1) then 0 else 1

/-- The source pixels stepped over before column `vx`. -/
def advanced : Nat → Nat
  | 0 => 0
  | vx + 1 => advanced vx + o.advance vx

/-- The accesses of the pixel at column `vx`, read from `s` and written at
`d`: each channel read before its byte is written, then the two lookups
into `xpos` under software scaling. -/
def pixelAccesses (s : Nat) (d : Int) (vx : Nat) : List Access :=
  [.channel s, .write (d + o.rOff), .channel (s + 1), .write (d + 1), .channel (s + 2),
    .write (d + o.bOff)] ++ if o.mScaling = .software then [.xpos vx, .xpos (vx + 1)] else []

@[simp] theorem channel_mem_pixelAccesses {i s vx : Nat} {d : Int} :
    Access.channel i ∈ o.pixelAccesses s d vx ↔ i = s ∨ i = s + 1 ∨ i = s + 2 := by
  unfold pixelAccesses
  split <;> simp

theorem pixelScaled_snd (m : Mem) (s : Nat) (d : Int) (vx : Nat) :
    (o.pixelScaled cd (m, s, d) vx).2 = (s + 3 * o.advance vx, d + o.add) := by
  unfold pixelScaled advance
  by_cases hs : o.mScaling = .software <;> by_cases hx : o.xpos vx = o.xpos (vx + 1) <;>
    simp [hs, hx]

theorem pixelScaled_log (m : Mem) (s : Nat) (d : Int) (vx : Nat) :
    (o.pixelScaled cd (m, s, d) vx).1.log = m.log ++ o.pixelAccesses s d vx := by
  unfold pixelScaled pixelAccesses
  by_cases hs : o.mScaling = .software <;> simp [hs]

theorem foldl_pixelScaled (n : Nat) (m : Mem) (s : Nat) (d : Int) :
    ((List.range n).foldl (o.pixelScaled cd) (m, s, d)).2 =
      (s + 3 * o.advanced n, d + n * o.add) ∧
    ((List.range n).foldl (o.pixelScaled cd) (m, s, d)).1.log =
      m.log ++ (List.range n).flatMap fun vx =>
        o.pixelAccesses (s + 3 * o.advanced vx) (d + vx * o.add) vx := by
  induction n with
  | zero => simp [advanced]
  | succ n ih =>
    rcases hr : (List.range n).foldl (o.pixelScaled cd) (m, s, d) with ⟨m', s', d'⟩
    rw [hr] at ih
    obtain ⟨h2, hlog⟩ := ih
    obtain ⟨rfl, rfl⟩ := Prod.mk.inj h2
    simp only [List.range_succ, List.foldl_append, hr, List.foldl_cons, List.foldl_nil,
      pixelScaled_snd, pixelScaled_log, advanced, List.flatMap_append, List.flatMap_singleton,
      List.append_assoc, Prod.mk.injEq]
    refine ⟨⟨by omega, by push_cast; rw [Int.add_mul, Int.one_mul]; omega⟩, by simp_all⟩

/-- The accesses of one display row drawn at `drow` from `sR = s`. -/
def rowAccesses (s : Nat) (drow : Int) : List Access :=
  (List.range o.outWidth).flatMap fun vx =>
    o.pixelAccesses (s + 3 * o.advanced vx) (drow * o.mLineLength + vx * o.add) vx

theorem renderRow_snd (m : Mem) (s : Nat) (drow : Int) :
    (o.renderRow cd m s drow).2 = s + 3 * o.advanced o.outWidth := by
  simp [renderRow, (o.foldl_pixelScaled cd _ m s _).1]

theorem renderRow_log (m : Mem) (s : Nat) (drow : Int) :
    (o.renderRow cd m s drow).1.log = m.log ++ o.rowAccesses s drow :=
  (o.foldl_pixelScaled cd _ m s _).2

end FBMatrixOutput

end ChannelOutput
