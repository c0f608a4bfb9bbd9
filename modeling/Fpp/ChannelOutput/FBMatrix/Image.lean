import Mathlib.Algebra.Group.Nat.Basic
import Fpp.ChannelOutput.FBMatrix.Render

/-!
# The framebuffer matrix sink: one image from three paths

Without software scaling, `PrepData` draws matrix pixel `(x, y)` into line
`y` of `m_frame` (line `m_height - 1 - y` when inverted), at byte
`x * bpp / 8`, whichever of its three paths runs:

* the RGB565 table at 16 bpp (`prepData16_pixel`), whose word for a pixel is
  the 5-6-5 packing of its channels once `Init` has built the table from the
  bitfields it requests (`toNat_rgb565map`);
* the per-pixel copy at 32 bpp or for RGB data (`prepDataScaled_pixel`,
  from `prepDataScaled_frame` of `Fpp.ChannelOutput.FBMatrix.Render`);
* the `memcpy` of a whole row otherwise (`prepDataCopy_pixel`).

`prepData_renders_image` puts the three together against one reference: the
byte order of the pixel at 24 and 32 bpp, and the packed word at 16 bpp.
Under software scaling the table path still draws the matrix unscaled, from
the display's first or last line (`prepData16_software_unscaled`).
-/

namespace ChannelOutput

namespace FBMatrixOutput

/-! ## The memory operations -/

namespace Mem

variable (m : Mem) (cd : Nat → UInt8)

/-- A `memcpy` from the show buffer writes its `n` bytes in order and nothing
else. -/
theorem copyIn_frame (dst : Int) (src n : Nat) :
    (∀ i, (i < dst ∨ dst + n ≤ i) → (m.copyIn cd dst src n).frame i = m.frame i) ∧
    ∀ k < n, (m.copyIn cd dst src n).frame (dst + k) = cd (src + k) := by
  induction n with
  | zero => exact ⟨fun _ _ => rfl, fun _ h => absurd h (Nat.not_lt_zero _)⟩
  | succ n ih =>
    obtain ⟨hout, hin⟩ := ih
    simp only [copyIn, List.range_succ, List.foldl_append, List.foldl_cons, List.foldl_nil]
      at hout hin ⊢
    refine ⟨fun i hi => ?_, fun k hk => ?_⟩
    · rw [copyByte_frame, if_neg (by omega), hout i (by omega)]
    · rw [copyByte_frame]
      rcases Nat.lt_succ_iff_lt_or_eq.1 hk with hk | rfl
      · rw [if_neg (by omega), hin k hk]
      · rw [if_pos rfl]

end Mem

/-- The low byte and the high byte of a 16-bit word stored little-endian. -/
theorem toNat_shiftRight_eight (w : UInt16) : (w >>> 8).toNat = w.toNat >>> 8 := by
  show (w.toBitVec >>> (UInt16.mod 8 16).toBitVec).toNat = _
  rw [BitVec.ushiftRight_eq', BitVec.toNat_ushiftRight]
  rfl

/-- A word stored low byte first reads back as the word. -/
theorem word_bytes (w : UInt16) :
    (w.toUInt8).toNat + 256 * ((w >>> 8).toUInt8).toNat = w.toNat := by
  have h1 : (w.toUInt8).toNat = w.toNat % 256 := rfl
  have h2 : ((w >>> 8).toUInt8).toNat = (w >>> 8).toNat % 256 := rfl
  have := w.toNat_lt_size
  rw [h1, h2, toNat_shiftRight_eight, Nat.shiftRight_eq_div_pow]
  simp only [UInt16.size] at this
  omega

/-! ## The RGB565 table -/

/-- With the bitfields `Init` requests the three shifts are `0`, `-5` and
`-11`. -/
theorem rgb565map_eq {v : FbVarScreeninfo} (hr : v.red = ⟨11, 5⟩) (hg : v.green = ⟨5, 6⟩)
    (hb : v.blue = ⟨0, 5⟩) (b g r : Nat) :
    rgb565map v b g r = UInt16.ofNat (shiftBy r 0 ||| shiftBy g (-5) ||| shiftBy b (-11)) := by
  rw [rgb565map, hr, hg, hb]
  rfl

/-- **The table `Init` builds for RGB565.**  `m_rgb565map[b][g][r]` puts its
first index in the top five bits and its last in the bottom five. -/
theorem toNat_rgb565map {v : FbVarScreeninfo} (hr : v.red = ⟨11, 5⟩) (hg : v.green = ⟨5, 6⟩)
    (hb : v.blue = ⟨0, 5⟩) {b g r : Nat} (hb32 : b < 32) (hg64 : g < 64) (hr32 : r < 32) :
    (rgb565map v b g r).toNat = b <<< 11 ||| g <<< 5 ||| r := by
  have hs : shiftBy r 0 ||| shiftBy g (-5) ||| shiftBy b (-11) = r ||| g <<< 5 ||| b <<< 11 :=
    rfl
  have hlt : r ||| g <<< 5 ||| b <<< 11 < 2 ^ 16 := by
    refine Nat.or_lt_two_pow (Nat.or_lt_two_pow ?_ ?_) ?_ <;>
      simp only [Nat.shiftLeft_eq, Nat.reducePow] <;> omega
  rw [rgb565map_eq hr hg hb, hs, UInt16.toNat_ofNat_of_lt hlt]
  ac_rfl

/-- A channel byte shifted right by `k` indexes a table of `n` entries when
`n * 2 ^ k` covers the byte. -/
theorem toNat_shiftRight_lt (c : UInt8) {k n : Nat} (h : 256 ≤ n * 2 ^ k) :
    c.toNat >>> k < n := by
  have := c.toNat_lt_size
  rw [Nat.shiftRight_eq_div_pow, Nat.div_lt_iff_lt_mul (Nat.pos_pow_of_pos k (by decide))]
  simp only [UInt8.size] at this
  omega

variable (o : FBMatrixOutput) (cd : Nat → UInt8)

/-! ## The 16 bpp path -/

theorem pixel16_frame (m : Mem) (s : Nat) (d : Int) (x : Nat) (i : Int) :
    (o.pixel16 cd (m, s, d) x).1.frame i =
      if i = d + 1 then (o.pixel565 cd s >>> 8).toUInt8
      else if i = d then (o.pixel565 cd s).toUInt8 else m.frame i := rfl

/-- The pixel loop of a 16 bpp row writes each pixel's word low byte first
and no byte outside its `2 * n` bytes. -/
theorem foldl_pixel16_frame (n : Nat) (m : Mem) (s : Nat) (d : Int) :
    (∀ i, (i < d ∨ d + 2 * n ≤ i) →
      ((List.range n).foldl (o.pixel16 cd) (m, s, d)).1.frame i = m.frame i) ∧
    ∀ x < n, ((List.range n).foldl (o.pixel16 cd) (m, s, d)).1.frame (d + 2 * x) =
        (o.pixel565 cd (s + 3 * x)).toUInt8 ∧
      ((List.range n).foldl (o.pixel16 cd) (m, s, d)).1.frame (d + 2 * x + 1) =
        (o.pixel565 cd (s + 3 * x) >>> 8).toUInt8 := by
  induction n with
  | zero => exact ⟨fun _ _ => rfl, fun _ h => absurd h (Nat.not_lt_zero _)⟩
  | succ n ih =>
    obtain ⟨hout, hpix⟩ := ih
    have h2 := (o.foldl_pixel16 cd n m s d).1
    rcases hr : (List.range n).foldl (o.pixel16 cd) (m, s, d) with ⟨m', s', d'⟩
    rw [hr] at hout hpix h2
    obtain ⟨rfl, rfl⟩ := Prod.mk.inj h2
    simp only [List.range_succ, List.foldl_append, hr, List.foldl_cons, List.foldl_nil,
      pixel16_frame]
    refine ⟨fun i hi => ?_, fun x hx => ?_⟩
    · rw [if_neg (by omega), if_neg (by omega), hout i (by omega)]
    · rcases Nat.lt_succ_iff_lt_or_eq.1 hx with hx | rfl
      · rw [if_neg (by omega), if_neg (by omega), if_neg (by omega), if_neg (by omega)]
        exact hpix x hx
      · rw [if_neg (by omega), if_pos (by omega), if_pos rfl]
        exact ⟨rfl, rfl⟩

/-- The first `n` rows of the 16 bpp loop: pixel `x` of matrix row `y` is
the table word of its channels, in display row `y`. -/
theorem foldl_row16_frame (hWL : 2 * o.mWidth ≤ o.mLineLength) (n : Nat) (m : Mem) :
    ∀ y < n, ∀ x < o.mWidth,
      ((List.range n).foldl (o.row16 cd) (m, o.mStartChannel, o.drow0)).1.frame
          (o.rowAt y * o.mLineLength + 2 * x) =
        (o.pixel565 cd (o.mStartChannel + 3 * (o.mWidth * y) + 3 * x)).toUInt8 ∧
      ((List.range n).foldl (o.row16 cd) (m, o.mStartChannel, o.drow0)).1.frame
          (o.rowAt y * o.mLineLength + 2 * x + 1) =
        (o.pixel565 cd (o.mStartChannel + 3 * (o.mWidth * y) + 3 * x) >>> 8).toUInt8 := by
  induction n with
  | zero => intro y hy; exact absurd hy (Nat.not_lt_zero _)
  | succ n ih =>
    have h2 := (o.foldl_row16 cd n m).1
    rcases hr : (List.range n).foldl (o.row16 cd) (m, o.mStartChannel, o.drow0) with ⟨m', s', d'⟩
    rw [hr] at ih h2
    obtain ⟨rfl, rfl⟩ := Prod.mk.inj h2
    obtain ⟨hout, hpix⟩ := o.foldl_pixel16_frame cd o.mWidth m'
      (o.mStartChannel + 3 * (o.mWidth * n)) (o.rowAt n * o.mLineLength)
    simp only [List.range_succ, List.foldl_append, hr, List.foldl_cons, List.foldl_nil, row16]
    intro y hy x hx
    rcases Nat.lt_succ_iff_lt_or_eq.1 hy with hy | rfl
    · -- an earlier row: another line, which the new row does not touch
      have hne : o.rowAt y ≠ o.rowAt n := fun h => by simp [rowAt_inj] at h; omega
      have hWL' : ((2 * o.mWidth : Nat) : Int) ≤ o.mLineLength := Int.ofNat_le.2 hWL
      have := row_blocks_disjoint hne (Int.ofNat_nonneg o.mLineLength)
      push_cast at hWL'
      rw [hout _ (by omega), hout _ (by omega)]
      exact ih y hy x hx
    · exact hpix x hx

/-- **The 16 bpp path.**  Pixel `x` of matrix row `y` is the table word of its
channels, stored low byte first at byte `2 * x` of display row `y`. -/
theorem prepData16_pixel (hWL : 2 * o.mWidth ≤ o.mLineLength) (m : Mem) {x y : Nat}
    (hx : x < o.mWidth) (hy : y < o.mHeight) :
    (o.prepData16 cd m).frame (o.rowAt y * o.mLineLength + 2 * x) =
        (o.pixel565 cd (o.mStartChannel + 3 * (o.mWidth * y) + 3 * x)).toUInt8 ∧
      (o.prepData16 cd m).frame (o.rowAt y * o.mLineLength + 2 * x + 1) =
        (o.pixel565 cd (o.mStartChannel + 3 * (o.mWidth * y) + 3 * x) >>> 8).toUInt8 :=
  o.foldl_row16_frame cd hWL o.mHeight m y hy x hx

/-- **At 16 bpp software scaling is not applied.**  The table path draws
`m_height` rows of `m_width` pixels whatever the scaling mode; under software
scaling only its first row moves, to the display's last line when inverted.
So on a display that holds the matrix, matrix pixel `(x, y)` lands at column
`2x` of line `y`, or of line `yres - 1 - y` when inverted, its table word low
byte first, whatever the display's size. -/
theorem prepData16_software_unscaled (m : Mem) (h16 : o.mBpp = 16)
    (hsw : o.mScaling = .software) (hH : o.mHeight ≤ o.mVInfo.yres)
    (hWL : 2 * o.mWidth ≤ o.mLineLength) :
    ∀ x < o.mWidth, ∀ y < o.mHeight,
      let line := if o.mInverted then o.mVInfo.yres - 1 - y else y
      (o.prepData cd m).frame ((line * o.mLineLength + 2 * x : Nat) : Int) =
          (o.pixel565 cd (o.mStartChannel + 3 * (o.mWidth * y + x))).toUInt8 ∧
        (o.prepData cd m).frame ((line * o.mLineLength + 2 * x + 1 : Nat) : Int) =
          (o.pixel565 cd (o.mStartChannel + 3 * (o.mWidth * y + x)) >>> 8).toUInt8 := by
  intro x hx y hy
  dsimp only
  have hrow : o.rowAt y = ((if o.mInverted then o.mVInfo.yres - 1 - y else y : Nat) : Int) := by
    rw [rowAt_eq, show o.outHeight = o.mVInfo.yres by simp [outHeight, hsw]]
    split <;> omega
  generalize (if o.mInverted then o.mVInfo.yres - 1 - y else y) = line at hrow
  have hLL : ((line * o.mLineLength : Nat) : Int) = o.rowAt y * o.mLineLength := by
    rw [hrow, Int.ofNat_mul]
  obtain ⟨lo, hi⟩ := o.prepData16_pixel cd hWL m hx hy
  rw [prepData, if_pos h16, show o.mStartChannel + 3 * (o.mWidth * y + x) =
    o.mStartChannel + 3 * (o.mWidth * y) + 3 * x by omega, ← lo, ← hi]
  constructor <;> congr 1 <;> omega

/-- A 4×4 display at 16 bpp with the RGB565 bitfields `Init` asks for. -/
def mode565 : FbVarScreeninfo :=
  rgb565Fields { FbVarScreeninfo.zero with xres := 4, yres := 4, bitsPerPixel := 16 }

/-- A 2×2 matrix at 16 bpp under software scaling, inverted, on the display
`mode565`, with the table `Init` builds from its bitfields. -/
def scaled16 : FBMatrixOutput :=
  { createFBMatrixOutput 0 12 with
    mScaling := .software
    mWidth := 2
    mHeight := 2
    mInverted := true
    mBpp := 16
    mVInfo := mode565
    mLineLength := 8
    mScreenSize := 32
    mRgb565map := rgb565map mode565 }

theorem prepData16_software_unscaled_scaled16 :
    scaled16.mBpp = 16 ∧ scaled16.mScaling = .software ∧
      scaled16.mHeight ≤ scaled16.mVInfo.yres ∧ 2 * scaled16.mWidth ≤ scaled16.mLineLength ∧
      (scaled16.prepData (fun i => (40 * i + 20).toUInt8) ⟨fun _ => 0, []⟩).frame 26 =
        (scaled16.pixel565 (fun i => (40 * i + 20).toUInt8) 3).toUInt8 ∧
      (scaled16.prepData (fun i => (40 * i + 20).toUInt8) ⟨fun _ => 0, []⟩).frame 27 =
        (scaled16.pixel565 (fun i => (40 * i + 20).toUInt8) 3 >>> 8).toUInt8 ∧
      scaled16.pixel565 (fun i => (40 * i + 20).toUInt8) 3 = 0xDDB1 :=
  have h := prepData16_software_unscaled scaled16 (fun i => (40 * i + 20).toUInt8)
    ⟨fun _ => 0, []⟩ rfl rfl (by decide) (by decide) 1 (by decide) 0 (by decide)
  ⟨rfl, rfl, by decide, by decide, h.1, h.2, by decide⟩

/-! ## The direct copy -/

/-- The first `n` rows of the direct copy: byte `k` of matrix row `y` is at
byte `k` of its line. -/
theorem foldl_rowCopy_frame (hWL : o.mWidth * 3 ≤ o.mLineLength) (n : Nat) (m : Mem) :
    ∀ y < n, ∀ k < o.mWidth * 3,
      ((List.range n).foldl (o.rowCopy cd) (m, o.mStartChannel, o.copyDst 0)).1.frame
          (o.copyDst y + k) = cd (o.mStartChannel + 3 * (o.mWidth * y) + k) := by
  induction n with
  | zero => intro y hy; exact absurd hy (Nat.not_lt_zero _)
  | succ n ih =>
    have h2 := (o.foldl_rowCopy cd n m).1
    rcases hr : (List.range n).foldl (o.rowCopy cd) (m, o.mStartChannel, o.copyDst 0)
      with ⟨m', s', d'⟩
    rw [hr] at ih h2
    obtain ⟨rfl, rfl⟩ := Prod.mk.inj h2
    obtain ⟨hout, hin⟩ := Mem.copyIn_frame m' cd (o.copyDst n)
      (o.mStartChannel + 3 * (o.mWidth * n)) (o.mWidth * 3)
    simp only [List.range_succ, List.foldl_append, hr, List.foldl_cons, List.foldl_nil, rowCopy]
    intro y hy k hk
    rcases Nat.lt_succ_iff_lt_or_eq.1 hy with hy | rfl
    · -- an earlier row: another line, which the new row does not touch
      have hne : (if o.mInverted then (o.mHeight : Int) - 1 - y else y) ≠
          (if o.mInverted then (o.mHeight : Int) - 1 - n else n) := by split <;> omega
      have := row_blocks_disjoint hne (Int.ofNat_nonneg o.mLineLength)
      have hWL' : ((o.mWidth * 3 : Nat) : Int) ≤ o.mLineLength := Int.ofNat_le.2 hWL
      have hy' := o.copyDst_eq y
      have hn' := o.copyDst_eq n
      rw [hout _ (by omega)]
      exact ih y hy k hk
    · exact hin k hk

/-- **The direct copy.**  Byte `k` of matrix row `y` is byte `k` of line
`copyDst y`. -/
theorem prepDataCopy_pixel (hWL : o.mWidth * 3 ≤ o.mLineLength) (m : Mem) {y k : Nat}
    (hy : y < o.mHeight) (hk : k < o.mWidth * 3) :
    (o.prepDataCopy cd m).frame (o.copyDst y + k) =
      cd (o.mStartChannel + 3 * (o.mWidth * y) + k) := by
  have h0 : o.copyDst 0 = if o.mInverted then (o.mLineLength : Int) * ((o.mHeight : Int) - 1)
      else 0 := by simp [copyDst]
  have := o.foldl_rowCopy_frame cd hWL o.mHeight m y hy k hk
  rwa [h0] at this

/-! ## The per-pixel path without software scaling -/

/-- **The per-pixel path without software scaling.**  Byte `j` of pixel `x`
of display row `y` is channel `j` of matrix pixel `(x, y)`, or channel
`2 - j` for RGB data. -/
theorem prepDataScaled_pixel (hs : o.mScaling ≠ .software) (h3 : 3 ≤ o.add)
    (hWL : o.mWidth * o.add ≤ o.mLineLength) (m : Mem) {x y j : Nat} (hx : x < o.mWidth)
    (hy : y < o.mHeight) (hj : j < 3) :
    (o.prepDataScaled cd m).frame (o.rowAt y * o.mLineLength + x * o.add + j) =
      cd (o.mStartChannel + 3 * (o.mWidth * y + x) + if o.mUseRGB then 2 - j else j) := by
  have hW : o.outWidth = o.mWidth := by simp [outWidth, hs]
  have hH : o.outHeight = o.mHeight := by simp [outHeight, hs]
  have hoff : o.chanOff (if o.mUseRGB then 2 - j else j) = j := by
    unfold chanOff
    cases o.mUseRGB <;> simp only [if_true, if_false, Bool.false_eq_true]
    omega
  have := prepDataScaled_frame cd (c := if o.mUseRGB then 2 - j else j) h3 (hW ▸ hWL)
    (by omega) (by rw [o.advanced_of_not_software hs, hW])
    (fun vy => by rw [o.ypos_of_not_software hs (by omega), o.ypos_of_not_software hs (by omega)])
    m (hH ▸ hy) (hW ▸ hx) (by split <;> omega)
  rwa [hoff, o.ypos_of_not_software hs (by omega), o.advanced_of_not_software hs] at this

/-! ## One image -/

/-- Display row `y` without software scaling: line `y`, or line
`m_height - 1 - y` when inverted. -/
theorem rowAt_of_not_software (hs : o.mScaling ≠ .software) {y : Nat} (hy : y < o.mHeight) :
    o.rowAt y = ((if o.mInverted then o.mHeight - 1 - y else y : Nat) : Int) := by
  rw [rowAt_eq, show o.outHeight = o.mHeight by simp [outHeight, hs]]
  split <;> omega

/-- At 24 and 32 bpp the per-pixel copy and the row `memcpy` agree: byte `j`
of pixel `x` of display row `y` is channel `j` of matrix pixel `(x, y)`, or
channel `2 - j` for RGB data. -/
theorem prepData_byte (m : Mem) (hs : o.mScaling ≠ .software)
    (hbpp : o.mBpp = 24 ∨ o.mBpp = 32) (hWL : o.mWidth * o.add ≤ o.mLineLength)
    {x y j : Nat} (hx : x < o.mWidth) (hy : y < o.mHeight) (hj : j < 3) :
    (o.prepData cd m).frame (o.rowAt y * o.mLineLength + x * o.add + j) =
      cd (o.mStartChannel + 3 * (o.mWidth * y + x) + if o.mUseRGB then 2 - j else j) := by
  have hadd : o.add = o.mBpp / 8 := rfl
  rw [prepData, if_neg (by omega)]
  split
  · exact o.prepDataScaled_pixel cd hs (by omega) hWL m hx hy hj
  · -- BGR data at 24 bpp: the row `memcpy`
    have hrgb : o.mUseRGB = false := Bool.eq_false_iff.mpr (not_or.1 ‹_›).1
    have h3 : o.add = 3 := by rw [hadd]; have := (not_or.1 (not_or.1 ‹_›).2).1; omega
    have hk : 3 * x + j < o.mWidth * 3 := by omega
    have hoff : o.rowAt y * o.mLineLength + x * o.add + j = o.copyDst y + ((3 * x + j : Nat) : Int) := by
      have hr : ((if o.mInverted then o.mHeight - 1 - y else y : Nat) : Int) =
          if o.mInverted then (o.mHeight : Int) - 1 - y else y := by split <;> omega
      rw [o.rowAt_of_not_software hs hy, copyDst_eq, h3, hr]
      push_cast
      omega
    rw [hoff, o.prepDataCopy_pixel cd (h3 ▸ hWL) m hy hk, hrgb, if_neg Bool.false_ne_true]
    congr 1
    omega

/-- **`PrepData` renders one image.**  Without software scaling, at 16, 24 or
32 bpp (at 16 bpp with the table `Init` builds from the RGB565 bitfields it
requests), for a matrix whose rows fit the display's lines, matrix pixel
`(x, y)` with channels `(c0, c1, c2)` lands at byte `x * bpp / 8` of line `y`,
counted from the bottom when inverted.  At 24 and 32 bpp its first three bytes
are `(c2, c1, c0)` for RGB data and `(c0, c1, c2)` otherwise; at 16 bpp its two
bytes, low byte first, are the 5-6-5 word with `c0` on top for RGB data and
`c2` on top otherwise.  All three paths of `PrepData` are covered: the table at
16 bpp, the per-pixel copy for RGB data or 32 bpp, the row `memcpy` for BGR
data at 24 bpp. -/
theorem prepData_renders_image (m : Mem) (hs : o.mScaling ≠ .software)
    (hbpp : o.mBpp = 16 ∨ o.mBpp = 24 ∨ o.mBpp = 32)
    (h565 : o.mBpp = 16 → o.mVInfo.red = ⟨11, 5⟩ ∧ o.mVInfo.green = ⟨5, 6⟩ ∧
      o.mVInfo.blue = ⟨0, 5⟩ ∧ o.mRgb565map = rgb565map o.mVInfo)
    (hWL : o.mWidth * o.mBpp / 8 ≤ o.mLineLength) :
    ∀ x < o.mWidth, ∀ y < o.mHeight,
      let r := if o.mInverted then o.mHeight - 1 - y else y
      let px (j : Nat) : UInt8 :=
        (o.prepData cd m).frame ((r * o.mLineLength + x * o.mBpp / 8 + j : Nat) : Int)
      let c (k : Nat) : UInt8 := cd (o.mStartChannel + 3 * (y * o.mWidth + x) + k)
      (o.mBpp ≠ 16 →
        (px 0, px 1, px 2) = if o.mUseRGB then (c 2, c 1, c 0) else (c 0, c 1, c 2)) ∧
      (o.mBpp = 16 → (px 0).toNat + 256 * (px 1).toNat =
        if o.mUseRGB then (c 0).toNat >>> 3 <<< 11 ||| (c 1).toNat >>> 2 <<< 5 ||| (c 2).toNat >>> 3
        else (c 2).toNat >>> 3 <<< 11 ||| (c 1).toNat >>> 2 <<< 5 ||| (c 0).toNat >>> 3) := by
  intro x hx y hy
  dsimp only
  have hrow := o.rowAt_of_not_software hs hy
  generalize (if o.mInverted then o.mHeight - 1 - y else y) = r at hrow
  have hLL : ((r * o.mLineLength : Nat) : Int) = o.rowAt y * o.mLineLength := by
    rw [hrow, Int.ofNat_mul]
  rw [show y * o.mWidth = o.mWidth * y from Nat.mul_comm _ _]
  rcases hbpp with h16 | h24
  · -- the RGB565 table
    refine ⟨fun h => absurd h16 h, fun _ => ?_⟩
    obtain ⟨hr, hg, hb, hmap⟩ := h565 h16
    obtain ⟨lo, hi⟩ := o.prepData16_pixel cd (by rw [h16] at hWL; omega) m hx hy
    have h0 : ((r * o.mLineLength + x * o.mBpp / 8 + 0 : Nat) : Int) =
        o.rowAt y * o.mLineLength + 2 * x := by rw [← hLL, h16]; omega
    have h1 : ((r * o.mLineLength + x * o.mBpp / 8 + 1 : Nat) : Int) =
        o.rowAt y * o.mLineLength + 2 * x + 1 := by rw [← hLL, h16]; omega
    have hS : o.mStartChannel + 3 * (o.mWidth * y) + 3 * x =
        o.mStartChannel + 3 * (o.mWidth * y + x) + 0 := by omega
    rw [prepData, if_pos h16, h0, h1, lo, hi, word_bytes, pixel565, hmap, hS]
    split <;> rw [toNat_rgb565map hr hg hb (toNat_shiftRight_lt _ (by decide))
      (toNat_shiftRight_lt _ (by decide)) (toNat_shiftRight_lt _ (by decide))]
  · -- bytes, by the per-pixel copy or the row `memcpy`
    have hbyte : o.mBpp = 24 ∨ o.mBpp = 32 := h24
    have hWL' : o.mWidth * o.add ≤ o.mLineLength := by
      show o.mWidth * (o.mBpp / 8) ≤ o.mLineLength
      rcases hbyte with h | h <;> rw [h] at hWL ⊢ <;> omega
    have hoff : ∀ j : Nat, ((r * o.mLineLength + x * o.mBpp / 8 + j : Nat) : Int) =
        o.rowAt y * o.mLineLength + x * o.add + j := by
      intro j
      rw [← hLL, show o.add = o.mBpp / 8 from rfl]
      rcases hbyte with h | h <;> rw [h] <;> push_cast <;> omega
    refine ⟨fun _ => ?_, fun h => by omega⟩
    simp only [hoff, o.prepData_byte cd m hs hbyte hWL' hx hy (by decide : 0 < 3),
      o.prepData_byte cd m hs hbyte hWL' hx hy (by decide : 1 < 3),
      o.prepData_byte cd m hs hbyte hWL' hx hy (by decide : 2 < 3)]
    split <;> rfl

/-- Pixel `(1, 0)` of the 2×2 RGB matrix: its channels `3, 4, 5` land back to
front at bytes `3, 4, 5`. -/
theorem prepData_renders_image_rgbMatrix :
    (rgbMatrix.mScaling ≠ .software ∧ rgbMatrix.mBpp = 24 ∧
      rgbMatrix.mWidth * rgbMatrix.mBpp / 8 ≤ rgbMatrix.mLineLength) ∧
    ((rgbMatrix.prepData (fun i => i.toUInt8) ⟨fun _ => 0, []⟩).frame 3,
      (rgbMatrix.prepData (fun i => i.toUInt8) ⟨fun _ => 0, []⟩).frame 4,
      (rgbMatrix.prepData (fun i => i.toUInt8) ⟨fun _ => 0, []⟩).frame 5) = (5, 4, 3) :=
  ⟨by decide, (prepData_renders_image rgbMatrix (fun i => i.toUInt8) ⟨fun _ => 0, []⟩
    (by decide) (by decide) (fun h => absurd h (by decide)) (by decide) 1 (by decide) 0
    (by decide)).1 (by decide)⟩

end FBMatrixOutput

end ChannelOutput
