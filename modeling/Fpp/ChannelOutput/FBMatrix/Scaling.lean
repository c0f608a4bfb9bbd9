import Fpp.ChannelOutput.FBMatrix.Render

/-!
# The framebuffer matrix sink: software scaling

Under software scaling `PrepData` resamples the matrix onto the display
through the index tables `xpos` and `ypos`, but it walks the source with a
pointer that steps one pixel each time `xpos` moves on, and one row each time
a row is drawn.

* `prepData_upscale_nearest`: on a display at least as large as the matrix on
  both axes the walk keeps up with the tables, and every display pixel shows
  its nearest matrix pixel;
* `renderRow_software_walk`: a drawn row steps over `min m_width xres` source
  pixels, so on a narrower display the next row starts inside the matrix row
  just drawn;
* `prepData_downscale_samples_wrong_pixel`: a display narrower than the matrix
  where a pixel shows the wrong source pixel.
-/

namespace ChannelOutput

namespace FBMatrixOutput

variable (o : FBMatrixOutput)

/-- Stepping `n` on by one moves `n * a / b` on by at most one when `a ≤ b`:
an index table no longer than the display never skips an entry. -/
theorem succ_mul_div_le {a b : Nat} (hab : a ≤ b) (hb : 0 < b) (n : Nat) :
    (n + 1) * a / b ≤ n * a / b + 1 :=
  calc (n + 1) * a / b ≤ (n * a + b) / b := Nat.div_le_div_right (by rw [Nat.succ_mul]; omega)
    _ = n * a / b + 1 := Nat.add_div_right _ hb

/-- Stepping `n` on by one moves `n * a / b` on by at least one when `b ≤ a`. -/
theorem lt_succ_mul_div {a b : Nat} (hba : b ≤ a) (hb : 0 < b) (n : Nat) :
    n * a / b < (n + 1) * a / b :=
  calc n * a / b < n * a / b + 1 := Nat.lt_succ_self _
    _ = (n * a + b) / b := (Nat.add_div_right _ hb).symm
    _ ≤ (n + 1) * a / b := Nat.div_le_div_right (by rw [Nat.succ_mul]; omega)

/-- On a display at least as wide as the matrix, the walk is at `xpos`. -/
theorem advanced_eq_xpos (hs : o.mScaling = .software) (hW : o.mWidth ≤ o.outWidth)
    (hW0 : 0 < o.outWidth) (n : Nat) : o.advanced n = o.xpos n := by
  induction n with
  | zero => simp [advanced, xpos]
  | succ n ih =>
    have h1 : o.xpos (n + 1) ≤ o.xpos n + 1 := succ_mul_div_le hW hW0 n
    have h2 := o.xpos_le_succ n
    simp only [advanced, advance, hs, true_and, ih]
    split <;> omega

/-- On a display narrower than the matrix, the walk steps at every column. -/
theorem advanced_eq_self (hs : o.mScaling = .software) (hW : o.outWidth ≤ o.mWidth)
    (hW0 : 0 < o.outWidth) (n : Nat) : o.advanced n = n := by
  induction n with
  | zero => rfl
  | succ n ih =>
    have : o.xpos n < o.xpos (n + 1) := lt_succ_mul_div hW hW0 n
    simp only [advanced, advance, hs, true_and, ih]
    split <;> omega

/-- A 1×2 RGB matrix at 24 bpp, inverted, software-scaled onto a display two
pixels wide and three high, lines of 6 bytes. -/
def enlarged : FBMatrixOutput :=
  { createFBMatrixOutput 0 6 with
    mScaling := .software
    mWidth := 1
    mHeight := 2
    mUseRGB := true
    mInverted := true
    mVInfo := { FbVarScreeninfo.zero with xres := 2, yres := 3, bitsPerPixel := 24 }
    mLineLength := 6
    mScreenSize := 18 }

/-- **Software scaling enlarges by nearest neighbour.**  Under software
scaling at 24 or 32 bpp, for a non-empty matrix on a display at least as large
on both axes whose lines hold a display row: the byte of channel `c` of
display pixel `(vx, vy)`, in line `vy` (counted from the bottom when inverted)
at `vx * (bpp / 8)` plus `c` for BGR or `2 - c` for RGB, holds channel `c` of
matrix pixel `(vx * m_width / xres, vy * m_height / yres)`. -/
theorem prepData_upscale_nearest (cd : Nat → UInt8) (frame : Int → UInt8)
    (hs : o.mScaling = .software) (hbpp : o.mBpp = 24 ∨ o.mBpp = 32)
    (hw : 1 ≤ o.mWidth) (hh : 1 ≤ o.mHeight)
    (hx : o.mWidth ≤ o.mVInfo.xres) (hy : o.mHeight ≤ o.mVInfo.yres)
    (hline : o.mVInfo.xres * o.mBpp / 8 ≤ o.mLineLength)
    {vx vy c : Nat} (hvx : vx < o.mVInfo.xres) (hvy : vy < o.mVInfo.yres) (hc : c < 3) :
    (o.prepData cd ⟨frame, []⟩).frame
        ((if o.mInverted then (o.mVInfo.yres : Int) - 1 - vy else vy) * o.mLineLength +
          ((vx * (o.mBpp / 8) : Nat) : Int) + ((if o.mUseRGB then 2 - c else c : Nat) : Int)) =
      cd (o.mStartChannel +
        3 * (vy * o.mHeight / o.mVInfo.yres * o.mWidth + vx * o.mWidth / o.mVInfo.xres) + c) := by
  have hW : o.outWidth = o.mVInfo.xres := by simp [outWidth, hs]
  have hH : o.outHeight = o.mVInfo.yres := by simp [outHeight, hs]
  have h3 : 3 ≤ o.add := by rcases hbpp with h | h <;> simp [add, h]
  have hWL : o.outWidth * o.add ≤ o.mLineLength := by
    rcases hbpp with h | h <;> simp only [hW, add, h] at hline ⊢ <;> omega
  have hadv : o.advanced o.outWidth = o.mWidth := by
    rw [o.advanced_eq_xpos hs (hW ▸ hx) (by omega), xpos, Nat.mul_div_cancel_left _ (by omega)]
  have hpath : o.prepData cd ⟨frame, []⟩ = o.prepDataScaled cd ⟨frame, []⟩ := by
    rw [prepData, if_neg (by omega), if_pos (.inr (.inr hs))]
  have hpix := prepDataScaled_frame cd h3 hWL hh hadv (succ_mul_div_le (hH ▸ hy) (by omega))
    ⟨frame, []⟩ (hH ▸ hvy) (hW ▸ hvx) hc
  rw [rowAt_eq, chanOff_eq _ hc, o.advanced_eq_xpos hs (hW ▸ hx) (by omega), hH] at hpix
  rw [hpath, Int.ofNat_mul, show o.mBpp / 8 = o.add from rfl, hpix, ypos, xpos, hW, hH,
    Nat.mul_comm o.mWidth]

theorem prepData_upscale_nearest_enlarged :
    enlarged.mScaling = .software ∧ (enlarged.mBpp = 24 ∨ enlarged.mBpp = 32) ∧
      1 ≤ enlarged.mWidth ∧ 1 ≤ enlarged.mHeight ∧ enlarged.mWidth ≤ enlarged.mVInfo.xres ∧
      enlarged.mHeight ≤ enlarged.mVInfo.yres ∧
      enlarged.mVInfo.xres * enlarged.mBpp / 8 ≤ enlarged.mLineLength ∧
      1 < enlarged.mVInfo.xres ∧ 2 < enlarged.mVInfo.yres ∧
      (enlarged.prepData (fun i => i.toUInt8) ⟨fun _ => 0, []⟩).frame
          ((if enlarged.mInverted then (enlarged.mVInfo.yres : Int) - 1 - (2 : Nat) else (2 : Nat)) *
              enlarged.mLineLength + ((1 * (enlarged.mBpp / 8) : Nat) : Int) +
            ((if enlarged.mUseRGB then 2 - 0 else 0 : Nat) : Int)) =
        (fun i : Nat => i.toUInt8) (enlarged.mStartChannel + 3 * (2 * enlarged.mHeight /
          enlarged.mVInfo.yres * enlarged.mWidth + 1 * enlarged.mWidth / enlarged.mVInfo.xres) + 0) :=
  ⟨rfl, .inl rfl, by decide, by decide, by decide, by decide, by decide, by decide, by decide,
    prepData_upscale_nearest enlarged _ _ rfl (.inl rfl) (by decide) (by decide) (by decide)
      (by decide) (by decide) (by decide) (by decide) (by decide)⟩

/-- A 2×2 matrix at 32 bpp, software-scaled onto a display one pixel wide and
two high, lines of 4 bytes. -/
def narrowDisplay : FBMatrixOutput :=
  { createFBMatrixOutput 0 12 with
    mScaling := .software
    mWidth := 2
    mHeight := 2
    mBpp := 32
    mVInfo := { FbVarScreeninfo.zero with xres := 1, yres := 2, bitsPerPixel := 32 }
    mLineLength := 4
    mScreenSize := 8 }

/-- **The source walk of a scaled row.**  Under software scaling, drawing a
display row steps `sR` over `min m_width xres` source pixels: a whole matrix
row when the display is at least as wide, and fewer otherwise, so that the
next drawn row starts inside the matrix row just drawn. -/
theorem renderRow_software_walk (cd : Nat → UInt8) (hs : o.mScaling = .software)
    (hx : 1 ≤ o.mVInfo.xres) (m : Mem) (s : Nat) (drow : Int) :
    (o.renderRow cd m s drow).2 = s + 3 * min o.mWidth o.mVInfo.xres := by
  have hW : o.outWidth = o.mVInfo.xres := by simp [outWidth, hs]
  rw [renderRow_snd, ← hW]
  rcases Nat.le_total o.mWidth o.outWidth with h | h
  · rw [o.advanced_eq_xpos hs h (by omega), Nat.min_eq_left h, xpos,
      Nat.mul_div_cancel_left _ (by omega)]
  · rw [o.advanced_eq_self hs h (by omega), Nat.min_eq_right h]

theorem renderRow_software_walk_narrowDisplay :
    narrowDisplay.mScaling = .software ∧ 1 ≤ narrowDisplay.mVInfo.xres ∧
      (narrowDisplay.renderRow (fun _ => 0) ⟨fun _ => 0, []⟩ 0 0).2 = 3 :=
  ⟨rfl, by decide, renderRow_software_walk narrowDisplay _ rfl (by decide) _ _ _⟩

/-- On `narrowDisplay`, with channel `i` holding the byte `i`, display pixel
`(0, 1)` (its first byte at offset `1 * 4 + 0 * 4 = 4`) samples source pixel
`(0 * 2 / 1, 1 * 2 / 2) = (0, 1)`, whose first channel is `3 * (1 * 2 + 0) = 6`;
the frame holds channel `3`, the first channel of source pixel `(1, 0)`. -/
theorem prepData_downscale_samples_wrong_pixel :
    (narrowDisplay.prepData (fun i => i.toUInt8) ⟨fun _ => 0, []⟩).frame 4 = 3 ∧
      narrowDisplay.mStartChannel +
        3 * (1 * narrowDisplay.mHeight / narrowDisplay.mVInfo.yres * narrowDisplay.mWidth +
          0 * narrowDisplay.mWidth / narrowDisplay.mVInfo.xres) = 6 := by
  decide

end FBMatrixOutput

end ChannelOutput
