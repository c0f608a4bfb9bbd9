import Fpp.ChannelOutput.FBMatrix.Bounds

/-!
# The framebuffer matrix sink: what the per-pixel path draws

The contents of `m_frame` after the per-pixel path of `PrepData`.  A display
row is drawn pixel by pixel into its own line (`renderRow_frame_pixel`,
`renderRow_frame_out`), the duplication loop copies it onto the rows below
(`dupRows_frame`), and the row loop keeps `DrawnInv`: every display row `u`
already passed holds, in each pixel `vx`, the channels of matrix pixel
`(advanced vx, ypos u)`.  `prepDataScaled_frame` is the whole loop, under
two conditions on the source walk: a drawn row steps over exactly one matrix
row, and `ypos` moves on by at most one row at a time.  Both hold without
software scaling and when software scaling enlarges the image
(`Fpp.ChannelOutput.FBMatrix.Scaling`).
-/

namespace ChannelOutput

namespace FBMatrixOutput

/-! ## Frame bytes of the memory operations -/

/-- Two different lines of `ll` bytes do not overlap. -/
theorem row_blocks_disjoint {a b ll : Int} (hab : a ≠ b) (hll : 0 ≤ ll) :
    a * ll + ll ≤ b * ll ∨ b * ll + ll ≤ a * ll := by
  rcases Int.lt_or_gt_of_ne hab with h | h
  · have := Int.mul_le_mul_of_nonneg_right (show a + 1 ≤ b by omega) hll
    rw [Int.add_mul, Int.one_mul] at this
    exact .inl this
  · have := Int.mul_le_mul_of_nonneg_right (show b + 1 ≤ a by omega) hll
    rw [Int.add_mul, Int.one_mul] at this
    exact .inr this

namespace Mem

variable (m : Mem) (cd : Nat → UInt8)

/-- A byte copied in from the show buffer. -/
@[simp] theorem copyByte_frame (dst : Int) (src : Nat) (i : Int) :
    (m.copyByte cd dst src).frame i = if i = dst then cd src else m.frame i := rfl

/-- A copy between two windows of `n` bytes that do not overlap: the
destination window receives the source bytes, in order, and every other byte
is unchanged. -/
theorem copyRow_frame (dst src : Int) (n : Nat) (hdisj : dst + n ≤ src ∨ src + n ≤ dst)
    (i : Int) : (m.copyRow dst src n).frame i =
      if dst ≤ i ∧ i < dst + n then m.frame (src + (i - dst)) else m.frame i := by
  induction n generalizing i with
  | zero =>
    simp only [copyRow, List.range_zero, List.foldl_nil]
    rw [if_neg (by omega)]
  | succ n ih =>
    have ih' := ih (by omega)
    simp only [copyRow] at ih' ⊢
    rw [List.range_succ, List.foldl_append, List.foldl_cons, List.foldl_nil, write_frame,
      note_frame, ih', ih']
    -- the source byte `src + n` lies outside the part already written
    rw [if_neg (by omega : ¬(dst ≤ src + n ∧ src + n < dst + n))]
    by_cases hi : i = dst + n
    · rw [if_pos hi, if_pos (by omega), hi, show src + (dst + n - dst) = src + n by omega]
    · rw [if_neg hi]
      congr 1
      apply propext
      omega

/-- Copying line `a` onto line `b` of `ll` bytes: byte `k` of line `b` is
byte `k` of line `a`, and every other line is unchanged. -/
theorem copyRow_line {a b c k : Int} {ll : Nat} (hab : a ≠ b) (hk : 0 ≤ k) (hkl : k < ll) :
    (m.copyRow (b * ll) (a * ll) ll).frame (c * ll + k) =
      if c = b then m.frame (a * ll + k) else m.frame (c * ll + k) := by
  have hll := Int.ofNat_nonneg ll
  rw [copyRow_frame _ _ _ _ (by rcases row_blocks_disjoint hab hll with h | h <;> omega)]
  by_cases hc : c = b
  · subst hc
    rw [if_pos (by omega), if_pos rfl, show c * ll + k - c * ll = k by omega]
  · rcases row_blocks_disjoint hc hll with h | h <;>
      rw [if_neg (by omega), if_neg hc]

end Mem

variable (o : FBMatrixOutput) (cd : Nat → UInt8)

/-! ## Drawing one row -/

/-- Where channel `c` of a pixel lands among its bytes: the framebuffer is
BGR, so RGB data is written back to front. -/
def chanOff (c : Nat) : Int := if o.mUseRGB then 2 - c else c

/-- A channel lands in the first three bytes of its pixel. -/
theorem chanOff_bounds {c : Nat} (hc : c < 3) : 0 ≤ o.chanOff c ∧ o.chanOff c ≤ 2 := by
  unfold chanOff
  split <;> omega

/-- `chanOff` as the byte offsets `c` (BGR) and `2 - c` (RGB). -/
theorem chanOff_eq {c : Nat} (hc : c < 3) :
    o.chanOff c = ((if o.mUseRGB then 2 - c else c : Nat) : Int) := by
  unfold chanOff
  split <;> omega

/-- The three bytes one pixel writes. -/
theorem pixelScaled_frame (m : Mem) (s : Nat) (d : Int) (vx : Nat) (i : Int) :
    (o.pixelScaled cd (m, s, d) vx).1.frame i =
      if i = d + o.bOff then cd (s + 2) else if i = d + 1 then cd (s + 1)
      else if i = d + o.rOff then cd s else m.frame i := by
  simp only [pixelScaled]
  split <;> rfl

/-- Channel `c` of a pixel is written from channel `c` of its source pixel. -/
theorem pixelScaled_frame_chan (m : Mem) (s : Nat) (d : Int) (vx : Nat) {c : Nat} (hc : c < 3) :
    (o.pixelScaled cd (m, s, d) vx).1.frame (d + o.chanOff c) = cd (s + c) := by
  rw [pixelScaled_frame]
  unfold chanOff rOff bOff
  rcases (by omega : c = 0 ∨ c = 1 ∨ c = 2) with rfl | rfl | rfl <;> split <;>
    simp (disch := omega) only [if_pos, if_neg, Nat.add_zero]

/-- A pixel writes none of the bytes outside its first three. -/
theorem pixelScaled_frame_out (m : Mem) (s : Nat) (d : Int) (vx : Nat) {i : Int}
    (hi : i < d ∨ d + 3 ≤ i) : (o.pixelScaled cd (m, s, d) vx).1.frame i = m.frame i := by
  rw [pixelScaled_frame]
  unfold rOff bOff
  split <;> simp only [if_neg (show ¬i = d + 2 by omega), if_neg (show ¬i = d + 1 by omega),
    if_neg (show ¬i = d + 0 by omega)]

/-- Channel `c` of pixel `vx` lies among the `n * add` bytes of the first
`n` pixels. -/
theorem pixel_byte_bounds {vx n c : Nat} (h3 : 3 ≤ o.add) (hvx : vx < n) (hc : c < 3) :
    0 ≤ (vx : Int) * o.add + o.chanOff c ∧ (vx : Int) * o.add + o.chanOff c < n * o.add := by
  have hle : ((vx + 1 : Nat) : Int) * o.add ≤ n * o.add :=
    Int.mul_le_mul_of_nonneg_right (by omega) (by omega)
  have := o.chanOff_bounds hc
  have h0 : 0 ≤ (vx : Int) * o.add := Int.mul_nonneg (by omega) (by omega)
  push_cast at hle
  rw [Int.add_mul, Int.one_mul] at hle
  omega

section Row

variable {o} (h3 : 3 ≤ o.add)
include h3

/-- The pixel loop from `(m, s, d)` writes pixel `vx` from source pixel
`advanced vx` and no byte outside its `n * add` bytes. -/
theorem foldl_pixelScaled_frame (n : Nat) (m : Mem) (s : Nat) (d : Int) :
    (∀ i, (i < d ∨ d + n * o.add ≤ i) →
      ((List.range n).foldl (o.pixelScaled cd) (m, s, d)).1.frame i = m.frame i) ∧
    ∀ vx < n, ∀ c < 3, ((List.range n).foldl (o.pixelScaled cd) (m, s, d)).1.frame
      (d + vx * o.add + o.chanOff c) = cd (s + 3 * o.advanced vx + c) := by
  induction n with
  | zero => simp
  | succ n ih =>
    obtain ⟨hout, hpix⟩ := ih
    have h2 := (o.foldl_pixelScaled cd n m s d).1
    rcases hr : (List.range n).foldl (o.pixelScaled cd) (m, s, d) with ⟨m', s', d'⟩
    rw [hr] at hout hpix h2
    obtain ⟨rfl, rfl⟩ := Prod.mk.inj h2
    simp only [List.range_succ, List.foldl_append, hr, List.foldl_cons, List.foldl_nil]
    have hstep : ((n + 1 : Nat) : Int) * o.add = n * o.add + o.add := by
      push_cast
      rw [Int.add_mul, Int.one_mul]
    have h0 : 0 ≤ (n : Int) * o.add := Int.mul_nonneg (by omega) (by omega)
    refine ⟨fun i hi => ?_, fun vx hvx c hc => ?_⟩
    · rw [pixelScaled_frame_out _ _ _ _ _ _ (by omega)]
      exact hout i (by omega)
    · rcases Nat.lt_succ_iff_lt_or_eq.1 hvx with hlt | rfl
      · -- an earlier pixel: the new one writes after it
        have := o.pixel_byte_bounds h3 hlt hc
        rw [pixelScaled_frame_out _ _ _ _ _ _ (by omega), hpix vx hlt c hc]
      · rw [Int.add_assoc, ← Int.add_assoc, pixelScaled_frame_chan _ _ _ _ _ _ hc]

/-- Drawing a row writes pixel `vx` of the row from source pixel
`advanced vx`. -/
theorem renderRow_frame_pixel (m : Mem) (s : Nat) (drow : Int) {vx c : Nat}
    (hvx : vx < o.outWidth) (hc : c < 3) :
    (o.renderRow cd m s drow).1.frame (drow * o.mLineLength + vx * o.add + o.chanOff c) =
      cd (s + 3 * o.advanced vx + c) :=
  (foldl_pixelScaled_frame cd h3 _ m s _).2 vx hvx c hc

/-- Drawing a row leaves every other line of the frame as it was. -/
theorem renderRow_frame_out (hWL : o.outWidth * o.add ≤ o.mLineLength) (m : Mem) (s : Nat)
    {drow r k : Int} (hr : r ≠ drow) (hk : 0 ≤ k) (hkl : k < o.mLineLength) :
    (o.renderRow cd m s drow).1.frame (r * o.mLineLength + k) = m.frame (r * o.mLineLength + k) := by
  have hWL' : ((o.outWidth : Nat) : Int) * o.add ≤ o.mLineLength := by exact_mod_cast hWL
  refine (foldl_pixelScaled_frame cd h3 _ m s _).1 _ ?_
  rcases row_blocks_disjoint hr (Int.ofNat_nonneg o.mLineLength) with h | h <;> omega

/-- The bytes of a display pixel lie within its line. -/
theorem pixel_in_line (hWL : o.outWidth * o.add ≤ o.mLineLength) {vx c : Nat}
    (hvx : vx < o.outWidth) (hc : c < 3) :
    0 ≤ (vx : Int) * o.add + o.chanOff c ∧ (vx : Int) * o.add + o.chanOff c < o.mLineLength := by
  have := o.pixel_byte_bounds h3 hvx hc
  have : ((o.outWidth : Nat) : Int) * o.add ≤ o.mLineLength := by exact_mod_cast hWL
  omega

end Row

/-! ## The duplication loop -/

/-- Different display rows are different lines. -/
theorem rowAt_inj {u v : Nat} : o.rowAt u = o.rowAt v ↔ u = v := by
  unfold rowAt
  split <;> omega

/-- Display row `u` is line `u`, counted from the bottom when inverted. -/
theorem rowAt_eq (u : Nat) :
    o.rowAt u = if o.mInverted then (o.outHeight : Int) - 1 - u else u := by
  unfold rowAt drow0
  split <;> omega

/-- `ypos` never moves back up the matrix. -/
theorem ypos_mono {a b : Nat} (h : a ≤ b) : o.ypos a ≤ o.ypos b :=
  Nat.div_le_div_right (Nat.mul_le_mul_right _ h)

/-- The duplication loop only moves down the display. -/
theorem le_dupRows (fuel : Nat) (m : Mem) (vy : Nat) (drow : Int) :
    vy ≤ (o.dupRows fuel (m, vy, drow)).2.1 := by
  induction fuel generalizing m vy drow with
  | zero => exact le_rfl
  | succ fuel ih =>
    simp only [dupRows]
    split
    · exact Nat.le_of_succ_le (ih _ _ _)
    · exact le_rfl

/-- The duplication loop run from display row `vy` copies line `vy` onto
every row it passes, down to the row it stops at, and leaves every other row
as it was. -/
theorem dupRows_frame (fuel : Nat) (m : Mem) (vy u : Nat) {k : Int} (hk : 0 ≤ k)
    (hkl : k < o.mLineLength) :
    (o.dupRows fuel (m, vy, o.rowAt vy)).1.frame (o.rowAt u * o.mLineLength + k) =
      if vy ≤ u ∧ u ≤ (o.dupRows fuel (m, vy, o.rowAt vy)).2.1 then
        m.frame (o.rowAt vy * o.mLineLength + k)
      else m.frame (o.rowAt u * o.mLineLength + k) := by
  induction fuel generalizing m vy with
  | zero =>
    simp only [dupRows]
    split_ifs with h
    · obtain rfl : u = vy := by omega
      rfl
    · rfl
  | succ fuel ih =>
    simp only [dupRows]
    split
    · -- line `vy` is copied onto line `vy + 1`, and the loop goes on from there
      have hlast := o.le_dupRows fuel ((m.note [.ypos vy, .ypos (vy + 1)]).copyRow
        (o.nextRow (o.rowAt vy) * o.mLineLength) (o.rowAt vy * o.mLineLength) o.mLineLength)
        (vy + 1) (o.nextRow (o.rowAt vy))
      rw [nextRow_rowAt] at hlast ⊢
      have hne : o.rowAt vy ≠ o.rowAt (vy + 1) := fun h => by simp [rowAt_inj] at h
      rw [ih, Mem.copyRow_line _ hne hk hkl, Mem.copyRow_line _ hne hk hkl, Mem.note_frame,
        if_pos rfl]
      by_cases hu : u = vy
      · subst hu
        rw [if_neg (by omega), if_neg hne, if_pos (by omega)]
      · simp only [rowAt_inj]
        split_ifs <;> first | rfl | omega
    · simp only [Mem.note_frame]
      split_ifs with h
      · obtain rfl : u = vy := by omega
        rfl
      · rfl

/-! ## The row loop -/

/-- The first `n` display rows hold the image: channel `c` of pixel `vx` of
display row `u` is channel `c` of matrix pixel `(advanced vx, ypos u)`. -/
def Drawn (m : Mem) (n : Nat) : Prop :=
  ∀ u < n, ∀ vx < o.outWidth, ∀ c < 3,
    m.frame (o.rowAt u * o.mLineLength + vx * o.add + o.chanOff c) =
      cd (o.mStartChannel + 3 * (o.mWidth * o.ypos u + o.advanced vx) + c)

/-- What the row loop of the per-pixel path has done when it reaches display
row `vy`: `sR` starts matrix row `ypos vy`, and the rows above are drawn. -/
structure DrawnInv (st : Mem × Nat × Nat × Int) : Prop where
  vy_le : st.2.2.1 ≤ o.outHeight
  drow_eq : st.2.2.2 = o.rowAt st.2.2.1
  src_eq : st.2.1 = o.mStartChannel + 3 * (o.mWidth * o.ypos st.2.2.1)
  drawn : o.Drawn cd st.1 st.2.2.1

section Loop

variable {o} (h3 : 3 ≤ o.add) (hWL : o.outWidth * o.add ≤ o.mLineLength)
include h3 hWL

/-- Drawing display row `vy` from the start of matrix row `ypos vy` keeps the
rows above and draws row `vy`. -/
theorem drawn_renderRow {m : Mem} {s vy : Nat}
    (hs0 : s = o.mStartChannel + 3 * (o.mWidth * o.ypos vy)) (hdrawn : o.Drawn cd m vy) :
    o.Drawn cd (o.renderRow cd m s (o.rowAt vy)).1 (vy + 1) := by
  intro u hu vx hvx c hc
  have hpix := pixel_in_line h3 hWL hvx hc
  rcases Nat.lt_succ_iff_lt_or_eq.1 hu with hu | rfl
  · -- a row above: another line
    rw [Int.add_assoc, renderRow_frame_out cd h3 hWL _ _ (fun h => by simp [rowAt_inj] at h; omega)
      hpix.1 hpix.2, ← Int.add_assoc, hdrawn u hu vx hvx c hc]
  · rw [renderRow_frame_pixel cd h3 _ _ _ hvx hc, hs0, Nat.mul_add]
    congr 1
    omega

variable (hmH : 1 ≤ o.mHeight) (hadv : o.advanced o.outWidth = o.mWidth)
  (hystep : ∀ vy, o.ypos (vy + 1) ≤ o.ypos vy + 1)
include hmH hadv hystep

/-- One pass of the row loop draws row `vy` and its duplicates and keeps
`DrawnInv`. -/
theorem drawnInv_rowPass {st : Mem × Nat × Nat × Int} (hinv : o.DrawnInv cd st)
    (hvy : st.2.2.1 < o.outHeight) :
    o.DrawnInv cd (o.rowPass cd st) ∧ st.2.2.1 < (o.rowPass cd st).2.2.1 := by
  obtain ⟨m, s, vy, drow⟩ := st
  obtain ⟨-, hd, hs0, hdrawn⟩ := hinv
  dsimp only at hvy hd hs0 hdrawn
  subst hd
  have hrow := drawn_renderRow cd h3 hWL hs0 hdrawn
  have hsrc : (o.renderRow cd m s (o.rowAt vy)).2 =
      o.mStartChannel + 3 * (o.mWidth * (o.ypos vy + 1)) := by
    rw [renderRow_snd, hadv, hs0, Nat.mul_add_one]
    omega
  by_cases hs : o.mScaling = .software
  · -- draw, then copy the row down while `ypos` stays
    obtain ⟨hle, hlt, hdr, hyl, hyn, -⟩ :=
      o.dupRows_spec hmH (o.outHeight + 1) (o.renderRow cd m s (o.rowAt vy)).1 vy hvy (by omega)
    simp only [rowPass, if_pos hs]
    have hnext := hystep
      (o.dupRows (o.outHeight + 1) ((o.renderRow cd m s (o.rowAt vy)).1, vy, o.rowAt vy)).2.1
    have hmono := o.ypos_le_succ
      (o.dupRows (o.outHeight + 1) ((o.renderRow cd m s (o.rowAt vy)).1, vy, o.rowAt vy)).2.1
    refine ⟨⟨?_, ?_, ?_, ?_⟩, ?_⟩ <;> dsimp only
    · omega
    · rw [hdr, nextRow_rowAt]
    · rw [hsrc]
      congr 3
      omega
    · intro u hu vx hvx c hc
      have hpix := pixel_in_line h3 hWL hvx hc
      rw [Int.add_assoc, dupRows_frame _ _ _ _ _ hpix.1 hpix.2, ← Int.add_assoc, ← Int.add_assoc]
      split_ifs with hin
      · -- a duplicate of row `vy`: it samples the same matrix row
        have h1 := o.ypos_mono hin.1
        have h2 := o.ypos_mono hin.2
        rw [hrow vy (Nat.lt_succ_self vy) vx hvx c hc, show o.ypos u = o.ypos vy by omega]
      · exact hrow u (by omega) vx hvx c hc
    · omega
  · -- no duplication: `ypos` is the identity
    simp only [rowPass, if_neg hs, nextRow_rowAt]
    have hid := o.ypos_of_not_software hs hmH
    exact ⟨⟨hvy, rfl, by rw [hsrc, hid, hid], hrow⟩, Nat.lt_succ_self vy⟩

/-- **The row loop draws every display row.**  Run with enough fuel from a
state with `DrawnInv`, the loop reaches row `height`, keeping `DrawnInv`. -/
theorem drawnInv_rowsScaled (fuel : Nat) {st : Mem × Nat × Nat × Int} (hinv : o.DrawnInv cd st)
    (hfuel : o.outHeight ≤ st.2.2.1 + fuel) :
    o.DrawnInv cd (o.rowsScaled cd fuel st) ∧ (o.rowsScaled cd fuel st).2.2.1 = o.outHeight := by
  induction fuel generalizing st with
  | zero => exact ⟨hinv, Nat.le_antisymm hinv.vy_le hfuel⟩
  | succ fuel ih =>
    simp only [rowsScaled]
    split
    · obtain ⟨hnext, hlt⟩ := drawnInv_rowPass cd h3 hWL hmH hadv hystep hinv ‹_›
      exact ih hnext (by omega)
    · exact ⟨hinv, by have := hinv.vy_le; omega⟩

/-- **What the per-pixel path draws.**  Channel `c` of pixel `vx` of display
row `u` is channel `c` of matrix pixel `(advanced vx, ypos u)`. -/
theorem prepDataScaled_frame (m : Mem) {u vx c : Nat} (hu : u < o.outHeight)
    (hvx : vx < o.outWidth) (hc : c < 3) :
    (o.prepDataScaled cd m).frame (o.rowAt u * o.mLineLength + vx * o.add + o.chanOff c) =
      cd (o.mStartChannel + 3 * (o.mWidth * o.ypos u + o.advanced vx) + c) := by
  have h0 : o.DrawnInv cd (m.note o.tableAccesses, o.mStartChannel, 0, o.drow0) :=
    ⟨Nat.zero_le _, (rowAt_zero o).symm, by simp [ypos], fun _ h => absurd h (Nat.not_lt_zero _)⟩
  obtain ⟨hinv, hend⟩ := drawnInv_rowsScaled cd h3 hWL hmH hadv hystep o.outHeight h0 (by omega)
  exact hinv.drawn u (by omega) vx hvx c hc

end Loop

end FBMatrixOutput

end ChannelOutput
