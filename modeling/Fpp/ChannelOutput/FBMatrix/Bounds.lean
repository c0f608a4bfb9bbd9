import Fpp.ChannelOutput.FBMatrix.PrepData

/-!
# The framebuffer matrix sink: what `PrepData` touches

Two bounds results over every run of `FBMatrixOutput::PrepData`:

* `prepData_reads_within`: every channel byte it reads lies in the window
  `GetRequiredChannelRanges` reports;
* `prepData_safe`: every frame byte it reads or writes lies in `m_frame`,
  every table lookup in its table, and no divisor is zero, whenever the
  matrix fits the display surface or software scaling sizes it to the
  display.

The direct-copy and 16 bpp paths have closed-form logs
(`Fpp.ChannelOutput.FBMatrix.PrepData`).  The per-pixel path is covered by an
invariant of its row loop, `RowsInv`, parametrised by the property of
accesses being kept; `rowsInv_rowsScaled` carries it over every run.  Its
heart is the source walk under software scaling: a drawn row steps over at
most `m_width` pixels (`advanced_width_le`), and a new row is drawn only
when `ypos` moves on (`DupResult.ypos_next`), so at most `m_height` rows are
drawn (`RowsInv.src_eq`).
-/

namespace ChannelOutput

namespace FBMatrixOutput

variable (o : FBMatrixOutput) (cd : Nat → UInt8)

/-! ## The index tables -/

theorem xpos_le_succ (vx : Nat) : o.xpos vx ≤ o.xpos (vx + 1) :=
  Nat.div_le_div_right (Nat.mul_le_mul_right _ (Nat.le_succ vx))

theorem ypos_le_succ (vy : Nat) : o.ypos vy ≤ o.ypos (vy + 1) :=
  Nat.div_le_div_right (Nat.mul_le_mul_right _ (Nat.le_succ vy))

/-- A column of the display samples a column of the matrix. -/
theorem xpos_lt {vx : Nat} (hmW : 1 ≤ o.mWidth) (hvx : vx < o.outWidth) :
    o.xpos vx < o.mWidth :=
  (Nat.div_lt_iff_lt_mul (by omega)).2
    (Nat.mul_comm o.outWidth o.mWidth ▸ Nat.mul_lt_mul_of_pos_right hvx hmW)

/-- A row of the display samples a row of the matrix. -/
theorem ypos_lt {vy : Nat} (hmH : 1 ≤ o.mHeight) (hvy : vy < o.outHeight) :
    o.ypos vy < o.mHeight :=
  (Nat.div_lt_iff_lt_mul (by omega)).2
    (Nat.mul_comm o.outHeight o.mHeight ▸ Nat.mul_lt_mul_of_pos_right hvy hmH)

theorem one_le_outWidth (hw : 1 ≤ o.mWidth) (hx : 1 ≤ o.mVInfo.xres) : 1 ≤ o.outWidth := by
  unfold outWidth
  split <;> assumption

theorem one_le_outHeight (hh : 1 ≤ o.mHeight) (hy : 1 ≤ o.mVInfo.yres) : 1 ≤ o.outHeight := by
  unfold outHeight
  split <;> assumption

theorem ypos_outHeight (hH : 1 ≤ o.outHeight) : o.ypos o.outHeight = o.mHeight :=
  Nat.mul_div_cancel_left _ hH

/-- The duplication loop stops before the last row: `ypos` takes its last
value `m_height` only at `height`. -/
theorem ypos_succ_lt {vy : Nat} (hmH : 1 ≤ o.mHeight) (hvy : vy < o.outHeight)
    (heq : o.ypos vy = o.ypos (vy + 1)) : vy + 1 < o.outHeight := by
  refine Nat.lt_of_le_of_ne hvy fun hlast => ?_
  have := o.ypos_lt hmH hvy
  rw [heq, hlast, o.ypos_outHeight (by omega)] at this
  exact Nat.lt_irrefl _ this

/-- Without software scaling `ypos` is the identity. -/
theorem ypos_of_not_software (hs : ¬o.mScaling = .software) (hmH : 1 ≤ o.mHeight) (vy : Nat) :
    o.ypos vy = vy := by
  simp only [ypos, outHeight, if_neg hs]
  exact Nat.mul_div_cancel vy hmH

/-! ## The source walk of one row -/

/-- Under software scaling the walk steps over a column only where `xpos`
moves on, so it never outruns `xpos`. -/
theorem advanced_le_xpos (hs : o.mScaling = .software) (n : Nat) :
    o.advanced n ≤ o.xpos n := by
  induction n with
  | zero => simp [advanced]
  | succ n ih =>
    have hmono := o.xpos_le_succ n
    simp only [advanced, advance, hs, true_and]
    split <;> omega

theorem advanced_of_not_software (hs : ¬o.mScaling = .software) (n : Nat) :
    o.advanced n = n := by
  induction n with
  | zero => rfl
  | succ n ih => simp [advanced, advance, hs, ih]

/-- Every pixel a row reads lies in one matrix row. -/
theorem advanced_lt {vx : Nat} (hmW : 1 ≤ o.mWidth) (hvx : vx < o.outWidth) :
    o.advanced vx < o.mWidth := by
  by_cases hs : o.mScaling = .software
  · exact Nat.lt_of_le_of_lt (o.advanced_le_xpos hs vx) (o.xpos_lt hmW hvx)
  · rw [o.advanced_of_not_software hs]
    simpa [outWidth, hs] using hvx

/-- A whole row steps over at most one matrix row. -/
theorem advanced_width_le : o.advanced o.outWidth ≤ o.mWidth := by
  by_cases hs : o.mScaling = .software
  · exact (o.advanced_le_xpos hs _).trans (Nat.div_le_of_le_mul (Nat.mul_comm _ _ ▸ le_rfl))
  · simp [o.advanced_of_not_software hs, outWidth, hs]

/-! ## The duplication loop -/

/-- An access of the duplication loop run from row `vy` to row `last`: the
lookups `ypos[u]` and `ypos[u + 1]` of the pass at row `u`, and the frame
reads and writes of the copy from row `u` to row `u + 1` when that pass
goes on. -/
def DupAccess (vy last : Nat) (a : Access) : Prop :=
  ∃ u, vy ≤ u ∧ u ≤ last ∧ (a = .ypos u ∨ a = .ypos (u + 1) ∨
    (u < last ∧ ∃ k < o.mLineLength, a = .frameRead (o.rowAt u * o.mLineLength + k) ∨
      a = .write (o.rowAt (u + 1) * o.mLineLength + k)))

/-- What the duplication loop run from drawn row `vy` leaves: it stops at a
row `last` below `height` that samples the same matrix row as `vy` while
the next display row does not, with `drow` at `last`, having made only
`DupAccess`es. -/
structure DupResult (vy : Nat) (m : Mem) (r : Mem × Nat × Int) : Prop where
  le_last : vy ≤ r.2.1
  last_lt : r.2.1 < o.outHeight
  drow_eq : r.2.2 = o.rowAt r.2.1
  ypos_last : o.ypos r.2.1 = o.ypos vy
  ypos_next : o.ypos r.2.1 ≠ o.ypos (r.2.1 + 1)
  log_eq : ∃ new, r.1.log = m.log ++ new ∧ ∀ a ∈ new, o.DupAccess vy r.2.1 a

/-- The duplication loop from a row below `height`, with fuel for the rows
left, ends as `DupResult` says. -/
theorem dupRows_spec (hmH : 1 ≤ o.mHeight) (fuel : Nat) (m : Mem) (vy : Nat)
    (hvy : vy < o.outHeight) (hfuel : o.outHeight ≤ vy + fuel) :
    o.DupResult vy m (o.dupRows fuel (m, vy, o.rowAt vy)) := by
  induction fuel generalizing m vy with
  | zero => omega
  | succ fuel ih =>
    by_cases hc : o.ypos vy = o.ypos (vy + 1) ∧ vy < o.outHeight
    · -- copy row `vy` onto row `vy + 1`, then go on from there
      have hnext := o.ypos_succ_lt hmH hvy hc.1
      simp only [dupRows, if_pos hc, nextRow_rowAt]
      obtain ⟨h1, h2, h3, h4, h5, new, hlog, hnew⟩ := ih _ (vy + 1) hnext (by omega)
      refine ⟨by omega, h2, h3, h4.trans hc.1.symm, h5, _, by rw [hlog, Mem.copyRow_log,
        Mem.note_log, List.append_assoc, List.append_assoc], ?_⟩
      simp only [List.mem_append, List.mem_cons, List.mem_flatMap, List.mem_range,
        List.not_mem_nil, or_false]
      rintro a ((rfl | rfl) | ⟨k, hk, rfl | rfl⟩ | ha)
      · exact ⟨vy, le_rfl, by omega, .inl rfl⟩
      · exact ⟨vy, le_rfl, by omega, .inr (.inl rfl)⟩
      · exact ⟨vy, le_rfl, by omega, .inr (.inr ⟨by omega, k, hk, .inl rfl⟩)⟩
      · exact ⟨vy, le_rfl, by omega, .inr (.inr ⟨by omega, k, hk, .inr rfl⟩)⟩
      · obtain ⟨u, h1, h2, h3⟩ := hnew a ha
        exact ⟨u, by omega, h2, h3⟩
    · -- the loop test fails: only the two lookups
      simp only [dupRows, if_neg hc]
      refine ⟨le_rfl, hvy, rfl, rfl, fun h => hc ⟨h, hvy⟩, _, rfl, ?_⟩
      simp only [List.mem_cons, List.not_mem_nil, or_false]
      rintro a (rfl | rfl)
      · exact ⟨vy, le_rfl, le_rfl, .inl rfl⟩
      · exact ⟨vy, le_rfl, le_rfl, .inr (.inl rfl)⟩

/-! ## The row loop of the per-pixel path -/

/-- The invariant of the per-pixel row loop over the memory, `sR`, `vy` and
`drow`, for a property `P` of accesses: every access so far has `P`, `vy`
has not passed `height`, `drow` is the row of `vy`, and `sR` starts the
`j`-th drawn row, where `j` is at most the matrix row `ypos[vy]` that
display row `vy` samples. -/
structure RowsInv (P : Access → Prop) (st : Mem × Nat × Nat × Int) : Prop where
  log_ok : ∀ a ∈ st.1.log, P a
  vy_le : st.2.2.1 ≤ o.outHeight
  drow_eq : st.2.2.2 = o.rowAt st.2.2.1
  src_eq : ∃ j, st.2.1 = o.mStartChannel + 3 * (o.advanced o.outWidth * j) ∧ j ≤ o.ypos st.2.2.1

section RowLoop

variable {o} (P : Access → Prop) (hmH : 1 ≤ o.mHeight)
  (hrow : ∀ vy j, vy < o.outHeight → j ≤ o.ypos vy → ∀ a ∈ o.rowAccesses
    (o.mStartChannel + 3 * (o.advanced o.outWidth * j)) (o.rowAt vy), P a)
  (hdup : o.mScaling = .software → ∀ vy last a, last < o.outHeight → o.DupAccess vy last a → P a)
include hmH hrow hdup

/-- One pass of the row loop keeps the invariant, given that `P` holds of
every access a row drawn at `vy` from the `j`-th source row makes, and of
the duplication loop's. -/
theorem rowsInv_rowPass {st : Mem × Nat × Nat × Int} (hinv : o.RowsInv P st)
    (hvy : st.2.2.1 < o.outHeight) : o.RowsInv P (o.rowPass cd st) := by
  obtain ⟨m, s, vy, drow⟩ := st
  obtain ⟨hlog, -, hd, j, hs0, hj⟩ := hinv
  dsimp only at hvy hlog hd hs0 hj
  subst hd
  have hrowP : ∀ a ∈ (o.renderRow cd m s (o.rowAt vy)).1.log, P a := by
    simp only [renderRow_log, List.mem_append]
    rintro a (ha | ha)
    exacts [hlog a ha, hrow vy j hvy hj a (hs0 ▸ ha)]
  have hsrc : (o.renderRow cd m s (o.rowAt vy)).2 =
      o.mStartChannel + 3 * (o.advanced o.outWidth * (j + 1)) := by
    rw [renderRow_snd, Nat.mul_add_one]
    omega
  by_cases hs : o.mScaling = .software
  · -- draw, then duplicate while `ypos` stays
    obtain ⟨h1, h2, h3, h4, h5, new, hnew, hdupP⟩ :=
      o.dupRows_spec hmH (o.outHeight + 1) (o.renderRow cd m s (o.rowAt vy)).1 vy hvy (by omega)
    simp only [rowPass, if_pos hs]
    refine ⟨?_, h2, by rw [h3, nextRow_rowAt], j + 1, hsrc, ?_⟩
    · rw [hnew]
      simp only [List.mem_append]
      rintro a (ha | ha)
      exacts [hrowP a ha, hdup hs vy _ a h2 (hdupP a ha)]
    · have := o.ypos_le_succ
        (o.dupRows (o.outHeight + 1) ((o.renderRow cd m s (o.rowAt vy)).1, vy, o.rowAt vy)).2.1
      dsimp only
      omega
  · -- no duplication: `ypos` is the identity
    simp only [rowPass, if_neg hs, nextRow_rowAt]
    refine ⟨hrowP, Nat.succ_le_of_lt hvy, rfl, j + 1, hsrc, ?_⟩
    rw [o.ypos_of_not_software hs hmH] at hj ⊢
    dsimp only
    omega

/-- **The row loop keeps the invariant over every run.** -/
theorem rowsInv_rowsScaled (fuel : Nat) {st : Mem × Nat × Nat × Int} (hinv : o.RowsInv P st) :
    o.RowsInv P (o.rowsScaled cd fuel st) := by
  induction fuel generalizing st with
  | zero => exact hinv
  | succ fuel ih =>
    simp only [rowsScaled]
    split
    · exact ih (rowsInv_rowPass cd P hmH hrow hdup hinv ‹_›)
    · exact hinv

/-- Every access of the per-pixel path has `P`, given that the divisions
filling the tables do. -/
theorem prepDataScaled_log_ok (m : Mem) (htab : ∀ a ∈ m.log ++ o.tableAccesses, P a) :
    ∀ a ∈ (o.prepDataScaled cd m).log, P a :=
  (rowsInv_rowsScaled cd P hmH hrow hdup o.outHeight
    ⟨htab, Nat.zero_le _, (rowAt_zero o).symm, 0, by simp, Nat.zero_le _⟩).log_ok

end RowLoop

/-! ## Channel reads -/

/-- Pixel `k` of the `j`-th of fewer than `h` source rows, each `A ≤ w`
pixels long, lies among the `w * h` pixels of the matrix. -/
theorem pixel_index_lt {A j k w h : Nat} (hA : A ≤ w) (hj : j < h) (hk : k < w) :
    A * j + k < w * h :=
  calc A * j + k < w * j + w := Nat.add_lt_add_of_le_of_lt (Nat.mul_le_mul_right j hA) hk
    _ = w * (j + 1) := (Nat.mul_succ w j).symm
    _ ≤ w * h := Nat.mul_le_mul_left w hj

/-- An access reads `channelData` only inside the sink's window
`[m_startChannel, m_startChannel + m_width * m_height * 3)`. -/
def ReadsWithin (a : Access) : Prop :=
  ∀ i, a = .channel i → o.mStartChannel ≤ i ∧ i < o.mStartChannel + o.mWidth * o.mHeight * 3

theorem readsWithin_of_not_channel {a : Access} (h : ∀ i, a ≠ .channel i) : o.ReadsWithin a :=
  fun i hi => absurd hi (h i)

/-- The per-pixel path reads inside the window: a drawn row reads at most
`m_width` pixels, and fewer than `m_height` rows are drawn before it. -/
theorem prepDataScaled_readsWithin (hw : 1 ≤ o.mWidth) (hh : 1 ≤ o.mHeight) (m : Mem)
    (hm : m.log = []) : ∀ a ∈ (o.prepDataScaled cd m).log, o.ReadsWithin a := by
  refine prepDataScaled_log_ok cd _ hh ?row ?dup m ?tab
  case row =>
    intro vy j hvy hj a ha i hi
    subst hi
    simp only [rowAccesses, List.mem_flatMap, List.mem_range, channel_mem_pixelAccesses] at ha
    obtain ⟨vx, hvx, hi⟩ := ha
    have := pixel_index_lt (o.advanced_width_le) (Nat.lt_of_le_of_lt hj (o.ypos_lt hh hvy))
      (o.advanced_lt hw hvx)
    omega
  case dup =>
    rintro - vy last a - ⟨u, -, -, rfl | rfl | ⟨-, k, -, rfl | rfl⟩⟩ <;>
      exact o.readsWithin_of_not_channel fun i => by simp
  case tab =>
    simp only [hm, tableAccesses, List.nil_append, List.mem_append, List.mem_replicate]
    rintro a (⟨-, rfl⟩ | ⟨-, rfl⟩) <;> exact o.readsWithin_of_not_channel fun i => by simp

/-- **Reads stay in the reported range.**  For every sink with a non-empty
matrix, every scaling mode, depth, inversion and colour order, and every
show buffer, each byte of `channelData` that `PrepData` reads lies in the
inclusive range `GetRequiredChannelRanges` reports. -/
theorem prepData_reads_within (cd : Nat → UInt8) (frame : Int → UInt8)
    (hw : 1 ≤ o.mWidth) (hh : 1 ≤ o.mHeight) (i : Nat)
    (hi : Access.channel i ∈ (o.prepData cd ⟨frame, []⟩).log) :
    o.getRequiredChannelRanges.1 ≤ i ∧ (i : Int) ≤ o.getRequiredChannelRanges.2 := by
  suffices h : o.mStartChannel ≤ i ∧ i < o.mStartChannel + o.mWidth * o.mHeight * 3 by
    simp only [getRequiredChannelRanges]
    omega
  unfold prepData at hi
  split at hi
  · -- 16 bpp: pixel `x` of row `y`
    simp only [prepData16_log, List.nil_append, List.mem_flatMap, List.mem_range, row16Accesses,
      channel_mem_pixel16Accesses] at hi
    obtain ⟨y, hy, x, hx, hi⟩ := hi
    have := pixel_index_lt (le_refl o.mWidth) hy hx
    omega
  split at hi
  · exact o.prepDataScaled_readsWithin cd hw hh _ rfl _ hi i rfl
  · -- the direct copy: byte `k` of row `y`
    simp only [prepDataCopy_log, List.nil_append, List.mem_flatMap, List.mem_range, rowCopyAccesses,
      List.mem_cons, Access.channel.injEq, List.not_mem_nil, or_false] at hi
    obtain ⟨y, hy, k, hk, hi | hi⟩ := hi
    · have := Nat.mul_le_mul_left o.mWidth (Nat.succ_le_of_lt hy)
      rw [Nat.mul_succ] at this
      omega
    · cases hi

/-- A 2×2 RGB matrix on a 2×2 display at 24 bpp, drawn by the per-pixel
path. -/
def rgbMatrix : FBMatrixOutput :=
  { createFBMatrixOutput 0 12 with
    mWidth := 2
    mHeight := 2
    mUseRGB := true
    mVInfo := { FbVarScreeninfo.zero with xres := 2, yres := 2, bitsPerPixel := 24 }
    mLineLength := 6
    mScreenSize := 12 }

theorem prepData_reads_within_rgbMatrix :
    1 ≤ rgbMatrix.mWidth ∧ 1 ≤ rgbMatrix.mHeight ∧
      Access.channel 11 ∈ (rgbMatrix.prepData (fun _ => 0) ⟨fun _ => 0, []⟩).log ∧
      rgbMatrix.getRequiredChannelRanges.1 ≤ 11 ∧
      ((11 : Nat) : Int) ≤ rgbMatrix.getRequiredChannelRanges.2 :=
  have h : Access.channel 11 ∈ (rgbMatrix.prepData (fun _ => 0) ⟨fun _ => 0, []⟩).log := by
    decide
  ⟨by decide, by decide, h, prepData_reads_within rgbMatrix _ _ (by decide) (by decide) 11 h⟩

/-! ## Frame bytes, tables and divisors -/

/-- An access that stays inside the array it touches, or a division by a
non-zero divisor: a frame byte read or written lies among the
`m_screenSize` bytes `Init` allocates for `m_frame`, and a lookup among the
`width + 1` or `height + 1` entries `PrepData` allocates for `xpos` or
`ypos`. -/
def Safe : Access → Prop
  | .channel _ => True
  | .frameRead off => 0 ≤ off ∧ off < o.mScreenSize
  | .write off => 0 ≤ off ∧ off < o.mScreenSize
  | .xpos i => i ≤ o.outWidth
  | .ypos i => i ≤ o.outHeight
  | .divide d => 0 < d

instance (a : Access) : Decidable (o.Safe a) :=
  match a with
  | .channel _ => inferInstanceAs (Decidable True)
  | .frameRead off => inferInstanceAs (Decidable (0 ≤ off ∧ off < o.mScreenSize))
  | .write off => inferInstanceAs (Decidable (0 ≤ off ∧ off < o.mScreenSize))
  | .xpos i => inferInstanceAs (Decidable (i ≤ o.outWidth))
  | .ypos i => inferInstanceAs (Decidable (i ≤ o.outHeight))
  | .divide d => inferInstanceAs (Decidable (0 < d))

/-- Byte `k` of row `r` of a surface of `y` rows of `ll` bytes lies among
its `ll * y` bytes. -/
theorem row_byte_lt {r k ll y : Int} (hr : 0 ≤ r) (hry : r < y) (hk : 0 ≤ k) (hkl : k < ll) :
    0 ≤ r * ll + k ∧ r * ll + k < ll * y := by
  have h1 : (r + 1) * ll ≤ y * ll := Int.mul_le_mul_of_nonneg_right (by omega) (by omega)
  have h2 : 0 ≤ r * ll := Int.mul_nonneg hr (by omega)
  rw [Int.add_mul, Int.one_mul, Int.mul_comm y] at h1
  omega

theorem copyDst_eq (y : Nat) :
    o.copyDst y = (if o.mInverted then (o.mHeight : Int) - 1 - y else y) * o.mLineLength := by
  unfold copyDst
  split
  · rw [Int.sub_mul, Int.mul_comm, Int.mul_comm (y : Int)]
  · exact Int.mul_comm _ _

/-- Every row of `height` lies in `[0, height)`, inverted or not. -/
theorem rowAt_mem {u : Nat} (hu : u < o.outHeight) : 0 ≤ o.rowAt u ∧ o.rowAt u < o.outHeight := by
  unfold rowAt drow0
  split <;> omega

section Frame

variable {o} (hsize : o.mScreenSize = o.mLineLength * o.mVInfo.yres)
  (hHy : o.outHeight ≤ o.mVInfo.yres)
include hsize hHy

/-- A byte within a row of `height` lies in `m_frame` when the display has
room for `height` rows. -/
theorem frame_byte_safe (u : Nat) {off : Int} (hu : u < o.outHeight)
    (hk : 0 ≤ off - o.rowAt u * o.mLineLength) (hkl : off - o.rowAt u * o.mLineLength < o.mLineLength) :
    0 ≤ off ∧ off < o.mScreenSize := by
  obtain ⟨h0, h1⟩ := o.rowAt_mem hu
  have := row_byte_lt h0 (Int.lt_of_lt_of_le h1 (Int.ofNat_le.2 hHy)) hk hkl
  rw [hsize, Int.ofNat_mul]
  omega

/-- The 16 bpp path stays in its bounds when the matrix fits the surface. -/
theorem prepData16_safe (hmH : o.mHeight ≤ o.outHeight) (hmW : 2 * o.mWidth ≤ o.mLineLength)
    (m : Mem) (hm : m.log = []) : ∀ a ∈ (o.prepData16 cd m).log, o.Safe a := by
  simp only [prepData16_log, hm, List.nil_append, List.mem_flatMap, List.mem_range, row16Accesses,
    pixel16Accesses, List.mem_cons, List.not_mem_nil, or_false]
  rintro a ⟨y, hy, x, hx, rfl | rfl | rfl | rfl | rfl⟩ <;>
    first | exact trivial | exact frame_byte_safe hsize hHy y (by omega) (by omega) (by omega)

/-- The per-pixel path stays in its bounds when a display row of `width`
pixels fits a line and `height` rows fit the surface. -/
theorem prepDataScaled_safe (hh : 1 ≤ o.mHeight) (hW : 1 ≤ o.outWidth)
    (hH : 1 ≤ o.outHeight) (hadd : 3 ≤ o.add) (hWL : o.outWidth * o.add ≤ o.mLineLength)
    (m : Mem) (hm : m.log = []) : ∀ a ∈ (o.prepDataScaled cd m).log, o.Safe a := by
  refine prepDataScaled_log_ok cd _ hh ?row ?dup m ?tab
  case row =>
    intro vy j hvy _ a ha
    simp only [rowAccesses, List.mem_flatMap, List.mem_range] at ha
    obtain ⟨vx, hvx, ha⟩ := ha
    have hpix : 0 ≤ (vx : Int) * o.add ∧ (vx : Int) * o.add + 3 ≤ o.mLineLength := by
      have := Nat.mul_le_mul_right o.add (Nat.succ_le_of_lt hvx)
      rw [Nat.succ_mul] at this
      exact ⟨Int.mul_nonneg (Int.ofNat_nonneg _) (Int.ofNat_nonneg _),
        by exact_mod_cast (show vx * o.add + 3 ≤ o.mLineLength by omega)⟩
    have hr : (0 ≤ o.rOff ∧ o.rOff ≤ 2) ∧ (0 ≤ o.bOff ∧ o.bOff ≤ 2) := by
      unfold rOff bOff
      split <;> omega
    unfold pixelAccesses at ha
    simp only [List.mem_append, List.mem_cons, List.not_mem_nil, or_false] at ha
    rcases ha with (rfl | rfl | rfl | rfl | rfl | rfl) | ha
    any_goals first | exact trivial | exact frame_byte_safe hsize hHy vy hvy (by omega) (by omega)
    split at ha
    · simp only [List.mem_cons, List.not_mem_nil, or_false] at ha
      rcases ha with rfl | rfl
      · show vx ≤ o.outWidth
        omega
      · show vx + 1 ≤ o.outWidth
        omega
    · cases ha
  case dup =>
    rintro - vy last a hlast ⟨u, -, hu, rfl | rfl | ⟨hul, k, hk, rfl | rfl⟩⟩
    · show u ≤ o.outHeight
      omega
    · show u + 1 ≤ o.outHeight
      omega
    · exact frame_byte_safe hsize hHy u (by omega) (by omega) (by omega)
    · exact frame_byte_safe hsize hHy (u + 1) (by omega) (by omega) (by omega)
  case tab =>
    simp only [hm, tableAccesses, List.nil_append, List.mem_append, List.mem_replicate]
    rintro a (⟨-, rfl⟩ | ⟨-, rfl⟩)
    exacts [hW, hH]

omit hHy in
/-- The direct copy stays in its bounds when the matrix fits the surface. -/
theorem prepDataCopy_safe (hmH : o.mHeight ≤ o.mVInfo.yres) (hmW : o.mWidth * 3 ≤ o.mLineLength)
    (m : Mem) (hm : m.log = []) : ∀ a ∈ (o.prepDataCopy cd m).log, o.Safe a := by
  simp only [prepDataCopy_log, hm, List.nil_append, List.mem_flatMap, List.mem_range,
    rowCopyAccesses, List.mem_cons, List.not_mem_nil, or_false]
  rintro a ⟨y, hy, k, hk, rfl | rfl⟩
  · trivial
  · -- byte `k` of matrix row `y`, counted from the bottom when inverted
    have hr : 0 ≤ (if o.mInverted then (o.mHeight : Int) - 1 - y else y) ∧
        (if o.mInverted then (o.mHeight : Int) - 1 - y else y) < o.mVInfo.yres := by
      split <;> omega
    have := row_byte_lt hr.1 hr.2 (Int.ofNat_nonneg k) (by omega : (k : Int) < o.mLineLength)
    show 0 ≤ o.copyDst y + k ∧ o.copyDst y + k < ((o.mScreenSize : Nat) : Int)
    rw [copyDst_eq, hsize, Int.ofNat_mul]
    exact this

end Frame

/-- **`PrepData` stays in bounds.**  For every sink with a non-empty matrix at
16, 24 or 32 bpp, on a display of at least one pixel whose lines hold `xres`
pixels and whose frame is `line_length * yres` bytes: when software scaling
sizes the image to the display at 24 or 32 bpp, or when the matrix fits the
surface (at most `yres` rows of at most `line_length` bytes), every frame byte
`PrepData` reads or writes lies in `m_frame`, every lookup lies in its index
table, and no divisor is zero. -/
theorem prepData_safe (cd : Nat → UInt8) (frame : Int → UInt8)
    (hw : 1 ≤ o.mWidth) (hh : 1 ≤ o.mHeight) (hbpp : o.mBpp = 16 ∨ o.mBpp = 24 ∨ o.mBpp = 32)
    (hx : 1 ≤ o.mVInfo.xres) (hy : 1 ≤ o.mVInfo.yres)
    (hline : o.mVInfo.xres * o.mBpp / 8 ≤ o.mLineLength)
    (hsize : o.mScreenSize = o.mLineLength * o.mVInfo.yres)
    (hfit : o.mScaling = .software ∧ o.mBpp ≠ 16 ∨
      o.mHeight ≤ o.mVInfo.yres ∧ o.mWidth * o.mBpp / 8 ≤ o.mLineLength) :
    ∀ a ∈ (o.prepData cd ⟨frame, []⟩).log, o.Safe a := by
  have hHy : o.outHeight ≤ o.mVInfo.yres := by
    unfold outHeight
    split
    · exact Nat.le_refl _
    · rcases hfit with ⟨hs, -⟩ | ⟨h, -⟩
      exacts [absurd hs ‹_›, h]
  unfold prepData
  split
  next h16 =>
    -- 16 bpp: software scaling does not size this path, so the matrix fits
    obtain ⟨hmH, hmW⟩ := hfit.resolve_left fun h => h.2 h16
    refine prepData16_safe cd hsize hHy ?_ ?_ _ rfl
    · unfold outHeight
      split <;> omega
    · rw [h16] at hmW
      omega
  next h16 =>
    split
    next hpix =>
      -- the per-pixel path: a display row of `width * add` bytes fits a line
      refine prepDataScaled_safe cd hsize hHy hh (o.one_le_outWidth hw hx)
        (o.one_le_outHeight hh hy) (by unfold add; omega) ?_ _ rfl
      · unfold outWidth add
        split
        next hs =>
          rcases hbpp with h | h | h <;> rw [h] at hline ⊢ <;> omega
        next hs =>
          obtain ⟨-, hfw⟩ := hfit.resolve_left fun h => hs h.1
          rcases hbpp with h | h | h <;> rw [h] at hfw ⊢ <;> omega
    next hcopy =>
      -- the direct copy: 24 bpp without software scaling, so the matrix fits
      obtain ⟨hmH, hmW⟩ := hfit.resolve_left fun h => hcopy (.inr (.inr h.1))
      refine prepDataCopy_safe cd hsize hmH ?_ _ rfl
      have h24 : o.mBpp = 24 := by omega
      rw [h24] at hmW
      omega

theorem prepData_safe_rgbMatrix :
    1 ≤ rgbMatrix.mWidth ∧ 1 ≤ rgbMatrix.mHeight ∧ rgbMatrix.mBpp = 24 ∧
      1 ≤ rgbMatrix.mVInfo.xres ∧ 1 ≤ rgbMatrix.mVInfo.yres ∧
      rgbMatrix.mVInfo.xres * rgbMatrix.mBpp / 8 ≤ rgbMatrix.mLineLength ∧
      rgbMatrix.mScreenSize = rgbMatrix.mLineLength * rgbMatrix.mVInfo.yres ∧
      (rgbMatrix.mHeight ≤ rgbMatrix.mVInfo.yres ∧
        rgbMatrix.mWidth * rgbMatrix.mBpp / 8 ≤ rgbMatrix.mLineLength) ∧
      ∀ a ∈ (rgbMatrix.prepData (fun _ => 0) ⟨fun _ => 0, []⟩).log, rgbMatrix.Safe a :=
  ⟨by decide, by decide, rfl, by decide, by decide, by decide, rfl, by decide,
    prepData_safe rgbMatrix _ _ (by decide) (by decide) (.inr (.inl rfl)) (by decide) (by decide)
      (by decide) rfl (.inr (by decide))⟩

/-- A 1×2 matrix at 24 bpp without scaling, on a display of one row of one
pixel: `Init` accepts it, and the direct copy writes its second row past the
three bytes of `m_frame`. -/
def overhang : FBMatrixOutput :=
  { createFBMatrixOutput 0 6 with
    mScaling := .none
    mWidth := 1
    mHeight := 2
    mVInfo := { FbVarScreeninfo.zero with xres := 1, yres := 1, bitsPerPixel := 24 }
    mLineLength := 3
    mScreenSize := 3 }

theorem prepData_overhang_escapes_frame :
    overhang.mChannelCount = overhang.mWidth * overhang.mHeight * 3 ∧ overhang.mBpp = 24 ∧
      1 ≤ overhang.mVInfo.xres ∧ 1 ≤ overhang.mVInfo.yres ∧
      overhang.mVInfo.xres * overhang.mBpp / 8 ≤ overhang.mLineLength ∧
      overhang.mScreenSize = overhang.mLineLength * overhang.mVInfo.yres ∧
      Access.write 3 ∈ (overhang.prepData (fun _ => 0) ⟨fun _ => 0, []⟩).log ∧
      ¬overhang.Safe (.write 3) := by
  decide

end FBMatrixOutput

end ChannelOutput
