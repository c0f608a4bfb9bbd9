import Fpp.ChannelOutput.FBMatrix.Image

/-!
# The framebuffer matrix sink: what `PrepData` leaves alone

`PrepData` never clears `m_frame`: it writes the bytes of the image and no
other.  Every memory operation of the model changes only the frame bytes it
logs as writes (`Mem.WritesLogged`), and so does every loop built from them
(`prepData_writesLogged`).  Without software scaling the logged writes of all
three paths land on the image's pixel bytes (`ImageByte`): two per pixel at
16 bpp, the first three of each pixel at 24 and 32 bpp.  So the bytes past
`m_width` pixels on a line, the lines past `m_height`, and at 32 bpp the
fourth byte of every pixel keep what the frame held before
(`prepData_frame_outside_image`).
-/

namespace ChannelOutput

namespace FBMatrixOutput

namespace Mem

/-- `m'` differs from `m` only at frame bytes that the accesses logged since
`m` write. -/
def WritesLogged (m m' : Mem) : Prop :=
  ∃ new, m'.log = m.log ++ new ∧ ∀ i, Access.write i ∉ new → m'.frame i = m.frame i

theorem WritesLogged.refl (m : Mem) : m.WritesLogged m :=
  ⟨[], (List.append_nil _).symm, fun _ _ => rfl⟩

theorem WritesLogged.trans {m₁ m₂ m₃ : Mem} (h₁ : m₁.WritesLogged m₂)
    (h₂ : m₂.WritesLogged m₃) : m₁.WritesLogged m₃ := by
  obtain ⟨n₁, hl₁, hf₁⟩ := h₁
  obtain ⟨n₂, hl₂, hf₂⟩ := h₂
  refine ⟨n₁ ++ n₂, by rw [hl₂, hl₁, List.append_assoc], fun i hi => ?_⟩
  rw [List.mem_append, not_or] at hi
  rw [hf₂ i hi.2, hf₁ i hi.1]

variable (m : Mem) (cd : Nat → UInt8)

theorem writesLogged_note (as : List Access) : m.WritesLogged (m.note as) :=
  ⟨as, rfl, fun _ _ => rfl⟩

theorem writesLogged_write (off : Int) (v : UInt8) : m.WritesLogged (m.write off v) :=
  ⟨[.write off], rfl, fun i hi => by
    rw [write_frame, if_neg fun h => hi (List.mem_singleton.2 (congrArg Access.write h))]⟩

theorem writesLogged_copyByte (dst : Int) (src : Nat) : m.WritesLogged (m.copyByte cd dst src) :=
  (writesLogged_note m _).trans (writesLogged_write _ _ _)

/-- A loop whose every iteration changes only what it logs does so as a
whole. -/
theorem writesLogged_foldl {σ β : Type} (mem : σ → Mem) (f : σ → β → σ)
    (hf : ∀ st b, (mem st).WritesLogged (mem (f st b))) :
    ∀ (l : List β) (st : σ), (mem st).WritesLogged (mem (l.foldl f st))
  | [], st => .refl (mem st)
  | b :: l, st => (hf st b).trans (writesLogged_foldl mem f hf l (f st b))

theorem writesLogged_copyIn (dst : Int) (src n : Nat) : m.WritesLogged (m.copyIn cd dst src n) :=
  writesLogged_foldl id _ (fun m _ => writesLogged_copyByte m cd _ _) _ m

theorem writesLogged_copyRow (dst src : Int) (n : Nat) : m.WritesLogged (m.copyRow dst src n) :=
  writesLogged_foldl id _
    (fun m _ => (writesLogged_note m _).trans (writesLogged_write _ _ _)) _ m

end Mem

open Mem

variable (o : FBMatrixOutput) (cd : Nat → UInt8)

/-! ## Every path changes only what it logs -/

theorem prepData16_writesLogged (m : Mem) : m.WritesLogged (o.prepData16 cd m) := by
  have hpix : ∀ (st : Mem × Nat × Int) x, st.1.WritesLogged (o.pixel16 cd st x).1 :=
    fun ⟨m, _, _⟩ _ =>
      ((writesLogged_note m _).trans (writesLogged_write _ _ _)).trans (writesLogged_write _ _ _)
  have hrow : ∀ (st : Mem × Nat × Int) y, st.1.WritesLogged (o.row16 cd st y).1 :=
    fun ⟨m, s, drow⟩ _ => writesLogged_foldl Prod.fst _ hpix _ (m, s, drow * o.mLineLength)
  exact writesLogged_foldl Prod.fst _ hrow _ _

theorem dupRows_writesLogged :
    ∀ (fuel : Nat) (st : Mem × Nat × Int), st.1.WritesLogged (o.dupRows fuel st).1
  | 0, st => .refl st.1
  | fuel + 1, (m, vy, drow) => by
    simp only [dupRows]
    split
    · exact (writesLogged_note m _).trans
        ((writesLogged_copyRow _ _ _ _).trans (dupRows_writesLogged fuel _))
    · exact writesLogged_note m _

theorem rowPass_writesLogged (st : Mem × Nat × Nat × Int) :
    st.1.WritesLogged (o.rowPass cd st).1 := by
  obtain ⟨m, s, vy, drow⟩ := st
  have hpix : ∀ (st : Mem × Nat × Int) vx, st.1.WritesLogged (o.pixelScaled cd st vx).1 := by
    rintro ⟨m, s, d⟩ vx
    have h3 : m.WritesLogged (((m.copyByte cd (d + o.rOff) s).copyByte cd (d + 1) (s + 1)).copyByte
        cd (d + o.bOff) (s + 2)) :=
      ((writesLogged_copyByte m cd _ _).trans (writesLogged_copyByte _ cd _ _)).trans
        (writesLogged_copyByte _ cd _ _)
    dsimp only [pixelScaled]
    split
    exacts [h3.trans (writesLogged_note _ _), h3]
  have hrow : m.WritesLogged (o.renderRow cd m s drow).1 :=
    writesLogged_foldl Prod.fst _ hpix _ (m, s, drow * o.mLineLength)
  dsimp only [rowPass]
  split
  exacts [hrow.trans (o.dupRows_writesLogged _ _), hrow]

theorem prepDataScaled_writesLogged (m : Mem) : m.WritesLogged (o.prepDataScaled cd m) := by
  have hrows : ∀ (fuel : Nat) (st : Mem × Nat × Nat × Int),
      st.1.WritesLogged (o.rowsScaled cd fuel st).1 := by
    intro fuel
    induction fuel with
    | zero => exact fun st => .refl st.1
    | succ fuel ih =>
      intro st
      simp only [rowsScaled]
      split
      exacts [(o.rowPass_writesLogged cd st).trans (ih _), .refl st.1]
  exact (writesLogged_note m _).trans (hrows _ _)

theorem prepDataCopy_writesLogged (m : Mem) : m.WritesLogged (o.prepDataCopy cd m) :=
  writesLogged_foldl Prod.fst _ (fun ⟨m, _, _⟩ _ => writesLogged_copyIn m cd _ _ _) _ _

/-- **`PrepData` changes only the frame bytes it logs as writes.** -/
theorem prepData_writesLogged (m : Mem) : m.WritesLogged (o.prepData cd m) := by
  unfold prepData
  split
  · exact o.prepData16_writesLogged cd m
  · split
    exacts [o.prepDataScaled_writesLogged cd m, o.prepDataCopy_writesLogged cd m]

/-! ## Without software scaling the writes are the image -/

/-- A byte of the image without software scaling: byte `j` of pixel `x` of
line `y`, or of line `m_height - 1 - y` when inverted, where a pixel is
`m_bpp / 8` bytes of which the code writes two at 16 bpp and three
otherwise. -/
def ImageByte (i : Int) : Prop :=
  ∃ y < o.mHeight, ∃ x < o.mWidth, ∃ j < (if o.mBpp = 16 then 2 else 3),
    i = ((if o.mInverted then o.mHeight - 1 - y else y) * o.mLineLength + x * o.add + j : Nat)

instance (i : Int) : Decidable (o.ImageByte i) := by
  unfold ImageByte; infer_instance

/-- Byte `j` of pixel `x` of display row `y` is an image byte. -/
theorem imageByte_of_rowAt (hs : o.mScaling ≠ .software) {y x : Nat} {j : Int}
    (hy : y < o.mHeight) (hx : x < o.mWidth) (hj0 : 0 ≤ j) (hj : j < if o.mBpp = 16 then 2 else 3) {i : Int}
    (hi : i = o.rowAt y * o.mLineLength + x * o.add + j) : o.ImageByte i := by
  refine ⟨y, hy, x, hx, j.toNat, by split at hj <;> split <;> omega, ?_⟩
  rw [hi, o.rowAt_of_not_software hs hy]
  generalize (if o.mInverted then o.mHeight - 1 - y else y) = r
  push_cast
  omega

section Image

variable {o} (hs : o.mScaling ≠ .software) (frame : Int → UInt8)
include hs

theorem prepData16_writes_image (h16 : o.mBpp = 16) :
    ∀ i, Access.write i ∈ (o.prepData16 cd ⟨frame, []⟩).log → o.ImageByte i := by
  have hadd : o.add = 2 := by unfold add; rw [h16]
  simp only [prepData16_log, List.nil_append, List.mem_flatMap, List.mem_range, row16Accesses,
    pixel16Accesses, List.mem_cons, List.not_mem_nil, or_false, Access.write.injEq,
    reduceCtorEq, false_or]
  rintro i ⟨y, hy, x, hx, rfl | rfl⟩
  · exact o.imageByte_of_rowAt hs hy hx (j := 0) (Int.le_refl 0) (by simp [h16])
      (by rw [hadd]; push_cast; omega)
  · exact o.imageByte_of_rowAt hs hy hx (j := 1) (by omega) (by simp [h16])
      (by rw [hadd]; push_cast; omega)

theorem prepDataScaled_writes_image (h16 : o.mBpp ≠ 16) :
    ∀ i, Access.write i ∈ (o.prepDataScaled cd ⟨frame, []⟩).log → o.ImageByte i := by
  have hW : o.outWidth = o.mWidth := by simp [outWidth, hs]
  have hH : o.outHeight = o.mHeight := by simp [outHeight, hs]
  have hj : ∀ j : Int, 0 ≤ j → j ≤ 2 → j < if o.mBpp = 16 then 2 else 3 := by
    intro j _ _; rw [if_neg h16]; omega
  rcases Nat.eq_zero_or_pos o.mHeight with h0 | hmH
  · -- no row to draw: only the divisions filling the tables
    have : o.prepDataScaled cd ⟨frame, []⟩ = Mem.note ⟨frame, []⟩ o.tableAccesses := by
      simp [prepDataScaled, hH, h0, rowsScaled]
    simp [this, tableAccesses]
  intro i hw
  refine prepDataScaled_log_ok cd (fun a => a = .write i → o.ImageByte i) hmH ?_
    (fun h => absurd h hs) _ ?_ (.write i) hw rfl
  · intro vy j hvy _ a ha hai
    subst hai
    simp only [rowAccesses, pixelAccesses, if_neg hs, List.append_nil, List.mem_flatMap,
      List.mem_range, List.mem_cons, List.not_mem_nil, or_false, Access.write.injEq,
      reduceCtorEq, false_or] at ha
    obtain ⟨vx, hvx, ha⟩ := ha
    have hoff : (0 ≤ o.rOff ∧ o.rOff ≤ 2) ∧ (0 ≤ o.bOff ∧ o.bOff ≤ 2) := by
      unfold rOff bOff; split <;> omega
    rcases ha with rfl | rfl | rfl
    · exact o.imageByte_of_rowAt hs (hH ▸ hvy) (hW ▸ hvx) hoff.1.1 (hj _ hoff.1.1 hoff.1.2)
        (by omega)
    · exact o.imageByte_of_rowAt hs (hH ▸ hvy) (hW ▸ hvx) (j := 1) (by omega) (hj 1 (by omega)
        (by omega)) (by omega)
    · exact o.imageByte_of_rowAt hs (hH ▸ hvy) (hW ▸ hvx) hoff.2.1 (hj _ hoff.2.1 hoff.2.2)
        (by omega)
  · simp [tableAccesses]

theorem prepDataCopy_writes_image (h24 : o.mBpp = 24) :
    ∀ i, Access.write i ∈ (o.prepDataCopy cd ⟨frame, []⟩).log → o.ImageByte i := by
  have hadd : o.add = 3 := by unfold add; rw [h24]
  simp only [prepDataCopy_log, List.nil_append, List.mem_flatMap, List.mem_range,
    rowCopyAccesses, List.mem_cons, List.not_mem_nil, or_false, Access.write.injEq,
    reduceCtorEq, false_or]
  rintro i ⟨y, hy, k, hk, rfl⟩
  have hr : o.rowAt y = if o.mInverted then (o.mHeight : Int) - 1 - y else y := by
    rw [o.rowAt_of_not_software hs hy]; split <;> omega
  refine o.imageByte_of_rowAt hs hy (x := k / 3) (by omega) (j := (k % 3 : Nat)) (by omega)
    (by rw [if_neg (by omega)]; omega) ?_
  rw [copyDst_eq, ← hr, hadd]
  push_cast
  omega

/-- **`PrepData` writes only the image.**  Without software scaling, at 16,
24 or 32 bpp, every byte of the frame that is not a byte of the image keeps
its value: `PrepData` never clears what lies around or between the pixels it
draws. -/
theorem prepData_frame_outside_image (hbpp : o.mBpp = 16 ∨ o.mBpp = 24 ∨ o.mBpp = 32)
    {i : Int} (hi : ¬o.ImageByte i) : (o.prepData cd ⟨frame, []⟩).frame i = frame i := by
  obtain ⟨new, hlog, hframe⟩ := o.prepData_writesLogged cd ⟨frame, []⟩
  refine hframe i fun hw => hi ?_
  have hw' : Access.write i ∈ (o.prepData cd ⟨frame, []⟩).log := by
    rw [hlog]; exact List.mem_append_right _ hw
  unfold prepData at hw'
  split at hw'
  · exact prepData16_writes_image cd hs frame ‹_› i hw'
  · split at hw'
    · exact prepDataScaled_writes_image cd hs frame ‹_› i hw'
    · exact prepDataCopy_writes_image cd hs frame (by omega) i hw'

end Image

/-- A single RGB pixel at 32 bpp on a display of two pixels a line. -/
def paddedPixel : FBMatrixOutput :=
  { createFBMatrixOutput 0 3 with
    mWidth := 1
    mHeight := 1
    mUseRGB := true
    mBpp := 32
    mVInfo := { FbVarScreeninfo.zero with xres := 2, yres := 2, bitsPerPixel := 32 }
    mLineLength := 8
    mScreenSize := 16 }

theorem prepData_frame_outside_image_paddedPixel :
    paddedPixel.mScaling ≠ .software ∧
      (paddedPixel.mBpp = 16 ∨ paddedPixel.mBpp = 24 ∨ paddedPixel.mBpp = 32) ∧
      ¬paddedPixel.ImageByte 3 ∧
      (paddedPixel.prepData (fun _ => 7) ⟨fun _ => 9, []⟩).frame 3 = 9 :=
  have hi : ¬paddedPixel.ImageByte 3 := by decide
  ⟨by decide, by decide, hi,
    prepData_frame_outside_image (fun _ => 7) (by decide) (fun _ => 9) (by decide) hi⟩

end FBMatrixOutput

end ChannelOutput
