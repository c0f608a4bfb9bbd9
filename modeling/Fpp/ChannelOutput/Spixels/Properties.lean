import Fpp.ChannelOutput.Spixels.Output

/-!
# What Spixels' `Init`, `PrepData` and `GetRequiredChannelRanges` guarantee

* `initLoop_eq_accepted_prefix`: `Init` keeps the strings of whole pixels of
  the entries before the first it rejects, each with a strip of its
  lower-cased protocol and `n / 3` pixels, also when it fails; it fails
  exactly when it rejects an entry.
* `pixelLoop_eq`: the pixel loop of a string of `n` channels runs
  `(n + 2) / 3` times, the `j`-th time on channels `3j, 3j+1, 3j+2`.  When `n`
  is a multiple of 3 this covers exactly the strip's pixels
  (`prepData_string_of_dvd`); otherwise the last iteration reads the map and
  the tables past `n` and sets a pixel past the strip (`prepData_rgbw_overrun`).
* `stringRange_bounds`: a string's computed range bounds every mapped channel
  below `FPPD_MAX_CHANNELS`, so every channel `PrepData` reads there lies in a
  reported range when its string's range is reported
  (`requiredRanges_cover_reads`); a string whose channels below it are all one
  channel has `min = max` and is not reported (`requiredRanges_miss_single`).
-/

namespace ChannelOutput

namespace SpixelsOutput

/-! ## `Init` -/

/-- Whether `Init` goes on past an entry: `PixelString::Init` built its
string, and the string has no whole pixel or names one of the four
protocols, in any case. -/
def accepted (s : OutputConfig) : Bool :=
  match s.pixelString with
  | none => false
  | some ps => decide (ps.mOutputChannels < 3) ||
      decide (toLower s.protocol ∈ ["ws2801", "apa102", "lpd6803", "lpd8806"])

/-- The string and strip an accepted entry leaves: none for a string of no
whole pixel, else the strip of the lower-cased protocol on the entry's
connector, one pixel per three channels. -/
def kept (s : OutputConfig) : Option (PixelString × LEDStrip) :=
  s.pixelString.bind fun ps =>
    if ps.mOutputChannels < 3 then none
    else some (ps, ⟨toLower s.protocol, connectorOf s.portNumber, ps.mOutputChannels / 3⟩)

/-- The error `Init` logs: the protocol of the first entry it rejects, as
configured, when that entry's string was built. -/
def initErrors (outputs : List OutputConfig) : List String :=
  match outputs.dropWhile accepted with
  | s :: _ => if s.pixelString.isSome then ["Unknown Pixel Protocol: " ++ s.protocol ++ "\n"] else []
  | [] => []

theorem createStrip_eq (protocol : String) (connector pixels : Nat) :
    createStrip protocol connector pixels =
      if protocol ∈ ["ws2801", "apa102", "lpd6803", "lpd8806"] then
        some ⟨protocol, connector, pixels⟩ else none := by
  simp only [createStrip, List.mem_cons, List.mem_singleton, List.not_mem_nil, or_false]

/-- **`Init` in closed form.**  It keeps, in order, the strings and strips of
the entries before the first one it rejects, on top of what the sink held,
and keeps them also when it then fails; it succeeds exactly when it rejects
no entry, and logs the unknown protocol of the rejected entry. -/
theorem initLoop_eq_accepted_prefix : ∀ (outputs : List OutputConfig) (o : SpixelsOutput),
    let pre := (outputs.takeWhile accepted).filterMap kept
    initLoop outputs o = (⟨o.mStrings ++ pre.map Prod.fst, o.mStrips ++ pre.map Prod.snd⟩,
      outputs.all accepted, initErrors outputs)
  | [], _ => by simp [initLoop, initErrors]
  | s :: rest, o => by
      have ih := initLoop_eq_accepted_prefix rest
      cases hps : s.pixelString with
      | none => simp [initLoop, hps, accepted, initErrors]
      | some ps =>
          by_cases h3 : ps.mOutputChannels < 3
          · have hacc : accepted s = true := by simp [accepted, hps, h3]
            have h0 : ps.mOutputChannels / 3 = 0 := by omega
            simp [initLoop, hps, h0, ih o, hacc, kept, h3, initErrors, List.dropWhile]
          · have h0 : ¬ps.mOutputChannels / 3 = 0 := by omega
            by_cases hp : toLower s.protocol ∈ ["ws2801", "apa102", "lpd6803", "lpd8806"]
            · have hacc : accepted s = true := by simp [accepted, hps, hp]
              simp [initLoop, hps, h0, createStrip_eq, hp, ih, hacc, kept, h3, initErrors,
                List.dropWhile]
            · have hacc : accepted s = false := by simp [accepted, hps, h3, hp]
              simp [initLoop, hps, h0, createStrip_eq, hp, hacc, initErrors, List.dropWhile]

/-! ## The pixel loop -/

variable (s : Nat) (ps : PixelString) (channelData : Nat → UInt8)

/-- **The pixel loop in closed form**, from channel `p`, given fuel for its
`(n - p + 2) / 3` iterations. -/
theorem pixelLoop_eq :
    ∀ (fuel p pix : Nat), (ps.mOutputChannels - p + 2) / 3 ≤ fuel →
      pixelLoop s ps channelData fuel p pix =
        (List.range ((ps.mOutputChannels - p + 2) / 3)).flatMap
          fun j => pixelAccesses s ps channelData (p + 3 * j) (pix + j)
  | 0, p, pix, h => by
      rw [Nat.le_zero.mp h]; rfl
  | fuel + 1, p, pix, h => by
      unfold pixelLoop
      split
      · rename_i hp
        have hk : (ps.mOutputChannels - p + 2) / 3 =
            (ps.mOutputChannels - (p + 3) + 2) / 3 + 1 := by omega
        rw [pixelLoop_eq fuel (p + 3) (pix + 1) (by omega), hk, List.range_succ_eq_map,
          List.flatMap_cons, List.flatMap_map]
        congr 1
        refine congrArg _ (funext fun j => ?_)
        rw [show p + 3 + 3 * j = p + 3 * (j + 1) by omega, show pix + 1 + j = pix + (j + 1) by omega]
      · rename_i hp
        have hk : (ps.mOutputChannels - p + 2) / 3 = 0 := by omega
        rw [hk]; rfl

/-- The loop `PrepData` runs on a string, in closed form. -/
theorem pixelLoop_string :
    pixelLoop s ps channelData ps.mOutputChannels 0 0 =
      (List.range ((ps.mOutputChannels + 2) / 3)).flatMap
        fun j => pixelAccesses s ps channelData (3 * j) j := by
  rw [pixelLoop_eq s ps channelData _ 0 0 (by omega)]
  simp

/-- Every access of a string's loop is tagged with that string. -/
def Access.string : Access → Nat
  | .outputMap s _ => s
  | .brightnessMap s _ => s
  | .channel s _ => s
  | .setPixel s _ _ => s

theorem string_of_mem_pixelAccesses {a : Access} {p pix : Nat}
    (h : a ∈ pixelAccesses s ps channelData p pix) : a.string = s := by
  simp only [pixelAccesses, channelAccesses, List.cons_append, List.singleton_append,
    List.nil_append, List.mem_cons, List.mem_singleton, List.not_mem_nil, or_false] at h
  obtain rfl | rfl | rfl | rfl | rfl | rfl | rfl | rfl | rfl | rfl := h <;> rfl

theorem string_of_mem_pixelLoop {a : Access} (fuel p pix : Nat)
    (h : a ∈ pixelLoop s ps channelData fuel p pix) : a.string = s := by
  induction fuel generalizing p pix with
  | zero => cases h
  | succ fuel ih =>
      unfold pixelLoop at h
      split at h
      · rcases List.mem_append.mp h with h | h
        · exact string_of_mem_pixelAccesses s ps channelData h
        · exact ih _ _ h
      · cases h

/-- The accesses `PrepData` makes on string `s` are those of its own loop. -/
theorem mem_prepData {o : SpixelsOutput} {a : Access} (h : a ∈ o.prepData channelData) :
    ∃ ps ∈ o.mStrings[a.string]?,
      a ∈ pixelLoop a.string ps channelData ps.mOutputChannels 0 0 := by
  obtain ⟨⟨i, ps⟩, he, ha⟩ := List.mem_flatMap.mp h
  obtain ⟨hi, hps⟩ := List.mem_enum he
  have hs : a.string = i := string_of_mem_pixelLoop i _ channelData _ _ _ ha
  rw [hs]
  exact ⟨ps, by simp [hi, hps], ha⟩

/-- The access stays inside string `ps` and its strip of
`ps.mOutputChannels / 3` pixels. -/
def InBounds (ps : PixelString) : Access → Prop
  | .outputMap _ i => i < ps.mOutputChannels
  | .brightnessMap _ i => i < ps.mOutputChannels
  | .channel _ c => ∃ i < ps.mOutputChannels, ps.mOutputMap.getD i 0 = c
  | .setPixel _ pix _ => pix < ps.mOutputChannels / 3

/-- **Strings of whole pixels.**  When a string's channel count is a multiple
of 3, its loop runs once per strip pixel, sets pixel `j` from channels `3j`,
`3j+1`, `3j+2`, and every access stays inside the string and its strip. -/
theorem prepData_string_of_dvd (h3 : ps.mOutputChannels % 3 = 0) :
    pixelLoop s ps channelData ps.mOutputChannels 0 0 =
      (List.range (ps.mOutputChannels / 3)).flatMap
        (fun j => pixelAccesses s ps channelData (3 * j) j) ∧
    ∀ a ∈ pixelLoop s ps channelData ps.mOutputChannels 0 0, InBounds ps a := by
  have hk : (ps.mOutputChannels + 2) / 3 = ps.mOutputChannels / 3 := by omega
  rw [pixelLoop_string, hk]
  refine ⟨rfl, fun a ha => ?_⟩
  obtain ⟨j, hj, ha⟩ := List.mem_flatMap.mp ha
  have hj : 3 * j + 2 < ps.mOutputChannels := by rw [List.mem_range] at hj; omega
  simp only [pixelAccesses, channelAccesses, List.cons_append, List.singleton_append,
    List.nil_append, List.mem_cons, List.mem_singleton, List.not_mem_nil, or_false] at ha
  obtain rfl | rfl | rfl | rfl | rfl | rfl | rfl | rfl | rfl | rfl := ha <;>
    first | (show _ < _; omega) | exact ⟨_, by omega, rfl⟩

/-- A string of four channels (one RGBW pixel) on channels 0..3, with
identity brightness tables. -/
def rgbwString : PixelString := ⟨4, [0, 1, 2, 3], [id, id, id, id], rfl, rfl⟩

/-- **The loop overruns a string that is not whole pixels.**  `Init` makes a
one-pixel strip for the four-channel string, but `PrepData`'s second iteration
reads the output map and the brightness tables at 4 and 5 and sets pixel 1. -/
theorem prepData_rgbw_overrun :
    (init [⟨"ws2801", 0, some rgbwString⟩]).1.mStrips = [⟨"ws2801", 1, 1⟩] ∧
    Access.outputMap 0 4 ∈ (init [⟨"ws2801", 0, some rgbwString⟩]).1.prepData (fun _ => 0) ∧
    Access.brightnessMap 0 5 ∈ (init [⟨"ws2801", 0, some rgbwString⟩]).1.prepData (fun _ => 0) ∧
    Access.setPixel 0 1 ⟨0, 0, 0⟩ ∈ (init [⟨"ws2801", 0, some rgbwString⟩]).1.prepData fun _ => 0 := by
  decide

/-! ## `GetRequiredChannelRanges` -/

/-- The `min`/`max` loop bounds every mapped channel below `maxChannels`. -/
theorem stringRange_bounds (maxChannels : Nat) {i : Nat} (hi : i < ps.mOutputChannels)
    (hc : ps.mOutputMap.getD i 0 < maxChannels) :
    (stringRange maxChannels ps).1 ≤ ps.mOutputMap.getD i 0 ∧
      ps.mOutputMap.getD i 0 ≤ (stringRange maxChannels ps).2 := by
  unfold stringRange
  generalize ps.mOutputChannels = n at hi
  suffices ∀ n r, ∀ i < n, ps.mOutputMap.getD i 0 < maxChannels →
      ((List.range n).foldl (fun r p => if ps.mOutputMap.getD p 0 < maxChannels then
          (min r.1 (ps.mOutputMap.getD p 0), max r.2 (ps.mOutputMap.getD p 0)) else r) r).1 ≤
        ps.mOutputMap.getD i 0 ∧
      ps.mOutputMap.getD i 0 ≤ ((List.range n).foldl (fun r p =>
          if ps.mOutputMap.getD p 0 < maxChannels then
          (min r.1 (ps.mOutputMap.getD p 0), max r.2 (ps.mOutputMap.getD p 0)) else r) r).2 from
    this n _ i hi hc
  intro n
  induction n with
  | zero => intro r i hi; omega
  | succ n ih =>
      intro r i hi hc
      rw [List.range_succ, List.foldl_append, List.foldl_cons, List.foldl_nil]
      rcases Nat.lt_or_ge i n with hin | hin
      · have := ih r i hin hc
        split
        · dsimp only; omega
        · omega
      · have hin : i = n := by omega
        subst hin
        rw [if_pos hc]
        dsimp only
        omega

end SpixelsOutput

open SpixelsOutput

/-- **Reported ranges cover the channels read.**  For any Spixels state, a
channel below `FPPD_MAX_CHANNELS` that `PrepData` reads for string `s` lies in
a range `GetRequiredChannelRanges` reports, when the string is whole pixels and
its computed range is not degenerate (`min < max`). -/
theorem requiredRanges_cover_reads (maxChannels : Nat) (o : SpixelsOutput)
    (channelData : Nat → UInt8) {s c : Nat} (hread : Access.channel s c ∈ o.prepData channelData)
    (hc : c < maxChannels)
    (hs : ∀ ps ∈ o.mStrings[s]?, ps.mOutputChannels % 3 = 0 ∧
      (stringRange maxChannels ps).1 < (stringRange maxChannels ps).2) :
    ∃ r ∈ getRequiredChannelRanges maxChannels o, r.1 ≤ c ∧ c ≤ r.2 := by
  obtain ⟨ps, hps, hmem⟩ := mem_prepData channelData hread
  obtain ⟨h3, hlt⟩ := hs ps hps
  obtain ⟨i, hi, rfl⟩ := (prepData_string_of_dvd s ps channelData h3).2 _ hmem
  refine ⟨stringRange maxChannels ps, List.mem_filterMap.mpr ⟨ps, ?_, by simp [hlt]⟩,
    stringRange_bounds ps maxChannels hi hc⟩
  exact List.getElem?_mem hps

theorem requiredRanges_cover_reads_rgb :
    Access.channel 0 1 ∈ (init [⟨"ws2801", 0, some ⟨3, [0, 1, 2], [id, id, id], rfl, rfl⟩⟩]).1.prepData
        (fun _ => 0) ∧ 1 < 512 ∧
      (∀ ps ∈ (init [⟨"ws2801", 0, some ⟨3, [0, 1, 2], [id, id, id], rfl, rfl⟩⟩]).1.mStrings[0]?,
        ps.mOutputChannels % 3 = 0 ∧ (stringRange 512 ps).1 < (stringRange 512 ps).2) ∧
      ∃ r ∈ getRequiredChannelRanges 512
          (init [⟨"ws2801", 0, some ⟨3, [0, 1, 2], [id, id, id], rfl, rfl⟩⟩]).1, r.1 ≤ 1 ∧ 1 ≤ r.2 :=
  have h1 : Access.channel 0 1 ∈ (init [⟨"ws2801", 0, some ⟨3, [0, 1, 2], [id, id, id], rfl, rfl⟩⟩]).1.prepData
      (fun _ => 0) := by decide
  have h3 : ∀ ps ∈ (init [⟨"ws2801", 0, some ⟨3, [0, 1, 2], [id, id, id], rfl, rfl⟩⟩]).1.mStrings[0]?,
      ps.mOutputChannels % 3 = 0 ∧ (stringRange 512 ps).1 < (stringRange 512 ps).2 := by
    intro ps hps
    simp only [init, initLoop] at hps
    cases hps
    decide
  ⟨h1, by decide, h3, requiredRanges_cover_reads 512 _ _ h1 (by decide) h3⟩

/-- A string of one RGB pixel whose three channels all take channel 5. -/
def singleChannelString : PixelString := ⟨3, [5, 5, 5], [id, id, id], rfl, rfl⟩

/-- **A single-channel string is read but not reported.**  With
`FPPD_MAX_CHANNELS` at 8388608 (any value above 5 gives the same), `Init`
keeps the string, `PrepData` reads channel 5 for it, and
`GetRequiredChannelRanges` reports no range at all, since its `min` and `max`
are both 5. -/
theorem requiredRanges_miss_single :
    ¬ ∀ s c, Access.channel s c ∈
        (init [⟨"ws2801", 0, some singleChannelString⟩]).1.prepData (fun _ => 0) →
      c < 8388608 →
      ∃ r ∈ getRequiredChannelRanges 8388608 (init [⟨"ws2801", 0, some singleChannelString⟩]).1,
        r.1 ≤ c ∧ c ≤ r.2 := by
  intro h
  obtain ⟨r, hr, -⟩ := h 0 5 (by decide) (by decide)
  have hnil : getRequiredChannelRanges 8388608
      (init [⟨"ws2801", 0, some singleChannelString⟩]).1 = [] := by decide
  rw [hnil] at hr
  cases hr

end ChannelOutput
