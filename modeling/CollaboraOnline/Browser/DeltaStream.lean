import CollaboraOnline.Browser.CanvasTileUtils

/-!
# From the kit's bitmaps to the client's image

The stream of a tile is a keyframe and the deltas between successive bitmaps.  Decoding it gives the last bitmap
(`decodeKeyframeTile_stream`): each delta is the encoding of a program from one bitmap to the next
(`makeDelta_program`), and the client's loop runs these programs one after the other.
-/

namespace CollaboraOnline

open Blit CanvasTileUtils

variable {width height : Nat}

/-- The deltas that `makeDelta` gives for a sequence of bitmaps. -/
def makeDeltas (simd : Simd) (mode : TileMode) :
    Subbuffer width height → List (Subbuffer width height) → Option (List (List UInt8))
  | _, [] => some []
  | prev, cur :: rest => do
    let delta ← makeDelta simd mode (DeltaData.ofPixmap simd prev) (DeltaData.ofPixmap simd cur)
    let deltas ← makeDeltas simd mode cur rest
    some (delta :: deltas)

theorem createDeltaAccepts_le (h : createDeltaAccepts width height = true) : width ≤ 256 ∧ height ≤ 256 := by
  simp [createDeltaAccepts] at h
  exact h.2

/-- The client's loop over the deltas of a sequence of bitmaps. -/
theorem updateChunks_makeDeltas (simd : Simd) (mode : TileMode) (hw : width ≤ 256) (hh : height ≤ 256)
    (fuel : Nat) (prev : Subbuffer width height) (rest : List (Subbuffer width height)) (before : List UInt8) :
    ∃ deltas, makeDeltas simd mode prev rest = some deltas ∧
      (deltas.flatten.length < fuel →
        updateChunks (before ++ deltas.flatten) width fuel before.length (prev.pixels.flatMap mode.clientBytes) =
          some ((rest.getLastD prev).pixels.flatMap mode.clientBytes, (before ++ deltas.flatten).length)) := by
  induction rest generalizing fuel prev before with
  | nil =>
    refine ⟨[], rfl, ?_⟩
    intro hfuel
    obtain ⟨fuel, rfl⟩ := Nat.exists_eq_add_one_of_ne_zero (Nat.ne_of_gt (Nat.zero_lt_of_lt hfuel))
    simp [updateChunks]
  | cons cur rest ih =>
    obtain ⟨ops, hmake, hin, hrun⟩ := makeDelta_program simd mode hw hh prev cur
    by_cases hops : ops = []
    · -- an unchanged bitmap adds nothing to the stream
      obtain ⟨deltas, hdeltas, hupdate⟩ := ih fuel cur before
      subst hops
      rw [runProgram_nil] at hrun
      refine ⟨[] :: deltas, by simp [makeDeltas, hmake, hdeltas], ?_⟩
      rw [List.flatten_cons, List.nil_append, hrun, List.getLastD_cons]
      exact hupdate
    · obtain ⟨delta, hdelta⟩ : ∃ delta, delta = ops.flatMap (DeltaOp.encode mode) ++ [116] := ⟨_, rfl⟩
      obtain ⟨deltas, hdeltas, hupdate⟩ := ih (fuel - 1) cur (before ++ delta)
      rw [if_neg hops, ← hdelta] at hmake
      refine ⟨delta :: deltas, by simp [makeDeltas, hmake, hdeltas], ?_⟩
      intro hfuel
      obtain ⟨fuel, rfl⟩ := Nat.exists_eq_add_one_of_ne_zero (Nat.ne_of_gt (Nat.zero_lt_of_lt hfuel))
      have hpos : 0 < delta.length := by simp [hdelta]
      rw [List.flatten_cons, List.length_append] at hfuel
      have hchunk := applyDeltaChunk_eq mode deltas.flatten hin prev.length_pixels
      rw [← hdelta, hrun] at hchunk
      have hlt : before.length < (before ++ (delta :: deltas).flatten).length := by
        simp only [List.flatten_cons, List.length_append]
        omega
      have hdrop : (before ++ (delta :: deltas).flatten).drop before.length = delta ++ deltas.flatten := by
        rw [List.drop_left, List.flatten_cons]
      simp only [updateChunks, hlt, ↓reduceIte, hdrop, hchunk, Option.bind_eq_bind, Option.bind_some]
      have hnext := hupdate (by omega)
      simp only [Nat.add_sub_cancel, List.length_append, List.append_assoc] at hnext
      rw [List.flatten_cons, List.getLastD_cons, ← List.append_assoc]
      simp only [List.append_assoc, List.length_append]
      exact hnext

/-- The client's decoder on a keyframe and the deltas after it: the image of the last bitmap, with red and blue
exchanged in BGRA mode, and the end of the stream.  Unchanged bitmaps have empty deltas. -/
theorem decodeKeyframeTile_stream (simd : Simd) (mode : TileMode) (haccept : createDeltaAccepts width height = true)
    (first : Subbuffer width height) (rest : List (Subbuffer width height)) :
    ∃ deltas, makeDeltas simd mode first rest = some deltas ∧
      (∀ prev cur : Subbuffer width height, prev.pixels = cur.pixels →
        makeDelta simd mode (DeltaData.ofPixmap simd prev) (DeltaData.ofPixmap simd cur) = some []) ∧
      decodeKeyframeTile ((DeltaData.ofPixmap simd first).packKeyframe simd mode ++ deltas.flatten) width height =
        some ((rest.getLastD first).pixels.flatMap fun pix => (mode.convert pix).bytes,
          ((DeltaData.ofPixmap simd first).packKeyframe simd mode ++ deltas.flatten).length) := by
  obtain ⟨hw, hh⟩ := createDeltaAccepts_le haccept
  obtain ⟨packed, hpacked⟩ : ∃ packed, (DeltaData.ofPixmap simd first).packKeyframe simd mode = packed := ⟨_, rfl⟩
  have hex := fun fuel => updateChunks_makeDeltas simd mode hw hh fuel first rest packed
  obtain ⟨deltas, hdeltas, -⟩ := hex 0
  refine ⟨deltas, hdeltas, fun prev cur h => makeDelta_self simd mode hw h, ?_⟩
  obtain ⟨deltas', hdeltas', hupdate⟩ := hex ((packed ++ deltas.flatten).length + 1)
  obtain rfl : deltas = deltas' := Option.some.inj (hdeltas.symm.trans hdeltas')
  have hunrle := unrle_packKeyframe simd mode first hw deltas.flatten (List.replicate (width * height * 4) 0)
    (by simp [Nat.mul_comm])
  rw [hpacked] at hunrle ⊢
  simp only [decodeKeyframeTile, hunrle, Option.bind_eq_bind, Option.bind_some, updateImageFromDeltas]
  exact hupdate (by simp only [List.length_append]; omega)

/-- A red 2 by 2 bitmap and one with a green pixel, in a buffer of three columns. -/
def redTile : Subbuffer 2 2 :=
  ⟨List.replicate 6 ⟨255, 0, 0, 255⟩, 1, 0, 3, 2, by decide, by decide, by decide⟩

def greenDotTile : Subbuffer 2 2 :=
  ⟨List.replicate 4 ⟨255, 0, 0, 255⟩ ++ [⟨0, 255, 0, 255⟩, ⟨255, 0, 0, 255⟩], 1, 0, 3, 2, by decide, by decide,
    by decide⟩

theorem decodeKeyframeTile_greenDot :
    ∃ deltas, makeDeltas ⟨false, false⟩ .bgra redTile [greenDotTile, greenDotTile] = some deltas ∧
      (∀ prev cur : Subbuffer 2 2, prev.pixels = cur.pixels →
        makeDelta ⟨false, false⟩ .bgra (DeltaData.ofPixmap ⟨false, false⟩ prev)
          (DeltaData.ofPixmap ⟨false, false⟩ cur) =
          some []) ∧
      decodeKeyframeTile ((DeltaData.ofPixmap ⟨false, false⟩ redTile).packKeyframe ⟨false, false⟩ .bgra ++
          deltas.flatten) 2 2 =
        some (([greenDotTile, greenDotTile].getLastD redTile).pixels.flatMap fun pix =>
            (TileMode.bgra.convert pix).bytes,
          ((DeltaData.ofPixmap ⟨false, false⟩ redTile).packKeyframe ⟨false, false⟩ .bgra ++ deltas.flatten).length) :=
  decodeKeyframeTile_stream ⟨false, false⟩ .bgra (by decide) redTile [greenDotTile, greenDotTile]

end CollaboraOnline
