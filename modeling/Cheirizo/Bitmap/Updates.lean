import Cheirizo.Bitmap.Converter
import Cheirizo.Lib.Machine

/-!
# Updates that get lost

A frame that looks like the last one is answered by an empty update: nothing has to be sent. The
converter goes by a hash of the data, and records it before it tries to convert the frame. So a
frame that could not be converted looks unchanged when it comes again, and is never sent.

Whether a frame can be converted is a matter of its format, its stride and the regions that were
pending when it came. A frame whose hash is the recorded one by chance is taken for unchanged too,
as is the first one if its hash is zero.

## Main definitions

* `ConverterWatch` — the converter, with the frame that it recorded last and what came of it
* `LosesNothing` — an empty update is the answer to data that was just converted
* `RepeatsConverted` — the condition

## Main results

* `updates_kept_iff` — the runs in which no update is lost
-/

namespace Cheirizo

namespace Bitmap

open Pipewire

/-- The converter; the frame whose hash it keeps, with the regions that were pending when it came;
and the data of that frame, if it was converted. After a panic no frame is looked at. -/
structure ConverterWatch where
  converter : BitmapConverter
  recorded : Option (VideoFrame × List Rectangle)
  converted : Option (List UInt8)
  crashed : Bool

namespace ConverterWatch

/-- No frame was converted. -/
def start (width height : UInt16) : ConverterWatch := ⟨.new width height, none, none, false⟩

/-- The data of a frame that was converted. -/
def convertedData (frame : VideoFrame) : Except ConversionError BitmapUpdate → Option (List UInt8)
  | .ok _ => some frame.data
  | .error _ => none

/-- After a crash nothing happens any more. -/
def step (s : ConverterWatch) (frame : VideoFrame) : ConverterWatch :=
  if s.crashed then s
  else
    match s.converter.convertFrame frame with
    | none => { s with crashed := true }
    | some (result, converter) =>
      if frame.isValid ∧ calculateFrameHash frame.data ≠ s.converter.lastFrameHash then
        { s with
          converter
          recorded := some (frame, (s.converter.record frame).damageTracker.pending)
          converted := convertedData frame result }
      else { s with converter }

/-- An empty update is the answer only if the last frame that was new had the same data, and was
converted. -/
def LosesNothing (s : ConverterWatch) (frame : VideoFrame) : Prop :=
  s.crashed = false → ∀ converter,
    s.converter.convertFrame frame = some (.ok ⟨[]⟩, converter) → s.converted = some frame.data

/-- A valid frame with the recorded hash has the data of the frame that recorded it, and that frame
was convertible. -/
def RepeatsConverted (s : ConverterWatch) (frame : VideoFrame) : Prop :=
  s.crashed = false → frame.isValid = true →
    calculateFrameHash frame.data = s.converter.lastFrameHash →
      ∃ recorded regions, s.recorded = some (recorded, regions) ∧ recorded.data = frame.data ∧
        Convertible recorded regions

/-- What came of the frame that was recorded. -/
def Faithful (s : ConverterWatch) : Prop :=
  ∀ data, s.converted = some data ↔
    ∃ recorded regions, s.recorded = some (recorded, regions) ∧ recorded.data = data ∧
      Convertible recorded regions

variable {s : ConverterWatch} {frame : VideoFrame}

theorem faithful_start (width height : UInt16) : (start width height).Faithful := by
  intro data
  refine iff_of_false (fun h => by cases h) ?_
  rintro ⟨recorded, regions, h, -⟩
  cases h

/-- An empty update says that a frame is unchanged, and nothing else. -/
theorem losesNothing_iff (h : s.Faithful) : s.LosesNothing frame ↔ s.RepeatsConverted frame := by
  constructor
  · intro hloses hcrashed hvalid hhash
    exact (h frame.data).mp
      (hloses hcrashed _ (BitmapConverter.convertFrame_unchanged hvalid hhash))
  · intro hrepeats hcrashed converter hempty
    cases hvalid : frame.isValid with
    | false =>
      rw [BitmapConverter.convertFrame_invalid _ hvalid] at hempty
      cases hempty
    | true =>
      by_cases hhash : calculateFrameHash frame.data = s.converter.lastFrameHash
      · exact (h frame.data).mpr (hrepeats hcrashed hvalid hhash)
      · obtain ⟨-, outputBuffer, -, -, hresult, -⟩ | ⟨-, ⟨error, hresult⟩, -⟩ :=
          BitmapConverter.convertFrame_new hvalid hhash hempty
        · have hnil := congrArg BitmapUpdate.rectangles (Except.ok.inj hresult)
          exact absurd (List.map_eq_nil_iff.mp hnil.symm)
            (DamageTracker.pending_addFrame _ _).ne_nil
        · cases hresult

theorem Faithful.step (h : s.Faithful) : (s.step frame).Faithful := by
  rw [ConverterWatch.step]
  split
  · exact h
  · cases hconvert : s.converter.convertFrame frame with
    | none => exact h
    | some answer =>
      obtain ⟨result, converter⟩ := answer
      dsimp only
      split
      · rename_i hnew
        intro data
        have hrecorded : (∃ recorded regions,
            some (frame, (s.converter.record frame).damageTracker.pending) =
              some (recorded, regions) ∧ recorded.data = data ∧ Convertible recorded regions) ↔
            frame.data = data ∧
              Convertible frame (s.converter.record frame).damageTracker.pending := by
          constructor
          · rintro ⟨recorded, regions, heq, hdata, hconvertible⟩
            cases heq
            exact ⟨hdata, hconvertible⟩
          · rintro ⟨hdata, hconvertible⟩
            exact ⟨_, _, rfl, hdata, hconvertible⟩
        refine Iff.trans ?_ hrecorded.symm
        obtain ⟨hconvertible, outputBuffer, -, -, rfl, -⟩ | ⟨hnot, ⟨error, rfl⟩, -⟩ :=
          BitmapConverter.convertFrame_new hnew.1 hnew.2 hconvert
        · exact Option.some_inj.trans (and_iff_left hconvertible).symm
        · exact iff_of_false (fun h => by cases h) fun h => hnot h.2
      · exact h

end ConverterWatch

/-- The converter, watched, as a machine that is given frames. -/
def converterMachine : Machine ConverterWatch VideoFrame Unit where
  step s frame := (s.step frame, [])

/-- **No update is lost** in a run exactly if every valid frame with the recorded hash repeats the
data of the frame that recorded it, and that one could be converted. -/
theorem updates_kept_iff (width height : UInt16) (frames : List VideoFrame) :
    converterMachine.Along ConverterWatch.LosesNothing (.start width height) frames ↔
      converterMachine.Along ConverterWatch.RepeatsConverted (.start width height) frames :=
  Machine.along_congr_of_invariant (I := ConverterWatch.Faithful) (B := fun _ _ => True)
    (fun _ _ h _ => ConverterWatch.losesNothing_iff h) (fun _ _ h _ _ => h.step)
    (ConverterWatch.faithful_start width height) Machine.along_true

/-- A pixel in a format that is not converted. -/
def rgbaPixel : VideoFrame := ⟨1, 1, 4, .rgba, [255, 0, 0, 255], [], 0⟩

/-- When it comes again, it is taken for unchanged. -/
theorem failed_pixel_unchanged :
    ¬ converterMachine.Along ConverterWatch.LosesNothing (.start 1 1) [rgbaPixel, rgbaPixel] := by
  rintro ⟨-, hrepeated, -⟩
  have hconverted := hrepeated (by decide +kernel) _
    (BitmapConverter.convertFrame_unchanged (by decide +kernel) (by decide +kernel))
  revert hconverted
  decide +kernel

end Bitmap

end Cheirizo
