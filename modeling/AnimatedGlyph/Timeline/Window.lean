/-
Frame windows and schedules.

A window is the run of frames from its start up to, and not including, its stop.
Every line of a text owns the whole timeline, and its words divide it.  Boundaries
are whole frames, with the remainder spread over the line, so that neighbouring
windows meet and the last one ends with the timeline.  A line with more words than
frames cannot be divided; each of its words then shows for one frame from its
proportional start.
-/
import AnimatedGlyph.Json.Record

namespace AnimatedGlyph

/-- The frames from `start` up to, and not including, `stop`. -/
structure FrameWindow where
  /-- The first frame. -/
  start : UInt32
  /-- The frame after the last. -/
  stop : UInt32
  deriving DecidableEq

namespace FrameWindow

/-- The whole timeline. -/
def full (total : UInt32) : FrameWindow :=
  ⟨0, total⟩

/-- The number of frames, none if the window is inverted. -/
def duration (window : FrameWindow) : UInt32 :=
  if window.start ≤ window.stop then window.stop - window.start else 0

/-- The window as a record. -/
def toJson (window : FrameWindow) : Json :=
  .object [("start", .ofUInt32 window.start), ("end", .ofUInt32 window.stop)]

def reader : Json.RecordReader FrameWindow :=
  mk <$> Json.required "start" Json.decodeUInt32 <*> Json.required "end" Json.decodeUInt32

/-- A window from its record. -/
def decode : Json.Decoder FrameWindow :=
  reader.decode

end FrameWindow

/-- The frame at which word `i` of `words` starts, as a natural number. -/
def wordStart (words total i : Nat) : Nat :=
  i * total / words

/-- The frame before which word `i` of `words` stops: where the next word starts,
but at least one frame after its own start, and never after the timeline. -/
def wordStop (words total i : Nat) : Nat :=
  min (max ((i + 1) * total / words) (wordStart words total i + 1)) total

/-- The windows of a line with so many words. -/
def schedule (words : Nat) (total : UInt32) : List FrameWindow :=
  (List.range words).map fun i =>
    ⟨UInt32.ofNat (wordStart words total.toNat i), UInt32.ofNat (wordStop words total.toNat i)⟩

end AnimatedGlyph
