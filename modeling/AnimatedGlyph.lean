import AnimatedGlyph.Bytes.Text
import AnimatedGlyph.Bytes.WordOrder
import AnimatedGlyph.Caption.Letterform
import AnimatedGlyph.Caption.Typeset
import AnimatedGlyph.Colour.Palette
import AnimatedGlyph.Command.Arguments
import AnimatedGlyph.Command.Invocation
import AnimatedGlyph.Command.Run
import AnimatedGlyph.Digest.Sha256
import AnimatedGlyph.Document.Basic
import AnimatedGlyph.Document.Layer
import AnimatedGlyph.Document.Wire
import AnimatedGlyph.Engine
import AnimatedGlyph.Files.Directory
import AnimatedGlyph.Files.View
import AnimatedGlyph.Glyph.Builtin
import AnimatedGlyph.Glyph.Code
import AnimatedGlyph.Glyph.Dictionary
import AnimatedGlyph.Glyph.Table
import AnimatedGlyph.Glyph.Version
import AnimatedGlyph.Grid.Canvas
import AnimatedGlyph.Grid.Node
import AnimatedGlyph.Grid.Projection
import AnimatedGlyph.Json.Canonical
import AnimatedGlyph.Json.Decoder
import AnimatedGlyph.Json.Draft
import AnimatedGlyph.Json.Numeral
import AnimatedGlyph.Json.Reader
import AnimatedGlyph.Json.Record
import AnimatedGlyph.Json.StringReader
import AnimatedGlyph.Json.Text
import AnimatedGlyph.Json.Value
import AnimatedGlyph.Lottie.Animation
import AnimatedGlyph.Lottie.Property
import AnimatedGlyph.Lottie.Shape
import AnimatedGlyph.Lottie.ShapeReader
import AnimatedGlyph.Main
import AnimatedGlyph.Number.DecimalText
import AnimatedGlyph.Number.Rounding
import AnimatedGlyph.Number.Shortest
import AnimatedGlyph.Payload.BitSource
import AnimatedGlyph.Payload.Gzip
import AnimatedGlyph.Payload.Inflate
import AnimatedGlyph.Payload.PrefixCode
import AnimatedGlyph.Proofs.Abbreviation
import AnimatedGlyph.Proofs.Accepting
import AnimatedGlyph.Proofs.Accounting
import AnimatedGlyph.Proofs.AnimationText
import AnimatedGlyph.Proofs.ByteOrder
import AnimatedGlyph.Proofs.CacheKey
import AnimatedGlyph.Proofs.CallSequences
import AnimatedGlyph.Proofs.CanvasRange
import AnimatedGlyph.Proofs.CaptionCursor
import AnimatedGlyph.Proofs.CodeGrammar
import AnimatedGlyph.Proofs.CodeText
import AnimatedGlyph.Proofs.CommandLine
import AnimatedGlyph.Proofs.CompactText
import AnimatedGlyph.Proofs.Conversion
import AnimatedGlyph.Proofs.Coordinates
import AnimatedGlyph.Proofs.Cutting
import AnimatedGlyph.Proofs.DecimalParts
import AnimatedGlyph.Proofs.Draws
import AnimatedGlyph.Proofs.EdgeChains
import AnimatedGlyph.Proofs.Edits
import AnimatedGlyph.Proofs.EffectFrames
import AnimatedGlyph.Proofs.EngineGate
import AnimatedGlyph.Proofs.EntryOrder
import AnimatedGlyph.Proofs.EntryPoints
import AnimatedGlyph.Proofs.FiniteFloats
import AnimatedGlyph.Proofs.FixedOrder
import AnimatedGlyph.Proofs.FloatValues
import AnimatedGlyph.Proofs.GivenOptions
import AnimatedGlyph.Proofs.Hundredths
import AnimatedGlyph.Proofs.Jitter
import AnimatedGlyph.Proofs.JsonText
import AnimatedGlyph.Proofs.LayerStack
import AnimatedGlyph.Proofs.LayoutHistory
import AnimatedGlyph.Proofs.Lookup
import AnimatedGlyph.Proofs.MemberOrder
import AnimatedGlyph.Proofs.Merging
import AnimatedGlyph.Proofs.Nesting
import AnimatedGlyph.Proofs.NodeWalk
import AnimatedGlyph.Proofs.NormalForm
import AnimatedGlyph.Proofs.NumberText
import AnimatedGlyph.Proofs.Numerals
import AnimatedGlyph.Proofs.Opacity
import AnimatedGlyph.Proofs.Options
import AnimatedGlyph.Proofs.OutsideStrings
import AnimatedGlyph.Proofs.Overflow
import AnimatedGlyph.Proofs.Packing
import AnimatedGlyph.Proofs.Playing
import AnimatedGlyph.Proofs.PrettyText
import AnimatedGlyph.Proofs.Printing
import AnimatedGlyph.Proofs.Restoring
import AnimatedGlyph.Proofs.Revisits
import AnimatedGlyph.Proofs.RoundTrip
import AnimatedGlyph.Proofs.RoundingError
import AnimatedGlyph.Proofs.Schedule
import AnimatedGlyph.Proofs.Shares
import AnimatedGlyph.Proofs.ShortestDecimal
import AnimatedGlyph.Proofs.SignedZeros
import AnimatedGlyph.Proofs.SourceLines
import AnimatedGlyph.Proofs.Spans
import AnimatedGlyph.Proofs.Stretches
import AnimatedGlyph.Proofs.StringText
import AnimatedGlyph.Proofs.SurroundingBlanks
import AnimatedGlyph.Proofs.TableHistory
import AnimatedGlyph.Proofs.Trimming
import AnimatedGlyph.Proofs.TypedNames
import AnimatedGlyph.Proofs.VanishingTangents
import AnimatedGlyph.Proofs.VersionText
import AnimatedGlyph.Proofs.WellFormed
import AnimatedGlyph.Proofs.WordPlace
import AnimatedGlyph.Proofs.Wording
import AnimatedGlyph.Proofs.WrittenFiles
import AnimatedGlyph.Random.ChaCha
import AnimatedGlyph.Random.Source
import AnimatedGlyph.Report.Basic
import AnimatedGlyph.Report.Finding
import AnimatedGlyph.Sticker.Compile
import AnimatedGlyph.Sticker.Manifest
import AnimatedGlyph.Sticker.Payload
import AnimatedGlyph.Sticker.Request
import AnimatedGlyph.Sticker.Session
import AnimatedGlyph.Sticker.Settings
import AnimatedGlyph.Sticker.Stamp
import AnimatedGlyph.Stroke.Edge
import AnimatedGlyph.Stroke.Path
import AnimatedGlyph.Text.Blank
import AnimatedGlyph.Text.CaseTables
import AnimatedGlyph.Text.Lowercase
import AnimatedGlyph.Text.Pieces
import AnimatedGlyph.Text.Quoted
import AnimatedGlyph.Timeline.Checked
import AnimatedGlyph.Timeline.Window
