import ClipRender.Access
import ClipRender.Edit.ExportRequest
import ClipRender.Filter.Graph
import ClipRender.Filter.Reading
import ClipRender.Json.Reader
import ClipRender.Rendering.OutputName
import ClipRender.Source
import ClipRender.Timing.TimeRange
import ClipRender.World
import ClipRender.Timing.Alarm
import ClipRender.Files.Change
import ClipRender.Settings.Read
import ClipRender.Rendering.Handle
import ClipRender.Service.Session
import ClipRender.Proofs.Checks
import ClipRender.Proofs.Quoting
import ClipRender.Proofs.PlainText
import ClipRender.Proofs.ArgumentReading
import ClipRender.Proofs.ChainReading
import ClipRender.Proofs.Rendering.Stir
import ClipRender.Proofs.Rendering.Order
import ClipRender.Proofs.Rendering.Goes
import ClipRender.Proofs.Rendering.Course
import ClipRender.Proofs.Rendering.Ways
import ClipRender.Proofs.Rendering.Refusing
import ClipRender.Proofs.Rendering.Starting
import ClipRender.Proofs.Rendering.Handling
import ClipRender.Proofs.Rendering.Parting
import ClipRender.Proofs.Rendering.Reach
import ClipRender.Proofs.Rendering.Bookkeeping
import ClipRender.Proofs.Rendering.Cancelling
import ClipRender.Proofs.Rendering.EngineLife
import ClipRender.Proofs.Rendering.Answering
import ClipRender.Proofs.Rendering.Admitting
import ClipRender.Proofs.Rendering.Excluding
import ClipRender.Proofs.Files.Housing
import ClipRender.Proofs.Files.Resolving
import ClipRender.Proofs.Rendering.Accounting
import ClipRender.Proofs.Rendering.Placing
import ClipRender.Proofs.Rendering.Publishing
import ClipRender.Proofs.SourceContainment
import ClipRender.Proofs.Binary64.Ranks
import ClipRender.Proofs.Binary64.Values
import ClipRender.Proofs.WellFormed
import ClipRender.Proofs.EditData
import ClipRender.Filter.Formula
import ClipRender.Proofs.Binary64.Wholes
import ClipRender.Proofs.FormulaReading
import ClipRender.Proofs.CropAgreement
import ClipRender.Proofs.Files.Renaming
import ClipRender.Proofs.Rendering.Naming
import ClipRender.Proofs.Http.Downloading
import ClipRender.Proofs.Rendering.Fetching
import ClipRender.Proofs.Rendering.Keeping
import ClipRender.Proofs.Binary64.Overflow
import ClipRender.Proofs.Rendering.Commanding
import ClipRender.Proofs.Http.Guarding
import ClipRender.Proofs.Files.Finding
import ClipRender.Proofs.Files.Leading
import ClipRender.Proofs.SourceAnswers
import ClipRender.Proofs.Binary64.Rising
import ClipRender.Proofs.Files.Thinning
import ClipRender.Proofs.Sweeping
import ClipRender.Proofs.Rendering.Clockwork
import ClipRender.Proofs.Service.Passing
import ClipRender.Proofs.Service.Sparing
import ClipRender.Proofs.Binary64.Nearness
import ClipRender.Proofs.CropGeometry
import ClipRender.Timing.Reading
import ClipRender.Proofs.DecimalReading
import ClipRender.Proofs.TimestampReading
import ClipRender.Proofs.Trimming
import ClipRender.Engine.Arguments
import ClipRender.Proofs.Rendering.Excerpts
import ClipRender.Decimal.Numeral
import ClipRender.Proofs.Binary64.HalfEven
import ClipRender.Proofs.NumberReading
import ClipRender.Proofs.Binary64.Reciprocals
import ClipRender.Proofs.Pacing
import ClipRender.Proofs.Binary64.Sums
import ClipRender.Proofs.ArgumentRanges
import ClipRender.Proofs.RatioReading
import ClipRender.Proofs.SweepReport
import ClipRender.Proofs.Rendering.Offering
import ClipRender.Proofs.ValueReading
