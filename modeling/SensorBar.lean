import SensorBar.Main
import SensorBar.Proofs.Exact
import SensorBar.Proofs.Rotation
import SensorBar.Proofs.RigidRotation
import SensorBar.Proofs.TrackerRun
import SensorBar.Proofs.TrackerHistory
import SensorBar.Proofs.Pairs
import SensorBar.Proofs.SearchReference
import SensorBar.Proofs.BarFrames
import SensorBar.Proofs.ApparentBar
import SensorBar.Proofs.LoneDot
import SensorBar.Proofs.FirstLeast
import SensorBar.Proofs.RecoveryChoice
import SensorBar.Proofs.Resynchronisation
import SensorBar.Proofs.SlotOrder
import SensorBar.Proofs.RollCompensation
import SensorBar.Proofs.FilterRun
import SensorBar.Proofs.FilterCascade
import SensorBar.Proofs.DropoutRun
import SensorBar.Proofs.DropoutBudget
import SensorBar.Proofs.GlitchRun
import SensorBar.Proofs.GlitchWait
import SensorBar.Proofs.ReplayValidity
import SensorBar.Proofs.RadiusSmoothing
import SensorBar.Proofs.RadiusLag
import SensorBar.Proofs.Double.Fields
import SensorBar.Proofs.Double.Rounding
import SensorBar.Proofs.Double.Operations
import SensorBar.Proofs.Double.Arithmetic
import SensorBar.Proofs.FilterStages
import SensorBar.Proofs.JumpEvidence
import SensorBar.Proofs.FilterConfinement
import SensorBar.Proofs.NumericTranslation
import SensorBar.Proofs.NumericRadius
import SensorBar.Proofs.AdaptiveBounds
import SensorBar.Proofs.NumericPointer
import SensorBar.Proofs.PointerReach
import SensorBar.Proofs.TraceReading
import SensorBar.Proofs.UnbrokenReplay
import SensorBar.Proofs.ReportText
import SensorBar.Proofs.ReplayOutcome
import SensorBar.Proofs.AdaptiveRun
import SensorBar.Proofs.FilterClock
import SensorBar.Proofs.ReplayClock
import SensorBar.Proofs.LocatedSearch
import SensorBar.Proofs.BarSelection
import SensorBar.Proofs.SearchMonotone
import SensorBar.Proofs.Translation
import SensorBar.Proofs.Words
import SensorBar.Proofs.Numerals
import SensorBar.Proofs.LineGrammar
import SensorBar.Proofs.LineReading
import SensorBar.Proofs.Double.Decimals
import SensorBar.Proofs.BoundedReport
import SensorBar.Proofs.Double.Decoded
import SensorBar.Proofs.FixedPlaces
import SensorBar.Proofs.ReportReading
import SensorBar.Proofs.RollHolding
import SensorBar.Proofs.Settings.Trees
import SensorBar.Proofs.Settings.Kinds
import SensorBar.Proofs.Settings.Records
import SensorBar.Proofs.Settings.Fields
import SensorBar.Proofs.Settings.Reordering
import SensorBar.Proofs.Settings.LoneHeader
import SensorBar.Proofs.Settings.Ranges
import SensorBar.Proofs.Settings.Overriding
