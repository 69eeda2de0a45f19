import Z80.Case.Check
import Z80.Case.Files
import Z80.Case.Generate
import Z80.Case.Sampling
import Z80.Case.Selection
import Z80.Clock.Json
import Z80.FlagTables
import Z80.Files.Tree
import Z80.Main
import Z80.Proofs.Encoding
import Z80.Proofs.ControlFlow
import Z80.Proofs.WriteFrame
import Z80.Proofs.Faults
import Z80.Proofs.IndexSubstitution
import Z80.Proofs.DisplacedCell
import Z80.Proofs.ExactArithmetic
import Z80.Proofs.ReadLocality
import Z80.Proofs.GeneratedCases
import Z80.Proofs.Runs
import Z80.Proofs.SaveStates
import Z80.Proofs.Scheduling
import Z80.Proofs.FlagPreservation
import Z80.Proofs.StepLocality
import Z80.Proofs.IndexSymmetry
import Z80.Proofs.PrefixChains
import Z80.Proofs.BlockCopy
import Z80.Proofs.BlockSearch
import Z80.Proofs.BlockPorts
import Z80.Proofs.Checked.Step
import Z80.Proofs.ExactSteps
import Z80.Proofs.ExactWords
import Z80.Proofs.CarryChains
import Z80.Proofs.DecimalChains
import Z80.Proofs.StackDiscipline
import Z80.Proofs.Timing
import Z80.Proofs.ShiftChains
import Z80.Proofs.DigitStrings
import Z80.Proofs.Latches
import Z80.Proofs.RegisterViews
import Z80.Proofs.ImageLoading
import Z80.Proofs.StopConditions
import Z80.Proofs.HexNumerals
import Z80.Proofs.Discrepancies
import Z80.Proofs.CaseRecords
import Z80.Proofs.StateTransfer
import Z80.Proofs.HlIndependence
import Z80.Proofs.AddressTexts
import Z80.Proofs.ProgramRuns
