import OpenADA.Library.CycleSearch
import OpenADA.Library.LayeredOrder
import OpenADA.Library.InsertionDict
import OpenADA.Library.PyFloat
import OpenADA.Library.Scan
import OpenADA.Library.SortedSet
import OpenADA.Library.PyDecimal
import OpenADA.Library.ExceptFold
import OpenADA.Library.Separated
import OpenADA.Library.BitReversal
import OpenADA.Library.PyText
import OpenADA.Library.CompletionSearch
import OpenADA.Library.Occurrence
import OpenADA.Plan.Facts
import OpenADA.Plan.Sources
import OpenADA.Plan.ReductionUnits
import OpenADA.Compiler.Conditions
import OpenADA.Runner.Schedule
import OpenADA.Runner.Lineage
import OpenADA.Runner.Rules
import OpenADA.Runner.BindingUnits
import OpenADA.Oracle.Compare
import OpenADA.Evidence.Coverage
import OpenADA.Spectral.Transform
import OpenADA.Pdk.Soundness
import OpenADA.Pdk.Gating
import OpenADA.Series.Provenance
import OpenADA.Experiment.FailClosed
import OpenADA.Series.Measure
import OpenADA.Receipt.Refusal
import OpenADA.Lvs.Verdict
import OpenADA.Series.Envelope
import OpenADA.Series.Template
import OpenADA.Cosim.SingleInstance
import OpenADA.Cosim.Parameters
import OpenADA.Osdi.Deck
import OpenADA.Osdi.Sandbox
import OpenADA.Pdk.Outside
import OpenADA.Sta.Reading
import OpenADA.Native.Returning
import OpenADA.Synth.PassSound
import OpenADA.Sta.VerdictSound
import OpenADA.Scalars.Agreement
import OpenADA.Drc.Compare
import OpenADA.Blocks.Compose
import OpenADA.Synth.Liberty
import OpenADA.Sta.InputScan
import OpenADA.Hdl.Complete
import OpenADA.Pdk.DiodeExact
import OpenADA.Pdk.ExactCards
import OpenADA.Pdk.Intent
import OpenADA.Pdk.Instances
import OpenADA.Pdk.Continuations
import OpenADA.Template.LimitIntervals
import OpenADA.Pdk.Retained
import OpenADA.Runner.FitSamples
import OpenADA.Compiler.PhaseOffset
import OpenADA.Runner.DcGrid
import OpenADA.Pdk.Binning
import OpenADA.Experiment.Scalars
import OpenADA.Experiment.Points
import OpenADA.Experiment.Nets
import OpenADA.Drc.Quoted
import OpenADA.Lvs.ReportSound
import OpenADA.Drc.LyrdbAccounting
import OpenADA.Series.Transition
import OpenADA.Runner.CrossingTimes
import OpenADA.Series.Settling
import OpenADA.Oscillator.TuningGain
import OpenADA.Oscillator.Detector
import OpenADA.Oscillator.Cycles
import OpenADA.Oscillator.Startup
import OpenADA.Runner.LinearFit
import OpenADA.Series.SlopeFit
import OpenADA.Transfer.Trace
import OpenADA.Runner.Integral
import OpenADA.Runner.Verdicts
import OpenADA.Runner.ConditionIds
import OpenADA.Runner.Completion
import OpenADA.Runner.Dependence
import OpenADA.Ngspice.Wrdata
import OpenADA.Ngspice.Isolation
import OpenADA.Ngspice.Measurements
import OpenADA.Ngspice.RawAscii
import OpenADA.Spectral.Partition
import OpenADA.Specification.Decision
import OpenADA.Compiler.NumberToken
import OpenADA.Compiler.StructuralDut
import OpenADA.Oracle.Withholding
import OpenADA.Spectral.BinRanges
