import BeamOptics.Accelerator.Basic
import BeamOptics.Accelerator.Cache
import BeamOptics.Accelerator.Channels
import BeamOptics.Action
import BeamOptics.Beam.Bunch
import BeamOptics.Beam.Stack
import BeamOptics.ClosedOrbit.Newton
import BeamOptics.ClosedOrbit.Rms
import BeamOptics.ClosedOrbit.Search
import BeamOptics.ClosedOrbit.Setting
import BeamOptics.Datum
import BeamOptics.Decimal.Binary
import BeamOptics.Decimal.Double
import BeamOptics.Decimal.Format
import BeamOptics.Decimal.Numeral
import BeamOptics.Document.Cursor
import BeamOptics.Document.Node
import BeamOptics.Document.PlainScalar
import BeamOptics.Document.Reading
import BeamOptics.Document.ScalarText
import BeamOptics.Document.Token
import BeamOptics.Fault
import BeamOptics.Form
import BeamOptics.Lattice.Bounds
import BeamOptics.Lattice.Channel
import BeamOptics.Lattice.Description
import BeamOptics.Lattice.Element
import BeamOptics.Lattice.Map
import BeamOptics.Lattice.Model
import BeamOptics.Lattice.Range
import BeamOptics.Lattice.Signals
import BeamOptics.Lattice.Source
import BeamOptics.LinearAlgebra.Arrays
import BeamOptics.LinearAlgebra.Jacobi
import BeamOptics.LinearAlgebra.Matrix
import BeamOptics.LinearAlgebra.PseudoInverse
import BeamOptics.Nested
import BeamOptics.Pattern.Matching
import BeamOptics.Pattern.Node
import BeamOptics.Pattern.Reading
import BeamOptics.PhaseVector
import BeamOptics.Proofs.Accelerator.Frame
import BeamOptics.Proofs.Accelerator.Initialise
import BeamOptics.Proofs.Accelerator.Legs
import BeamOptics.Proofs.Accelerator.Standing
import BeamOptics.Proofs.Accelerator.TrackState
import BeamOptics.Proofs.Action
import BeamOptics.Proofs.Beam.Particles
import BeamOptics.Proofs.ClosedOrbit.AffineSearch
import BeamOptics.Proofs.ClosedOrbit.Course
import BeamOptics.Proofs.ClosedOrbit.Endings
import BeamOptics.Proofs.ClosedOrbit.Excursion
import BeamOptics.Proofs.ClosedOrbit.Frame
import BeamOptics.Proofs.ClosedOrbit.Newton
import BeamOptics.Proofs.ClosedOrbit.PathLength
import BeamOptics.Proofs.ClosedOrbit.Restart
import BeamOptics.Proofs.ClosedOrbit.Result
import BeamOptics.Proofs.ClosedOrbit.Setting
import BeamOptics.Proofs.ClosedOrbit.Site
import BeamOptics.Proofs.Exact.Corrector
import BeamOptics.Proofs.Exact.EnergyLoss
import BeamOptics.Proofs.Exact.Flow
import BeamOptics.Proofs.Exact.IntegrationSteps
import BeamOptics.Proofs.Exact.LeastSquares
import BeamOptics.Proofs.Exact.PathLength
import BeamOptics.Proofs.Exact.PseudoInverse
import BeamOptics.Proofs.Exact.Radiation
import BeamOptics.Proofs.Exact.Real
import BeamOptics.Proofs.Exact.Rereferencing
import BeamOptics.Proofs.Exact.Settings
import BeamOptics.Proofs.Exact.Slicing
import BeamOptics.Proofs.Exact.Symplectic
import BeamOptics.Proofs.Exact.Turn
import BeamOptics.Proofs.Exact.Vector
import BeamOptics.Proofs.Lattice.Bounds
import BeamOptics.Proofs.Lattice.Channels
import BeamOptics.Proofs.Lattice.Distinct
import BeamOptics.Proofs.Lattice.Growth
import BeamOptics.Proofs.Lattice.Part
import BeamOptics.Proofs.Lattice.Readings
import BeamOptics.Proofs.Lattice.Sources
import BeamOptics.Proofs.Machine.Basic
import BeamOptics.Proofs.Machine.Failure
import BeamOptics.Proofs.Machine.Invariant
import BeamOptics.Proofs.Machine.Momentum
import BeamOptics.Proofs.Machine.Outings
import BeamOptics.Proofs.Machine.Readings
import BeamOptics.Proofs.Machine.Segments
import BeamOptics.Proofs.Machine.Steering
import BeamOptics.Proofs.Machine.Sweep
import BeamOptics.Proofs.Machine.Tracking
import BeamOptics.Proofs.Pattern.Matching
import BeamOptics.Proofs.Scalar.Digits
import BeamOptics.Proofs.Scalar.Finiteness
import BeamOptics.Proofs.Scalar.Order
import BeamOptics.Proofs.Scalar.Quotients
import BeamOptics.Proofs.Scalar.Sums
import BeamOptics.Proofs.Scalar.Wholes
import BeamOptics.Proofs.Session.Basic
import BeamOptics.Proofs.Session.Bunches
import BeamOptics.Proofs.Session.Lines
import BeamOptics.Proofs.Session.Orbit
import BeamOptics.Proofs.Session.Processes
import BeamOptics.Proofs.Session.Settings
import BeamOptics.Proofs.Session.Stepping
import BeamOptics.Proofs.Settings.Dictionary
import BeamOptics.Proofs.Settings.Document
import BeamOptics.Proofs.Settings.Form
import BeamOptics.Proofs.Tracking.Attachments
import BeamOptics.Proofs.Tracking.Blocks
import BeamOptics.Proofs.Tracking.Cursor
import BeamOptics.Proofs.Tracking.Faults
import BeamOptics.Proofs.Tracking.FiniteGuard
import BeamOptics.Proofs.Tracking.Frame
import BeamOptics.Proofs.Tracking.Journeys
import BeamOptics.Proofs.Tracking.Maintains
import BeamOptics.Proofs.Tracking.Monitoring
import BeamOptics.Proofs.Tracking.Outings
import BeamOptics.Proofs.Tracking.Particlewise
import BeamOptics.Proofs.Tracking.ProcessOrder
import BeamOptics.Proofs.Tracking.Spreading
import BeamOptics.Proofs.Tracking.StepCounts
import BeamOptics.Proofs.Tracking.Stepping
import BeamOptics.Proofs.Tracking.Tables
import BeamOptics.Proofs.Tracking.Transport
import BeamOptics.Scalar
import BeamOptics.Segment
import BeamOptics.Session.Accelerator
import BeamOptics.Session.Basic
import BeamOptics.Session.Beam
import BeamOptics.Session.Lattice
import BeamOptics.Session.Orbit
import BeamOptics.Session.Tracking
import BeamOptics.Settings.Beam
import BeamOptics.Settings.Document
import BeamOptics.Settings.LogLevel
import BeamOptics.Settings.Orbit
import BeamOptics.Settings.Segment
import BeamOptics.Settings.Tracker
import BeamOptics.Table
import BeamOptics.Text.Case
import BeamOptics.Text.Printable
import BeamOptics.Text.Quoted
import BeamOptics.Text.Range
import BeamOptics.Text.Word
import BeamOptics.Tracking.BeamProcess
import BeamOptics.Tracking.Pass
import BeamOptics.Tracking.Plant
import BeamOptics.Tracking.Record
import BeamOptics.Tracking.Stepper
import BeamOptics.Tracking.Tracker
