import MiniLisp.Folder
import MiniLisp.Machine.Lemmas
import MiniLisp.Main
import MiniLisp.Store.Lemmas
import MiniLisp.Proofs.Reading.Scanning
import MiniLisp.Proofs.Reading.Spelling
import MiniLisp.Proofs.Reading.RoundTrip
import MiniLisp.Proofs.Evaluation.Forms
import MiniLisp.Proofs.Evaluation.Moves
import MiniLisp.Proofs.Scope.FrameEffects
import MiniLisp.Proofs.Simulation.Correspondence
import MiniLisp.Proofs.Simulation.Rules
import MiniLisp.Proofs.Simulation.Congruence
import MiniLisp.Proofs.Simulation.Session
import MiniLisp.Proofs.Scope.Lookup
import MiniLisp.Proofs.Simulation.Matching
import MiniLisp.Proofs.Simulation.PrivateFrames
import MiniLisp.Proofs.Desugaring.Rewriting
import MiniLisp.Proofs.Simulation.Programs
import MiniLisp.Proofs.Desugaring.Unobservable
import MiniLisp.Proofs.Renaming.Names
import MiniLisp.Proofs.Scope.Places
import MiniLisp.Proofs.Renaming.Shapes
import MiniLisp.Proofs.Renaming.Sides
import MiniLisp.Proofs.Renaming.AlphaConversion
import MiniLisp.Proofs.Reading.Grammar
import MiniLisp.Proofs.Reading.Verdict
import MiniLisp.Proofs.Reading.Descent
import MiniLisp.Proofs.Scope.SoundRuns
import MiniLisp.Proofs.Scope.Persistence
import MiniLisp.Proofs.Sessions.Steps
import MiniLisp.Proofs.Sessions.Invariant
import MiniLisp.Proofs.Scope.Reachable
import MiniLisp.Proofs.Simulation.Reachability
import MiniLisp.Proofs.Simulation.Agreement
import MiniLisp.Proofs.Simulation.Silence
import MiniLisp.Proofs.Simulation.Avoiding
import MiniLisp.Proofs.Sessions.Process
import MiniLisp.Proofs.Sessions.Interleaving
import MiniLisp.Proofs.Substitution.Replacing
import MiniLisp.Proofs.Substitution.Scopes
import MiniLisp.Proofs.Substitution.AppliedLambda
import MiniLisp.Proofs.Simulation.Traces
import MiniLisp.Proofs.Shell.Streams
import MiniLisp.Proofs.Shell.PrintedForms
import MiniLisp.Proofs.Shell.Answering
import MiniLisp.Proofs.Shell.Drivers
import MiniLisp.Proofs.Reading.Joining
import MiniLisp.Proofs.Primitives.Outcomes
import MiniLisp.Proofs.Invariants.Basic
import MiniLisp.Proofs.Invariants.Rules
import MiniLisp.Proofs.Invariants.Texts
import MiniLisp.Proofs.Invariants.Safety
import MiniLisp.Proofs.Invariants.Moments
import MiniLisp.Proofs.Sessions.Failures
import MiniLisp.Proofs.Sessions.Provenance
import MiniLisp.Proofs.Shell.Scripts
import MiniLisp.Proofs.Shell.Splitting
import MiniLisp.Proofs.Reading.Composition
import MiniLisp.Proofs.Reading.MaximalSplit
import MiniLisp.Proofs.Shell.Continuation
import MiniLisp.Proofs.Shell.Interaction
import MiniLisp.Proofs.Primitives.Exactness
import MiniLisp.Proofs.Scope.Binding
import MiniLisp.Proofs.Simulation.DefinitionOrder
import MiniLisp.Proofs.Simulation.UnusedNames
import MiniLisp.Proofs.Simulation.NoInfluence
import MiniLisp.Proofs.Shell.TextLines
import MiniLisp.Proofs.Shell.Quitting
import MiniLisp.Proofs.Shell.LineEndings
import MiniLisp.Proofs.Evaluation.Procedureless
import MiniLisp.Proofs.Scope.Identity
import MiniLisp.Proofs.Sessions.Equality
import MiniLisp.Proofs.Trace.Balance
import MiniLisp.Proofs.Trace.Calls
import MiniLisp.Proofs.Trace.Messages
