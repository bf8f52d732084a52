import BoolNat.Main
import BoolNat.Population.Replay
import BoolNat.Proofs.Command.Check
import BoolNat.Proofs.Log.Configuration
import BoolNat.Proofs.Log.Evaluation
import BoolNat.Proofs.Log.Filter
import BoolNat.Proofs.Log.Join
import BoolNat.Proofs.Log.RoundTrip
import BoolNat.Proofs.Log.Separator
import BoolNat.Proofs.Log.StepTraces
import BoolNat.Proofs.Metatheory.Accounts
import BoolNat.Proofs.Metatheory.Census
import BoolNat.Proofs.Metatheory.Harness
import BoolNat.Proofs.Metatheory.Law
import BoolNat.Proofs.Metatheory.Replacement
import BoolNat.Proofs.Metatheory.Standard
import BoolNat.Proofs.Population.Groups
import BoolNat.Proofs.Population.Height
import BoolNat.Proofs.Population.Layout
import BoolNat.Proofs.Population.Random
import BoolNat.Proofs.Population.Sample
import BoolNat.Proofs.Population.Size
import BoolNat.Proofs.Reduction.BigStep
import BoolNat.Proofs.Reduction.Bounds
import BoolNat.Proofs.Reduction.Composition
import BoolNat.Proofs.Reduction.Decomposition
import BoolNat.Proofs.Reduction.Drivers
import BoolNat.Proofs.Reduction.Height
import BoolNat.Proofs.Reduction.Length
import BoolNat.Proofs.Reduction.Meaning
import BoolNat.Proofs.Reduction.Rule
import BoolNat.Proofs.Reduction.Sequence
import BoolNat.Proofs.Settings.Fields
import BoolNat.Proofs.Term.Text
import BoolNat.Proofs.Typing.Blame
import BoolNat.Proofs.Typing.Expansion
import BoolNat.Proofs.Typing.FirstFailure
import BoolNat.Proofs.Typing.Place
import BoolNat.Proofs.Typing.Refusal
import BoolNat.Proofs.Typing.Soundness
import BoolNat.Reduction.Context
import BoolNat.Reduction.Evaluator
import BoolNat.Reduction.Meaning
import BoolNat.Term.Place
import BoolNat.Term.Reader
import BoolNat.Typing.Rules
import BoolNat.Proofs.Term.Measure
import BoolNat.Proofs.Population.Draws
