import BraceScript.Main
import BraceScript.Proofs.AtomicFailure
import BraceScript.Proofs.BlockGrowth
import BraceScript.Proofs.Deferral
import BraceScript.Proofs.DeferredTokens
import BraceScript.Proofs.EndingInside
import BraceScript.Proofs.ErrorPaths
import BraceScript.Proofs.JoinedWords
import BraceScript.Proofs.Launches
import BraceScript.Proofs.Limits
import BraceScript.Proofs.OverloadChoice
import BraceScript.Proofs.PreparedCalls
import BraceScript.Proofs.ScriptSequence
import BraceScript.Proofs.ShellInput
import BraceScript.Proofs.FaithfulCoercion
import BraceScript.Proofs.SequenceParts
import BraceScript.Proofs.NestingLimit
import BraceScript.Proofs.LoopCourse
import BraceScript.Proofs.ClassVisit
import BraceScript.Proofs.Inheritance
import BraceScript.Proofs.NearestMethods
import BraceScript.Proofs.PackedArguments
import BraceScript.Proofs.ExactArithmetic
import BraceScript.Proofs.MaskedBlocks
import BraceScript.Proofs.BlockNames
import BraceScript.Proofs.ComparedIntegers
import BraceScript.Proofs.EnvironmentEntries
import BraceScript.Proofs.MapStore
import BraceScript.Proofs.ValueEquality
import BraceScript.Proofs.MapCommands
import BraceScript.Proofs.StoredRuns
import BraceScript.Proofs.FirstOccurrence
import BraceScript.Proofs.TextBytes
import BraceScript.Proofs.NarrowerParameters
import BraceScript.Proofs.PromptPlaceholders
