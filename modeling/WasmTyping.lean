import WasmTyping.Main
import WasmTyping.Proofs.Innermost
import WasmTyping.Proofs.FixedSignatures
import WasmTyping.Proofs.Typing
import WasmTyping.Proofs.Effects
import WasmTyping.Proofs.LocalsTable
import WasmTyping.Proofs.Soundness
import WasmTyping.Proofs.Completeness
import WasmTyping.Proofs.Calls
import WasmTyping.Proofs.WellFormed
import WasmTyping.Proofs.Reference
import WasmTyping.Proofs.Refinement
import WasmTyping.Proofs.Causes
import WasmTyping.Proofs.FeatureGates
import WasmTyping.Proofs.FinalState
import WasmTyping.Proofs.RoundTrip
import WasmTyping.Proofs.Independence
import WasmTyping.Proofs.Traces
import WasmTyping.Proofs.Execution
import WasmTyping.Proofs.Subcommands
import WasmTyping.Proofs.JsonText
import WasmTyping.Proofs.DeadCode
import WasmTyping.Proofs.FrameHistory
import WasmTyping.Proofs.Monomorphic
import WasmTyping.Proofs.Weakening
import WasmTyping.Proofs.BranchTables
import WasmTyping.Proofs.Abbreviations
import WasmTyping.Proofs.BlockTypes
import WasmTyping.Proofs.DeclaredLocals
import WasmTyping.Proofs.Declarations
import WasmTyping.Proofs.ShownStack
import WasmTyping.Proofs.Bracketing
import WasmTyping.Proofs.Indentation
import WasmTyping.Proofs.FeatureLists
import WasmTyping.Proofs.FirstFailure
import WasmTyping.Proofs.ImpossibleCauses
import WasmTyping.Proofs.RefusedLocals
import WasmTyping.Proofs.ExactPops
