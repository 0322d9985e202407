import SpendScript.TestVector.Table
import SpendScript.Fixture
import SpendScript.Extension.PayToScriptHash
import SpendScript.Extension.LockTime
import SpendScript.Proofs.BuiltIn
import SpendScript.Proofs.Relaxation.Opcodes
import SpendScript.Proofs.Relaxation
import SpendScript.Proofs.SoftFork
import SpendScript.Proofs.StandIn
import SpendScript.Proofs.Conditional.Nested
import SpendScript.Proofs.Serialization
import SpendScript.Proofs.Conditional
import SpendScript.Proofs.Multisig
import SpendScript.Proofs.Questions
import SpendScript.Proofs.StackCalls
import SpendScript.Proofs.Effect
import SpendScript.Proofs.Trace
import SpendScript.Proofs.Push
import SpendScript.Proofs.PushOnly
import SpendScript.Proofs.SignedCode
import SpendScript.Proofs.ElementSize
import SpendScript.Proofs.Resources
import SpendScript.Proofs.SignatureCount
import SpendScript.Proofs.Redemption
import SpendScript.Proofs.Validity
import SpendScript.Proofs.Malleability
import SpendScript.Proofs.Vetting
import SpendScript.Proofs.TakenOver
import SpendScript.Proofs.NumberEncoding
import SpendScript.Proofs.ExactArithmetic
import SpendScript.Proofs.OrderedMatching
import SpendScript.Proofs.Deletion
import SpendScript.Proofs.ShortestPush
import SpendScript.Proofs.LowS
import SpendScript.Proofs.StrictDer
import SpendScript.Proofs.Streaming
import SpendScript.Proofs.Pieces
import SpendScript.Proofs.HashTimeLock
import SpendScript.Proofs.Diagrams
import SpendScript.Proofs.Fused
import SpendScript.Proofs.LockTime
import SpendScript.Proofs.ScriptHashPattern
import SpendScript.Proofs.Neutral
import SpendScript.Proofs.Dispatch
import SpendScript.Proofs.Consultation
import SpendScript.Proofs.ByteCounters
import SpendScript.Proofs.TruthValues
