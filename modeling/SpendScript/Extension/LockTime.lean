import SpendScript.Execute.Signatures
import SpendScript.Extension
/-!
# The lock time opcode as an extension

It claims the opcode where its rule is in force, and asks a checker of its own. The questions are
made known to an observer of its own too.
-/

namespace SpendScript.LockTime

variable {μ : Type}

/-- The lock time opcode with its own checker. -/
def extension (checker : Checker) (observe : Query → μ → μ) : Extension μ where
  extraFlags := { checkLockTimeVerify := true }
  claims := fun chunk flags m =>
    (chunk == .operation .checkLockTimeVerify && flags.checkLockTimeVerify, m)
  handleOpcode := fun _ _ flags s => do
    (Execute.checkLockTime flags checker s.stack).observed observe
    return s

end SpendScript.LockTime
