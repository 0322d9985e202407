import SpendScript.TestVector.Succeeding
import SpendScript.TestVector.Failing
/-!
# The table of test vectors

The pairs that verify come first, then those that fail.
-/

namespace SpendScript.TestVector

/-- All vectors. -/
def table : List TestVector := succeeding ++ failing

end SpendScript.TestVector
