import SpendScript.TestVector
/-!
# Pairs of scripts that verify

Each of these pairs verifies under its rules with a checker that rejects everything.
-/

namespace SpendScript.TestVector

/-- Pairs of scripts that verify. -/
def succeeding : List TestVector := [
  ⟨[.number 1, .number 2], [.small 2, .op .equalVerify, .small 1, .op .equal], usual, .ok⟩,
  -- an empty push in a form that is longer than needed
  ⟨[.hex "4c00"], [.small 0, .op .equal], usual, .ok⟩,
  ⟨[.text "abc"], [.op .ripemd160, .hex "148eb208f7e05d987a9b044a8e98c6b087f15a0bfc", .op .equal],
    usual, .ok⟩,
  ⟨[.text ""], [.op .sha256,
    .hex "20e3b0c44298fc1c149afbf4c8996fb92427ae41e4649b934ca495991b7852b855", .op .equal], usual,
    .ok⟩,
  ⟨[.number 0], [.control .opIf, .small 0, .control .opElse, .small 1, .control .opEndIf], usual,
    .ok⟩,
  ⟨[.number 1, .number 0], [.control .opNotIf, .control .opIf, .small 1, .control .opElse,
    .small 0, .control .opEndIf, .control .opEndIf], usual, .ok⟩,
  ⟨[], [.small 0, .control .opIf, .op .ret, .control .opEndIf, .small 1], usual, .ok⟩,
  -- reserved opcodes outside conditionals do nothing in a skipped branch
  ⟨[], [.small 0, .control .opIf, .bad .ver, .bad .reserved, .bad .reserved1, .bad .reserved2,
    .hex "ba", .control .opEndIf, .small 1], usual, .ok⟩,
  ⟨[.number 2, .number 3], [.op .add, .number 5, .op .numEqual], usual, .ok⟩,
  ⟨[.number (-1)], [.op .abs, .small 1, .op .numEqual], usual, .ok⟩,
  ⟨[.number 0], [.number 0, .number 1, .op .within], usual, .ok⟩,
  -- a number may be longer than needed where no rule forbids it
  ⟨[.hex "020100"], [.op .add1, .small 2, .op .numEqual], usual, .ok⟩,
  ⟨[.number 1, .number 2, .number 3], [.op .rot, .small 1, .op .equalVerify, .op .drop2,
    .op .depth, .small 0, .op .equal], usual, .ok⟩,
  ⟨[.number 1], [.op .toAltStack, .op .fromAltStack], usual, .ok⟩,
  ⟨[.number 1], [.hex (Entry.repeated 201 "61")], usual, .ok⟩,
  ⟨[], [.hex (Entry.repeated 1000 "51")], usual, .ok⟩,
  ⟨[], [.hex "4d0802", .hex (Entry.repeated 520 "01")], usual, .ok⟩,
  ⟨[.number 1], [.op .nop1, .op .checkLockTimeVerify, .op .nop10], usual, .ok⟩,
  -- no signature and no key, over the spare element
  ⟨[.number 0], [.number 0, .number 0, .op .checkMultisig], usual, .ok⟩,
  ⟨[.number 1], [.number 0, .number 0, .op .checkMultisig], usual, .ok⟩,
  ⟨[.number 0], [.hex "0100", .op .checkSig, .op .not], .empty, .ok⟩,
  ⟨[.number 1, .op .dup], [.op .equal], usual, .ok⟩,
  -- the redeem script is one true push
  ⟨[.hex "0151"], [.op .hash160, .hex "14da1745e9b549bd0bfa1a569971c77eba30cd5a4b", .op .equal],
    { usual with cleanStack := true }, .ok⟩,
  -- without its rule the redeem script is not run
  ⟨[.hex "0100"], [.op .hash160, .hex "149f7fd096d37ed2c0e3f7f0cfc924beef4ffceb68", .op .equal],
    .empty, .ok⟩]

end SpendScript.TestVector
