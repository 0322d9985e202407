import SpendScript.TestVector
/-!
# Pairs of scripts that fail

Each of these pairs fails under its rules with the kind at its end, with a checker that rejects
everything.
-/

namespace SpendScript.TestVector

/-- Pairs of scripts that fail. -/
def failing : List TestVector := [
  ⟨[.number 1], [.number 2, .op .equalVerify, .small 1], usual, .equalVerify⟩,
  ⟨[.number 1], [.number 2, .op .equal], usual, .evalFalse⟩,
  ⟨[], [], usual, .evalFalse⟩,
  -- zero with a sign is false
  ⟨[.hex "0180"], [], usual, .evalFalse⟩,
  ⟨[.hex "4c00"], [.small 0, .op .equal], { usual with minimalData := true }, .minimalData⟩,
  ⟨[.hex "4c0101"], [], { usual with minimalData := true }, .minimalData⟩,
  ⟨[.hex "020100"], [.op .add1, .small 2, .op .numEqual], { usual with minimalData := true },
    .scriptNum⟩,
  ⟨[], [.small 0, .control .opIf, .disabled .cat, .control .opEndIf, .small 1], usual,
    .disabledOpcode⟩,
  ⟨[.number 0], [.control .opIf, .disabled .mul, .control .opElse, .small 1, .control .opEndIf],
    .empty, .disabledOpcode⟩,
  ⟨[], [.small 0, .control .opIf, .disabled .substr, .control .opEndIf, .small 1], usual,
    .disabledOpcode⟩,
  ⟨[], [.small 0, .control .opIf, .disabled .left, .control .opEndIf, .small 1], usual,
    .disabledOpcode⟩,
  ⟨[], [.small 0, .control .opIf, .disabled .right, .control .opEndIf, .small 1], usual,
    .disabledOpcode⟩,
  ⟨[], [.small 0, .control .opIf, .disabled .invert, .control .opEndIf, .small 1], usual,
    .disabledOpcode⟩,
  ⟨[], [.small 0, .control .opIf, .disabled .and, .control .opEndIf, .small 1], usual,
    .disabledOpcode⟩,
  ⟨[], [.small 0, .control .opIf, .disabled .or, .control .opEndIf, .small 1], usual,
    .disabledOpcode⟩,
  ⟨[], [.small 0, .control .opIf, .disabled .xor, .control .opEndIf, .small 1], usual,
    .disabledOpcode⟩,
  ⟨[], [.small 0, .control .opIf, .disabled .div, .control .opEndIf, .small 1], usual,
    .disabledOpcode⟩,
  ⟨[], [.small 0, .control .opIf, .disabled .mod, .control .opEndIf, .small 1], usual,
    .disabledOpcode⟩,
  ⟨[], [.small 0, .control .opIf, .disabled .lshift, .control .opEndIf, .small 1], usual,
    .disabledOpcode⟩,
  ⟨[], [.small 0, .control .opIf, .disabled .rshift, .control .opEndIf, .small 1], usual,
    .disabledOpcode⟩,
  ⟨[], [.small 0, .control .opIf, .disabled .mul2, .control .opEndIf, .small 1], usual,
    .disabledOpcode⟩,
  ⟨[], [.small 0, .control .opIf, .disabled .div2, .control .opEndIf, .small 1], usual,
    .disabledOpcode⟩,
  ⟨[], [.small 0, .control .opIf, .bad .verIf, .control .opEndIf, .small 1], usual, .badOpcode⟩,
  ⟨[], [.small 0, .control .opIf, .bad .verNotIf, .control .opEndIf, .small 1], usual, .badOpcode⟩,
  ⟨[.number 1], [.bad .ver], usual, .badOpcode⟩,
  ⟨[.number 1], [.hex "ba"], usual, .badOpcode⟩,
  -- a push that is cut short
  ⟨[], [.hex "4c05ffff"], usual, .badOpcode⟩,
  ⟨[.number 1], [.control .opIf, .small 1], usual, .unbalancedConditional⟩,
  ⟨[.number 1], [.control .opEndIf], usual, .unbalancedConditional⟩,
  ⟨[.number 1], [.control .opElse], usual, .unbalancedConditional⟩,
  -- a branch ends with its script
  ⟨[.number 1, .control .opIf], [.small 1, .control .opEndIf], .empty, .unbalancedConditional⟩,
  ⟨[], [.control .opIf, .small 1, .control .opEndIf], usual, .unbalancedConditional⟩,
  ⟨[.number 1], [.op .ret], usual, .opReturn⟩,
  ⟨[], [.small 0, .op .verify, .small 1], usual, .verify⟩,
  ⟨[], [.small 1, .small 2, .op .numEqualVerify, .small 1], usual, .numEqualVerify⟩,
  ⟨[.number 1], [.number 5, .op .pick], usual, .invalidStackOperation⟩,
  ⟨[.number 1], [.op .fromAltStack], usual, .invalidAltstackOperation⟩,
  -- each script has its own second stack
  ⟨[.number 1, .op .toAltStack], [.op .fromAltStack], .empty, .invalidAltstackOperation⟩,
  ⟨[.number 2147483647], [.op .dup, .op .add, .op .add1], usual, .scriptNum⟩,
  ⟨[.hex "050000008000"], [.op .add1], usual, .scriptNum⟩,
  ⟨[.number 1], [.hex (Entry.repeated 202 "61")], usual, .opCount⟩,
  ⟨[], [.hex (Entry.repeated 1001 "51")], usual, .stackSize⟩,
  ⟨[], [.hex "4d0902", .hex (Entry.repeated 521 "01")], usual, .pushSize⟩,
  ⟨[], [.number 0, .number 0], usual, .evalFalse⟩,
  ⟨[.number 1], [.number 0, .number 0, .op .checkMultisig], { usual with nullDummy := true },
    .sigNullDummy⟩,
  ⟨[], [.number 0, .number 0, .op .checkMultisig], usual, .invalidStackOperation⟩,
  ⟨[.number 0], [.number 1, .number 0, .op .checkMultisig], usual, .sigCount⟩,
  ⟨[.number 0], [.number 21, .op .checkMultisig], usual, .pubKeyCount⟩,
  ⟨[.number 0, .number 0], [.number 1, .hex "0100", .number 1, .op .checkMultisigVerify,
    .small 1], .empty, .checkMultisigVerify⟩,
  ⟨[.number 0], [.hex "0100", .op .checkSigVerify, .small 1], .empty, .checkSigVerify⟩,
  ⟨[.number 0], [.hex "0100", .op .checkSig], .empty, .evalFalse⟩,
  ⟨[.number 0], [.hex "0100", .op .checkSig, .op .not], usual, .pubKeyType⟩,
  -- a signature that is not in DER
  ⟨[.hex "020101"], [.hex "0100", .op .checkSig, .op .not], { derSig := true }, .sigDer⟩,
  ⟨[.number 1, .op .dup], [.op .equal], { usual with sigPushOnly := true }, .sigPushOnly⟩,
  ⟨[.op .nop, .hex "0151"], [.op .hash160, .hex "14da1745e9b549bd0bfa1a569971c77eba30cd5a4b",
    .op .equal], usual, .sigPushOnly⟩,
  -- the redeem script is one false push
  ⟨[.hex "0100"], [.op .hash160, .hex "149f7fd096d37ed2c0e3f7f0cfc924beef4ffceb68", .op .equal],
    usual, .evalFalse⟩,
  ⟨[.number 1, .hex "0151"], [.op .hash160, .hex "14da1745e9b549bd0bfa1a569971c77eba30cd5a4b",
    .op .equal], { usual with cleanStack := true }, .cleanStack⟩,
  ⟨[.number 1, .number 1], [], { usual with cleanStack := true }, .cleanStack⟩,
  ⟨[], [.number (-1), .op .checkLockTimeVerify], { usual with checkLockTimeVerify := true },
    .negativeLockTime⟩,
  ⟨[], [.number 0, .op .checkLockTimeVerify], { usual with checkLockTimeVerify := true },
    .unsatisfiedLockTime⟩,
  ⟨[], [.op .checkLockTimeVerify], { usual with checkLockTimeVerify := true },
    .invalidStackOperation⟩,
  -- a lock time may have five bytes
  ⟨[], [.hex "050000000001", .op .checkLockTimeVerify],
    { usual with checkLockTimeVerify := true }, .unsatisfiedLockTime⟩,
  ⟨[], [.hex "06000000000001", .op .checkLockTimeVerify],
    { usual with checkLockTimeVerify := true }, .scriptNum⟩,
  ⟨[.number 1], [.op .checkLockTimeVerify], { usual with discourageUpgradableNops := true },
    .discourageUpgradableNops⟩,
  ⟨[.number 1], [.op .nop10], { usual with discourageUpgradableNops := true },
    .discourageUpgradableNops⟩]

end SpendScript.TestVector
