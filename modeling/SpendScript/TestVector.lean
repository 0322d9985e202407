import SpendScript.Template
import SpendScript.Interpreter
/-!
# Pairs of scripts with the expected result

What this file fixes:

* `Entry` -- a shorthand for pieces of scripts, right or wrong: a chunk, bytes as hexadecimal text,
  and the shortest pushes of a text and of a number.
* `TestVector` -- a signature script, an output script, the rules in force and the expected kind of
  failure.
* `TestVector.mismatch?` -- what a verification gave, where it is not what was expected.
-/

namespace SpendScript

/-- A piece of a script. -/
inductive Entry where
  | chunk (c : Chunk)
  /-- bytes taken as they are -/
  | hex (digits : String)
  /-- the shortest push of a text -/
  | text (words : String)
  /-- the shortest push of a number -/
  | number (v : Int)
  deriving DecidableEq, Repr

namespace Entry

/-! ## Chunks by their kind -/

def small (n : Fin 17) : Entry := chunk (.push (.small (.num n)))

def control (c : Control) : Entry := chunk (.control c)

def op (o : Operation) : Entry := chunk (.operation o)

def disabled (d : Disabled) : Entry := chunk (.disabled d)

def bad (b : Bad) : Entry := chunk (.bad b)

end Entry

/-- Hexadecimal text repeated. -/
def Entry.repeated (count : Nat) (digits : String) : String :=
  String.join (List.replicate count digits)

/-- The bytes of a piece. -/
def Entry.encode : Entry → Except Hex.Malformed Bytes
  | chunk c => .ok c.encode
  | hex digits => Hex.decode digits.toUTF8.toList
  | text words => .ok (((Push.ofBytes? words.toUTF8.toList).map Push.encode).getD [])
  | number v => .ok (Template.pushNumber v).encode

/-- The bytes of a script in pieces. -/
def Entry.encodeAll (entries : List Entry) : Except Hex.Malformed Bytes :=
  (entries.mapM Entry.encode).map List.flatten

/-- A pair of scripts, the rules in force, and the kind of the expected failure; success is the
kind `ok`. -/
structure TestVector where
  sig : List Entry
  output : List Entry
  flags : Flags
  expected : FailureKind
  deriving DecidableEq, Repr

namespace TestVector

/-- Both scripts as byte strings. -/
def scripts (v : TestVector) : Except Hex.Malformed (Bytes × Bytes) := do
  return (← Entry.encodeAll v.sig, ← Entry.encodeAll v.output)

/-- The kind of a result; success is the kind `ok`. -/
def kindOf (result : Except Failure Unit) : FailureKind :=
  match result with
  | .ok _ => .ok
  | .error e => e.kind

/-- The kind of a result that is not the expected one. -/
def mismatch? (v : TestVector) (result : Except Failure Unit) : Option FailureKind :=
  let kind := kindOf result
  if kind = v.expected then none else some kind

/-- The rules that most vectors run under. -/
def usual : Flags := { p2sh := true, strictEnc := true }

end TestVector

/-- Verifies scripts given as byte strings; the signature script is read first. -/
def Interpreter.verifyBytes {μ : Type} (i : Interpreter μ) (sig output : Bytes) :
    Session μ Unit := do
  let sig ← Session.lift ((Program.parse sig).mapError .ofRead)
  let output ← Session.lift ((Program.parse output).mapError .ofRead)
  i.verify sig output

end SpendScript
