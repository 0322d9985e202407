import SpendScript.ScriptNumber
/-!
# Pushes

A push places one byte string on the stack. The numbers from -1 to 16 have an opcode each; any
other byte string follows its opcode, in one of four forms that differ in how the length is
written. The form is kept, so that a script is written back as it was read and a push that took
more room than needed can be told.

What this file fixes:

* `SmallValue` -- a number with an opcode of its own.
* `PushForm`, `DataPush` -- a form, and a push of bytes in that form. A `DataPush` may be
  ill-formed, holding more (or, for a direct push, fewer) bytes than its form can say.
* `DataPush.shortest?` -- the shortest form that holds a byte string. An ill-formed push is written
  in that form instead of its own (`DataPush.encode`).
* `Push` -- either kind, with `Push.ofBytes?`, the shortest push of all.
-/

namespace SpendScript

/-! ## 1. Numbers with an opcode of their own -/

/-- The bound on these numbers is not zero, so that numerals stand for them. -/
instance SmallValue.neZero : @NeZero Nat .ofOfNat0 17 := ⟨by decide⟩

/-- A number between -1 and 16. -/
inductive SmallValue where
  | negOne
  | num (n : Fin 17)
  deriving DecidableEq, Repr

namespace SmallValue

/-- The number itself. -/
def toInt : SmallValue → Int
  | negOne => -1
  | num n => n.val

/-- The opcode of a number, if it has one. -/
def ofInt? (v : Int) : Option SmallValue :=
  if v = -1 then some negOne
  else if h : 0 ≤ v ∧ v < 17 then some (num ⟨v.toNat, by omega⟩)
  else none

/-- The opcode byte: 0 for zero, 79 for -1, and 81 to 96 for 1 to 16. -/
def byte : SmallValue → UInt8
  | negOne => 0x4f
  | num n => if n.val = 0 then 0x00 else UInt8.ofNat (0x50 + n.val)

/-- The stack element that the opcode pushes. -/
def value (v : SmallValue) : Bytes := ScriptNumber.encode v.toInt

def name : SmallValue → String
  | negOne => "OP_1NEGATE"
  | num n => "OP_" ++ toString n.val

/-- All eighteen of them. -/
def all : List SmallValue :=
  [num 0, negOne, num 1, num 2, num 3, num 4, num 5, num 6, num 7, num 8, num 9, num 10, num 11,
   num 12, num 13, num 14, num 15, num 16]

/-- The number whose opcode byte this is. -/
def ofByte? (b : UInt8) : Option SmallValue := all.find? (·.byte == b)

theorem mem_all (v : SmallValue) : v ∈ all := by
  cases v with
  | negOne => decide
  | num n => revert n; decide

theorem byte_ofByte? {b : UInt8} {v : SmallValue} (h : ofByte? b = some v) : v.byte = b := by
  simpa using List.find?_some h

@[simp] theorem ofByte?_byte (v : SmallValue) : ofByte? v.byte = some v := by
  cases v with
  | negOne => rfl
  | num n => revert n; decide

theorem ofInt?_toInt (v : SmallValue) : ofInt? v.toInt = some v := by
  cases v with
  | negOne => rfl
  | num n => revert n; decide

theorem value_ofByte (n : Fin 17) :
    (num n).value = if n.val = 0 then [] else [UInt8.ofNat n.val] := by
  revert n; decide

end SmallValue

/-! ## 2. Bytes that follow their opcode -/

/-- How the length of the bytes is written: in the opcode byte itself, or in one, two or four
bytes after it. -/
inductive PushForm where
  | direct
  | pushData1
  | pushData2
  | pushData4
  deriving DecidableEq, Repr

namespace PushForm

/-- Whether a length can be written in this form. -/
def Holds : PushForm → Nat → Prop
  | direct, n => 1 ≤ n ∧ n ≤ 0x4b
  | pushData1, n => n < 2 ^ 8
  | pushData2, n => n < 2 ^ 16
  | pushData4, n => n < 2 ^ 32

instance (form : PushForm) (n : Nat) : Decidable (form.Holds n) := by
  cases form <;> unfold Holds <;> infer_instance

/-- Opcode byte and length. -/
def header : PushForm → Nat → Bytes
  | direct, n => [UInt8.ofNat n]
  | pushData1, n => 0x4c :: Bytes.ofNatLE 1 n
  | pushData2, n => 0x4d :: Bytes.ofNatLE 2 n
  | pushData4, n => 0x4e :: Bytes.ofNatLE 4 n

/-- The opcode byte of a push of `n` bytes. -/
def byte : PushForm → Nat → UInt8
  | direct, n => UInt8.ofNat n
  | pushData1, _ => 0x4c
  | pushData2, _ => 0x4d
  | pushData4, _ => 0x4e

theorem header_eq (form : PushForm) (n : Nat) :
    form.header n = form.byte n :: (form.header n).tail := by
  cases form <;> rfl

/-- The form that an opcode byte starts, with the number of bytes that the length takes. -/
def ofByte? (b : UInt8) : Option (PushForm × Nat) :=
  if b = 0x4c then some (pushData1, 1)
  else if b = 0x4d then some (pushData2, 2)
  else if b = 0x4e then some (pushData4, 4)
  else if 1 ≤ b ∧ b ≤ 0x4b then some (direct, 0)
  else none

end PushForm

/-- A push of bytes in a form that need not hold them. -/
structure DataPush where
  form : PushForm
  data : Bytes
  deriving DecidableEq, Repr

namespace DataPush

/-- Whether the form can say how many bytes there are. -/
def WellFormed (p : DataPush) : Prop := p.form.Holds p.data.length

instance (p : DataPush) : Decidable p.WellFormed :=
  inferInstanceAs (Decidable (p.form.Holds p.data.length))

/-- The shortest form that holds a byte string. None holds the empty string, for which zero has
its opcode, and none holds four gibibytes. -/
def shortest? (data : Bytes) : Option DataPush :=
  let n := data.length
  if n = 0 then none
  else if n ≤ 0x4b then some ⟨.direct, data⟩
  else if n ≤ 0xff then some ⟨.pushData1, data⟩
  else if n ≤ 0xffff then some ⟨.pushData2, data⟩
  else if n < 2 ^ 32 then some ⟨.pushData4, data⟩
  else none

/-- The form that a push is written in: its own, or the shortest one where its own cannot say the
length. -/
def written? (p : DataPush) : Option DataPush := if p.WellFormed then some p else shortest? p.data

/-- The push as part of a script. -/
def encode (p : DataPush) : Bytes :=
  match p.written? with
  | some q => q.form.header q.data.length ++ q.data
  | none => [(SmallValue.num 0).byte]

/-- The first byte of the push as it is written. -/
def byte (p : DataPush) : UInt8 :=
  match p.written? with
  | some q => q.form.byte q.data.length
  | none => (SmallValue.num 0).byte

/-- Whether no shorter push of the same bytes exists. -/
def isMinimal (p : DataPush) : Bool :=
  match p.form with
  | .direct =>
    match p.data with
    | [b] => b != 0x81 && (b < 1 || 16 < b)
    | _ => true
  | .pushData1 => 0x4c ≤ p.data.length
  | .pushData2 => 0x100 ≤ p.data.length
  | .pushData4 => 0x10000 ≤ p.data.length

/-- The shortest form holds its bytes. -/
theorem wellFormed_of_shortest? {data : Bytes} {p : DataPush} (h : shortest? data = some p) :
    p.WellFormed ∧ p.data = data := by
  unfold shortest? at h
  dsimp only at h
  split at h
  · cases h
  split at h
  · cases h; exact ⟨by simp only [WellFormed, PushForm.Holds]; omega, rfl⟩
  split at h
  · cases h; exact ⟨by simp only [WellFormed, PushForm.Holds]; omega, rfl⟩
  split at h
  · cases h; exact ⟨by simp only [WellFormed, PushForm.Holds]; omega, rfl⟩
  split at h
  · next hn => cases h; exact ⟨hn, rfl⟩
  · cases h

/-- **A push starts with its byte.** -/
theorem encode_eq_cons (p : DataPush) : p.encode = p.byte :: p.encode.tail := by
  unfold encode byte
  cases p.written? with
  | none => rfl
  | some q =>
    show q.form.header q.data.length ++ q.data = q.form.byte q.data.length ::
      (q.form.header q.data.length ++ q.data).tail
    rw [PushForm.header_eq]
    rfl

end DataPush

/-- The bytes that writing a byte string into a script appends: the shortest push that is no
`SmallValue`, or the opcode of zero for the empty string. A signer writes a signature like this. -/
def DataPush.written (data : Bytes) : Bytes :=
  match shortest? data with
  | some p => p.encode
  | none => [(SmallValue.num 0).byte]

/-! ## 3. Both kinds -/

/-- A push of one byte string. -/
inductive Push where
  | small (v : SmallValue)
  | data (p : DataPush)
  deriving DecidableEq, Repr

namespace Push

/-- The limit on the bytes that a script may push at once. -/
def maxElementSize : Nat := 520

/-- The shortest push of a byte string. -/
def ofBytes? (bytes : Bytes) : Option Push :=
  match bytes with
  | [] => some (small (.num 0))
  | [b] =>
    if b = 0x81 then some (small .negOne)
    else if h : 1 ≤ b.toNat ∧ b.toNat ≤ 16 then some (small (.num ⟨b.toNat, by omega⟩))
    else (DataPush.shortest? [b]).map data
  | _ => (DataPush.shortest? bytes).map data

/-- The shortest push of a byte string that is no longer than a stack element may be. -/
def element? (bytes : Bytes) : Option Push :=
  if bytes.length ≤ maxElementSize then ofBytes? bytes else none

/-- The stack element that is pushed. -/
def value : Push → Bytes
  | small v => v.value
  | data p => p.data

/-- Whether no shorter push of the same bytes exists. -/
def isMinimal : Push → Bool
  | small _ => true
  | data p => p.isMinimal

/-- The first byte as it is written. -/
def byte : Push → UInt8
  | small v => v.byte
  | data p => p.byte

/-- The push as part of a script. -/
def encode : Push → Bytes
  | small v => [v.byte]
  | data p => p.encode

/-- The name of the opcode, or the pushed bytes as hexadecimal text. -/
def asm : Push → String
  | small v => v.name
  | data p => Hex.encode p.data

/-- Whether the form, if there is one, can say the length. -/
def WellFormed : Push → Prop
  | small _ => True
  | data p => p.WellFormed

instance (p : Push) : Decidable p.WellFormed := by
  cases p <;> unfold WellFormed <;> infer_instance

theorem encode_eq_cons (p : Push) : p.encode = p.byte :: p.encode.tail := by
  cases p with
  | small v => rfl
  | data p => exact p.encode_eq_cons

end Push

end SpendScript
