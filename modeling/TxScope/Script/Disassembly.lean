import TxScope.Script.Token

/-!
# Disassembly

`step` reads the token behind one opcode, and `disassemble` repeats it until the script ends or a
push is cut off.
-/

namespace TxScope.Script

/-- What follows an opcode: a token and the bytes after it, or a push that is cut off. -/
inductive Step where
  | token (t : Token) (rest : Bytes)
  | stop (reason : MalformedPush)
  deriving DecidableEq, Repr

/-- The push of the next `declared` bytes. -/
def pushStep (op : UInt8) (declared : Nat) (rest : Bytes) : Step :=
  if declared ≤ rest.length then .token (.push op (rest.take declared)) (rest.drop declared)
  else .stop (.exceedsBuffer declared rest.length)

/-- An opcode that has a name is a token, before it is asked whether it is a push. -/
def step (op : UInt8) (rest : Bytes) : Step :=
  if (mnemonic? op).isSome then .token (.opcode op) rest
  else if 1 ≤ op ∧ op ≤ maxDirectPush then pushStep op op.toNat rest
  else
    match LengthField.ofOpcode? op with
    | none => .token (.opcode op) rest
    | some field =>
      if field.width ≤ rest.length then
        pushStep op (littleEndian (rest.take field.width)) (rest.drop field.width)
      else .stop (.missingLength field)

theorem pushStep_rest_length {op : UInt8} {n : Nat} {rest rest' : Bytes} {t : Token}
    (h : pushStep op n rest = .token t rest') : rest'.length ≤ rest.length := by
  unfold pushStep at h
  split at h
  · cases h
    simp
  · cases h

theorem step_rest_length {op : UInt8} {rest rest' : Bytes} {t : Token}
    (h : step op rest = .token t rest') : rest'.length ≤ rest.length := by
  unfold step at h
  split at h
  · cases h
    exact Nat.le_refl _
  · split at h
    · exact pushStep_rest_length h
    · split at h
      · cases h
        exact Nat.le_refl _
      · split at h
        · have := pushStep_rest_length h
          simp only [List.length_drop] at this
          omega
        · cases h

/-- The tokens of a script. -/
def disassemble : Bytes → List Token
  | [] => []
  | op :: rest =>
    match _h : step op rest with
    | .token t rest' => t :: disassemble rest'
    | .stop reason => [.malformed reason]
termination_by script => script.length
decreasing_by
  have := step_rest_length _h
  simp only [List.length_cons]
  omega

/-- Tokens with a space between two. -/
def renderTokens (tokens : List Token) : String := " ".intercalate (tokens.map Token.text)

/-- The assembly listing of a script. -/
def render (script : Bytes) : String := renderTokens (disassemble script)

end TxScope.Script
