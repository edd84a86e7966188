/-
Assembling: statements become the records of a segment, followed by its pool of texts.

`size` measures the records of statements ahead, since the texts stand behind them and their places
depend on it. `ofStatements` makes records and texts in step: each text is referred to by the operand
`place` that the texts before it lead to.
-/
import Storyboard.Instruction
import Storyboard.Statement.Parser

namespace Storyboard

/-- The two parts of a segment: its records and its texts. -/
structure Assembly where
  code : List UInt8 := []
  pool : List UInt8 := []
deriving DecidableEq

namespace Statement

/-- The arguments of a statement as literals. -/
def literals : Statement → Except Error (List Literal)
  | sub _ arguments => arguments.mapM Literal.classify
  | _ => .ok []

/-- How many records a literal takes: a marked one is followed by a null. -/
def literalRecords (l : Literal) : Nat := if l.isMarked then 2 else 1

/-- How many records a statement takes. A sub method takes four besides its arguments: the marker,
its number, true, and the call. -/
def records (statement : Statement) : Except Error Nat :=
  match statement with
  | sub _ _ => statement.literals.map fun ls => 4 + (ls.map literalRecords).foldr (· + ·) 0
  | runMacro _ => .ok 2
  | time _ => .ok 3
  | exit _ => .ok 3

/-- How many bytes the records of a statement take. -/
def size (statement : Statement) : Except Error Nat := statement.records.map (· * recordSize)

/-- How many bytes the records of all statements take. -/
def totalSize : List Statement → Except Error Nat
  | [] => .ok 0
  | s :: statements => return (← s.size) + (← totalSize statements)

end Statement

namespace Assembly

/-- Records follow records, and texts follow texts. -/
instance : Append Assembly := ⟨fun a b => ⟨a.code ++ b.code, a.pool ++ b.pool⟩⟩

/-- The bytes of a segment: records, then texts. -/
def toBytes (a : Assembly) : List UInt8 := a.code ++ a.pool

/-- The records of some instructions. -/
def ofInstructions (is : List Instruction) : Except Error Assembly := do
  let records ← is.mapM fun i => i.toRecord.toBytes
  return { code := records.flatten }

/-- What a mark adds to a literal. -/
def ofMark (marked : Bool) : List Instruction := if marked then [.pushNull] else []

/-- What pushes a literal; a text is going to be at the operand `place`. -/
def ofLiteral (settings : Settings) (place : Int) : Literal → Except Error Assembly
  | .int v marked => ofInstructions (.pushInt v :: ofMark marked)
  | .float x marked => do ofInstructions (.pushFloat (← Literal.floatOperand x) :: ofMark marked)
  | .text t => do
    let push ← ofInstructions [.pushText place]
    let bytes ← settings.encodeText t
    return { push with pool := bytes ++ [0] }

/-- What pushes some literals; their texts are going to be from the operand `place` on. -/
def ofLiterals (settings : Settings) (place : Int) : List Literal → Except Error Assembly
  | [] => .ok {}
  | l :: literals => do
    let first ← ofLiteral settings place l
    return first ++ (← ofLiterals settings (place + first.pool.length) literals)

/-- The records and texts of a statement. -/
def ofStatement (settings : Settings) (place : Int) (statement : Statement) : Except Error Assembly :=
  match statement with
  | .sub number _ => do
    let literals ← statement.literals
    let descriptor ← ofInstructions [.pushInt descriptorMarker, .pushInt number, .pushTrue]
    let pushes ← ofLiterals settings place literals
    let call ← ofInstructions [.callSub (literals.length + 1)]
    return descriptor ++ pushes ++ call
  | .runMacro code => ofInstructions [.pushCode code, .call]
  | .time v => ofInstructions [.pushInt v, .pushCode 0, .call]
  | .exit v => ofInstructions [.pushInt v, .exit, .finish]

/-- The records and texts of some statements, whose texts are going to be from the operand `place`
on. -/
def ofStatements (settings : Settings) (place : Int) : List Statement → Except Error Assembly
  | [] => .ok {}
  | s :: statements => do
    let first ← ofStatement settings place s
    return first ++ (← ofStatements settings (place + first.pool.length) statements)

/-- The records and texts of statements whose records take `size` bytes, the first one standing at
`scriptStart`. -/
def emit (settings : Settings) (scriptStart size : Int) (statements : List Statement) :
    Except Error Assembly := do
  let a ← ofStatements settings (scriptStart + size - textOperandBias) statements
  if (a.code.length : Int) = size then return a
  else throw (.sizeMismatch a.code.length size)

/-- Reads lines and measures them. -/
def measure (lines : List Text) : Except Error (List Statement × Nat) := do
  let statements ← Statement.parseLines lines
  return (statements, ← Statement.totalSize statements)

/-- The bytes of a segment with the given lines, its first record standing at `scriptStart`. -/
def assemble (settings : Settings) (scriptStart : Int) (lines : List Text) :
    Except Error (List UInt8) := do
  let (statements, size) ← measure lines
  return (← emit settings scriptStart size statements).toBytes

end Assembly
end Storyboard
