/-
**Instruction formats.**

A format fixes the operand grammar of an instruction and the bit layout of its word. Twelve formats
are known; a code outside them is kept as it is, so that it can be named in a message.
-/

import PicaShader.Numeral
import PicaShader.Word

namespace PicaShader

/-- An operand grammar with its bit layout. -/
inductive Format where
  /-- `dst, src1, src2 (desc)` -/
  | arith
  /-- `label, label, condition` -/
  | condBranch
  /-- no operands -/
  | bare
  /-- `dst, src1 (desc)` -/
  | unary
  /-- `src1, op, op, src2 (desc)` -/
  | compare
  /-- the grammar of `arith`, with the wide source second -/
  | arithImm
  /-- `label, iN` -/
  | loop
  /-- `label, label, bN` -/
  | uniformBranch
  /-- `vtxN, flag, flag` -/
  | setEmit
  /-- `label, label` -/
  | call
  /-- `dst, src1, src2, src3 (desc)` -/
  | mad
  /-- the grammar of `mad`, with the third source wide instead of the second -/
  | madi
  /-- a code that belongs to no format -/
  | other (code : BitVec 8)
deriving DecidableEq, Repr

namespace Format

/-- The known formats, in the order of their codes. -/
def known : List Format :=
  [arith, condBranch, bare, unary, compare, arithImm, loop, uniformBranch, setEmit, call, mad, madi]

/-- The format of a code. -/
def ofCode (code : BitVec 8) : Format := known.getD code.toNat (other code)

/-- The name of a format. -/
def name : Format → Text
  | arith => "arith"
  | condBranch => "condbranch"
  | bare => "none"
  | unary => "unary"
  | compare => "compare"
  | arithImm => "arithimm"
  | loop => "loop"
  | uniformBranch => "uniformbranch"
  | setEmit => "setemit"
  | call => "call"
  | mad => "mad"
  | madi => "madi"
  | other code => "format(" ++ Numeral.decimal code.toNat ++ ")"

end Format

end PicaShader
