/-
**Faults.**

A fault is the cause for which a statement, an operand or a directive is refused. Its `kind` is the
class that callers tell apart, and its `message` is the one place where causes are put into words.
A fault carries no source position: diagnostics attach one.
-/

import PicaShader.Instruction.Fields
import PicaShader.Single.Shortest
import PicaShader.Text.Quoted

namespace PicaShader

/-- The classes of faults. -/
inductive FaultKind where
  /-- The text matches no known form. -/
  | grammar
  /-- A mnemonic, directive or semantic is in no table. -/
  | unknownSymbol
  /-- A register class is not allowed where it stands. -/
  | operandClass
  /-- A value does not fit its field. -/
  | numericRange
  /-- A condition tests one flag twice. -/
  | condition
  /-- A label is used and never declared. -/
  | unresolvedLabel
  /-- A label or entry point is declared twice. -/
  | duplicate
  /-- A code that belongs to no class. -/
  | other (code : BitVec 8)
deriving DecidableEq, Repr

namespace FaultKind

/-- The kind of a code. -/
def ofCode (code : BitVec 8) : FaultKind :=
  [grammar, unknownSymbol, operandClass, numericRange, condition, unresolvedLabel, duplicate].getD
    code.toNat (other code)

/-- The name of a kind. -/
def name : FaultKind → Text
  | grammar => "grammar"
  | unknownSymbol => "unknown symbol"
  | operandClass => "operand class"
  | numericRange => "numeric range"
  | condition => "condition"
  | unresolvedLabel => "unresolved label"
  | duplicate => "duplicate"
  | other code => "kind(" ++ Numeral.decimal code.toNat ++ ")"

end FaultKind

/-- Why something is refused. -/
inductive Fault where
  -- Register tokens.
  | missingOperand (role : OperandRole)
  | unterminatedIndex (token : Text)
  | indexNotAllowed (token : Text) (role : OperandRole)
  | unknownIndex (token : Text)
  | malformedRegister (token : Text)
  | inaccessibleRegister (token : Text) (role : OperandRole)
  | malformedRawRegister (token : Text)
  | unknownRegister (token : Text)
  | missingRegisterIndex (token : Text)
  | malformedRegisterIndex (token : Text)
  | registerOutOfRange (token : Text) (index last : Nat)
  -- Instruction statements.
  | emptyInstruction
  | noSuchInstruction (name : Text)
  | unknownFormat (name : Text) (code : BitVec 8)
  | inInstruction (name : Text) (cause : Fault)
  | malformedOperands (operands : Text)
  | unexpectedOperands (operands : Text)
  | numberOutOfRange (digits : Text)
  | unknownComparison (name : Text)
  | undefinedLabel (name : Text)
  | loopEndAtStart (name : Text)
  | redundantCondition (operands : Text)
  -- Instruction words.
  | fieldTooWide (name : Text) (field : Field) (value : Word) (width : Nat)
  | indexNotEncodable (name : Text) (index : RelativeIndex)
  | unknownOpcode (code : Word)
  -- Operand descriptors.
  | maskLength (mask : Text)
  | maskComponent (component : UInt8) (mask : Text)
  | tooManySwizzles (count : Nat)
  | swizzleLength (swizzle : Text)
  | swizzleComponent (component : UInt8) (swizzle : Text)
  -- Constants.
  | floatOutOfRange (single : Word)
  | componentOutOfRange (component : Int)
  | constantWithoutRegister
  | constantRegisterClass (token : Text)
  | notABit (token : Text)
  | malformedInteger (token : Text)
  | malformedFloat (token : Text)
  -- Bindings.
  | outputRegisterClass (token : Text)
  | noSuchSemantic (name : Text)
  | malformedOutputMask (token : Text)
  | outputMaskTooWide (mask : Nat)
  | mixedUniformClasses (first last : Text)
  | uniformRegisterClass (token : Text)
  | reversedUniformRange (first last : Text)
  | malformedUniformName (name : Text)
  -- Lines, labels and entry points.
  | missingDirectiveName
  | noSuchDirective (name : Text)
  | emptyOperand (number : Nat) (operands : Text)
  | operandCount (directive : Text) (allowed : List Nat) (count : Nat)
  | malformedLabel (label : Text)
  | duplicateLabel (name : Text) (address : Word)
  | entryDeclaredTwice (directive : Text) (line : Nat)
deriving DecidableEq, Repr

namespace Fault

/-- The class of a fault. -/
def kind : Fault → FaultKind
  | missingOperand _ => .grammar
  | unterminatedIndex _ => .grammar
  | indexNotAllowed _ _ => .operandClass
  | unknownIndex _ => .operandClass
  | malformedRegister _ => .grammar
  | inaccessibleRegister _ _ => .operandClass
  | malformedRawRegister _ => .grammar
  | unknownRegister _ => .operandClass
  | missingRegisterIndex _ => .grammar
  | malformedRegisterIndex _ => .grammar
  | registerOutOfRange _ _ _ => .numericRange
  | emptyInstruction => .grammar
  | noSuchInstruction _ => .unknownSymbol
  | unknownFormat _ _ => .unknownSymbol
  | inInstruction _ cause => cause.kind
  | malformedOperands _ => .grammar
  | unexpectedOperands _ => .grammar
  | numberOutOfRange _ => .numericRange
  | unknownComparison _ => .unknownSymbol
  | undefinedLabel _ => .unresolvedLabel
  | loopEndAtStart _ => .numericRange
  | redundantCondition _ => .condition
  | fieldTooWide _ _ _ _ => .numericRange
  | indexNotEncodable _ _ => .operandClass
  | unknownOpcode _ => .unknownSymbol
  | maskLength _ => .grammar
  | maskComponent _ _ => .grammar
  | tooManySwizzles _ => .grammar
  | swizzleLength _ => .grammar
  | swizzleComponent _ _ => .grammar
  | floatOutOfRange _ => .numericRange
  | componentOutOfRange _ => .numericRange
  | constantWithoutRegister => .grammar
  | constantRegisterClass _ => .operandClass
  | notABit _ => .numericRange
  | malformedInteger _ => .grammar
  | malformedFloat _ => .grammar
  | outputRegisterClass _ => .operandClass
  | noSuchSemantic _ => .unknownSymbol
  | malformedOutputMask _ => .grammar
  | outputMaskTooWide _ => .numericRange
  | mixedUniformClasses _ _ => .operandClass
  | uniformRegisterClass _ => .operandClass
  | reversedUniformRange _ _ => .numericRange
  | malformedUniformName _ => .grammar
  | missingDirectiveName => .grammar
  | noSuchDirective _ => .unknownSymbol
  | emptyOperand _ _ => .grammar
  | operandCount _ _ _ => .grammar
  | malformedLabel _ => .grammar
  | duplicateLabel _ _ => .duplicate
  | entryDeclaredTwice _ _ => .duplicate

/-- A field value as messages show it: the offset as a signed number, any other in hexadecimal. -/
def valueText (field : Field) (value : Word) : Text :=
  if field.isSigned then Numeral.signed value.toInt
  else "value 0x" ++ Numeral.hex value.toNat

/-- The words for a fault. -/
def message : Fault → Text
  | missingOperand role => "missing " ++ role.name ++ " operand"
  | unterminatedIndex token => "unterminated relative index in " ++ Text.quoted token
  | indexNotAllowed token role =>
    Text.quoted token ++ ": relative addressing is only allowed on src1, not " ++ role.name
  | unknownIndex token => Text.quoted token ++ ": unknown relative index register"
  | malformedRegister token => "malformed register " ++ Text.quoted token
  | inaccessibleRegister token role => token ++ " cannot be accessed from " ++ role.name
  | malformedRawRegister token => "malformed raw register " ++ Text.quoted token
  | unknownRegister token => token ++ " is not a valid register name"
  | missingRegisterIndex token => "missing register index in " ++ Text.quoted token
  | malformedRegisterIndex token => "malformed register index in " ++ Text.quoted token
  | registerOutOfRange token index last =>
    token ++ ": index " ++ Numeral.decimal index ++ " out of range (max " ++ Numeral.decimal last
      ++ ")"
  | emptyInstruction => "empty instruction"
  | noSuchInstruction name => name ++ ": no such instruction"
  | unknownFormat name code => name ++ ": unknown format " ++ Numeral.decimal code.toNat
  | inInstruction name cause => name ++ ": " ++ cause.message
  | malformedOperands operands => "malformed operand list " ++ Text.quoted operands
  | unexpectedOperands operands => "unexpected operands " ++ Text.quoted operands
  | numberOutOfRange digits => "number " ++ Text.quoted digits ++ " out of range"
  | unknownComparison name => "unknown comparison " ++ Text.quoted name
  | undefinedLabel name => "undefined label " ++ Text.quoted name
  | loopEndAtStart name =>
    "loop end label " ++ Text.quoted name ++ " must follow at least one instruction"
  | redundantCondition operands =>
    "invalid or redundant condition " ++ Text.quoted operands
  | fieldTooWide name field value width =>
    name ++ ": " ++ field.label ++ " " ++ valueText field value ++ " does not fit in "
      ++ Numeral.decimal width ++ " bits"
  | indexNotEncodable name index =>
    name ++ ": relative addressing [" ++ index.name ++ "] cannot be encoded"
  | unknownOpcode code => "unknown opcode 0x" ++ Numeral.hexPadded 2 code.toNat
  | maskLength mask =>
    "destination mask " ++ Text.quoted mask ++ " must have 4 components"
  | maskComponent component mask =>
    "invalid component " ++ Text.quotedByte component ++ " in destination mask "
      ++ Text.quoted mask
  | tooManySwizzles count =>
    "operand descriptor takes at most 3 swizzles, got " ++ Numeral.decimal count
  | swizzleLength swizzle => "swizzle " ++ Text.quoted swizzle ++ " must have 4 components"
  | swizzleComponent component swizzle =>
    "invalid component " ++ Text.quotedByte component ++ " in swizzle " ++ Text.quoted swizzle
  | floatOutOfRange single => "float " ++ Single.toText single ++ " is out of float24 range"
  | componentOutOfRange component =>
    "integer constant component " ++ Numeral.signed component ++ " out of range [-128, 255]"
  | constantWithoutRegister => ".const needs a register operand"
  | constantRegisterClass token => token ++ ": constant register must be b, i or c"
  | notABit token => "bool constant " ++ Text.quoted token ++ " must be 0 or 1"
  | malformedInteger token => "malformed integer " ++ Text.quoted token
  | malformedFloat token => "malformed float " ++ Text.quoted token
  | outputRegisterClass token => token ++ ": output binding needs an o register"
  | noSuchSemantic name => name ++ ": no such output semantic"
  | malformedOutputMask token => "malformed output mask " ++ Text.quoted token
  | outputMaskTooWide mask => "output mask 0x" ++ Numeral.hex mask ++ " wider than 0xf"
  | mixedUniformClasses first last =>
    "inconsistent uniform register classes " ++ first ++ " and " ++ last
  | uniformRegisterClass token => token ++ ": uniform register must be c, i or b"
  | reversedUniformRange first last =>
    "uniform range " ++ first ++ ".." ++ last ++ " is reversed"
  | malformedUniformName name => "malformed uniform name " ++ Text.quoted name
  | missingDirectiveName => "missing directive name"
  | noSuchDirective name => "." ++ name ++ ": no such directive"
  | emptyOperand number operands =>
    "empty operand " ++ Numeral.decimal number ++ " in " ++ Text.quoted operands
  | operandCount directive allowed count =>
    "." ++ directive ++ " takes " ++ Text.joinWith " or " (allowed.map Numeral.decimal)
      ++ " operands, got " ++ Numeral.decimal count
  | malformedLabel label => "malformed label " ++ Text.quoted label
  | duplicateLabel name address =>
    "duplicate label " ++ Text.quoted name ++ " (already at 0x"
      ++ Numeral.hexPadded 3 address.toNat ++ ")"
  | entryDeclaredTwice directive line =>
    "." ++ directive ++ " already declared on line " ++ Numeral.decimal line

/-- A grammar fault found in the operands of an instruction is reported under its name; a fault of
another kind speaks for itself. -/
def under (name : Text) (fault : Fault) : Fault :=
  if fault.kind = .grammar then .inInstruction name fault else fault

@[simp] theorem under_kind (name : Text) (fault : Fault) : (under name fault).kind = fault.kind := by
  unfold under
  split <;> rfl

end Fault

end PicaShader
