import LosslessSyntax.Diagnostic.Basic

/-! The catalogue of messages. The first three are faults of single tokens, the others are noted while the
tokens are read into a tree. -/

namespace LosslessSyntax.Message

def unterminatedString : Message := ⟨1002, .error, "Unterminated string literal."⟩

def commentEndExpected : Message := ⟨1010, .error, "'*/' expected."⟩

def invalidCharacter : Message := ⟨1127, .error, "Invalid character."⟩

def identifierExpected : Message := ⟨1003, .error, "Identifier expected."⟩

/-- A certain token is missing; its spelling is the argument. -/
def tokenExpected : Message := ⟨1005, .error, "'\x7b0\x7d' expected."⟩

def unexpectedToken : Message := ⟨1012, .error, "Unexpected token."⟩

def propertyNameExpected : Message := ⟨1101, .error, "Property name expected."⟩

def expressionExpected : Message := ⟨1109, .error, "Expression expected."⟩

def statementExpected : Message := ⟨1128, .error, "Declaration or statement expected."⟩

/-- The nesting limit, which is the argument, has been passed. -/
def nestingTooDeep : Message := ⟨1200, .error, "Nesting exceeds the maximum depth of \x7b0\x7d."⟩

def emptyStatement : Message := ⟨6001, .warning, "Unnecessary semicolon."⟩

end LosslessSyntax.Message
