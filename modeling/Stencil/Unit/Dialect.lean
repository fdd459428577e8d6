/-!
# Dialects

How a snippet language spells the code that a template becomes.
-/

namespace Stencil

/-- The spelling of the generated code. Each function gives a complete statement. -/
structure Dialect where
  /-- The declaration that binds the host value for a template path. -/
  hostBinding : String → String
  /-- The statement that writes a text as it stands. -/
  writeLiteral : String → String
  /-- The statement that writes the value of an expression. -/
  writeExpression : String → String

end Stencil
