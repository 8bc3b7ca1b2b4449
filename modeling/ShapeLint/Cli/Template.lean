/-!
# The configuration to start from

A configuration with two rules and a summary of what patterns look like.
-/

namespace ShapeLint.Cli

/-- The text of the configuration to start from. -/
def template : String :=
  "# javasee configuration
#
# Each rule flags the Java expressions matching one of its patterns,
# unless one of its justification patterns matches the same expression.
#
# Pattern syntax:
#   _                     any expression
#   foo                   the identifier foo
#   1  1.5  \"s\"  true     literals (int, double, string, boolean)
#   :int: :double: :string: :bool:
#                         any literal of that type
#   null  this
#   recv.name             field access
#   recv.name(args)       method call;  name(args) for an unqualified call
#   new Type(args)        instance creation
#   e instanceof Type
#   a + b, a == b, !a, i++, a[i], ...   Java operators
#   :lambda:              any lambda
#   ...                   as the only argument, any number of arguments
#
# Context suffixes:
#   [conditional]         the expression is an if/while/do/for/?: condition
#   [!conditional]        the expression is the operand of a ! that is one
#   [discarded]           the value is thrown away (expression statement,
#                         for-loop init or update)
#   [!discarded]          the value is read by an enclosing expression,
#                         declaration, return or condition

rules:
  - id: javasee.sample.debug_print
    message: |
      Debug print found

      Remove the print or use a logger.
    pattern:
      - '_.println(\"debug\")'
      - '_.print(\"debug\")'
    tags:
      - debug
    before:
      - 'System.out.println(\"debug\");'
    after:
      - 'logger.debug(\"debug\");'

  - id: javasee.sample.null_check
    message: Consider Objects.isNull / Optional instead of comparing with null
    pattern: '_ == null [conditional]'
    before:
      - 'if (x == null) \x7b return; \x7d'
    after:
      - 'boolean b = x == null;'

# import:
#   - load: rules/*.yml

# exclude:
#   - build/**
"

end ShapeLint.Cli
