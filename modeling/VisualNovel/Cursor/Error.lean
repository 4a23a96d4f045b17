import VisualNovel.Directive
import VisualNovel.Expr.Error

/-!
This module contains the faults of a script that shows while it is run.
-/

namespace VisualNovel

/--
What is wrong with the conditionals of a script. The directives are the ones that have been reached.
-/
inductive BranchFault where
  | unclosed (directive : Directive)
  | outside (directive : Directive)
  | endWithoutStart
  | loopClosesTooMany
  deriving DecidableEq, Repr

inductive LoopFault where
  | endWithoutStart
  | breakOutside
  | breakOutOfMacro
  | unclosed
  deriving DecidableEq, Repr

inductive DefinitionFault where
  | emptyName
  | reserved (name : String)
  | unclosed (name : String)
  | markInside (name : String)
  | nested (name : String)
  | emptyBody (name : String)
  | endWithoutStart
  deriving DecidableEq, Repr

inductive CursorError where
  | labelNotFound (file label : String)
  | saveMarkNotFound (file mark : String)
  | branch (line : Nat) (fault : BranchFault)
  | loop (line : Nat) (fault : LoopFault)
  | definition (line : Nat) (fault : DefinitionFault)
  | macroDepth (name : String) (limit : Nat)
  | missingParameter (tag parameter : String) (line : Nat)
  | expression (line : Nat) (error : Expr.Error)
  deriving Repr

def BranchFault.message : BranchFault → String
  | .unclosed d => "'" ++ d.name ++ "' has no matching 'endif'."
  | .outside d => "'" ++ d.name ++ "' outside of an 'if' block."
  | .endWithoutStart => "'endif' without a matching 'if'."
  | .loopClosesTooMany => "Loop body closes more 'if' blocks than it opens."

def LoopFault.message : LoopFault → String
  | .endWithoutStart => "'endfor' without a matching 'for'."
  | .breakOutside => "'breakfor' outside of a 'for' loop."
  | .breakOutOfMacro => "'breakfor' cannot leave the macro it appears in."
  | .unclosed => "'for' has no matching 'endfor'."

def DefinitionFault.message : DefinitionFault → String
  | .emptyName => "Macro name is empty."
  | .reserved name => "'" ++ name ++ "' is a reserved tag name."
  | .unclosed name => "Macro '" ++ name ++ "' has no matching 'endmacro'."
  | .markInside name => "Labels and save-marks are not allowed inside macro '" ++ name ++ "'."
  | .nested name => "Macro '" ++ name ++ "' contains a nested definition."
  | .emptyBody name => "Macro '" ++ name ++ "' has an empty body."
  | .endWithoutStart => "'endmacro' without a matching 'macro'."

def CursorError.message : CursorError → String
  | .labelNotFound file label => "Label '" ++ label ++ "' not found in '" ++ file ++ "'"
  | .saveMarkNotFound file mark => "Save-mark '" ++ mark ++ "' not found in '" ++ file ++ "'"
  | .branch line fault =>
    "if/elsif/else/endif mismatch at line " ++ toString line ++ ": " ++ fault.message
  | .loop line fault => "for/endfor mismatch at line " ++ toString line ++ ": " ++ fault.message
  | .definition line fault =>
    "Invalid macro definition at line " ++ toString line ++ ": " ++ fault.message
  | .macroDepth name limit =>
    "Macro '" ++ name ++ "' exceeded the maximum nesting depth of " ++ toString limit
  | .missingParameter tag parameter line =>
    "Tag '" ++ tag ++ "' at line " ++ toString line ++ " requires the parameter '" ++ parameter ++ "'"
  | .expression line error =>
    "Expression error at line " ++ toString line ++ ": " ++ error.message

end VisualNovel
