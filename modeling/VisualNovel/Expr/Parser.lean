import VisualNovel.Expr.Basic
import VisualNovel.Expr.Lexer

/-!
This module contains the parser of expressions, one function for each construct of the grammar. A function
takes its construct from the front of the tokens; the calls end because the tokens get fewer, or the
binding gets stronger.
-/

namespace VisualNovel
namespace Expr

def fail (fault : SyntaxFault) : Except Fault α :=
  .error (.badSyntax fault)

def punctOf? : List Token → Option Punct
  | { kind := .punct p, .. } :: _ => some p
  | _ => none

/--
The tokens after a punctuator that has to come next.
-/
def expect (p : Punct) (ts : List Token) : Except Fault (Taken ts Unit) :=
  match ts with
  | [] => fail (.expected p)
  | t :: rest =>
    if t.kind = .punct p then .ok { value := (), rest, shorter := by simp } else fail (.expected p)

/--
The name or literal of a word.
-/
def ofWord (word : String) : Expr :=
  if word = "true" then .literal (.bool true)
  else if word = "false" then .literal (.bool false)
  else if word = "null" || word = "undefined" then .literal .null
  else .name word

def number (x : Binary64) : Except Fault Number :=
  match Number.ofBinary64? x with
  | some n => .ok n
  | none => .error (.notFinite x)

/--
Reads the key of an object's entry.
-/
def readKey : (ts : List Token) → Except Fault (Taken ts String)
  | { kind := .name s, .. } :: rest | { kind := .string s, .. } :: rest =>
    .ok { value := s, rest, shorter := by simp }
  | { kind := .number x, .. } :: rest => do
    let n ← number x
    return { value := n.display, rest, shorter := by simp }
  | _ => fail .expectedKey

mutual

def readAssignment (ts : List Token) : Except Fault (Taken ts Expr) :=
  match readConditional ts with
  | .error e => .error e
  | .ok target =>
    have htarget := target.shorter
    match h : target.rest with
    | [] => .ok target
    | t :: rest =>
      match (punctOf? (t :: rest)).bind assignment? with
      | none => .ok target
      | some op =>
        if target.value.isTarget then do
          have : rest.length < ts.length := by simp [h] at htarget; omega
          let value ← readAssignment rest
          return (value.map (.assign op target.value)).widen (by omega)
        else
          .error .invalidTarget
termination_by (ts.length, levels + 5)

def readConditional (ts : List Token) : Except Fault (Taken ts Expr) :=
  match readLevel 0 ts with
  | .error e => .error e
  | .ok condition =>
    have hcondition := condition.shorter
    match h : condition.rest with
    | [] => .ok condition
    | t :: rest =>
      if t.kind = .punct .question then
        have hrest : rest.length < ts.length := by simp [h] at hcondition; omega
        match readAssignment rest with
        | .error e => .error e
        | .ok yes =>
          have hyes := yes.shorter
          match expect .colon yes.rest with
          | .error e => .error e
          | .ok colon => do
            have hcolon := colon.shorter
            let no ← readAssignment colon.rest
            return (no.map (.conditional condition.value yes.value)).widen (by omega)
      else
        .ok condition
termination_by (ts.length, levels + 4)

/--
Reads operands and operators of a level, and of the levels that bind stronger.
-/
def readLevel (level : Nat) (ts : List Token) : Except Fault (Taken ts Expr) :=
  if level < levels then
    match readLevel (level + 1) ts with
    | .error e => .error e
    | .ok left =>
      have := left.shorter
      readOperands level left
  else
    readUnary ts
termination_by (ts.length, 3 + (levels - level))

/--
Reads the operators of a level that follow a left operand, with their right operands.
-/
def readOperands (level : Nat) {ts : List Token} (left : Taken ts Expr) : Except Fault (Taken ts Expr) :=
  have hleft := left.shorter
  match h : left.rest with
  | [] => .ok left
  | t :: rest =>
    match (punctOf? (t :: rest)).bind (operator? level) with
    | none => .ok left
    | some op =>
      have hrest : rest.length < left.rest.length := by simp [h]
      match readLevel (level + 1) rest with
      | .error e => .error e
      | .ok right =>
        have hright := right.shorter
        readOperands level {
          value := op left.value right.value
          rest := right.rest
          shorter := by omega
        }
termination_by (left.rest.length, 0)

def readUnary (ts : List Token) : Except Fault (Taken ts Expr) :=
  match (punctOf? ts).bind unary?, ts with
  | some op, _ :: rest => do
    let operand ← readUnary rest
    return (operand.map (.unary op)).widen (by simp)
  | _, ts =>
    match readPrimary ts with
    | .error e => .error e
    | .ok first =>
      have := first.shorter
      readMembers first
termination_by (ts.length, 2)

/--
Reads the member accesses that follow an object.
-/
def readMembers {ts : List Token} (object : Taken ts Expr) : Except Fault (Taken ts Expr) :=
  have hobject := object.shorter
  match h : object.rest with
  | [] => .ok object
  | t :: rest =>
    have hrest : rest.length < object.rest.length := by simp [h]
    if t.kind = .punct .dot then
      match rest with
      | { kind := .name s, .. } :: rest =>
        have : rest.length < object.rest.length := by simp at hrest; omega
        readMembers {
          value := .member object.value (.literal (.string s))
          rest
          shorter := by omega
        }
      | _ => fail .expectedProperty
    else if t.kind = .punct .leftBracket then
      match readAssignment rest with
      | .error e => .error e
      | .ok key =>
        have hkey := key.shorter
        match expect .rightBracket key.rest with
        | .error e => .error e
        | .ok bracket =>
          have hbracket := bracket.shorter
          readMembers {
            value := .member object.value key.value
            rest := bracket.rest
            shorter := by omega
          }
    else
      .ok object
termination_by (object.rest.length, 0)

def readPrimary (ts : List Token) : Except Fault (Taken ts Expr) :=
  match ts with
  | [] => fail .unexpectedEnd
  | t :: rest =>
    match t.kind with
    | .number x => do
      let n ← number x
      return { value := .literal (.number n), rest, shorter := by simp }
    | .string s => .ok { value := .literal (.string s), rest, shorter := by simp }
    | .name s => .ok { value := ofWord s, rest, shorter := by simp }
    | .punct .leftParen =>
      match readAssignment rest with
      | .error e => .error e
      | .ok inner => do
        have hinner := inner.shorter
        let paren ← expect .rightParen inner.rest
        return (paren.map fun _ => inner.value).widen (by simp; omega)
    | .punct .leftBracket => do
      let items ← readItems rest
      return (items.map .array).widen (by simp)
    | .punct .leftBrace => do
      let entries ← readEntries rest
      return (entries.map .object).widen (by simp)
    | .punct p => fail (.unexpectedPunct p)
termination_by (ts.length, 1)

/--
Reads the items of an array and its closing bracket. The last item may have a comma after it.
-/
def readItems (ts : List Token) : Except Fault (Taken ts (List Expr)) :=
  match expect .rightBracket ts with
  | .ok bracket => .ok (bracket.map fun _ => [])
  | .error _ =>
    match readAssignment ts with
    | .error e => .error e
    | .ok item =>
      have hitem := item.shorter
      match expect .comma item.rest with
      | .ok comma => do
        have hcomma := comma.shorter
        let items ← readItems comma.rest
        return (items.map (item.value :: ·)).widen (by omega)
      | .error _ => do
        let bracket ← expect .rightBracket item.rest
        return (bracket.map fun _ => [item.value]).widen (by omega)
termination_by (ts.length, levels + 6)

/--
Reads the entries of an object and its closing brace. The last entry may have a comma after it.
-/
def readEntries (ts : List Token) : Except Fault (Taken ts (List (String × Expr))) :=
  match expect .rightBrace ts with
  | .ok brace => .ok (brace.map fun _ => [])
  | .error _ =>
    match readKey ts with
    | .error e => .error e
    | .ok key =>
      have hkey := key.shorter
      match expect .colon key.rest with
      | .error e => .error e
      | .ok colon =>
        have hcolon := colon.shorter
        match readAssignment colon.rest with
        | .error e => .error e
        | .ok value =>
          have hvalue := value.shorter
          match expect .comma value.rest with
          | .ok comma => do
            have hcomma := comma.shorter
            let entries ← readEntries comma.rest
            return (entries.map ((key.value, value.value) :: ·)).widen (by omega)
          | .error _ => do
            let brace ← expect .rightBrace value.rest
            return (brace.map fun _ => [(key.value, value.value)]).widen (by omega)
termination_by (ts.length, levels + 6)

end

/--
Reads statements, each of which ends at a semicolon, at a line break or at the end.
-/
def readStatements (ts : List Token) : Except Fault (List Expr) :=
  match ts with
  | [] => .ok []
  | t :: rest =>
    if t.kind = .punct .semicolon then
      readStatements rest
    else
      match readAssignment (t :: rest) with
      | .error e => .error e
      | .ok first =>
        have hfirst := first.shorter
        match h : first.rest with
        | [] => .ok [first.value]
        | next :: others =>
          if next.kind = .punct .semicolon || next.newlineBefore then
            have : others.length < rest.length := by simpa [h] using hfirst
            (readStatements (next :: others)).map (first.value :: ·)
          else
            fail (.unexpectedToken next.kind)
termination_by ts.length

/--
Parses all tokens. No statement stands for null.
-/
def parseTokens (ts : List Token) : Except Fault Expr :=
  (readStatements ts).map fun
    | [] => .literal .null
    | [statement] => statement
    | statements => .sequence statements

def parse (source : String) : Except Fault Expr := do
  parseTokens (← tokenize false source.toList)

theorem parse_of_tokenize {source : String} {ts : List Token} (h : tokenize false source.toList = .ok ts)
    : parse source = parseTokens ts := by
  rw [parse, h]
  rfl

end Expr
end VisualNovel
