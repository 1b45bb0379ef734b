import TemplateSyntax.Parse.Expression

/-! # Nodes and Blocks

  The grammar of nodes: stretches of text and comments as they are, and behind an
  opening brace whatever its first word says, an interpolation if that is no word of
  a block.

  The nodes inside a block reach up to a brace with one of the words that may end
  them. That brace belongs to whoever reads on: an `else` reads no closing brace, and
  the `if` that it belongs to closes all of them at once.
-/

namespace TemplateSyntax.Parse

variable {P : Type → Type} [Parsing P]

/-! ### Nodes -/

/-- A token whose text is the node. -/
def leaf (make : String → Node) : P Node := do
  let t ← advance
  return make t.text

/-- One node. -/
def node (n : Calls P) : P Node := do
  let t ← current
  if t.kind.isMarkup then leaf .text
  else
    match t.kind with
    | .comment => leaf .comment
    | .exprStart => n.block
    | kind => fail (.unknown kind t.text)

/-- Nodes up to a brace with one of the words. -/
def nodesUntil (n : Calls P) (words : List Kind) (expected : Expected) : P (List Node) :=
  many fun c =>
    if c.atBlock words then none
    else if c.atEnd then some (unexpected expected)
    else some (node n)

/-- A word in braces. -/
def closing (word : Kind) : P Unit := do
  let _ ← expect .exprStart
  let _ ← expect word
  let _ ← expect .exprEnd

/-! ### Conditions -/

/-- The brace and what follows it, if it opens an `else`. -/
def alternate? (n : Calls P) : P (Option Alternate) :=
  branch (·.atBlock [.elseStart])
    (do let _ ← advance; return some (← n.alternate))
    (pure none)

/-- A condition with its nodes and alternates, up to the closing brace. -/
def ifBlock (n : Calls P) : P IfBlock := do
  let _ ← expect .ifStart
  let condition ← n.expression
  let _ ← expect .exprEnd
  let consequent ← nodesUntil n [.elseStart, .ifEnd] .endOfIf
  let alternate ← alternate? n
  return ⟨condition, consequent, alternate⟩

/-- A further condition, or the nodes for when no condition holds. -/
def alternate (n : Calls P) : P Alternate := do
  let _ ← expect .elseStart
  let t ← current
  if t.kind = .ifStart then return .elseIf (← ifBlock n)
  else
    let _ ← expect .exprEnd
    return .otherwise (← nodesUntil n [.ifEnd] .endOfIf)

/-- The node of an alternate that belongs to no condition. -/
def strayNode : Alternate → Node
  | .elseIf block => .ifBlock block
  | .otherwise body => .program body

/-! ### Switch Blocks -/

/-- The words that end the nodes of a case. -/
def caseEnds : List Kind := [.caseStart, .defaultStart, .switchEnd]

/-- The values of a case and its nodes. -/
def case (n : Calls P) : P Case := do
  let _ ← advance
  let _ ← expect .caseStart
  let values ← expressions n
  let _ ← expect .exprEnd
  return .case values (← nodesUntil n caseEnds .endOfSwitch)

/-- The nodes for all other values. -/
def defaultCase (n : Calls P) : P Case := do
  let _ ← advance
  let _ ← expect .defaultStart
  let _ ← expect .exprEnd
  return .default (← nodesUntil n caseEnds .endOfSwitch)

/-- Passes over a token that belongs to no case. Only a brace goes unreported. -/
def skip : P (Option Case) := do
  let t ← advance
  if t.kind = .exprStart then return none
  else
    report (.skipped t)
    return none

/-- A case, or a token to be passed over. -/
def caseOrSkip (n : Calls P) : P (Option Case) :=
  branch (·.atBlock [.caseStart]) (some <$> case n)
    (branch (·.atBlock [.defaultStart]) (some <$> defaultCase n) skip)

/-- A switch block behind its opening brace. -/
def switchBlock (n : Calls P) : P Node := do
  let _ ← expect .switchStart
  let test ← n.expression
  let _ ← expect .exprEnd
  let cases ← many fun c =>
    if c.atBlock [.switchEnd] then none
    else if c.atEnd then some (unexpected .endOfSwitch)
    else some (caseOrSkip n)
  closing .switchEnd
  return .switchBlock test (cases.filterMap id)

/-! ### Other Blocks -/

/-- A comma and the name of the counter, if there is one. -/
def counter? : P (Option String) := do
  let t ← current
  if t.kind = .comma then
    let _ ← advance
    return some (← expect .identifier).text
  else return none

/-- A loop behind its opening brace. -/
def forBlock (n : Calls P) : P Node := do
  let _ ← expect .forStart
  let iterator ← expect .identifier
  let index ← counter?
  let _ ← expect .forIn
  let iterable ← n.expression
  let _ ← expect .exprEnd
  let body ← nodesUntil n [.forEnd] .endOfFor
  closing .forEnd
  return .forBlock iterator.text index iterable body

/-- An import behind its opening brace. -/
def importFile : P Node := do
  let _ ← expect .importStart
  let path ← expect .string
  let _ ← expect .exprEnd
  return .importFile path.text

/-- An expression behind its opening brace. Braces with nothing between them stand for
    the null value. -/
def interpolation (n : Calls P) : P Node := do
  let t ← current
  if t.kind = .exprEnd then
    let _ ← advance
    return .interpolation .null
  else
    let value ← n.expression
    let _ ← expect .exprEnd
    return .interpolation value

/-! ### Blocks -/

/-- A block from its opening brace. Its first word says which it is. -/
def block (n : Calls P) : P Node := do
  let word ← following
  let _ ← advance
  match word.kind with
  | .ifStart => do
    let b ← ifBlock n
    closing .ifEnd
    return .ifBlock b
  | .elseStart => return strayNode (← alternate n)
  | .switchStart => switchBlock n
  | .forStart => forBlock n
  | .importStart => importFile
  | _ => interpolation n

/-! ### Templates -/

/-- Nodes up to the end of the input. -/
def nodes (n : Calls P) : P (List Node) :=
  many fun c => if c.atEnd then none else some (node n)

/-- Nodes up to the end of the input, as a template. -/
def programOf (n : Calls P) : P Program := do
  let body ← nodes n
  report (.parsed body.length)
  return ⟨body⟩

end TemplateSyntax.Parse
