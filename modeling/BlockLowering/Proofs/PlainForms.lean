import BlockLowering.Session.Run

/-!
# Plain forms

Some differences between trees mean nothing to lowering: parentheses, the two equality operators,
the kinds of variables, the results and names that functions are written with, the names of
namespaces, empty statements, and whether a branch stands in braces. The plain form of a tree has
none of them, at any depth, in the parts that lowering rejects as well. What else lowering reads of
a tree, it reads of the plain form.
-/

namespace BlockLowering

open IR Diagnostic Source

namespace Source

/-! ## The plain form of a tree -/

/-- Equality is written in one way. -/
def BinaryOperator.plain : BinaryOperator → BinaryOperator
  | .strictEqual => .equal
  | other => other

def Statement.isEmpty : Statement → Bool
  | .empty _ => true
  | _ => false

/-- The statement in braces, at the same place. -/
def Statement.braced : Statement → Statement
  | .block group => .block group
  | other => .block ⟨[other], other.span⟩

section

-- the name that every namespace gets
variable (label : Ident)

mutual

def Expression.plain : Expression → Expression
  | .template tag parts span => .template (plainExpression? tag) (plainParts parts) span
  | .array elements span => .array (plainExpressions elements) span
  | .object properties span => .object (plainObject properties) span
  | .unary operator operand span => .unary operator operand.plain span
  | .binary operator left right span => .binary operator.plain left.plain right.plain span
  | .logical operator left right span => .logical operator left.plain right.plain span
  | .assignment operator left right span => .assignment operator left.plain right.plain span
  | .conditional test consequent alternate span =>
    .conditional test.plain consequent.plain alternate.plain span
  | .call callee typeArgs args span => .call callee.plain typeArgs (plainExpressions args) span
  | .member object property span => .member object.plain property span
  | .index object position span => .index object.plain position.plain span
  | .new callee typeArgs args span => .new callee.plain typeArgs (plainExpressions args) span
  | .function _ typeParams params _ body span =>
    .function none typeParams (plainParams params) none body.plain span
  | .parenthesized inner _ => inner.plain
  | .comma items span => .comma (plainExpressions items) span
  | .instanceOf object type span => .instanceOf object.plain type span
  | .typeCast object type span => .typeCast object.plain type span
  | leaf => leaf

def plainExpressions : List Expression → List Expression
  | [] => []
  | e :: rest => e.plain :: plainExpressions rest

def plainExpression? : Option Expression → Option Expression
  | none => none
  | some e => some e.plain

def plainParts : List TemplatePart → List TemplatePart
  | [] => []
  | .text value :: rest => .text value :: plainParts rest
  | .expression e :: rest => .expression e.plain :: plainParts rest

def Property.plain : Property → Property
  | ⟨key, value, span⟩ => ⟨key.plain, value.plain, span⟩

def PropertyKey.plain : PropertyKey → PropertyKey
  | .computed e => .computed e.plain
  | other => other

def plainObject : List Property → List Property
  | [] => []
  | p :: rest => p.plain :: plainObject rest

def Parameter.plain : Parameter → Parameter
  | ⟨kind, pattern, type, initial, span⟩ => ⟨kind, pattern, type, plainExpression? initial, span⟩

def plainParams : List Parameter → List Parameter
  | [] => []
  | p :: rest => p.plain :: plainParams rest

def Block.plain : Block → Block
  | ⟨statements, span⟩ => ⟨plainStatements statements, span⟩

def plainBlock? : Option Block → Option Block
  | none => none
  | some group => some group.plain

def VariableDecl.plain : VariableDecl → VariableDecl
  | ⟨_, pattern, type, initial, span⟩ =>
    ⟨.letBinding, pattern, type, plainExpression? initial, span⟩

def FunctionDecl.plain : FunctionDecl → FunctionDecl
  | ⟨name, typeParams, params, _, body, span⟩ =>
    ⟨name, typeParams, plainParams params, none, body.plain, span⟩

def FieldDecl.plain : FieldDecl → FieldDecl
  | ⟨name, type, initial, span⟩ => ⟨name, type, plainExpression? initial, span⟩

def plainMembers : List ClassMember → List ClassMember
  | [] => []
  | .field decl :: rest => .field decl.plain :: plainMembers rest
  | .method decl :: rest => .method decl.plain :: plainMembers rest

def SwitchCase.plain : SwitchCase → SwitchCase
  | ⟨test, consequent, span⟩ => ⟨plainExpression? test, plainStatements consequent, span⟩

def plainCases : List SwitchCase → List SwitchCase
  | [] => []
  | c :: rest => c.plain :: plainCases rest

def CatchClause.plain : CatchClause → CatchClause
  | ⟨param, body, span⟩ => ⟨param, body.plain, span⟩

def plainHandler? : Option CatchClause → Option CatchClause
  | none => none
  | some handler => some handler.plain

def plainInit? : Option ForInit → Option ForInit
  | none => none
  | some (.variableDecl decl) => some (.variableDecl decl.plain)
  | some (.expression e) => some (.expression e.plain)

/-- Only the branches of an `if` and the body of a `while` are put in braces. -/
def Statement.plain : Statement → Statement
  | .variableDecl decl => .variableDecl decl.plain
  | .functionDecl decl => .functionDecl decl.plain
  | .namespaceDecl _ members span => .namespaceDecl label (plainStatements members) span
  | .classDecl name typeParams base members span =>
    .classDecl name typeParams base (plainMembers members) span
  | .exportDecl declaration span => .exportDecl declaration.plain span
  | .expression value span => .expression value.plain span
  | .ifElse condition thenBranch elseBranch span =>
    .ifElse condition.plain thenBranch.plain.braced (plainElse elseBranch) span
  | .switch discriminant cases span => .switch discriminant.plain (plainCases cases) span
  | .whileLoop condition body span => .whileLoop condition.plain body.plain.braced span
  | .doWhile body condition span => .doWhile body.plain condition.plain span
  | .forLoop init test update body span =>
    .forLoop (plainInit? init) (plainExpression? test) (plainExpression? update) body.plain span
  | .forOf binding iterable body span => .forOf binding.plain iterable.plain body.plain span
  | .returnValue value span => .returnValue (plainExpression? value) span
  | .throwValue value span => .throwValue value.plain span
  | .tryCatch body handler finalizer span =>
    .tryCatch body.plain (plainHandler? handler) (plainBlock? finalizer) span
  | .block group => .block group.plain
  | other => other

def plainElse : Option Statement → Option Statement
  | none => none
  | some branch => some branch.plain.braced

/-- Empty statements are dropped. -/
def plainStatements : List Statement → List Statement
  | [] => []
  | s :: rest => if s.isEmpty then plainStatements rest else s.plain :: plainStatements rest

end

/-- The plain form of a module. -/
def Module.plain (m : Module) : Module := ⟨plainStatements label m.statements, m.span⟩

-- `if ((a === b)) ; else { ; var f = function g() {} }`
example (a b f g : Ident) (s : Span) :
    Statement.plain label
      (.ifElse (.parenthesized (.binary .strictEqual (.identifier a) (.identifier b) s) s)
        (.empty s) (some (.block ⟨[.empty s, .variableDecl ⟨.varBinding, .identifier f, none,
          some (.function (some g) [] [] none ⟨[], s⟩ s), s⟩], s⟩)) s) =
      .ifElse (.binary .equal (.identifier a) (.identifier b) s) (.block ⟨[.empty s], s⟩)
        (some (.block ⟨[.variableDecl ⟨.letBinding, .identifier f, none,
          some (.function none [] [] none ⟨[], s⟩ s), s⟩], s⟩)) s := by
  rfl

/-! ## What lowering reads of a tree -/

/-- What stands inside all parentheses. -/
def Expression.unwrapped : Expression → Expression
  | .parenthesized inner _ => inner.unwrapped
  | other => other

variable {label}

theorem Expression.kind_plain : ∀ e : Expression, (e.plain label).kind = e.unwrapped.kind
  | .parenthesized inner _ => by
    simp only [Expression.plain, Expression.unwrapped]
    exact inner.kind_plain
  | .int .. | .float .. | .string .. | .template .. | .boolean .. | .null .. | .this .. | .super ..
  | .identifier .. | .array .. | .object .. | .unary .. | .binary .. | .logical .. | .assignment ..
  | .conditional .. | .call .. | .member .. | .index .. | .new .. | .function .. | .comma ..
  | .instanceOf .. | .typeCast .. => by
    simp only [Expression.plain, Expression.unwrapped, Expression.kind]

theorem Expression.span_plain : ∀ e : Expression, (e.plain label).span = e.unwrapped.span
  | .parenthesized inner _ => by
    simp only [Expression.plain, Expression.unwrapped]
    exact inner.span_plain
  | .int .. | .float .. | .string .. | .template .. | .boolean .. | .null .. | .this .. | .super ..
  | .identifier .. | .array .. | .object .. | .unary .. | .binary .. | .logical .. | .assignment ..
  | .conditional .. | .call .. | .member .. | .index .. | .new .. | .function .. | .comma ..
  | .instanceOf .. | .typeCast .. => by
    simp only [Expression.plain, Expression.unwrapped, Expression.span]

@[simp] theorem Statement.span_braced (s : Statement) : s.braced.span = s.span := by
  cases s <;> rfl

@[simp] theorem Block.span_plain (b : Block) : (b.plain label).span = b.span := by
  obtain ⟨statements, span⟩ := b
  simp only [Block.plain]

@[simp] theorem Statement.span_plain (s : Statement) : (s.plain label).span = s.span := by
  cases s with
  | variableDecl decl =>
    obtain ⟨kind, pattern, type, initial, span⟩ := decl
    simp only [Statement.plain, VariableDecl.plain, Statement.span]
  | functionDecl decl =>
    obtain ⟨name, typeParams, params, result, body, span⟩ := decl
    simp only [Statement.plain, FunctionDecl.plain, Statement.span]
  | block group => simp only [Statement.plain, Statement.span, Block.span_plain]
  | _ => simp only [Statement.plain, Statement.span]

@[simp] theorem Module.functionNames_plain (m : Module) :
    (m.plain label).functionNames = m.functionNames := by
  obtain ⟨statements, span⟩ := m
  unfold Module.functionNames Module.plain
  dsimp only
  induction statements with
  | nil => simp only [plainStatements]
  | cons s rest ih =>
    cases s with
    | empty span =>
      simp only [plainStatements, Statement.isEmpty, if_true, List.filterMap_cons, ih]
    | functionDecl decl =>
      obtain ⟨name, typeParams, params, result, body, span⟩ := decl
      simp only [plainStatements, Statement.isEmpty, Bool.false_eq_true, if_false, Statement.plain,
        FunctionDecl.plain, List.filterMap_cons, ih]
    | _ =>
      simp only [plainStatements, Statement.isEmpty, Bool.false_eq_true, if_false, Statement.plain,
        List.filterMap_cons, ih]

end

end Source

end BlockLowering
