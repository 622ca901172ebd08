import BlockLowering.Source.Node

/-!
# Equality of source trees

Two trees are the same if they have the same shape, symbols, operators and spans, and if their
float literals are equal as numbers. So a tree that holds a NaN differs from itself, and a positive
and a negative zero agree.
-/

namespace BlockLowering.Source

/-! ## Types and patterns -/

mutual

def Ascription.same : Ascription → Ascription → Bool
  | ⟨a, s⟩, ⟨b, t⟩ => a.same b && s == t
termination_by structural a => a

def TypeExpr.same : TypeExpr → TypeExpr → Bool
  | .reference n as s, .reference m bs t => n == m && sameAscriptions as bs && s == t
  | .function ps a s, .function qs b t => sameTypeParams ps qs && a.same b && s == t
  | .array a s, .array b t => a.same b && s == t
  | .union as s, .union bs t => sameAscriptions as bs && s == t
  | _, _ => false
termination_by structural a => a

def sameAscriptions : List Ascription → List Ascription → Bool
  | [], [] => true
  | a :: as, b :: bs => a.same b && sameAscriptions as bs
  | _, _ => false
termination_by structural a => a

def sameTypeParams : List FunctionTypeParam → List FunctionTypeParam → Bool
  | [], [] => true
  | ⟨n, a⟩ :: as, ⟨m, b⟩ :: bs => n == m && a.same b && sameTypeParams as bs
  | _, _ => false
termination_by structural a => a

end

/-- Both are absent, or both are present and agree. -/
def sameOption {α : Type} (same : α → α → Bool) : Option α → Option α → Bool
  | none, none => true
  | some a, some b => same a b
  | _, _ => false

/-- Equally long, and the members agree in order. -/
def sameList {α : Type} (same : α → α → Bool) : List α → List α → Bool
  | [], [] => true
  | a :: as, b :: bs => same a b && sameList same as bs
  | _, _ => false

def TypeParameter.same (p q : TypeParameter) : Bool :=
  p.name == q.name && sameOption Ascription.same p.bound q.bound &&
    sameOption Ascription.same p.initial q.initial && p.span == q.span

mutual

def Pattern.same : Pattern → Pattern → Bool
  | .identifier a, .identifier b => a == b
  | .array as s, .array bs t => sameElements as bs && s == t
  | .object ps s, .object qs t => samePropertyPatterns ps qs && s == t
  | _, _ => false
termination_by structural a => a

def sameElements : List (Option Pattern) → List (Option Pattern) → Bool
  | [], [] => true
  | none :: as, none :: bs => sameElements as bs
  | some a :: as, some b :: bs => a.same b && sameElements as bs
  | _, _ => false
termination_by structural a => a

def samePropertyPatterns : List PropertyPattern → List PropertyPattern → Bool
  | [], [] => true
  | ⟨k, a, s⟩ :: ps, ⟨l, b, t⟩ :: qs =>
    k == l && a.same b && s == t && samePropertyPatterns ps qs
  | _, _ => false
termination_by structural a => a

end

/-! ## Expressions and statements -/

mutual

def Expression.same : Expression → Expression → Bool
  | .int a s, .int b t => a == b && s == t
  | .float a s, .float b t => a.sameNumber b && s == t
  | .string a, .string b => a == b
  | .template f as s, .template g bs t => sameExpression? f g && sameParts as bs && s == t
  | .boolean a s, .boolean b t => a == b && s == t
  | .null s, .null t => s == t
  | .this s, .this t => s == t
  | .super s, .super t => s == t
  | .identifier a, .identifier b => a == b
  | .array as s, .array bs t => sameExpressions as bs && s == t
  | .object as s, .object bs t => sameObject as bs && s == t
  | .unary o a s, .unary p b t => o == p && a.same b && s == t
  | .binary o a₁ a₂ s, .binary p b₁ b₂ t => o == p && a₁.same b₁ && a₂.same b₂ && s == t
  | .logical o a₁ a₂ s, .logical p b₁ b₂ t => o == p && a₁.same b₁ && a₂.same b₂ && s == t
  | .assignment o a₁ a₂ s, .assignment p b₁ b₂ t => o == p && a₁.same b₁ && a₂.same b₂ && s == t
  | .conditional a₁ a₂ a₃ s, .conditional b₁ b₂ b₃ t =>
    a₁.same b₁ && a₂.same b₂ && a₃.same b₃ && s == t
  | .call f ts as s, .call g us bs t =>
    f.same g && sameAscriptions ts us && sameExpressions as bs && s == t
  | .member a p s, .member b q t => a.same b && p == q && s == t
  | .index a₁ a₂ s, .index b₁ b₂ t => a₁.same b₁ && a₂.same b₂ && s == t
  | .new f ts as s, .new g us bs t =>
    f.same g && sameAscriptions ts us && sameExpressions as bs && s == t
  | .function n ts ps r a s, .function m us qs v b t =>
    n == m && sameList TypeParameter.same ts us && sameParams ps qs &&
      sameOption Ascription.same r v && a.same b && s == t
  | .parenthesized a s, .parenthesized b t => a.same b && s == t
  | .comma as s, .comma bs t => sameExpressions as bs && s == t
  | .instanceOf a u s, .instanceOf b v t => a.same b && u.same v && s == t
  | .typeCast a u s, .typeCast b v t => a.same b && u.same v && s == t
  | _, _ => false
termination_by structural a => a

def sameExpression? : Option Expression → Option Expression → Bool
  | none, none => true
  | some a, some b => a.same b
  | _, _ => false
termination_by structural a => a

def sameExpressions : List Expression → List Expression → Bool
  | [], [] => true
  | a :: as, b :: bs => a.same b && sameExpressions as bs
  | _, _ => false
termination_by structural a => a

def sameParts : List TemplatePart → List TemplatePart → Bool
  | [], [] => true
  | .text a :: as, .text b :: bs => a == b && sameParts as bs
  | .expression a :: as, .expression b :: bs => a.same b && sameParts as bs
  | _, _ => false
termination_by structural a => a

def PropertyKey.same : PropertyKey → PropertyKey → Bool
  | .identifier a, .identifier b => a == b
  | .string a, .string b => a == b
  | .computed a, .computed b => a.same b
  | _, _ => false
termination_by structural a => a

def Property.same : Property → Property → Bool
  | ⟨k, a, s⟩, ⟨l, b, t⟩ => k.same l && a.same b && s == t
termination_by structural a => a

def sameObject : List Property → List Property → Bool
  | [], [] => true
  | a :: as, b :: bs => a.same b && sameObject as bs
  | _, _ => false
termination_by structural a => a

def Parameter.same : Parameter → Parameter → Bool
  | ⟨k, p, u, a, s⟩, ⟨l, q, v, b, t⟩ =>
    k == l && p.same q && sameOption Ascription.same u v && sameExpression? a b && s == t
termination_by structural a => a

def sameParams : List Parameter → List Parameter → Bool
  | [], [] => true
  | a :: as, b :: bs => a.same b && sameParams as bs
  | _, _ => false
termination_by structural a => a

def Block.same : Block → Block → Bool
  | ⟨as, s⟩, ⟨bs, t⟩ => sameStatements as bs && s == t
termination_by structural a => a

def sameBlock? : Option Block → Option Block → Bool
  | none, none => true
  | some a, some b => a.same b
  | _, _ => false
termination_by structural a => a

def VariableDecl.same : VariableDecl → VariableDecl → Bool
  | ⟨k, p, u, a, s⟩, ⟨l, q, v, b, t⟩ =>
    k == l && p.same q && sameOption Ascription.same u v && sameExpression? a b && s == t
termination_by structural a => a

def FunctionDecl.same : FunctionDecl → FunctionDecl → Bool
  | ⟨n, ts, ps, r, a, s⟩, ⟨m, us, qs, v, b, t⟩ =>
    n == m && sameList TypeParameter.same ts us && sameParams ps qs &&
      sameOption Ascription.same r v && a.same b && s == t
termination_by structural a => a

def FieldDecl.same : FieldDecl → FieldDecl → Bool
  | ⟨n, u, a, s⟩, ⟨m, v, b, t⟩ =>
    n == m && sameOption Ascription.same u v && sameExpression? a b && s == t
termination_by structural a => a

def sameMembers : List ClassMember → List ClassMember → Bool
  | [], [] => true
  | .field a :: as, .field b :: bs => a.same b && sameMembers as bs
  | .method a :: as, .method b :: bs => a.same b && sameMembers as bs
  | _, _ => false
termination_by structural a => a

def SwitchCase.same : SwitchCase → SwitchCase → Bool
  | ⟨a, as, s⟩, ⟨b, bs, t⟩ => sameExpression? a b && sameStatements as bs && s == t
termination_by structural a => a

def sameCases : List SwitchCase → List SwitchCase → Bool
  | [], [] => true
  | a :: as, b :: bs => a.same b && sameCases as bs
  | _, _ => false
termination_by structural a => a

def CatchClause.same : CatchClause → CatchClause → Bool
  | ⟨p, a, s⟩, ⟨q, b, t⟩ => sameOption Pattern.same p q && a.same b && s == t
termination_by structural a => a

def sameHandler? : Option CatchClause → Option CatchClause → Bool
  | none, none => true
  | some a, some b => a.same b
  | _, _ => false
termination_by structural a => a

def sameInit? : Option ForInit → Option ForInit → Bool
  | none, none => true
  | some (.variableDecl a), some (.variableDecl b) => a.same b
  | some (.expression a), some (.expression b) => a.same b
  | _, _ => false
termination_by structural a => a

def Statement.same : Statement → Statement → Bool
  | .variableDecl a, .variableDecl b => a.same b
  | .functionDecl a, .functionDecl b => a.same b
  | .namespaceDecl n as s, .namespaceDecl m bs t => n == m && sameStatements as bs && s == t
  | .classDecl n ts u as s, .classDecl m us v bs t =>
    n == m && sameList TypeParameter.same ts us && sameOption Ascription.same u v &&
      sameMembers as bs && s == t
  | .typeAlias n ts u s, .typeAlias m us v t =>
    n == m && sameList TypeParameter.same ts us && u.same v && s == t
  | .importDecl ns a s, .importDecl ms b t => ns == ms && a == b && s == t
  | .exportDecl a s, .exportDecl b t => a.same b && s == t
  | .expression a s, .expression b t => a.same b && s == t
  | .ifElse c a₁ a₂ s, .ifElse d b₁ b₂ t =>
    c.same d && a₁.same b₁ && sameStatement? a₂ b₂ && s == t
  | .switch a as s, .switch b bs t => a.same b && sameCases as bs && s == t
  | .whileLoop c a s, .whileLoop d b t => c.same d && a.same b && s == t
  | .doWhile a c s, .doWhile b d t => a.same b && c.same d && s == t
  | .forLoop i c u a s, .forLoop j d v b t =>
    sameInit? i j && sameExpression? c d && sameExpression? u v && a.same b && s == t
  | .forOf v e a s, .forOf w f b t => v.same w && e.same f && a.same b && s == t
  | .breakTo a s, .breakTo b t => a == b && s == t
  | .continueTo a s, .continueTo b t => a == b && s == t
  | .returnValue a s, .returnValue b t => sameExpression? a b && s == t
  | .throwValue a s, .throwValue b t => a.same b && s == t
  | .tryCatch a h f s, .tryCatch b i g t =>
    a.same b && sameHandler? h i && sameBlock? f g && s == t
  | .block a, .block b => a.same b
  | .empty s, .empty t => s == t
  | _, _ => false
termination_by structural a => a

def sameStatements : List Statement → List Statement → Bool
  | [], [] => true
  | a :: as, b :: bs => a.same b && sameStatements as bs
  | _, _ => false
termination_by structural a => a

def sameStatement? : Option Statement → Option Statement → Bool
  | none, none => true
  | some a, some b => a.same b
  | _, _ => false
termination_by structural a => a

end

/-- Nodes of different classes differ. -/
def Node.same : Node → Node → Bool
  | .module a, .module b => sameStatements a.statements b.statements && a.span == b.span
  | .statement a, .statement b => a.same b
  | .expression a, .expression b => a.same b
  | .pattern a, .pattern b => a.same b
  | .ascription a, .ascription b => a.same b
  | .typeExpr a, .typeExpr b => a.same b
  | .typeName a, .typeName b => a == b
  | .typeParameter a, .typeParameter b => a.same b
  | .parameter a, .parameter b => a.same b
  | .fieldDecl a, .fieldDecl b => a.same b
  | .switchCase a, .switchCase b => a.same b
  | .catchClause a, .catchClause b => a.same b
  | .property a, .property b => a.same b
  | _, _ => false

end BlockLowering.Source
