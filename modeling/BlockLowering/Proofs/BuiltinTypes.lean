import BlockLowering.Proofs.ArenaLinks
import BlockLowering.Proofs.Isolation
import BlockLowering.Proofs.Reports

/-!
# Builtin types in a session

The types of a session come into force with its first module and stay. A variable that is declared
before, outside every module, finds none of them: its annotation is reported as an unknown name and
the variable has no type (`builtin_annotation_after_steps`).
-/

namespace BlockLowering

open IR Diagnostic Source Session

section

variable {names : SymbolTable} {options : Options} {s : Session}

/-! ## When types are in force -/

theorem isEmpty_typeScopes_ensureTypeScope (s : Session) :
    (Lower.ensureTypeScope.run s).2.typeScopes.isEmpty = false := by
  rw [run_ensureTypeScope_eq]
  by_cases h : s.typeScopes.isEmpty = true
  · rw [if_pos h]
    rfl
  · rw [if_neg h]
    exact Bool.eq_false_iff.2 h

/-- After a module some types are in force. -/
theorem isEmpty_typeScopes_module (hs : Reachable names anyNode s) (m : Module) :
    ((Lower.module names m).run s).2.typeScopes.isEmpty = false := by
  have hstart := (hs.enterUnit m).good
  have hruns := (does_statementList m.statements (covers_anyNode _) 0 _ hstart (Nat.zero_le _)).1
  have hkept : (s.unitStatements names m).typeScopes = (s.enterUnit names m).typeScopes :=
    (hruns.good_frame hstart).2.typeScopes
  rw [run_module hs m]
  show (s.unitStatements names m).typeScopes.isEmpty = false
  rw [hkept]
  exact isEmpty_typeScopes_ensureTypeScope s

/-- A statement changes nothing about the types in force. -/
theorem typeScopes_statement (hs : s.Good names anyNode) (st : Statement) :
    ((Lower.statement names st).run s).2.typeScopes = s.typeScopes :=
  ((does_statementAt false st trivial (covers_anyNode _) 0 s hs (Nat.zero_le _)).1.good_frame
    hs).2.typeScopes

theorem isEmpty_typeScopes_pieces (hs : Reachable names anyNode s) (ps : List Node) :
    ((Lower.pieces names ps).run s).2.typeScopes.isEmpty =
      (s.typeScopes.isEmpty && !ps.any Node.isModule) := by
  induction ps generalizing s with
  | nil => exact (Bool.and_true _).symm
  | cons piece rest ih =>
    cases piece with
    | module m =>
      refine (ih (hs.module (m := m) (covers_anyNode _))).trans ?_
      rw [isEmpty_typeScopes_module hs m]
      exact (Bool.and_false _).symm
    | statement st =>
      have hst := (does_statementAt false st trivial (covers_anyNode _) 0 s hs.good
        (Nat.zero_le _)).reachable hs
      refine (ih hst).trans ?_
      rw [show ((Lower.statementAt names false st).run s).2.typeScopes = s.typeScopes from
        typeScopes_statement hs.good st]
      rfl
    | _ => exact ih hs

/-- Types are in force exactly if some step has lowered a module. -/
theorem isEmpty_typeScopes_run (hs : Reachable names anyNode s) (steps : List Step) :
    (s.run names steps).typeScopes.isEmpty =
      (s.typeScopes.isEmpty && !(steps.flatMap Step.pieces).any Node.isModule) := by
  induction steps generalizing s with
  | nil => exact (Bool.and_true _).symm
  | cons step rest ih =>
    have hnext : Reachable names anyNode (s.step names step) := hs.step fun _ _ => covers_anyNode _
    have hstep : (s.step names step).typeScopes.isEmpty =
        (s.typeScopes.isEmpty && !step.pieces.any Node.isModule) := by
      cases step with
      | options chosen => exact (Bool.and_true _).symm
      | module | statement | expression | node =>
        rw [step_eq_pieces names s _ (by simp)]
        exact isEmpty_typeScopes_pieces hs _
    refine (ih hnext).trans ?_
    rw [hstep, List.flatMap_cons, List.any_append, Bool.not_or, Bool.and_assoc]

namespace Session.Fixed

/-- As long as the options stay the same, the types in force are their builtin types or none. -/
theorem typeNames_eq (h : Fixed options s) :
    s.typeNames = if s.typeScopes.isEmpty then [] else options.builtinTypes := by
  unfold Session.typeNames Arena.typeScope?
  rcases h.types with ⟨hids, _⟩ | ⟨hids, hscopes⟩
  · rw [hids]
    rfl
  · rw [hids, hscopes]
    simp [TypeScope.ofBuiltins, Function.comp_def]

/-- The types in force have no place in any source. -/
theorem span_typeDecl (h : Fixed options s) {d : TypeDeclId} {x : TypeDecl}
    (hx : s.arena.typeDecl? d = some x) : x.span = .synthetic := by
  unfold Arena.typeDecl? Arena.typeScope? at hx
  obtain ⟨scope, hscope, hget⟩ := Option.bind_eq_some_iff.1 hx
  have hmem := List.mem_of_getElem? hscope
  rcases h.types with ⟨_, hscopes⟩ | ⟨_, hscopes⟩
  · rw [hscopes] at hmem
    cases hmem
  · rw [hscopes, List.mem_singleton] at hmem
    have htype := List.mem_of_getElem? hget
    rw [hmem] at htype
    obtain ⟨name, _, rfl⟩ := List.mem_map.1 htype
    rfl

end Session.Fixed

/-! ## Annotations -/

theorem ascription?_returns (s : Session) (written : Option Ascription) :
    After s (Lower.ascription? names written) fun r t =>
      r = written.bind (fun a => (s.resolveType names a).toOption) ∧ t.arena = s.arena := by
  cases written with
  | none => exact ⟨rfl, rfl⟩
  | some a =>
    unfold Lower.ascription?
    refine .get ?_
    rw [Option.bind_some]
    cases s.resolveType names a with
    | ok type => exact ⟨rfl, rfl⟩
    | error problem => exact ⟨rfl, rfl⟩

theorem decls_currentBlock (s : Session) :
    After s Lower.currentBlock fun _ t => t.arena.decls = s.arena.decls := by
  unfold After
  cases hopen : s.openBlocks with
  | nil =>
    rw [Lower.run_currentBlock_none hopen]
    rfl
  | cons b rest =>
    rw [Lower.run_currentBlock_some (congrArg List.head? hopen)]

/-- A variable is declared under the next number, in the block where it stands and with the type
that its annotation means. -/
theorem decl?_variableDecl (hs : s.Good names anyNode) (kind : VariableKind) (id : Ident)
    (written : Option Ascription) (initial : Option Expression) (span : Span) :
    After s (Lower.variableDecl names ⟨kind, .identifier id, written, initial, span⟩) fun _ t =>
      ∃ owner, t.current? = some owner ∧
        t.arena.decl? ⟨s.arena.decls.length⟩ =
          some ⟨names.resolve id.name,
            written.bind fun a => (s.resolveType names a).toOption, .localVar, owner, span⟩ := by
  have hd : anyNode
      (.statement (.variableDecl ⟨kind, .identifier id, written, initial, span⟩)) := trivial
  simp only [Lowering.variableDecl]
  refine .bind hs (does_ascription? hs written) (ascription?_returns s written)
    fun r s₁ hs₁ _ hr hreturns => ?_
  refine .bind hs₁ does_currentBlock (decls_currentBlock s₁) fun b s₂ hs₂ h₂ hb hdecls => ?_
  have htyped : ∀ t, r = some t → ∃ x, written = some x ∧ Names names s₂.arena x t := by
    intro t ht
    obtain ⟨x, hx, head, nameSpan, place, decl, rfl, hdecl, hname⟩ := hr t ht
    exact ⟨_, hx, head, nameSpan, place, decl, rfl, h₂.arena.typeDecl hdecl, hname⟩
  have hnew : After s₂ (Lower.addDecl b (names.resolve id.name) r .localVar span) fun d t =>
      d = ⟨s.arena.decls.length⟩ ∧
        t.arena.decl? d = some ⟨names.resolve id.name, r, .localVar, b, span⟩ := by
    obtain ⟨x, hx, ho⟩ := hs₂.current hb
    unfold After
    rw [Lower.run_addDecl hx ho]
    refine ⟨by rw [hdecls, hreturns.2], ?_⟩
    exact (Arena.decl?_pushDecl s₂.arena _ _).trans (if_pos rfl)
  refine .bind hs₂ (does_addDecl hs₂ hb (by simp) (annotated_of_names hd rfl htyped)) hnew
    fun d s₃ hs₃ h₃ hsees hdecl => ?_
  have hb₃ := h₃.current hb
  -- the initial value comes last and leaves the variable as it is: only placeholders are linked
  obtain ⟨_, hrest⟩ := (does_initialValue initial (covers_anyNode _) 0 s₃ hs₃ (Nat.zero_le _) hb₃
    (show s₃.arena.Sees b (⟨d, id.span⟩ : DeclRef).decl from hsees)).1.good_frame hs₃
  obtain ⟨y, hy, hbecomes⟩ := hrest.arena.decl d _ hdecl.2
  refine ⟨b, hrest.current hb₃, ?_⟩
  rw [← hdecl.1, ← hreturns.1]
  cases hbecomes with
  | same => exact hy
  | linked _ free => cases free

/-- An annotation that is a name. -/
def Source.Ascription.named (head : Ident) (nameSpan typeSpan place : Span) : Ascription :=
  ⟨.reference (.simple head nameSpan) [] typeSpan, place⟩

theorem problem?_named (types : List String) (head : Ident) (nameSpan typeSpan place : Span) :
    Ascription.problem? names types (.named head nameSpan typeSpan place) =
      if names.resolve head.name ∈ types then none
      else some (.nameNotFound (names.resolve head.name) nameSpan) := by
  simp [Ascription.named, Ascription.problem?, TypeName.isQualified, TypeName.head, TypeName.span]

/-- The name of a type in force means a type that is there. -/
theorem resolveType_named (hs : s.Good names anyNode) {head : Ident}
    (h : names.resolve head.name ∈ s.env.types) (nameSpan typeSpan place : Span) :
    ∃ decl x, s.resolveType names (.named head nameSpan typeSpan place) = .ok ⟨decl, place⟩ ∧
      s.arena.typeDecl? decl = some x ∧ x.name = names.resolve head.name := by
  cases hresolve : s.resolveType names (.named head nameSpan typeSpan place) with
  | ok type =>
    obtain ⟨_, _, _, x, hwritten, hx, hname⟩ := names_of_resolveType hs hresolve
    cases hwritten
    exact ⟨type.decl, x, rfl, hx, hname⟩
  | error problem =>
    have hproblem := problem?_eq_some_iff.2 hresolve
    rw [problem?_named, if_pos h] at hproblem
    cases hproblem

/-- A variable whose annotation is the name of a type in force has that type. -/
theorem variableDecl_typed (hs : s.Good names anyNode) {head : Ident}
    (h : names.resolve head.name ∈ s.env.types) (kind : VariableKind) (id : Ident)
    (nameSpan typeSpan place : Span) (initial : Option Expression) (span : Span) :
    After s (Lower.variableDecl names
      ⟨kind, .identifier id, some (.named head nameSpan typeSpan place), initial, span⟩) fun _ t =>
      Reports (initialFindings names (s.env.declare (names.resolve id.name)) initial) s t ∧
        ∃ owner decl x, t.current? = some owner ∧
          t.arena.decl? ⟨s.arena.decls.length⟩ =
            some ⟨names.resolve id.name, some ⟨decl, place⟩, .localVar, owner, span⟩ ∧
          s.arena.typeDecl? decl = some x ∧ x.name = names.resolve head.name := by
  obtain ⟨decl, x, hresolve, hx, hname⟩ := resolveType_named hs h nameSpan typeSpan place
  obtain ⟨owner, howner, hdecl⟩ := decl?_variableDecl hs kind id
    (some (.named head nameSpan typeSpan place)) initial span
  rw [Option.bind_some, hresolve] at hdecl
  have hreports := reports_variableDecl
    ⟨kind, .identifier id, some (.named head nameSpan typeSpan place), initial, span⟩ s hs
  simp only [VariableDecl.findings, ascriptionFindings, Option.bind_some, problem?_named,
    if_pos h] at hreports
  exact ⟨hreports, owner, decl, x, howner, hdecl, hx, hname⟩

/-- A variable whose annotation is an unknown name has no type, and the name is reported first. -/
theorem variableDecl_untyped (hs : s.Good names anyNode) {head : Ident}
    (h : names.resolve head.name ∉ s.env.types) (kind : VariableKind) (id : Ident)
    (nameSpan typeSpan place : Span) (initial : Option Expression) (span : Span) :
    After s (Lower.variableDecl names
      ⟨kind, .identifier id, some (.named head nameSpan typeSpan place), initial, span⟩) fun _ t =>
      Reports (.part (.nameNotFound (names.resolve head.name) nameSpan) ::
        initialFindings names (s.env.declare (names.resolve id.name)) initial) s t ∧
        ∃ owner, t.current? = some owner ∧
          t.arena.decl? ⟨s.arena.decls.length⟩ =
            some ⟨names.resolve id.name, none, .localVar, owner, span⟩ := by
  have hproblem : Ascription.problem? names s.env.types (.named head nameSpan typeSpan place) =
      some (.nameNotFound (names.resolve head.name) nameSpan) := by
    rw [problem?_named, if_neg h]
  obtain ⟨owner, howner, hdecl⟩ := decl?_variableDecl hs kind id
    (some (.named head nameSpan typeSpan place)) initial span
  rw [Option.bind_some, problem?_eq_some_iff.1 hproblem] at hdecl
  have hreports := reports_variableDecl
    ⟨kind, .identifier id, some (.named head nameSpan typeSpan place), initial, span⟩ s hs
  simp only [VariableDecl.findings, ascriptionFindings, Option.bind_some, hproblem] at hreports
  exact ⟨hreports, owner, howner, hdecl⟩

end

/-- In a session that keeps the default options, a variable is declared with a builtin type as its
annotation. If some step before has lowered a module, then the variable has that type and nothing is
reported about the annotation. Otherwise the name of the type is reported as unknown, first of all,
and the variable has no type. In both cases it is a local variable of the open block, with the next
number, and what is found in the initial value is reported last. -/
theorem builtin_annotation_after_steps (names : SymbolTable) (steps : List Step)
    (hdefault : ∀ chosen, .options chosen ∈ steps → chosen = {}) (kind : VariableKind)
    (id head : Ident) (nameSpan typeSpan place : Span) (initial : Option Expression) (span : Span)
    (hbuiltin : names.resolve head.name ∈ builtinTypes) :
    let s := Session.run names steps {}
    let t := s.step names (.statement (.variableDecl
      ⟨kind, .identifier id, some (.named head nameSpan typeSpan place), initial, span⟩))
    let later := initialFindings names (s.env.declare (names.resolve id.name)) initial
    ∃ owner type, t.current? = some owner ∧
      t.arena.decl? ⟨s.arena.decls.length⟩ =
        some ⟨names.resolve id.name, type, .localVar, owner, span⟩ ∧
      ((steps.flatMap Step.pieces).any Node.isModule = true →
        (∃ decl, type = some ⟨decl, place⟩ ∧
          t.arena.typeDecl? decl = some ⟨names.resolve head.name, .synthetic⟩) ∧
        t.log.records = s.log.records ++ later.map Finding.record) ∧
      ((steps.flatMap Step.pieces).any Node.isModule = false →
        type = none ∧
        t.log.records = s.log.records ++
          (Problem.nameNotFound (names.resolve head.name) nameSpan).record ::
            later.map Finding.record) := by
  intro s t later
  have hreach : Reachable names anyNode s := Reachable.start.run fun _ _ _ _ => covers_anyNode _
  have hfixed : Fixed {} s := (Fixed.initial {}).run .start hdefault
  have hempty : s.typeScopes.isEmpty = !(steps.flatMap Step.pieces).any Node.isModule :=
    isEmpty_typeScopes_run .start steps
  have htypes : s.env.types = if s.typeScopes.isEmpty then [] else builtinTypes :=
    hfixed.typeNames_eq
  rw [hempty] at htypes
  cases hany : (steps.flatMap Step.pieces).any Node.isModule with
  | true =>
    rw [hany] at htypes
    have hmem : names.resolve head.name ∈ s.env.types := by
      rw [htypes]
      exact hbuiltin
    obtain ⟨hreports, owner, decl, x, howner, hdecl, hx, hname⟩ :=
      variableDecl_typed hreach.good hmem kind id nameSpan typeSpan place initial span
    have hgrows : s.arena.Grows t.arena :=
      ((does_statementAt false _ trivial (covers_anyNode _) 0 s hreach.good
        (Nat.zero_le _)).1.good_frame hreach.good).2.arena
    have hsynthetic : x = ⟨names.resolve head.name, .synthetic⟩ := by
      rw [← hname, ← hfixed.span_typeDecl hx]
    refine ⟨owner, some ⟨decl, place⟩, howner, hdecl, fun _ => ⟨⟨decl, rfl, ?_⟩, hreports⟩,
      fun hnone => by cases hnone⟩
    exact hsynthetic ▸ hgrows.typeDecl hx
  | false =>
    rw [hany] at htypes
    have hnot : names.resolve head.name ∉ s.env.types := by
      rw [htypes]
      exact List.not_mem_nil
    obtain ⟨hreports, owner, howner, hdecl⟩ :=
      variableDecl_untyped hreach.good hnot kind id nameSpan typeSpan place initial span
    exact ⟨owner, none, howner, hdecl, fun hsome => (by cases hsome), fun _ => ⟨rfl, hreports⟩⟩

/-- The same variable before and after an empty module. -/
theorem builtin_annotation_around_module :
    let names : SymbolTable := ⟨["x", "i32"]⟩
    let declared : Step := .statement (.variableDecl ⟨.letBinding, .identifier ⟨⟨0⟩, ⟨0, 1⟩⟩,
      some (.named ⟨⟨1⟩, ⟨2, 3⟩⟩ ⟨2, 3⟩ ⟨2, 3⟩ ⟨2, 3⟩), none, ⟨0, 4⟩⟩)
    let first := Session.run names [declared] {}
    let second := Session.run names [.module ⟨[], ⟨5, 6⟩⟩, declared] {}
    names.resolve ⟨1⟩ ∈ builtinTypes ∧
      (∃ owner, first.arena.decl? ⟨0⟩ = some ⟨"x", none, .localVar, owner, ⟨0, 4⟩⟩) ∧
      first.log.records = [(Problem.nameNotFound "i32" ⟨2, 3⟩).record] ∧
      (∃ owner type, second.arena.decl? ⟨0⟩ =
          some ⟨"x", some ⟨type, ⟨2, 3⟩⟩, .localVar, owner, ⟨0, 4⟩⟩ ∧
        second.arena.typeDecl? type = some ⟨"i32", .synthetic⟩) ∧
      second.log.records = [] := by
  intro names declared first second
  have hbuiltin : names.resolve ⟨1⟩ ∈ builtinTypes := by decide
  obtain ⟨owner, _, _, hdecl, _, hbefore⟩ := builtin_annotation_after_steps names []
    (fun _ h => by cases h) .letBinding ⟨⟨0⟩, ⟨0, 1⟩⟩ ⟨⟨1⟩, ⟨2, 3⟩⟩ ⟨2, 3⟩ ⟨2, 3⟩ ⟨2, 3⟩ none ⟨0, 4⟩
    hbuiltin
  obtain ⟨rfl, hrecords⟩ := hbefore rfl
  obtain ⟨owner', _, _, hdecl', hafter, _⟩ := builtin_annotation_after_steps names
    [.module ⟨[], ⟨5, 6⟩⟩] (fun _ h => by simp at h) .letBinding ⟨⟨0⟩, ⟨0, 1⟩⟩ ⟨⟨1⟩, ⟨2, 3⟩⟩ ⟨2, 3⟩
    ⟨2, 3⟩ ⟨2, 3⟩ none ⟨0, 4⟩ hbuiltin
  obtain ⟨⟨type, rfl, htype⟩, hrecords'⟩ := hafter rfl
  exact ⟨hbuiltin, ⟨owner, hdecl⟩, hrecords, ⟨owner', type, hdecl', htype⟩, hrecords'⟩

end BlockLowering
