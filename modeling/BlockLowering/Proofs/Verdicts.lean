import BlockLowering.Proofs.NamesInForce

/-!
# Verdicts

`Verdict ok s t` says that between two states a problem was reported exactly if `ok` does not hold,
and `Checked` adds the names that are in force afterwards. Verdicts of steps in sequence join to the
verdict on the conjunction. Each operation of lowering has its verdict here.
-/

namespace BlockLowering

open IR Diagnostic Source Session

/-! ## Verdicts -/

/-- The number of problems reported so far. -/
def Session.problems (s : Session) : Nat := s.log.records.length

/-- From `s` to `t` problems are reported unless `ok`. -/
structure Verdict (ok : Prop) (s t : Session) : Prop where
  le : s.problems ≤ t.problems
  iff : t.problems = s.problems ↔ ok

/-- A verdict, with `env` in force at the end. -/
structure Checked (ok : Prop) (env : Env) (s t : Session) : Prop extends Verdict ok s t where
  env : t.env = env

/-- No problem is reported and the names in force stay. -/
abbrev Quiet (s t : Session) : Prop := Checked True s.env s t

section

variable {ok ok' : Prop} {env env' : Env} {s t u : Session}

theorem Verdict.congr (h : Verdict ok s t) (hok : ok ↔ ok') : Verdict ok' s t :=
  ⟨h.le, h.iff.trans hok⟩

theorem Verdict.of_log (h : t.log = s.log) : Verdict True s t :=
  ⟨by simp [Session.problems, h], by simp [Session.problems, h]⟩

/-- Nothing is reported in a sequence if nothing is reported in either part. -/
theorem Verdict.and (h : Verdict ok s t) (h' : Verdict ok' t u) : Verdict (ok ∧ ok') s u where
  le := Nat.le_trans h.le h'.le
  iff := by
    have hle := h.le
    have hle' := h'.le
    rw [← h.iff, ← h'.iff]
    omega

/-- What comes after a failure does not change the verdict. -/
theorem Verdict.fails (h : Verdict ok s t) (hok : ¬ok) (hok' : ¬ok') : Verdict ok' s t :=
  h.congr ⟨fun h => absurd h hok, fun h => absurd h hok'⟩

theorem Verdict.lt (h : Verdict ok s t) (hok : ¬ok) : s.problems < t.problems :=
  Nat.lt_of_le_of_ne h.le fun heq => hok (h.iff.1 heq.symm)

theorem Checked.congr (h : Checked ok env s t) (hok : ok ↔ ok') : Checked ok' env s t :=
  ⟨h.toVerdict.congr hok, h.env⟩

theorem Checked.and (h : Checked ok env s t) (h' : Checked ok' env' t u) :
    Checked (ok ∧ ok') env' s u :=
  ⟨h.toVerdict.and h'.toVerdict, h'.env⟩

theorem Checked.fails (h : Checked ok env s t) (hok : ¬ok) (hok' : ¬ok') : Checked ok' env s t :=
  ⟨h.toVerdict.fails hok hok', h.env⟩

theorem Quiet.refl (s : Session) : Quiet s s := ⟨.of_log rfl, rfl⟩

/-- A first part that reports nothing does not change the verdict on the second. -/
theorem Checked.andVerdict (h : Checked True env s t) (h' : Verdict ok t u) : Verdict ok s u :=
  (h.toVerdict.and h').congr (iff_of_eq (true_and ok))

theorem Checked.andThen (h : Checked True env s t) (h' : Checked ok env' t u) :
    Checked ok env' s u :=
  ⟨h.andVerdict h'.toVerdict, h'.env⟩

theorem Checked.quiet (h : Checked ok env s t) (h' : Quiet t u) : Checked ok env s u :=
  ⟨(h.toVerdict.and h'.toVerdict).congr (iff_of_eq (and_true ok)), h'.env.trans h.env⟩

end

/-! ## Operations -/

section

variable {names : SymbolTable} {s : Session} {b c : BlockId}

theorem checked_report (s : Session) (p : Problem) :
    After s (Lower.report p) fun _ t => Checked False s.env s t := by
  refine ⟨⟨?_, ?_⟩, rfl⟩
  · show s.log.records.length ≤ (s.log.records ++ [p.record]).length
    simp
  · show (s.log.records ++ [p.record]).length = s.log.records.length ↔ False
    simp

theorem problems_report (s : Session) (p : Problem) :
    After s (Lower.report p) fun _ t => s.problems < t.problems :=
  (checked_report s p).lt id

theorem checked_reject (s : Session) (construct : String) (span : Span) :
    After s (Lower.reject construct span) fun _ t => Checked False s.env s t :=
  checked_report s _

theorem quiet_of_bindings {t : Session} (h : s.Frame 0 t) (hlog : t.log = s.log)
    (hbindings : t.bindings = s.bindings) : Quiet s t :=
  ⟨.of_log hlog, env_eq (typeNames_eq h.types h.typeScopes) hbindings⟩

theorem quiet_addStmt (hs : s.Good names anyNode) (hb : s.current? = some b) {stmt : Stmt}
    (h : s.arena.InScope (some b) stmt.refs stmt.blocks) :
    After s (Lower.addStmt b stmt) fun _ t => Quiet s t := by
  obtain ⟨x, hx, ho⟩ := hs.current hb
  refine quiet_of_bindings ((does_addStmt hs hb h).1.good_frame hs).2 ?_ (bindings_addStmt hs hb h)
  rw [Lower.run_addStmt hx ho]

theorem quiet_createChild (hs : s.Good names anyNode) (hb : s.current? = some b) (span : Span) :
    After s (Lower.createChild b span) fun _ t => Quiet s t := by
  obtain ⟨x, hx, _⟩ := hs.current hb
  refine quiet_of_bindings ((does_createChild hs hb span).1.good_frame hs).2 ?_
    (bindings_createChild hs hb span)
  rw [Lower.run_createChild hx]

theorem quiet_linkHoisted (hs : s.Good names anyNode) (hb : s.current? = some b) (name : String)
    (d : DeclId) : After s (Lower.linkHoisted b name d) fun _ t => Quiet s t := by
  have hd : Does names anyNode 0 s (Lower.linkHoisted b name d) anything :=
    does_linkHoisted hb name d
  refine quiet_of_bindings (hd.1.good_frame hs).2 ?_ (bindings_linkHoisted hs hb name d)
  rcases hs.run_linkHoisted hb name d with h | ⟨p, x, _, _, h⟩
  · rw [h]
  · rw [h]

theorem quiet_freshTemp (hs : s.Good names anyNode) (hb : s.current? = some b) (span : Span) :
    After s (Lower.freshTemp b span) fun _ t => Quiet s t := by
  obtain ⟨x, hx, ho⟩ := hs.current hb
  refine quiet_of_bindings ((does_freshTemp hs hb span).1.good_frame hs).2 ?_
    (bindings_freshTemp hs hb span)
  rw [Lower.run_freshTemp hx ho]

theorem quiet_currentBlock (hs : s.Good names anyNode) :
    After s Lower.currentBlock fun _ t => Quiet s t := by
  have hd : Does names anyNode 0 s Lower.currentBlock _ := does_currentBlock
  refine quiet_of_bindings (hd.1.good_frame hs).2 ?_ (bindings_currentBlock s)
  cases hb : s.current? with
  | some b => rw [Lower.run_currentBlock_some hb]
  | none => rw [Lower.run_currentBlock_none (List.head?_eq_none_iff.1 hb)]

/-- A new declaration brings its name into force. -/
theorem checked_addDecl (hs : s.Good names anyNode) (hb : s.current? = some b) {name : String}
    {type : Option TypeRef} {kind : DeclKind} {span : Span} (hkind : kind ≠ .temporary)
    (htype : ∀ t, type = some t →
      ∃ n, anyNode n ∧ s.arena.Annotated names ⟨name, type, kind, b, span⟩ t n) :
    After s (Lower.addDecl b name type kind span) fun _ t =>
      Checked True (s.env.declare name) s t := by
  obtain ⟨x, hx, ho⟩ := hs.current hb
  have hst := ((does_addDecl (n := 0) hs hb hkind htype).1.good_frame hs).2
  refine ⟨.of_log ?_, ?_⟩
  · rw [Lower.run_addDecl hx ho]
  · exact env_bindMore (typeNames_eq hst.types hst.typeScopes) (bindings_addDecl hs hb hkind htype)

/-- After work inside a new child the names in force are those from before. -/
theorem env_inBlock {body : Lower Unit} (hs : s.Good names anyNode) (hb : s.current? = some b)
    (hc : s.MayOpen c) (hp : s.arena.parent? c = some b)
    (hbody : Does names anyNode s.arena.blocks.length ((Lower.openBlock c).run s).2 body anything) :
    After s (Lower.inBlock c body) fun _ t => t.env = s.env := by
  obtain ⟨ht, hst⟩ := hbody.1.good_frame (hs.openBlock hc)
  refine env_eq ?_ (bindings_closeBlock hs hb hc hp ht hst)
  have hclose := (hst.mono (Nat.zero_le _)).within (Nat.zero_le _) ht
  exact typeNames_eq hclose.types hclose.typeScopes

/-- Work inside a new child: the verdict is the one on the work, with one more scope, and afterwards
the names in force are those from before. -/
theorem checked_inBlock {body : Lower Unit} {ok : Prop} (hs : s.Good names anyNode)
    (hb : s.current? = some b) (hc : s.MayOpen c) (hp : s.arena.parent? c = some b)
    (hbody : Does names anyNode s.arena.blocks.length ((Lower.openBlock c).run s).2 body anything)
    (hv : ∀ t, t.Good names anyNode → t.current? = some c → t.env = s.env.enter →
      After t body fun _ u => Verdict ok t u) :
    After s (Lower.inBlock c body) fun _ t => Checked ok s.env s t := by
  have hopen := hs.openBlock hc
  have hverdict := hv _ hopen rfl (env_openBlock hs hc hp hb)
  obtain ⟨ht, hst⟩ := hbody.1.good_frame hopen
  have hlog := ht.log_closeBlock (hst.current rfl)
  have hfirst : Verdict True s ((Lower.openBlock c).run s).2 := .of_log rfl
  have hwhole := (hfirst.and hverdict).and (.of_log hlog)
  exact ⟨hwhole.congr (by simp), env_inBlock hs hb hc hp hbody⟩

/-! ## Names and annotations -/

/-- A name is found exactly if it is in force. -/
theorem checked_resolveName (hs : s.Good names anyNode) (id : Ident) :
    After s (Lower.resolveName names id) fun r t =>
      Checked (s.env.Has (names.resolve id.name)) s.env s t ∧
        (s.env.Has (names.resolve id.name) → r.isSome = true) := by
  unfold Lower.resolveName
  refine .bind hs does_currentBlock (quiet_currentBlock hs) fun b t ht _ hb hq => ?_
  have hiff : t.env.Has (names.resolve id.name) ↔ _ := has_iff_lookup? hb
  rw [hq.env] at hiff
  refine .lookup ht ?_
  cases hl : t.arena.lookup? b (names.resolve id.name) with
  | some d =>
    rw [hl] at hiff
    exact ⟨hq.congr (by simpa using hiff), fun _ => rfl⟩
  | none =>
    rw [hl] at hiff
    have hnot : ¬s.env.Has (names.resolve id.name) := by simpa using hiff
    have hreport := hq.andThen (checked_report t (.nameNotFound (names.resolve id.name) id.span))
    rw [hq.env] at hreport
    exact ⟨hreport.fails (fun h => h) hnot, fun h => absurd h hnot⟩

theorem resolveType_isOk {a : Ascription} :
    (∃ t, s.resolveType names a = .ok t) ↔ a.Known names s.env.types := by
  obtain ⟨type, place⟩ := a
  cases type with
  | reference name args span =>
    cases name with
    | qualified head rest nameSpan =>
      constructor
      · rintro ⟨t, ht⟩
        simp [Session.resolveType, TypeName.isQualified] at ht
      · intro h
        cases h
    | simple head nameSpan =>
      cases args with
      | cons a rest =>
        constructor
        · rintro ⟨t, ht⟩
          simp [Session.resolveType, TypeName.isQualified] at ht
        · intro h
          cases h
      | nil =>
        have hknown : Ascription.Known names s.env.types
            ⟨.reference (.simple head nameSpan) [] span, place⟩ ↔
              names.resolve head.name ∈ s.env.types := by
          constructor
          · rintro ⟨h⟩
            exact h
          · exact .name
        rw [hknown, ← findType?_isSome]
        unfold Session.resolveType
        simp only [TypeName.isQualified, TypeName.head, List.isEmpty_nil]
        cases s.findType? (names.resolve head.name) <;> simp
  | function | array | union =>
    constructor
    · rintro ⟨t, ht⟩
      cases ht
    · intro h
      cases h

theorem checked_ascription? (s : Session) (written : Option Ascription) :
    After s (Lower.ascription? names written) fun _ t =>
      Checked (∀ a ∈ written, a.Known names s.env.types) s.env s t := by
  cases written with
  | none => exact (Quiet.refl s).congr (by simp)
  | some a =>
    have hiff : _ ↔ a.Known names s.env.types := resolveType_isOk
    have hone : (∀ x ∈ some a, x.Known names s.env.types) ↔ a.Known names s.env.types := by simp
    unfold Lower.ascription?
    refine .get ?_
    cases hr : s.resolveType names a with
    | ok type =>
      refine (Quiet.refl s).congr ?_
      rw [hone, ← hiff, hr]
      simp
    | error problem =>
      refine (checked_report s problem).congr ?_
      rw [hone, ← hiff, hr]
      simp

end

end BlockLowering
