import Mathlib.Algebra.BigOperators.Group.List.Basic
import Mathlib.Algebra.Ring.Nat
import BlockLowering.IR.Listing

/-!
# The lines of a listing

What a block writes for itself is one header, one line for each declaration and one to four for each
statement (`length_ownLines`). A line is refused exactly if it is too deep, so a block writes all
its lines exactly if the deepest of them can be indented (`error_mem_ownLines`). Where no name holds
a line feed, no line that is written is broken, and none but the header looks like a header
(`filter_ownLines`): the text of an expression never starts with a space or with the letter of
`BLOCK`.
-/

namespace BlockLowering.IR

open Decimal (Double Numeral)

/-- The lines of a text; the empty text has none. -/
def linesIn (text : String) : List String :=
  if text = "" then [] else (text.toList.splitOn '\n').map String.ofList

/-- Only spaces, then the number of a block and a colon, as in `BLOCK 7:`. -/
def isHeader (line : String) : Bool :=
  let text := line.toList.dropWhile fun c => c == ' '
  let number := (text.drop 6).dropLast
  text.take 6 == ['B', 'L', 'O', 'C', 'K', ' '] && text.getLast? == some ':' &&
    !number.isEmpty && number.all Char.isDigit

/-- How many lines a statement takes. -/
def Stmt.lineCount : Stmt → Nat
  | .assign _ _ _ => 1
  | .drop _ _ => 1
  | .ifElse _ _ none _ => 3
  | .ifElse _ _ (some _) _ => 4
  | .whileLoop _ _ _ => 3

/-- How many lines a block takes, without the blocks inside it. -/
def Block.lineCount (x : Block) : Nat :=
  1 + x.decls.length + (x.stmts.map Stmt.lineCount).sum

/-- How much deeper than the first line of a statement its other lines stand. -/
def Stmt.reach : Stmt → Nat
  | .assign _ _ _ | .drop _ _ => 0
  | .ifElse _ _ _ _ | .whileLoop _ _ _ => 1

/-- How much deeper than the header of a block its own lines stand. -/
def Block.reach (x : Block) : Nat :=
  (x.decls.map (fun _ => 1) ++ x.stmts.map fun stmt : Stmt => stmt.reach + 1).foldr max 0

/-! ## Lines -/

/-- There is no line feed in the text. -/
def OneLine (text : String) : Prop := '\n' ∉ text.toList

instance (text : String) : Decidable (OneLine text) := inferInstanceAs (Decidable (¬ _))

@[simp]
theorem oneLine_append {s t : String} : OneLine (s ++ t) ↔ OneLine s ∧ OneLine t := by
  unfold OneLine
  rw [String.toList_append, List.mem_append, not_or]

theorem OneLine.intercalate {sep : String} {texts : List String} (hsep : OneLine sep)
    (h : ∀ t ∈ texts, OneLine t) : OneLine (sep.intercalate texts) := by
  induction texts with
  | nil => simp [OneLine]
  | cons t rest ih =>
    have ht : OneLine t := h t List.mem_cons_self
    cases rest with
    | nil => simpa using ht
    | cons u more =>
      rw [String.intercalate_cons_cons]
      have hrest := ih fun v hv => h v (List.mem_cons_of_mem _ hv)
      rw [oneLine_append, oneLine_append]
      exact ⟨⟨ht, hsep⟩, hrest⟩

theorem OneLine.indented {text : String} (h : OneLine text) (depth : Nat) :
    OneLine (indented depth text) := by
  refine oneLine_append.2 ⟨?_, h⟩
  unfold OneLine
  rw [String.toList_ofList]
  intro hmem
  have hspace := (List.mem_replicate.1 hmem).2
  exact absurd hspace (by decide)

/-- Joining lines and taking the lines apart again. -/
theorem linesIn_intercalate {lines : List String} (h : ∀ l ∈ lines, OneLine l)
    (hfirst : lines.head? ≠ some "") : linesIn ("\n".intercalate lines) = lines := by
  cases lines with
  | nil => rfl
  | cons l rest =>
    have hne : "\n".intercalate (l :: rest) ≠ "" := by
      intro hempty
      have hl : l ≠ "" := fun heq => hfirst (by rw [heq]; rfl)
      cases rest with
      | nil => exact hl (by simpa using hempty)
      | cons u more =>
        rw [String.intercalate_cons_cons] at hempty
        have hlength := congrArg (fun t => t.toList.length) hempty
        simp [String.toList_append] at hlength
    unfold linesIn
    rw [if_neg hne, String.toList_intercalate]
    have hlines : ∀ chars ∈ (l :: rest).map String.toList, '\n' ∉ chars := by
      intro chars hchars
      obtain ⟨line, hline, rfl⟩ := List.mem_map.1 hchars
      exact h line hline
    have hsplit := List.splitOn_intercalate '\n' hlines (List.cons_ne_nil _ _)
    rw [show "\n".toList = ['\n'] from rfl, hsplit, List.map_map]
    exact List.map_id'' (fun line => String.ofList_toList) _

/-! ## Headers -/

theorem isHeader_indented (depth : Nat) (text : String) :
    isHeader (indented depth text) = isHeader text := by
  unfold isHeader indented
  rw [String.toList_append, String.toList_ofList, List.dropWhile_append, List.dropWhile_replicate]
  rfl

theorem isHeader_render (b : BlockId) : isHeader (b.render ++ ":") = true := by
  have htext : (b.render ++ ":").toList =
      ['B', 'L', 'O', 'C', 'K', ' '] ++ (Nat.toDigits 10 b.index ++ [':']) := by
    simp [BlockId.render, String.toList_append]
  unfold isHeader
  rw [htext]
  have hdigits : (Nat.toDigits 10 b.index).all Char.isDigit = true :=
    List.all_eq_true.2 fun c hc => Nat.isDigit_of_mem_toDigits (by decide) (by decide) hc
  have hlast : (['B', 'L', 'O', 'C', 'K', ' '] ++ (Nat.toDigits 10 b.index ++ [':'])).getLast? =
      some ':' := by
    rw [← List.append_assoc, List.getLast?_concat]
  simp only [List.cons_append, List.nil_append] at hlast
  simp [Nat.toDigits_ne_nil, hlast, hdigits, -List.all_eq_true]

/-- The text starts with neither a space nor the first letter of a header. -/
def StartsPlain (text : String) : Prop :=
  ∀ c ∈ text.toList.head?, c ≠ ' ' ∧ c ≠ 'B'

instance (text : String) : Decidable (StartsPlain text) :=
  Option.decidableForallMem (p := fun c => c ≠ ' ' ∧ c ≠ 'B') text.toList.head?

theorem isHeader_of_startsPlain {text : String} (h : StartsPlain text) : isHeader text = false := by
  unfold StartsPlain at h
  unfold isHeader
  cases htext : text.toList with
  | nil => rfl
  | cons c rest =>
    rw [htext] at h
    obtain ⟨hspace, hletter⟩ := h c rfl
    simp [hspace, hletter]

theorem StartsPlain.append {s : String} (h : StartsPlain s) (hne : s ≠ "") (t : String) :
    StartsPlain (s ++ t) := by
  unfold StartsPlain at h ⊢
  cases hs : s.toList with
  | nil => exact absurd (String.toList_eq_nil_iff.1 hs) hne
  | cons c rest =>
    rw [hs] at h
    rw [String.toList_append, hs]
    exact h

/-! ## Numbers -/

/-- The characters that numbers are written with, infinities and NaN included. -/
def isNumeric (c : Char) : Bool := c.isDigit || c ∈ ['-', '.', 'e', 'N', 'a', 'i', 'n', 'f']

/-- Only characters of numbers. -/
def Numeric (text : String) : Prop := text.toList.all isNumeric = true

instance (text : String) : Decidable (Numeric text) :=
  inferInstanceAs (Decidable (text.toList.all isNumeric = true))

theorem numeric_ofList {chars : List Char} :
    Numeric (String.ofList chars) ↔ chars.all isNumeric = true := by
  unfold Numeric
  rw [String.toList_ofList]

theorem Numeric.append {s t : String} (hs : Numeric s) (ht : Numeric t) : Numeric (s ++ t) := by
  unfold Numeric at hs ht ⊢
  rw [String.toList_append, List.all_append, hs, ht]
  rfl

theorem Numeric.oneLine {text : String} (h : Numeric text) : OneLine text :=
  fun hmem => absurd (List.all_eq_true.1 h _ hmem) (by decide)

theorem Numeric.startsPlain {text : String} (h : Numeric text) : StartsPlain text := by
  intro c hc
  have hnumeric := List.all_eq_true.1 h c (List.mem_of_head? hc)
  constructor
  · rintro rfl
    exact absurd hnumeric (by decide)
  · rintro rfl
    exact absurd hnumeric (by decide)

theorem all_toDigits (n : Nat) : (Nat.toDigits 10 n).all isNumeric = true := by
  apply List.all_eq_true.2
  intro c hc
  unfold isNumeric
  rw [Nat.isDigit_of_mem_toDigits (by decide) (by decide) hc]
  rfl

theorem all_zeros (n : Nat) : (List.replicate n '0').all isNumeric = true := by
  apply List.all_eq_true.2
  intro c hc
  rw [(List.mem_replicate.1 hc).2]
  rfl

theorem numeric_toString_nat (n : Nat) : Numeric (toString n) := by
  unfold Numeric
  rw [Nat.toString_eq_repr, Nat.toList_repr]
  exact all_toDigits n

theorem numeric_toString_int (i : Int) : Numeric (toString i) := by
  rw [Int.toString_eq_repr]
  cases i with
  | ofNat n => exact numeric_toString_nat n
  | negSucc n =>
    have hsign : Numeric "-" := by decide
    exact hsign.append (numeric_toString_nat (n + 1))

theorem numeric_positional (d : Numeral) : Numeric d.positional := by
  have hdigits := all_toDigits d.digits
  unfold Numeral.positional
  simp only
  split_ifs
  · rw [numeric_ofList, List.all_append, List.all_append, hdigits, all_zeros]
    rfl
  · rw [numeric_ofList, List.all_append, List.all_append, hdigits, all_zeros]
    rfl
  · rw [← List.take_append_drop (d.leading + 1).toNat (Nat.toDigits 10 d.digits), List.all_append,
      Bool.and_eq_true] at hdigits
    rw [numeric_ofList, List.all_append, List.all_append, hdigits.1, hdigits.2]
    rfl

theorem numeric_scientific (d : Numeral) : Numeric d.scientific := by
  have hdigits := all_toDigits d.digits
  have hpower : ('e' :: (toString d.leading).toList).all isNumeric = true :=
    numeric_toString_int d.leading
  unfold Numeral.scientific
  simp only
  generalize Nat.toDigits 10 d.digits = digits at hdigits ⊢
  rcases digits with _ | ⟨digit, _ | ⟨next, rest⟩⟩
  · exact numeric_ofList.2 hpower
  · rw [List.all_cons, Bool.and_eq_true] at hdigits
    rw [numeric_ofList, List.all_cons, hdigits.1, hpower]
    rfl
  · rw [List.all_cons, Bool.and_eq_true] at hdigits
    rw [numeric_ofList, List.all_append, List.all_cons, List.all_cons, hdigits.1, hdigits.2, hpower]
    rfl

theorem numeric_double (x : Double) : Numeric x.render := by
  have hsign : Numeric (if x.negative then "-" else "") := by
    split_ifs
    · decide
    · decide
  unfold Double.render
  simp only
  split
  · decide
  · split
    · exact hsign.append (by decide)
    · split
      · exact hsign.append (by decide)
      · refine hsign.append ?_
        unfold Numeral.render
        split_ifs
        · exact numeric_positional _
        · exact numeric_scientific _

/-! ## Expressions, declarations and statements -/

namespace Arena

variable {a : Arena}

/-- No name of a declaration or of a type holds a line feed. -/
structure NamesOnOneLine (a : Arena) : Prop where
  decls : ∀ d ∈ a.decls, OneLine d.name
  types : ∀ scope ∈ a.typeScopes, ∀ t ∈ scope.decls, OneLine t.name

theorem startsPlain_renderRef (a : Arena) (r : DeclRef) : StartsPlain (a.renderRef r) := by
  unfold renderRef
  cases a.decl? r.decl with
  | some d =>
    show StartsPlain ("ref(" ++ d.name ++ ")")
    rw [String.append_assoc]
    exact StartsPlain.append (by decide) (by decide) _
  | none =>
    show StartsPlain ("ref(?" ++ toString r.decl.index ++ ")")
    rw [String.append_assoc]
    exact StartsPlain.append (by decide) (by decide) _

theorem renderRef_ne_empty (a : Arena) (r : DeclRef) : a.renderRef r ≠ "" := by
  intro hempty
  have hlength := congrArg (fun t => t.toList.length) hempty
  unfold renderRef at hlength
  cases h : a.decl? r.decl <;> simp [h] at hlength

theorem startsPlain_renderExpr (a : Arena) (e : Expr) : StartsPlain (a.renderExpr e) := by
  cases e with
  | ref target =>
    rw [renderExpr]
    exact a.startsPlain_renderRef target
  | int value span =>
    rw [renderExpr]
    exact (numeric_toString_int _).startsPlain
  | float value span =>
    rw [renderExpr]
    exact (numeric_double value).startsPlain
  | binary op lhs rhs span =>
    rw [renderExpr]
    simp only [String.append_assoc]
    exact StartsPlain.append (by decide) (by decide) _
  | func body span =>
    rw [renderExpr, String.append_assoc]
    exact StartsPlain.append (by decide) (by decide) _
  | call callee args span =>
    rw [renderExpr]
    simp only [String.append_assoc]
    exact StartsPlain.append (by decide) (by decide) _

theorem oneLine_render (b : BlockId) : OneLine b.render := by
  have hnumber := (numeric_toString_nat b.index).oneLine
  exact oneLine_append.2 ⟨by decide, hnumber⟩

namespace NamesOnOneLine

theorem renderRef (h : a.NamesOnOneLine) (r : DeclRef) : OneLine (a.renderRef r) := by
  unfold Arena.renderRef
  cases hd : a.decl? r.decl with
  | some d =>
    have hname := h.decls d (List.mem_of_getElem? hd)
    simp +decide [hname]
  | none =>
    have hnumber := (numeric_toString_nat r.decl.index).oneLine
    exact oneLine_append.2 ⟨oneLine_append.2 ⟨by decide, hnumber⟩, by decide⟩

theorem renderType (h : a.NamesOnOneLine) (t : TypeRef) : OneLine (a.renderType t) := by
  unfold Arena.renderType
  cases ht : a.typeDecl? t.decl with
  | some d =>
    obtain ⟨scope, hscope, hd⟩ := Option.bind_eq_some_iff.1 ht
    have hname := h.types scope (List.mem_of_getElem? hscope) d (List.mem_of_getElem? hd)
    simp +decide [hname]
  | none => exact (by decide : OneLine "type(?)")

mutual

theorem renderExpr (h : a.NamesOnOneLine) (e : Expr) : OneLine (a.renderExpr e) := by
  cases e with
  | ref target =>
    rw [Arena.renderExpr]
    exact h.renderRef target
  | int value span =>
    rw [Arena.renderExpr]
    exact (numeric_toString_int _).oneLine
  | float value span =>
    rw [Arena.renderExpr]
    exact (numeric_double value).oneLine
  | binary op lhs rhs span =>
    have hop : OneLine op.text := by cases op <;> decide
    have hlhs := h.renderExpr lhs
    have hrhs := h.renderExpr rhs
    rw [Arena.renderExpr]
    simp +decide [hop, hlhs, hrhs]
  | func body span =>
    rw [Arena.renderExpr]
    simp +decide [oneLine_render body]
  | call callee args span =>
    have hcallee := h.renderExpr callee
    have hargs : OneLine (", ".intercalate (a.renderExprs args)) :=
      .intercalate (by decide) (h.renderExprs args)
    rw [Arena.renderExpr]
    simp +decide [hcallee, hargs]

theorem renderExprs (h : a.NamesOnOneLine) (es : List Expr) :
    ∀ t ∈ a.renderExprs es, OneLine t := by
  cases es with
  | nil =>
    rw [Arena.renderExprs]
    intro t ht
    cases ht
  | cons e rest =>
    rw [Arena.renderExprs]
    intro t ht
    rcases List.mem_cons.1 ht with rfl | ht
    · exact h.renderExpr e
    · exact h.renderExprs rest t ht

end

theorem renderDecl (h : a.NamesOnOneLine) {d : Decl} (hd : d ∈ a.decls) :
    OneLine (a.renderDecl d) := by
  have hname := h.decls d hd
  unfold Arena.renderDecl
  split_ifs
  · simp +decide [hname]
  · cases d.type with
    | some t => simp +decide [hname, h.renderType t]
    | none => simp +decide [hname]

end NamesOnOneLine

theorem startsPlain_renderDecl (a : Arena) (d : Decl) : StartsPlain (a.renderDecl d) := by
  unfold renderDecl
  split_ifs
  · exact StartsPlain.append (by decide) (by decide) _
  · rw [String.append_assoc]
    exact StartsPlain.append (by decide) (by decide) _

/-- The line with the number of a loop body starts like a header and is none. -/
theorem isHeader_body (b : BlockId) : isHeader ("BODY: " ++ b.render) = false := by
  unfold isHeader
  rw [String.toList_append]
  rfl

/-- A line that is not broken and is no header. -/
def ContentLine (line : String) : Prop := OneLine line ∧ isHeader line = false

theorem contentLine_of_startsPlain {l : Line} (h : OneLine l.text) (hstart : StartsPlain l.text) :
    ContentLine l.render := by
  constructor
  · exact h.indented l.depth
  · unfold Line.render
    rw [isHeader_indented]
    exact isHeader_of_startsPlain hstart

/-! ## Refusals -/

/-- Either all of a list is there, or the first refusal in it is the result. -/
theorem mapM_id_cases {ε α : Type} (l : List (Except ε α)) :
    (∃ xs, l = xs.map .ok ∧ l.mapM id = .ok xs) ∨ ∃ e, .error e ∈ l ∧ l.mapM id = .error e := by
  induction l with
  | nil => exact .inl ⟨[], rfl, rfl⟩
  | cons first rest ih =>
    rw [List.mapM_cons]
    cases first with
    | error e => exact .inr ⟨e, List.mem_cons_self, rfl⟩
    | ok x =>
      rcases ih with ⟨xs, rfl, hrest⟩ | ⟨e, he, hrest⟩
      · refine .inl ⟨x :: xs, rfl, ?_⟩
        rw [hrest]
        rfl
      · refine .inr ⟨e, List.mem_cons_of_mem _ he, ?_⟩
        rw [hrest]
        rfl

theorem mapM_congr {ε α β : Type} {f g : α → Except ε β} {l : List α} (h : ∀ x ∈ l, f x = g x) :
    l.mapM f = l.mapM g := by
  induction l with
  | nil => rfl
  | cons x rest ih =>
    rw [List.mapM_cons, List.mapM_cons, h x List.mem_cons_self,
      ih fun y hy => h y (List.mem_cons_of_mem _ hy)]

theorem lineAt_eq_ok {depth : Nat} {text : String} {l : Line} (h : lineAt depth text = .ok l) :
    l = ⟨depth, text⟩ := by
  unfold lineAt indent at h
  split_ifs at h
  · cases h
    rfl
  · cases h

theorem lineAt_eq_error {depth : Nat} {text : String} {reason : Refusal} :
    lineAt depth text = .error reason ↔ reason = .tooDeep ∧ maxIndent < 2 * depth := by
  unfold lineAt indent
  split_ifs with h
  · constructor
    · intro hline
      cases hline
    · intro hdeep
      omega
  · constructor
    · intro hline
      cases hline
      exact ⟨rfl, by omega⟩
    · rintro ⟨rfl, _⟩
      rfl

theorem declLine_of_known {depth : Nat} {id : DeclId} {d : Decl} (h : a.decl? id = some d) :
    a.declLine depth id = lineAt depth (a.renderDecl d) := by
  unfold declLine Arena.decl
  rw [h]
  rfl

theorem declLine_eq_ok {depth : Nat} {id : DeclId} {l : Line} (h : a.declLine depth id = .ok l) :
    ∃ d ∈ a.decls, l = ⟨depth, a.renderDecl d⟩ := by
  cases hd : a.decl? id with
  | some d =>
    rw [declLine_of_known hd] at h
    exact ⟨d, List.mem_of_getElem? hd, lineAt_eq_ok h⟩
  | none =>
    unfold declLine indent Arena.decl at h
    rw [hd] at h
    split_ifs at h
    · cases h
    · cases h

theorem error_mem_lineAt_cons {depth : Nat} {text : String} {reason : Refusal}
    {rest : List (Except Refusal Line)} :
    .error reason ∈ lineAt depth text :: rest ↔
      (reason = .tooDeep ∧ maxIndent < 2 * depth) ∨ .error reason ∈ rest := by
  rw [List.mem_cons, eq_comm, lineAt_eq_error]

/-- A statement is refused exactly if its last line is too deep. -/
theorem error_mem_stmtLines {depth : Nat} {stmt : Stmt} {reason : Refusal} :
    .error reason ∈ a.stmtLines depth stmt ↔
      reason = .tooDeep ∧ maxIndent < 2 * (depth + stmt.reach) := by
  cases stmt with
  | assign target value span =>
    simp only [stmtLines, Stmt.reach, error_mem_lineAt_cons, List.not_mem_nil, or_false,
      Nat.add_zero]
  | drop value span =>
    simp only [stmtLines, Stmt.reach, error_mem_lineAt_cons, List.not_mem_nil, or_false,
      Nat.add_zero]
  | ifElse cond thenBlock elseBlock span =>
    cases elseBlock with
    | none =>
      simp only [stmtLines, Stmt.reach, Option.toList_none, List.map_nil, List.append_nil,
        error_mem_lineAt_cons, List.not_mem_nil, or_false, ← and_or_left]
      exact and_congr_right fun _ => by omega
    | some b =>
      simp only [stmtLines, Stmt.reach, Option.toList_some, List.map_cons, List.map_nil,
        List.cons_append, List.nil_append, error_mem_lineAt_cons, List.not_mem_nil, or_false,
        ← and_or_left]
      exact and_congr_right fun _ => by omega
  | whileLoop cond body span =>
    simp only [stmtLines, Stmt.reach, error_mem_lineAt_cons, List.not_mem_nil, or_false,
      ← and_or_left]
    exact and_congr_right fun _ => by omega

/-- The deepest of several lines is too deep if one of them is. -/
theorem lt_foldr_max {m depth : Nat} {depths : List Nat} :
    m < 2 * (depth + depths.foldr max 0) ↔ m < 2 * depth ∨ ∃ r ∈ depths, m < 2 * (depth + r) := by
  induction depths with
  | nil => simp
  | cons r rest ih =>
    have hmax : m < 2 * (depth + max r (rest.foldr max 0)) ↔
        m < 2 * (depth + r) ∨ m < 2 * (depth + rest.foldr max 0) := by omega
    rw [List.foldr_cons, List.exists_mem_cons_iff, hmax, ih]
    exact or_left_comm

/-! ## What a block writes for itself -/

theorem contentLine_of_mem_stmtLines (h : a.NamesOnOneLine) {depth : Nat} {stmt : Stmt} {l : Line}
    (hline : .ok l ∈ a.stmtLines depth stmt) : ContentLine l.render := by
  have hplain : ∀ {n : Nat} {text : String}, .ok l = lineAt n text → OneLine text →
      StartsPlain text → ContentLine l.render := by
    intro n text hl htext hstart
    obtain rfl := lineAt_eq_ok hl.symm
    exact contentLine_of_startsPlain htext hstart
  have hcond : ∀ e, OneLine ("COND:" ++ a.renderExpr e) := fun e => by
    simp +decide [h.renderExpr e]
  cases stmt with
  | assign target value span =>
    have htext : OneLine (a.renderRef target ++ " <- " ++ a.renderExpr value) := by
      simp +decide [h.renderRef target, h.renderExpr value]
    refine hplain (List.mem_singleton.1 hline) htext ?_
    rw [String.append_assoc]
    exact StartsPlain.append (a.startsPlain_renderRef target) (a.renderRef_ne_empty target) _
  | drop value span =>
    exact hplain (List.mem_singleton.1 hline) (h.renderExpr value) (a.startsPlain_renderExpr value)
  | ifElse cond thenBlock elseBlock span =>
    rcases List.mem_append.1 hline with hline | hline
    · simp only [List.mem_cons, List.not_mem_nil, or_false] at hline
      rcases hline with hl | hl | hl
      · exact hplain hl (by decide) (by decide)
      · exact hplain hl (hcond cond) (StartsPlain.append (by decide) (by decide) _)
      · refine hplain hl ?_ (StartsPlain.append (by decide) (by decide) _)
        simp +decide [oneLine_render thenBlock]
    · obtain ⟨b, -, hl⟩ := List.mem_map.1 hline
      refine hplain hl.symm ?_ (StartsPlain.append (by decide) (by decide) _)
      simp +decide [oneLine_render b]
  | whileLoop cond body span =>
    simp only [stmtLines, List.mem_cons, List.not_mem_nil, or_false] at hline
    rcases hline with hl | hl | hl
    · exact hplain hl (by decide) (by decide)
    · exact hplain hl (hcond cond) (StartsPlain.append (by decide) (by decide) _)
    · have htext : OneLine ("BODY: " ++ body.render) := by simp +decide [oneLine_render body]
      obtain rfl := lineAt_eq_ok hl.symm
      refine ⟨htext.indented _, ?_⟩
      unfold Line.render
      rw [isHeader_indented, isHeader_body]

theorem length_stmtLines (a : Arena) (depth : Nat) (stmt : Stmt) :
    (a.stmtLines depth stmt).length = stmt.lineCount := by
  cases stmt with
  | assign target value span => rfl
  | drop value span => rfl
  | ifElse cond thenBlock elseBlock span => cases elseBlock <;> rfl
  | whileLoop cond body span => rfl

theorem length_ownLines (a : Arena) (depth : Nat) (x : Block) :
    (a.ownLines depth x).length = x.lineCount := by
  have hstmts : (x.stmts.flatMap (a.stmtLines (depth + 1))).length =
      (x.stmts.map Stmt.lineCount).sum := by
    rw [List.length_flatMap]
    simp only [length_stmtLines]
  unfold ownLines Block.lineCount
  rw [List.length_append, List.length_cons, List.length_map, hstmts]
  omega

/-- A block whose declarations are all there is refused exactly if its deepest line is too deep. -/
theorem error_mem_ownLines {depth : Nat} {x : Block} {reason : Refusal}
    (hdecls : ∀ d ∈ x.decls, (a.decl? d).isSome = true) :
    .error reason ∈ a.ownLines depth x ↔
      reason = .tooDeep ∧ maxIndent < 2 * (depth + x.reach) := by
  have hdecl : .error reason ∈ x.decls.map (a.declLine (depth + 1)) ↔
      reason = .tooDeep ∧ ∃ d ∈ x.decls, maxIndent < 2 * (depth + 1) := by
    rw [List.mem_map]
    constructor
    · rintro ⟨id, hid, hline⟩
      obtain ⟨d, hd⟩ := Option.isSome_iff_exists.1 (hdecls id hid)
      rw [declLine_of_known hd, lineAt_eq_error] at hline
      exact ⟨hline.1, id, hid, hline.2⟩
    · rintro ⟨hreason, id, hid, hdeep⟩
      obtain ⟨d, hd⟩ := Option.isSome_iff_exists.1 (hdecls id hid)
      exact ⟨id, hid, (declLine_of_known hd).trans (lineAt_eq_error.2 ⟨hreason, hdeep⟩)⟩
  have hstmt : .error reason ∈ x.stmts.flatMap (a.stmtLines (depth + 1)) ↔
      reason = .tooDeep ∧ ∃ stmt ∈ x.stmts, maxIndent < 2 * (depth + (stmt.reach + 1)) := by
    simp only [List.mem_flatMap, error_mem_stmtLines]
    constructor
    · rintro ⟨stmt, hmem, hreason, hdeep⟩
      exact ⟨hreason, stmt, hmem, by omega⟩
    · rintro ⟨hreason, stmt, hmem, hdeep⟩
      exact ⟨stmt, hmem, hreason, by omega⟩
  unfold ownLines Block.reach
  rw [List.cons_append, error_mem_lineAt_cons, List.mem_append, hdecl, hstmt, lt_foldr_max,
    ← and_or_left, ← and_or_left]
  refine and_congr_right fun _ => or_congr_right ?_
  simp only [List.mem_append, List.mem_map, or_and_right, exists_or, exists_and_right]
  simp

/-- The first line of a block. -/
def header (depth : Nat) (x : Block) : String := indented depth (x.id.render ++ ":")

theorem oneLine_header (depth : Nat) (x : Block) : OneLine (header depth x) := by
  refine OneLine.indented ?_ depth
  simp +decide [oneLine_render x.id]

theorem header_ne_empty (depth : Nat) (x : Block) : header depth x ≠ "" := by
  intro hempty
  have hlength := congrArg (fun text => text.toList.length) hempty
  simp [header, indented] at hlength

theorem isHeader_header (depth : Nat) (x : Block) : isHeader (header depth x) = true := by
  unfold header
  rw [isHeader_indented, isHeader_render]

/-- What a block writes is its header and other lines. -/
theorem ownLines_eq_map_ok (h : a.NamesOnOneLine) {depth : Nat} {x : Block} {lines : List Line}
    (hlines : a.ownLines depth x = lines.map .ok) :
    ∃ rest, lines.map Line.render = header depth x :: rest ∧ ∀ line ∈ rest, ContentLine line := by
  unfold ownLines at hlines
  rw [List.cons_append] at hlines
  cases lines with
  | nil => cases hlines
  | cons first rest =>
    obtain ⟨hfirst, hrest⟩ := List.cons.inj hlines
    refine ⟨rest.map Line.render, ?_, ?_⟩
    · rw [List.map_cons, lineAt_eq_ok hfirst]
      rfl
    · intro line hline
      obtain ⟨l, hl, rfl⟩ := List.mem_map.1 hline
      have hmem : (.ok l : Except Refusal Line) ∈ rest.map .ok := List.mem_map_of_mem hl
      rw [← hrest] at hmem
      rcases List.mem_append.1 hmem with hmem | hmem
      · obtain ⟨id, _, hid⟩ := List.mem_map.1 hmem
        obtain ⟨d, hd, rfl⟩ := declLine_eq_ok hid
        exact contentLine_of_startsPlain (h.renderDecl hd) (a.startsPlain_renderDecl d)
      · obtain ⟨stmt, _, hstmt⟩ := List.mem_flatMap.1 hmem
        exact contentLine_of_mem_stmtLines h hstmt

/-- What blocks write starts with a header, no line of it is broken, and it has one header for each
block. -/
theorem filter_ownLines (h : a.NamesOnOneLine) {depth : Block → Nat} {order : List Block}
    {lines : List Line}
    (hlines : order.flatMap (fun x => a.ownLines (depth x) x) = lines.map .ok) :
    (lines.map Line.render).head? = (order.head?.map fun x => header (depth x) x) ∧
      (∀ line ∈ lines.map Line.render, OneLine line) ∧
      (lines.map Line.render).filter isHeader = order.map fun x => header (depth x) x := by
  induction order generalizing lines with
  | nil =>
    obtain rfl := List.map_eq_nil_iff.1 hlines.symm
    exact ⟨rfl, nofun, rfl⟩
  | cons x rest ih =>
    rw [List.flatMap_cons] at hlines
    obtain ⟨own, others, rfl, hown, hothers⟩ := List.map_eq_append_iff.1 hlines.symm
    obtain ⟨contents, hfirst, hcontents⟩ := ownLines_eq_map_ok h hown.symm
    obtain ⟨_, hone, hheaders⟩ := ih hothers.symm
    have hnone : contents.filter isHeader = [] := by
      rw [List.filter_eq_nil_iff]
      intro line hline
      rw [(hcontents line hline).2]
      exact Bool.false_ne_true
    rw [List.map_append, hfirst]
    refine ⟨rfl, ?_, ?_⟩
    · intro line hline
      rcases List.mem_append.1 hline with hline | hline
      · rcases List.mem_cons.1 hline with rfl | hline
        · exact oneLine_header (depth x) x
        · exact (hcontents line hline).1
      · exact hone line hline
    · rw [List.filter_append, List.filter_cons_of_pos (isHeader_header (depth x) x), hnone,
        hheaders]
      rfl

end Arena

end BlockLowering.IR
