import BlockLowering.Diagnostic.Record

/-!
# Messages and their templates

A template is filled with one pass for each placeholder, and every pass reads the whole message, so
what one pass puts in is read again by the next. The message of a problem has one argument, which
takes the place of the placeholder 0. The passes for 1 and 2 find nothing in the template, but they
delete their placeholders from the argument. So the filled template is the problem in words exactly
if the argument holds none of these two.
-/

namespace BlockLowering.Diagnostic

/-- The placeholder with this digit. -/
def placeholder (digit : Char) : List Char := ['\x7b', digit, '\x7d']

/-- No placeholder has a brace in this text. -/
def Plain (cs : List Char) : Prop := '\x7b' ∉ cs ∧ '\x7d' ∉ cs

/-! ## One pass -/

section

variable {digit c : Char} {value cs l r : List Char}

theorem fill_placeholder (digit : Char) (value rest : List Char) :
    fill digit value (placeholder digit ++ rest) = value ++ fill digit value rest := by
  simp [placeholder, fill]

/-- Where no placeholder begins, a character stays. -/
theorem fill_cons (h : ¬placeholder digit <+: c :: cs) :
    fill digit value (c :: cs) = c :: fill digit value cs := by
  rw [fill.eq_def]
  split
  · rename_i heq
    cases heq
  · rename_i e rest heq
    cases heq
    refine if_neg fun he => h ?_
    rw [he]
    exact List.prefix_append (placeholder digit) rest
  · rename_i heq
    cases heq
    rfl

/-- A pass finds its placeholder and goes on after it, or it goes on after one character. -/
theorem pass_induction (digit : Char) {motive : List Char → Prop} (nil : motive [])
    (found : ∀ rest, motive rest → motive (placeholder digit ++ rest))
    (kept : ∀ c cs, ¬placeholder digit <+: c :: cs → motive cs → motive (c :: cs))
    (cs : List Char) : motive cs := by
  induction hn : cs.length using Nat.strongRecOn generalizing cs with
  | ind n ih =>
    subst hn
    cases cs with
    | nil => exact nil
    | cons c cs =>
      by_cases h : placeholder digit <+: c :: cs
      · obtain ⟨rest, hrest⟩ := h
        rw [← hrest] at ih ⊢
        refine found rest (ih rest.length ?_ rest rfl)
        rw [List.length_append]
        exact Nat.lt_add_of_pos_left (Nat.succ_pos 2)
      · exact kept c cs h (ih cs.length (Nat.lt_succ_self _) cs rfl)

theorem fill_append_left (hl : '\x7b' ∉ l) :
    fill digit value (l ++ r) = l ++ fill digit value r := by
  induction l with
  | nil => rfl
  | cons c l ih =>
    rw [List.mem_cons, not_or] at hl
    rw [List.cons_append, fill_cons, ih hl.2, List.cons_append]
    intro hprefix
    exact hl.1 (List.cons_prefix_cons.1 hprefix).1

/-- A placeholder that begins before a text without braces ends before it. -/
theorem placeholder_prefix_of_append (hr : '\x7d' ∉ r) (h : placeholder digit <+: c :: (cs ++ r)) :
    placeholder digit <+: c :: cs := by
  have hmem : ∀ t, '\x7d' :: t ≠ r := by
    rintro t rfl
    exact hr List.mem_cons_self
  rcases cs with _ | ⟨e, _ | ⟨f, cs⟩⟩
  · obtain ⟨t, ht⟩ := h
    simp only [placeholder, List.cons_append, List.nil_append, List.cons.injEq] at ht
    exact absurd (ht.2 ▸ List.mem_cons_of_mem digit List.mem_cons_self) hr
  · obtain ⟨t, ht⟩ := h
    simp only [placeholder, List.cons_append, List.nil_append, List.cons.injEq] at ht
    exact absurd ht.2.2 (hmem t)
  · simpa [placeholder, List.cons_prefix_cons] using h

theorem fill_append_right (hr : Plain r) :
    fill digit value (l ++ r) = fill digit value l ++ r := by
  induction l using pass_induction digit with
  | nil => simpa [fill] using fill_append_left (r := []) hr.1
  | found rest ih =>
    rw [List.append_assoc, fill_placeholder, fill_placeholder, ih, List.append_assoc]
  | kept c cs h ih =>
    rw [List.cons_append, fill_cons fun h' => h (placeholder_prefix_of_append hr.2 h'), fill_cons h,
      ih, List.cons_append]

/-- Where there is no placeholder, nothing is filled. -/
theorem fill_eq_self (h : ¬placeholder digit <:+: cs) : fill digit value cs = cs := by
  induction cs with
  | nil => simp [fill]
  | cons c cs ih =>
    rw [List.infix_cons_iff, not_or] at h
    rw [fill_cons h.1, ih h.2]

theorem length_fill_nil_le (digit : Char) (cs : List Char) :
    (fill digit [] cs).length ≤ cs.length := by
  induction cs using pass_induction digit with
  | nil => simp [fill]
  | found rest ih =>
    rw [fill_placeholder, List.nil_append, List.length_append]
    exact Nat.le_trans ih (Nat.le_add_left _ _)
  | kept c cs h ih =>
    rw [fill_cons h]
    exact Nat.succ_le_succ ih

/-- Deleting a placeholder makes a text shorter. -/
theorem length_fill_nil_lt (h : placeholder digit <:+: cs) :
    (fill digit [] cs).length < cs.length := by
  induction cs using pass_induction digit with
  | nil => cases List.infix_nil.1 h
  | found rest _ =>
    have hle := length_fill_nil_le digit rest
    rw [fill_placeholder, List.nil_append, List.length_append]
    exact Nat.lt_of_le_of_lt hle (Nat.lt_add_of_pos_left (Nat.succ_pos 2))
  | kept c cs hc ih =>
    rw [fill_cons hc]
    exact Nat.succ_lt_succ (ih ((List.infix_cons_iff.1 h).resolve_left hc))

end

/-! ## Problems -/

/-- A text without its placeholders 1, and then without those with a 2. -/
def erased (text : String) : String :=
  String.ofList (fill '2' [] (fill '1' [] text.toList))

theorem erased_eq_self_iff (text : String) :
    erased text = text ↔ ∀ digit ∈ ['1', '2'], ¬placeholder digit <:+: text.toList := by
  have hlist : erased text = text ↔ fill '2' [] (fill '1' [] text.toList) = text.toList := by
    unfold erased
    rw [← String.toList_inj, String.toList_ofList]
  rw [hlist]
  constructor
  · intro h
    have hlength := congrArg List.length h
    have hfirst : ¬placeholder '1' <:+: text.toList := by
      intro h1
      have hlt := length_fill_nil_lt h1
      have hle := length_fill_nil_le '2' (fill '1' [] text.toList)
      omega
    rw [fill_eq_self hfirst] at hlength
    have hsecond : ¬placeholder '2' <:+: text.toList := by
      intro h2
      exact Nat.ne_of_lt (length_fill_nil_lt h2) hlength
    simpa using ⟨hfirst, hsecond⟩
  · intro h
    rw [fill_eq_self (h '1' (by simp)), fill_eq_self (h '2' (by simp))]

namespace Code

/-- The template before its placeholder. -/
def lead : Code → List Char
  | unsupportedConstruct => "Unsupported construct: ".toList
  | nameNotFound => "Cannot find name '".toList

/-- The template after its placeholder. -/
def trail : Code → List Char
  | unsupportedConstruct => []
  | nameNotFound => "'".toList

theorem template_eq (code : Code) :
    code.template.toList = code.lead ++ (placeholder '0' ++ code.trail) := by
  cases code <;> rfl

theorem plain_lead (code : Code) : Plain code.lead := by
  cases code <;> (unfold Plain; decide)

theorem plain_trail (code : Code) : Plain code.trail := by
  cases code <;> (unfold Plain; decide)

/-- The first argument takes the place of the only placeholder of the template; the other two are
filled into the first. -/
theorem toList_format (code : Code) (args : List String) :
    (code.format args).toList = code.lead ++
      (fill '2' (args.getD 2 "").toList
        (fill '1' (args.getD 1 "").toList (args.getD 0 "").toList) ++ code.trail) := by
  have hpass : ∀ (digit : Char) (value text : List Char),
      fill digit value (code.lead ++ (text ++ code.trail)) =
        code.lead ++ (fill digit value text ++ code.trail) := by
    intro digit value text
    rw [fill_append_left code.plain_lead.1, fill_append_right code.plain_trail]
  have hzero : fill '0' (args.getD 0 "").toList (placeholder '0') = (args.getD 0 "").toList := by
    simpa [fill] using fill_placeholder '0' (args.getD 0 "").toList []
  have hpasses : code.format args = String.ofList (fill '2' (args.getD 2 "").toList
      (fill '1' (args.getD 1 "").toList
        (fill '0' (args.getD 0 "").toList code.template.toList))) := rfl
  rw [hpasses, String.toList_ofList, template_eq, hpass, hzero, hpass, hpass]

end Code

namespace Problem

/-- The same problem about another construct or name. -/
def mapText (f : String → String) : Problem → Problem
  | unsupported construct span => unsupported (f construct) span
  | nameNotFound name span => nameNotFound (f name) span

/-- The construct or the name. -/
def text : Problem → String
  | unsupported construct _ => construct
  | nameNotFound name _ => name

theorem args_eq (p : Problem) : p.args = [p.text] := by
  cases p <;> rfl

theorem toList_message (p : Problem) :
    p.message.toList = p.code.lead ++ (p.text.toList ++ p.code.trail) := by
  cases p with
  | unsupported construct span =>
    show (String.join ["Unsupported construct: ", construct]).toList =
      "Unsupported construct: ".toList ++ (construct.toList ++ [])
    rw [String.join_cons, String.join_cons, String.join_nil, String.append_empty,
      String.toList_append, List.append_nil]
  | nameNotFound name span =>
    show (String.join ["Cannot find name '", name, "'"]).toList =
      "Cannot find name '".toList ++ (name.toList ++ "'".toList)
    rw [String.join_cons, String.join_cons, String.join_cons, String.join_nil, String.append_empty,
      String.toList_append, String.toList_append]

theorem mapText_fields (p : Problem) (f : String → String) :
    (p.mapText f).code = p.code ∧ (p.mapText f).text = f p.text := by
  cases p <;> exact ⟨rfl, rfl⟩

theorem format_args (p : Problem) : p.code.format p.args = (p.mapText erased).message := by
  obtain ⟨hcode, htext⟩ := p.mapText_fields erased
  rw [← String.toList_inj, Code.toList_format, toList_message, hcode, htext, erased,
    String.toList_ofList, args_eq]
  rfl

theorem message_mapText_eq_iff (p : Problem) (f : String → String) :
    (p.mapText f).message = p.message ↔ f p.text = p.text := by
  obtain ⟨hcode, htext⟩ := p.mapText_fields f
  rw [← String.toList_inj, toList_message, toList_message, hcode, htext, List.append_cancel_left_eq,
    List.append_cancel_right_eq, String.toList_inj]

/-- Filling the template of a problem with its argument gives the words for the problem about the
argument without its placeholders 1 and 2. So it gives the words for the problem itself exactly if
the argument holds none of them, whatever else it holds. -/
theorem format_args_eq_message_iff (p : Problem) :
    p.code.format p.args = (p.mapText erased).message ∧
    (p.code.format p.args = p.message ↔
      ∀ arg ∈ p.args, ∀ digit ∈ ['1', '2'], ¬placeholder digit <:+: arg.toList) := by
  refine ⟨p.format_args, ?_⟩
  rw [p.format_args, message_mapText_eq_iff, erased_eq_self_iff, args_eq]
  simp

/-- The name holds a placeholder with a 1, which the message has lost. -/
theorem placeholder_lost_from_name :
    let p := Problem.nameNotFound "a\x7b1\x7db" .synthetic
    p.message = "Cannot find name 'a\x7b1\x7db'" ∧ p.code.format p.args = "Cannot find name 'ab'" ∧
      p.code.format p.args ≠ p.message := by
  intro p
  obtain ⟨hformat, hiff⟩ := format_args_eq_message_iff p
  refine ⟨rfl, ?_, fun heq => ?_⟩
  · rw [hformat]
    simp [p, mapText, erased, fill, message]
  · exact hiff.1 heq _ List.mem_cons_self '1' (by simp) ⟨['a'], ['b'], rfl⟩

end Problem

end BlockLowering.Diagnostic
