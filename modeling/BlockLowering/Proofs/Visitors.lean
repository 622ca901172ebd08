import Mathlib.Data.List.Basic
import BlockLowering.Source.Visitor

/-!
# What visitors see

Overriding hooks lets a visitor see visits or cut the traversal, and has no other effect
(`log_eq_restricted_trace`). Both logs, the one of a visitor and the one in which every visit is
written down together with the visits that enclose it, are put together from the visits directly
below a visit (`logFrom_eq`, `eventsFrom_eq`); they are compared along that recursion.
-/

namespace BlockLowering.Source

/-- Visits can be reasoned about from the visits directly below them. -/
@[elab_as_elim]
theorem Visit.calls_induction {motive : Visit → Prop}
    (step : ∀ v, (∀ u ∈ v.calls, motive u) → motive v) (v : Visit) : motive v := by
  induction hn : v.size using Nat.strongRecOn generalizing v with
  | ind n ih =>
    apply step
    intro u hu
    exact ih u.size (hn ▸ Visit.size_lt_of_mem_calls hu) u rfl

/-- Steps that only append to the state append all that they append. -/
theorem foldl_eq_append_flatMap {α β : Type} {f : List β → α → List β} {g : α → List β}
    (l : List α) (h : ∀ x ∈ l, ∀ s, f s x = s ++ g x) (s : List β) :
    l.foldl f s = s ++ l.flatMap g := by
  induction l generalizing s with
  | nil => simp
  | cons x rest ih =>
    rw [List.foldl_cons, h x List.mem_cons_self, ih fun y hy => h y (List.mem_cons_of_mem x hy),
      List.flatMap_cons, List.append_assoc]

/-! ## Logs -/

namespace Visitor

variable (logged cut : Hook → Bool)

/-- What the visitor writes down from a visit on. -/
def logFrom (v : Visit) : List Visit := (logging logged cut).visit v []

theorem visit_logging (v : Visit) (log : List Visit) :
    (logging logged cut).visit v log =
      if logged v.hook then
        if cut v.hook then log ++ [v] else (logging logged cut).walk v (log ++ [v])
      else (logging logged cut).walk v log := by
  rw [visit_eq]
  by_cases h : logged v.hook
  · rw [if_pos h, show (logging logged cut).override? v.hook = some _ from if_pos h]
  · rw [if_neg h, show (logging logged cut).override? v.hook = none from if_neg h]

theorem visit_logging_append (v : Visit) (log : List Visit) :
    (logging logged cut).visit v log = log ++ logFrom logged cut v := by
  induction v using Visit.calls_induction generalizing log with
  | step v ih =>
    have hwalk : ∀ log, (logging logged cut).walk v log =
        log ++ v.calls.flatMap (logFrom logged cut) := by
      intro log
      exact foldl_eq_append_flatMap v.calls (fun u hu s => ih u hu s) log
    unfold logFrom
    rw [visit_logging, visit_logging, hwalk, hwalk, hwalk, hwalk]
    split_ifs <;> simp

/-- The visit itself, if its hook is logged, then what is seen below it, unless it is cut there. -/
theorem logFrom_eq (v : Visit) :
    logFrom logged cut v =
      (if logged v.hook then [v] else []) ++
        if logged v.hook && cut v.hook then [] else v.calls.flatMap (logFrom logged cut) := by
  have hwalk : ∀ log, (logging logged cut).walk v log =
      log ++ v.calls.flatMap (logFrom logged cut) := by
    intro log
    exact foldl_eq_append_flatMap v.calls (fun u _ s => visit_logging_append logged cut u s) log
  show (logging logged cut).visit v [] = _
  rw [visit_logging, hwalk, hwalk]
  by_cases hl : logged v.hook <;> by_cases hc : cut v.hook <;> simp [hl, hc]

/-- A traversal is what a visitor sees that overrides every hook. -/
theorem visits_eq_logFrom (v : Visit) :
    v.visits (fun u => !cut u.hook) = logFrom (fun _ => true) cut v := by
  induction v using Visit.calls_induction with
  | step v ih =>
    have hbelow : v.calls.flatMap (Visit.visits fun u => !cut u.hook) =
        v.calls.flatMap (logFrom (fun _ => true) cut) := List.flatMap_congr ih
    rw [logFrom_eq]
    show v :: (if !cut v.hook then v.below _ else []) = _
    rw [Visit.below_eq_flatMap, hbelow]
    cases cut v.hook <;> rfl

end Visitor

/-! ## Enclosing visits -/

/-- A visit, with the visits whose walks were running at that time, innermost first. -/
structure Event where
  visit : Visit
  running : List Visit

/-- Overrides every hook: a visit is written down with the walks that are running, and its own walk
is running while the visits below it are made. -/
def Visitor.tracing : Visitor (List Visit × List Event) where
  override? _ := some fun v walk state =>
    let after := walk (v :: state.1, state.2 ++ [⟨v, state.1⟩])
    (after.1.tail, after.2)

/-- All visits after a node is entered from outside, with what encloses them. -/
def Node.trace (n : Node) : List Event := (Visitor.tracing.visit ⟨.node, n⟩ ([], [])).2

namespace Visitor

/-- What is written down from a visit on that is made while `running` are. -/
def eventsFrom (running : List Visit) (v : Visit) : List Event :=
  (tracing.visit v (running, [])).2

theorem visit_tracing (v : Visit) (running : List Visit) (events : List Event) :
    tracing.visit v (running, events) =
      ((tracing.walk v (v :: running, events ++ [⟨v, running⟩])).1.tail,
        (tracing.walk v (v :: running, events ++ [⟨v, running⟩])).2) := by
  rw [visit_eq]
  rfl

/-- Walks end in the order in which they began, and events are only appended. -/
theorem walk_tracing (v : Visit) (running : List Visit)
    (h : ∀ u ∈ v.calls, ∀ events,
      tracing.visit u (running, events) = (running, events ++ eventsFrom running u))
    (events : List Event) :
    tracing.walk v (running, events) =
      (running, events ++ v.calls.flatMap (eventsFrom running)) := by
  unfold walk
  generalize v.calls = us at h ⊢
  induction us generalizing events with
  | nil => simp
  | cons u rest ih =>
    rw [List.foldl_cons, h u List.mem_cons_self,
      ih _ fun w hw => h w (List.mem_cons_of_mem u hw), List.flatMap_cons, List.append_assoc]

theorem visit_tracing_append (v : Visit) (running : List Visit) (events : List Event) :
    tracing.visit v (running, events) = (running, events ++ eventsFrom running v) := by
  induction v using Visit.calls_induction generalizing running events with
  | step v ih =>
    have hwalk := walk_tracing v (v :: running) fun u hu events => ih u hu (v :: running) events
    unfold eventsFrom
    rw [visit_tracing, visit_tracing, hwalk, hwalk]
    simp

/-- The visit itself, then what is below it, which it encloses. -/
theorem eventsFrom_eq (running : List Visit) (v : Visit) :
    eventsFrom running v = ⟨v, running⟩ :: v.calls.flatMap (eventsFrom (v :: running)) := by
  have hwalk := walk_tracing v (v :: running) fun u _ events =>
    visit_tracing_append u (v :: running) events
  show (tracing.visit v (running, [])).2 = _
  rw [visit_tracing, hwalk]
  simp

/-- Walks that are running when a visit is made are running at all visits below it. -/
theorem mem_running_of_mem_eventsFrom {v u : Visit} {running : List Visit} {e : Event}
    (he : e ∈ eventsFrom running v) (hu : u ∈ running) : u ∈ e.running := by
  induction v using Visit.calls_induction generalizing running with
  | step v ih =>
    rw [eventsFrom_eq, List.mem_cons, List.mem_flatMap] at he
    rcases he with rfl | ⟨w, hw, he⟩
    · exact hu
    · exact ih w hw he (List.mem_cons_of_mem v hu)

/-! ## Restricted traces -/

variable (logged cut : Hook → Bool)

/-- The visit is logged, and nothing that encloses it is cut. -/
def seen (e : Event) : Bool := logged e.visit.hook && e.running.all fun u => !cut u.hook

/-- Nothing is seen below a visit that is cut. -/
theorem filter_seen_eq_nil {v u : Visit} {running : List Visit} (hu : u ∈ running)
    (hcut : cut u.hook = true) : (eventsFrom running v).filter (seen logged cut) = [] := by
  apply List.filter_eq_nil_iff.2
  intro e he hseen
  have hall : e.running.all (fun u => !cut u.hook) = true := (Bool.and_eq_true_iff.1 hseen).2
  have hnot := List.all_eq_true.1 hall u (mem_running_of_mem_eventsFrom he hu)
  rw [hcut] at hnot
  cases hnot

/-- Where nothing that encloses a visit is cut, the visitor sees what the restricted trace has. -/
theorem logFrom_eq_filter (hcut : ∀ h, cut h = true → logged h = true) (v : Visit)
    (running : List Visit) (hrunning : ∀ u ∈ running, cut u.hook = false) :
    logFrom logged cut v =
      ((eventsFrom running v).filter (seen logged cut)).map Event.visit := by
  induction v using Visit.calls_induction generalizing running with
  | step v ih =>
    have hseen : seen logged cut ⟨v, running⟩ = logged v.hook := by
      have hall : running.all (fun u => !cut u.hook) = true := by
        apply List.all_eq_true.2
        intro u hu
        rw [hrunning u hu]
        rfl
      unfold seen
      rw [hall, Bool.and_true]
    rw [logFrom_eq, eventsFrom_eq, List.filter_cons, hseen, List.filter_flatMap]
    by_cases hc : cut v.hook = true
    · have hbelow : v.calls.flatMap
          (fun u => (eventsFrom (v :: running) u).filter (seen logged cut)) = [] := by
        apply List.flatMap_eq_nil_iff.2
        intro u _
        exact filter_seen_eq_nil logged cut List.mem_cons_self hc
      simp [hbelow, hc, hcut v.hook hc]
    · have hv : cut v.hook = false := Bool.eq_false_iff.2 hc
      have hbelow : v.calls.flatMap (logFrom logged cut) = (v.calls.flatMap
          fun u => (eventsFrom (v :: running) u).filter (seen logged cut)).map Event.visit := by
        rw [List.map_flatMap]
        apply List.flatMap_congr
        intro u hu
        apply ih u hu (v :: running)
        intro w hw
        rcases List.mem_cons.1 hw with rfl | hw
        · exact hv
        · exact hrunning w hw
      rw [hv, hbelow]
      cases logged v.hook <;> rfl

end Visitor

open Visitor

/-- A visitor that overrides the hooks `logged`, and goes no deeper at those of them that are `cut`,
writes down the full trace of a node, in order, restricted to the visits whose hook is logged and
which no visit with a cut hook encloses. The visitor that overrides nothing but the visits of
identifiers sees the identifiers of the full trace. The traversals that are cut at a visit are the
logs of the visitors that override every hook. -/
theorem log_eq_restricted_trace (n : Node) (logged cut : Hook → Bool)
    (hcut : ∀ h, cut h = true → logged h = true) :
    log logged cut n =
      (n.trace.filter fun e =>
        logged e.visit.hook && e.running.all fun u => !cut u.hook).map Event.visit ∧
    log (fun _ => true) (fun _ => false) n = n.trace.map Event.visit ∧
    log (· == .kind .identifier) (fun _ => false) n =
      (log (fun _ => true) (fun _ => false) n).filter (fun v => v.hook == .kind .identifier) ∧
    n.visits (fun v => !cut v.hook) = log (fun _ => true) cut n := by
  have hfull : log (fun _ => true) (fun _ => false) n = n.trace.map Event.visit := by
    have hfilter := logFrom_eq_filter (fun _ => true) (fun _ => false) (fun _ _ => rfl) ⟨.node, n⟩
      [] (by simp)
    have hseen : seen (fun _ => true) (fun _ => false) = fun _ => true := by
      funext e
      simp [seen]
    rw [hseen, List.filter_true] at hfilter
    exact hfilter
  refine ⟨?_, hfull, ?_, ?_⟩
  · exact logFrom_eq_filter logged cut hcut ⟨.node, n⟩ [] (by simp)
  · rw [hfull, List.filter_map]
    have hfilter := logFrom_eq_filter (· == .kind .identifier) (fun _ => false)
      (fun _ h => absurd h Bool.false_ne_true) ⟨.node, n⟩ [] (by simp)
    have hseen : seen (· == .kind .identifier) (fun _ => false) =
        (fun v => v.hook == .kind .identifier) ∘ Event.visit := by
      funext e
      simp [seen]
    rw [hseen] at hfilter
    exact hfilter
  · exact visits_eq_logFrom cut ⟨.node, n⟩

/-- In `x + (y)`, a visitor that goes no deeper at parentheses does not come to `y`. -/
theorem parentheses_hide_inside :
    let x : Expression := .identifier ⟨⟨0⟩, .synthetic⟩
    let y : Expression := .identifier ⟨⟨1⟩, .synthetic⟩
    let group : Expression := .parenthesized y .synthetic
    let n : Node := .expression (.binary .add x group .synthetic)
    let cut : Hook → Bool := (· == .kind .parenthesized)
    (∀ h, cut h = true → (fun _ : Hook => true) h = true) ∧
      (n.trace.filter fun e => true && e.running.all fun u => !cut u.hook).map Event.visit =
        [⟨.node, n⟩, .byKind n, ⟨.expression, .expression x⟩, .byKind (.expression x),
          ⟨.expression, .expression group⟩, .byKind (.expression group)] := by
  intro x y group n cut
  obtain ⟨hlog, _, _, hvisits⟩ := log_eq_restricted_trace n (fun _ => true) cut (fun _ _ => rfl)
  exact ⟨fun _ _ => rfl, hlog.symm.trans (hvisits.symm.trans rfl)⟩

end BlockLowering.Source
