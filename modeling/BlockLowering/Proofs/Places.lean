import BlockLowering.Proofs.RelabelledRuns

/-!
# Places do not matter

Spans are copied and joined, and nothing is decided by them. So two modules that are the same but
for their spans are lowered to the same arena and reported with the same records, again but for
their spans.
-/

namespace BlockLowering

open IR Diagnostic Source Session

/-- Every place is forgotten, and nothing else. -/
def Relabel.unspanned : Relabel where
  symbol := id
  span _ := .synthetic
  text := id
  span_synthetic := rfl
  span_merge _ _ := rfl
  text_injective := Function.injective_id

/-- The module without its spans. -/
def Source.Module.unspanned (m : Module) : Module := m.relabel Relabel.unspanned

/-- The arena without its spans. -/
def IR.Arena.unspanned (a : Arena) : Arena := a.relabel .unspanned

/-- The record without its span. -/
def Diagnostic.Record.unspanned (r : Record) : Code × List String := (r.code, r.args)

/-- A record has lost its span and nothing else. -/
theorem Diagnostic.Record.unspanned_relabel (r : Record) :
    (r.relabel .unspanned).unspanned = r.unspanned := by
  have hargs : r.args.map Relabel.unspanned.text = r.args := List.map_id _
  unfold Record.relabel Record.unspanned
  rw [hargs, ite_self]

/-- The module without its spans is lowered to what is left of the result without its spans. -/
theorem lowerModule_of_unspanned (names : SymbolTable) (m : Module) (options : Options) :
    lowerModule names m.unspanned options = (lowerModule names m options).relabel .unspanned := by
  have hoptions : options.relabel .unspanned = options :=
    congrArg (fun builtinTypes => { options with builtinTypes }) (List.map_id _)
  have htexts : ∀ x ∈ (Node.module m).identifiers, Relabel.unspanned.Translates names names x :=
    fun _ _ => rfl
  have h := lowerModule_relabel htexts options
  rwa [hoptions] at h

/-- Two modules that are the same but for their spans are lowered, under one table and the same
options, to arenas that are the same but for their spans, and to records that agree one by one in
their codes and arguments. -/
theorem lowerModule_places_irrelevant {m₁ m₂ : Module} (h : m₁.unspanned = m₂.unspanned)
    (names : SymbolTable) (options : Options) :
    let s₁ := lowerModule names m₁ options
    let s₂ := lowerModule names m₂ options
    s₁.arena.unspanned = s₂.arena.unspanned ∧
      s₁.log.records.map Record.unspanned = s₂.log.records.map Record.unspanned := by
  intro s₁ s₂
  have hsame : s₁.relabel .unspanned = s₂.relabel .unspanned := by
    rw [← lowerModule_of_unspanned, ← lowerModule_of_unspanned, h]
  refine ⟨congrArg Session.arena hsame, ?_⟩
  have hrecords := congrArg (fun s => s.log.records.map Record.unspanned) hsame
  simpa [Session.relabel, Log.relabel, Function.comp_def, Record.unspanned_relabel] using hrecords

/-- `function f<T, U>() { x; }`, written once and with every offset doubled: two records at other
places, and nothing else has changed. -/
theorem doubled_offsets_irrelevant :
    let names : SymbolTable := ⟨["f", "T", "U", "x"]⟩
    let typeParam (place : UInt64 → UInt64 → Span) (symbol : Nat) (i : UInt64) : TypeParameter :=
      ⟨⟨⟨symbol⟩, place i (i + 1)⟩, none, none, place i (i + 1)⟩
    let m (place : UInt64 → UInt64 → Span) : Module :=
      ⟨[.functionDecl ⟨⟨⟨0⟩, place 9 10⟩, [typeParam place 1 11, typeParam place 2 14], [], none,
        ⟨[.expression (.identifier ⟨⟨3⟩, place 21 22⟩) (place 21 23)], place 19 25⟩,
        place 0 25⟩], place 0 25⟩
    let once (i j : UInt64) : Span := ⟨i, j⟩
    let doubled (i j : UInt64) : Span := ⟨2 * i, 2 * j⟩
    let lowered (place : UInt64 → UInt64 → Span) := lowerModule names (m place) {}
    (m once).unspanned = (m doubled).unspanned ∧
      (lowered once).log.records.map Record.span = [some ⟨11, 15⟩, some ⟨21, 22⟩] ∧
      (lowered doubled).log.records.map Record.span = [some ⟨22, 30⟩, some ⟨42, 44⟩] ∧
      (lowered once).arena.unspanned = (lowered doubled).arena.unspanned ∧
      (lowered once).log.records.map Record.unspanned =
        (lowered doubled).log.records.map Record.unspanned := by
  intro names typeParam m once doubled lowered
  have hsame : ∀ p q, (m p).unspanned = (m q).unspanned := fun _ _ => rfl
  have h := hsame once doubled
  refine ⟨h, by decide +kernel, by decide +kernel, ?_⟩
  unfold lowered
  exact lowerModule_places_irrelevant h names {}

end BlockLowering
