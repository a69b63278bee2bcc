import SelectMerge.Proofs.Block.Stock
import SelectMerge.Proofs.Schema.Casting

/-!
# Folding blocks into a target

What may be done to a target is an `Action`, and the blocks that can be had at all are `Obtained`:
made in one of three ways and then acted on.

Rows are not recast when the schema of their target widens, so a row may be many covers behind.
Types widen along every cover, though, and widening composes: `Covered` says that the schema of a
block admits each row that is still there, every action keeps it (`Covered.perform`), and from it,
for any run of actions from a target without rows, all rows can be projected to the schema at the
end (`exists_project_performAll`).
-/

namespace SelectMerge

namespace Block

/-! ## Runs of actions -/

/-- What may be done to a target. -/
inductive Action where
  | mergeUnordered (source : Block) (bound : Nat)
  | mergeOrdered (source : Block) (bound : Nat)
  | settle

namespace Action

def source? : Action → Option Block
  | mergeUnordered source _ => some source
  | mergeOrdered source _ => some source
  | settle => none

end Action

/-- What the target answers to an action, and what it becomes. -/
def perform (b : Block) : Action → Except MergeError (Option MergeTally) × Block
  | .mergeUnordered source bound =>
    let (answer, b) := b.mergeUnordered source bound
    (answer.map some, b)
  | .mergeOrdered source bound =>
    let (answer, b) := b.mergeOrdered source bound
    (answer.map some, b)
  | .settle => (.ok none, b.settle)

/-- The answers to a run of actions, and what the target becomes. -/
def performAll : List Action → Block → List (Except MergeError (Option MergeTally)) × Block
  | [], b => ([], b)
  | action :: actions, b =>
    let (answer, b) := b.perform action
    let (answers, b) := performAll actions b
    (answer :: answers, b)

theorem performAll_cons (action : Action) (actions : List Action) (b : Block) :
    (performAll (action :: actions) b).2 = (performAll actions (b.perform action).2).2 := rfl

/-! ## Blocks that can be had -/

/-- The blocks that can be had: made in one of three ways, and then acted on. -/
inductive Obtained : Block → Prop where
  | ofRows (schema : Schema) (rows : List Row) : Obtained (.ofRows schema rows)
  | ordered (schema : Schema) (o : RowOrder) (bound : Nat) : Obtained (.ordered schema o bound)
  | orderedOfRows (schema : Schema) (rows : List Row) (o : RowOrder) (bound : Nat) :
      Obtained (.orderedOfRows schema rows o bound)
  | perform {b : Block} (action : Action) : Obtained b → Obtained (b.perform action).2

theorem Stores.perform {b : Block} {l : List Row} (h : b.Stores l) (action : Action) :
    ∃ l', (b.perform action).2.Stores l' := by
  cases action with
  | mergeUnordered source bound =>
    show ∃ l', (b.mergeUnordered source bound).2.Stores l'
    rcases hmerge : b.mergeUnordered source bound with ⟨e | tally, b'⟩
    · exact ⟨l, eq_of_mergeUnordered_error hmerge ▸ h⟩
    · exact ⟨_, (h.mergeUnordered hmerge).2⟩
  | mergeOrdered source bound =>
    show ∃ l', (b.mergeOrdered source bound).2.Stores l'
    rcases hmerge : b.mergeOrdered source bound with ⟨e | tally, b'⟩
    · exact ⟨l, eq_of_mergeOrdered_error hmerge ▸ h⟩
    · obtain ⟨-, l', hl', -⟩ := h.mergeOrdered hmerge
      exact ⟨l', hl'⟩
  | settle => exact ⟨_, h.settle.1⟩

theorem Obtained.exists_stores {b : Block} (h : b.Obtained) : ∃ l, b.Stores l := by
  induction h with
  | ofRows schema rows => exact ⟨rows, .arrived schema rows⟩
  | ordered schema o bound => exact ⟨[], stores_ordered schema o bound⟩
  | orderedOfRows schema rows o bound =>
    obtain ⟨l, hs, -, hlen, hcap⟩ := (TopK.stores_empty o.compare bound).offerAll (by simp) rows
    exact ⟨l, .ranked schema hs (by omega)⟩
  | perform action _ ih =>
    obtain ⟨l, hl⟩ := ih
    exact hl.perform action

theorem Obtained.output_ne_nil {b : Block} (h : b.Obtained) (hb : b.isEmpty = false) :
    b.output ≠ [] := by
  obtain ⟨l, hl⟩ := h.exists_stores
  intro hnil
  rw [isEmpty, ← hl.length_output, hnil] at hb
  cases hb

/-! ## What the schema of a target covers -/

/-- Whether every row of the block has one cell a column, null or of the column's type. -/
structure Typed (b : Block) : Prop where
  aligned : b.schema.Aligned
  fits : ∀ r ∈ b.output, b.schema.Fits r

/-- Whether the schema of the block admits every row that it keeps. -/
structure Covered (b : Block) : Prop where
  aligned : b.schema.Aligned
  rows : ∃ l, b.Stores l ∧ ∀ r ∈ l, b.schema.Admits r

variable {b source : Block} {schema : Schema}

theorem covered_ofRows (h : schema.Aligned) : (Block.ofRows schema []).Covered :=
  ⟨h, [], .arrived schema [], by simp⟩

theorem covered_ordered (h : schema.Aligned) (o : RowOrder) (k : Nat) :
    (Block.ordered schema o k).Covered :=
  ⟨h, [], stores_ordered schema o k, by simp⟩

/-- A target under the cover of two schemas admits what either of them did. -/
theorem Covered.of_cover {b' : Block} {l l' : List Row} (haligned : b.schema.Aligned)
    (hl : ∀ r ∈ l, b.schema.Admits r) (hsource : source.Typed)
    (hcov : b.schema.cover? source.schema = some b'.schema) (hstores : b'.Stores l')
    (hsub : l' ⊆ l ++ source.output) : b'.Covered := by
  obtain ⟨haligned', hleft, hright⟩ := Schema.widen_of_cover? haligned hsource.aligned hcov
  refine ⟨haligned', l', hstores, ?_⟩
  intro r hr
  rcases List.mem_append.mp (hsub hr) with hr | hr
  · exact (hl r hr).widen hleft
  · exact (hsource.fits r hr).admits.widen hright

theorem Covered.mergeUnordered (h : b.Covered) (hsource : source.Typed) (bound : Nat) :
    (b.mergeUnordered source bound).2.Covered := by
  obtain ⟨l, hstores, hl⟩ := h.rows
  cases hmerge : b.mergeUnordered source bound with
  | mk answer b' =>
    cases answer with
    | error e => rwa [eq_of_mergeUnordered_error hmerge]
    | ok tally =>
      obtain ⟨hcov, hstores'⟩ := hstores.mergeUnordered hmerge
      have hsub : l ++ source.output.take (bound - l.length) ⊆ l ++ source.output :=
        ((List.take_sublist _ _).append_left l).subset
      exact .of_cover h.aligned hl hsource hcov hstores' hsub

theorem Covered.mergeOrdered (h : b.Covered) (hsource : source.Typed) (bound : Nat) :
    (b.mergeOrdered source bound).2.Covered := by
  obtain ⟨l, hstores, hl⟩ := h.rows
  cases hmerge : b.mergeOrdered source bound with
  | mk answer b' =>
    cases answer with
    | error e => rwa [eq_of_mergeOrdered_error hmerge]
    | ok tally =>
      obtain ⟨hcov, l', hstores', hsub, -⟩ := hstores.mergeOrdered hmerge
      exact .of_cover h.aligned hl hsource hcov hstores' hsub.subset

theorem Covered.settle (h : b.Covered) : b.settle.Covered := by
  obtain ⟨l, hstores, hl⟩ := h.rows
  obtain ⟨hstores', hschema⟩ := hstores.settle
  refine ⟨hschema ▸ h.aligned, b.output, hstores', ?_⟩
  intro r hr
  rw [hschema]
  exact hl r (hstores.output_perm.mem_iff.mp hr)

theorem Covered.perform {action : Action} (h : b.Covered)
    (hsource : ∀ source ∈ action.source?, source.Typed) : (b.perform action).2.Covered := by
  cases action with
  | mergeUnordered source bound => exact h.mergeUnordered (hsource source rfl) bound
  | mergeOrdered source bound => exact h.mergeOrdered (hsource source rfl) bound
  | settle => exact h.settle

theorem Covered.performAll {actions : List Action} (h : b.Covered)
    (hsources : ∀ action ∈ actions, ∀ source ∈ action.source?, source.Typed) :
    (performAll actions b).2.Covered := by
  induction actions generalizing b with
  | nil => exact h
  | cons action actions ih =>
    rw [performAll_cons]
    exact ih (h.perform (hsources action (by simp)))
      fun action' haction => hsources action' (by simp [haction])

/-! ## Projecting what was folded -/

/-- Whatever blocks are folded into a target without rows, under whatever bounds, the rows of the
target can be projected to its schema; merges that fail on the way change nothing. -/
theorem exists_project_performAll {target : Block} {actions : List Action}
    (hschema : schema.Aligned)
    (htarget : target = .ofRows schema [] ∨ ∃ o k, target = .ordered schema o k)
    (hsources : ∀ action ∈ actions, ∀ source ∈ action.source?, source.Typed) :
    ∃ rows, (performAll actions target).2.schema.project (performAll actions target).2.output =
        .ok rows ∧
      List.Forall₂ (fun r r' => (performAll actions target).2.schema.Fits r' ∧
        r'.map Cell.isNull = r.map Cell.isNull) (performAll actions target).2.output rows := by
  have hcovered : target.Covered := by
    rcases htarget with rfl | ⟨o, k, rfl⟩
    · exact covered_ofRows hschema
    · exact covered_ordered hschema o k
  obtain ⟨haligned, l, hstores, hl⟩ := hcovered.performAll hsources
  have hadmits : ∀ r ∈ (performAll actions target).2.output,
      (performAll actions target).2.schema.Admits r :=
    fun r hr => hl r (hstores.output_perm.mem_iff.mp hr)
  obtain ⟨rows, hrows⟩ := Schema.exists_project haligned hadmits
  exact ⟨rows, hrows, Schema.fits_of_project haligned hrows⟩

/-! ### Readings -/

def readingOrder : RowOrder := ⟨[⟨0, true⟩], .last⟩

/-- A block of readings, all of one type or missing. -/
def readings (t : ColumnType) (cs : List Cell) : Block :=
  .ofRows (.ofColumns [("reading", t)]) (cs.map ([·]))

theorem typed_readings {t : ColumnType} {cs : List Cell} (h : ∀ c ∈ cs, c.fits t) :
    (readings t cs).Typed where
  aligned := rfl
  fits r hr := by
    obtain ⟨c, hc, rfl⟩ := List.mem_map.mp hr
    exact .cons (h c hc) .nil

def wholeReadings : Block := readings (.one .int) [.int 7, .null, .int 2]

/-- The type of readings is LONG after the second merge and DOUBLE after the third. -/
def readingActions : List Action :=
  [.mergeOrdered wholeReadings 4, .mergeOrdered (readings (.one .long) [.long 5]) 3, .settle,
    .mergeOrdered (readings (.one .float) [.null, .float ⟨0x40000000⟩]) 5]

/-- The target after the readings, of which those of the first block are two covers behind. -/
def mergedReadings : Block :=
  (performAll readingActions (.ordered wholeReadings.schema readingOrder 4)).2

theorem exists_project_performAll_readings :
    wholeReadings.schema.Aligned ∧
      (∀ action ∈ readingActions, ∀ source ∈ action.source?, source.Typed) ∧
      mergedReadings.schema = .ofColumns [("reading", .one .double)] ∧
      mergedReadings.output.map (·.map Cell.type?) =
        [[some (.one .int)], [some (.one .float)], [some (.one .long)], [some (.one .int)],
          [none]] ∧
      ∃ rows, mergedReadings.schema.project mergedReadings.output = .ok rows ∧
        List.Forall₂ (fun r r' => mergedReadings.schema.Fits r' ∧
          r'.map Cell.isNull = r.map Cell.isNull) mergedReadings.output rows := by
  have haligned : wholeReadings.schema.Aligned := rfl
  have hsources : ∀ action ∈ readingActions, ∀ source ∈ action.source?, source.Typed := by
    intro action haction source hsource
    simp only [readingActions, List.mem_cons, List.not_mem_nil, or_false] at haction
    rcases haction with rfl | rfl | rfl | rfl
    · obtain rfl := Option.some.inj hsource
      exact typed_readings (by decide)
    · obtain rfl := Option.some.inj hsource
      exact typed_readings (by decide)
    · cases hsource
    · obtain rfl := Option.some.inj hsource
      exact typed_readings (by decide)
  exact ⟨haligned, hsources, by decide +kernel, by decide +kernel,
    exists_project_performAll haligned (.inr ⟨readingOrder, 4, rfl⟩) hsources⟩

end Block

end SelectMerge
