import SelectMerge.Proofs.Block.Upgrades
import SelectMerge.Proofs.Run.Turns

/-!
# What targets keep

The order of a target is checked once, when the target is created, while its schema widens with
every source and its rows move between an open selection and a settled list. Whatever is merged into
it, and whenever it is settled, it stays within its bound and under its names, its order stays valid
for its schema, and its rows are listed in that order. Merges that fail change nothing.

`Maintains` is the invariant: it holds of every target that a combiner creates (`maintains_create`),
and of what a target becomes by any action of a combiner (`Maintains.perform`). `target_stays_sound`
follows by induction over the actions.
-/

namespace SelectMerge

/-! ## Actions -/

namespace Block

theorem order?_perform (b : Block) (action : Action) :
    (b.perform action).2.order? = b.order? := by
  cases action with
  | mergeUnordered source bound => exact order?_mergeUnordered bound
  | mergeOrdered source bound =>
    cases hb : b.order? with
    | none =>
      have hne : ¬ b.isOrdered := by simp [isOrdered, hb]
      show (b.mergeOrdered source bound).2.order? = none
      rw [mergeOrdered_of_not_isOrdered hne bound]
      exact hb
    | some o => exact order?_mergeOrdered hb bound
  | settle => exact order?_settle b

end Block

theorem Keeps.keeps_mergeOrdered {o : RowOrder} {rows all : List Row} {t source : Block}
    (hkeeps : Keeps o rows t) (htotal : TotalPreorderOn o.compare (· ∈ all))
    (hsub : rows ++ source.output ⊆ all) (hc : t.schema.isCompatible source.schema) (bound : Nat) :
    (∃ rows', rows' ⊆ all ∧ Keeps o rows' (t.mergeOrdered source bound).2) ∧
      Listed o.compare (t.mergeOrdered source bound).2.output := by
  have htotal' := htotal.mono fun r hr => hsub hr
  obtain ⟨tally, u, s, hmerge, hl, rfl⟩ := hkeeps.mergeOrdered htotal' hc bound
  -- the new selection lists the best of what the target listed and of the source's rows
  have hmem : ∀ r ∈ best o.compare s.capacity (t.output ++ source.output), r ∈ all :=
    fun r hr => hsub (hkeeps.mem_append htotal' (mem_of_mem_best hr))
  rw [hmerge]
  refine ⟨⟨all, List.Subset.refl all, .ranked u hl (length_best_le _ _) hmem⟩, ?_⟩
  rw [output_ranked htotal u hmem hl]
  exact hl.listed

/-! ## Uses of a combiner -/

namespace Combiner

/-- What is done to a target under a combiner. -/
inductive Use where
  | merge (source : Block)
  | settle

namespace Use

def source? : Use → Option Block
  | merge source => some source
  | settle => none

def action (c : Combiner) : Use → Block.Action
  | merge source => c.action source
  | settle => .settle

theorem source?_action (c : Combiner) (use : Use) : (use.action c).source? = use.source? := by
  cases c <;> cases use <;> rfl

end Use

/-- The target after some uses. -/
def used (c : Combiner) (uses : List Use) (t : Block) : Block :=
  (Block.performAll (uses.map (Use.action c)) t).2

/-- The rows of all blocks that are merged into the target. -/
def mergedRows (c : Combiner) (uses : List Use) (t : Block) : List Row :=
  (Block.effective (uses.map (Use.action c)) t).flatMap Block.Action.offered

/-- Whether a target that took in some rows is as a combiner keeps the targets that it creates for a
schema. -/
structure Maintains (c : Combiner) (schema : Schema) (rows : List Row) (t : Block) : Prop where
  names : t.schema.names = schema.names
  aligned : t.schema.Aligned
  valid : ∀ o, c.order? = some o → o.validate t.schema = .ok ()
  order : t.order? = c.order?
  bounded : ∃ l, t.Stores l ∧ l.length ≤ c.bound
  listed : ∀ o, c.order? = some o → TotalPreorderOn o.compare (· ∈ rows) →
    (∃ rows', rows' ⊆ rows ∧ Keeps o rows' t) ∧ Listed o.compare t.output

variable {c : Combiner} {schema : Schema} {rows : List Row} {t : Block} {use : Use}

theorem schema_create (h : c.create schema = .ok t) : t.schema = schema := by
  cases c with
  | firstRows k =>
    obtain rfl := Except.ok.inj h
    rfl
  | bestRows o k =>
    obtain ⟨_, -, rfl⟩ := map_eq_ok_iff.mp h
    rfl

theorem maintains_create (h : c.create schema = .ok t) (hschema : schema.Aligned) :
    c.Maintains schema [] t := by
  have hvalid := exists_create_iff.mp ⟨t, h⟩
  cases c with
  | firstRows k =>
    obtain rfl := Except.ok.inj h
    exact ⟨rfl, hschema, hvalid, rfl, ⟨[], .arrived schema [], by simp⟩, by simp [order?]⟩
  | bestRows o k =>
    obtain ⟨_, -, rfl⟩ := map_eq_ok_iff.mp h
    have hkeeps : Keeps o [] (.ordered schema o k) :=
      .ranked schema (TopK.lists_empty k) (by simp) (by simp)
    refine ⟨rfl, hschema, hvalid, rfl, ⟨[], Block.stores_ordered schema o k, by simp⟩, ?_⟩
    intro o' ho' _
    obtain rfl := Option.some.inj ho'
    exact ⟨⟨[], List.Subset.refl [], hkeeps⟩, List.Pairwise.nil⟩

/-! ### One use -/

theorem Maintains.schema_use (h : c.Maintains schema rows t)
    (hsource : ∀ source ∈ use.source?, source.schema.Aligned) :
    (t.perform (use.action c)).2.schema.Aligned ∧
      ∀ o, c.order? = some o → o.validate (t.perform (use.action c)).2.schema = .ok () := by
  rcases Block.schema_perform t (use.action c) with hschema | ⟨source, hmem, hcov⟩
  · rw [hschema]
    exact ⟨h.aligned, h.valid⟩
  · rw [Use.source?_action] at hmem
    obtain ⟨haligned, hcompat, -⟩ :=
      Schema.isCompatible_of_cover? h.aligned (hsource source hmem) hcov
    refine ⟨haligned, fun o ho => ?_⟩
    exact RowOrder.validate_of_isCompatible h.aligned haligned
      (Schema.isCompatible_symm haligned h.aligned hcompat) (h.valid o ho)

theorem Maintains.bounded_use (h : c.Maintains schema rows t) (use : Use) :
    ∃ l, (t.perform (use.action c)).2.Stores l ∧ l.length ≤ c.bound := by
  obtain ⟨l, hstores, hle⟩ := h.bounded
  cases use with
  | settle =>
    refine ⟨t.output, hstores.settle.1, ?_⟩
    rwa [hstores.output_perm.length_eq]
  | merge source =>
    cases c with
    | firstRows k =>
      show ∃ l, (t.mergeUnordered source k).2.Stores l ∧ l.length ≤ k
      rcases hmerge : t.mergeUnordered source k with ⟨e | tally, t'⟩
      · exact ⟨l, Block.eq_of_mergeUnordered_error hmerge ▸ hstores, hle⟩
      · have hle : l.length ≤ k := hle
        refine ⟨_, (hstores.mergeUnordered hmerge).2, ?_⟩
        rw [List.length_append, List.length_take]
        omega
    | bestRows o k =>
      show ∃ l, (t.mergeOrdered source k).2.Stores l ∧ l.length ≤ k
      rcases hmerge : t.mergeOrdered source k with ⟨e | tally, t'⟩
      · exact ⟨l, Block.eq_of_mergeOrdered_error hmerge ▸ hstores, hle⟩
      · obtain ⟨-, l', hstores', -, hlen⟩ := hstores.mergeOrdered hmerge
        exact ⟨l', hstores', by omega⟩

/-- The rows that a use takes in. -/
def takenBy (c : Combiner) (use : Use) (t : Block) : List Row :=
  if (t.perform (use.action c)).1.isOk then (use.action c).offered else []

theorem takenBy_merge {source : Block} {o : RowOrder} (ht : t.isOrdered)
    (hc : t.schema.isCompatible source.schema) (k : Nat) :
    (bestRows o k).takenBy (.merge source) t = source.output := by
  obtain ⟨tally, t', hmerge⟩ := Block.exists_mergeOrdered ht hc k
  have hok : (t.perform (.mergeOrdered source k)).1.isOk := by
    rw [Block.perform, hmerge]
    rfl
  exact if_pos hok

theorem Maintains.listed_use (h : c.Maintains schema rows t) (use : Use) {o : RowOrder}
    (ho : c.order? = some o)
    (htotal : TotalPreorderOn o.compare (· ∈ rows ++ c.takenBy use t)) :
    (∃ rows', rows' ⊆ rows ++ c.takenBy use t ∧ Keeps o rows' (t.perform (use.action c)).2) ∧
      Listed o.compare (t.perform (use.action c)).2.output := by
  obtain ⟨⟨rows', hsub, hkeeps⟩, hlisted⟩ := h.listed o ho htotal.append_left
  have hsub' : rows' ⊆ rows ++ c.takenBy use t := fun r hr => List.mem_append_left _ (hsub hr)
  cases use with
  | settle =>
    have hmem : t.output ⊆ rows ++ c.takenBy .settle t := fun r hr =>
      hsub' (hkeeps.mem_of_mem_output (htotal.mono fun r hr => hsub' hr) hr)
    exact ⟨⟨t.output, hmem, keeps_settle hkeeps.order?⟩, (Block.output_settle t).symm ▸ hlisted⟩
  | merge source =>
    cases c with
    | firstRows k => cases ho
    | bestRows o' k =>
      obtain rfl := Option.some.inj ho
      have hb : t.isOrdered := by
        rw [Block.isOrdered, hkeeps.order?]
        rfl
      show (∃ rows', _ ∧ Keeps o' rows' (t.mergeOrdered source k).2) ∧
        Listed o'.compare (t.mergeOrdered source k).2.output
      by_cases hc : t.schema.isCompatible source.schema
      · rw [takenBy_merge hb hc k] at htotal hsub' ⊢
        exact hkeeps.keeps_mergeOrdered htotal
          (List.append_subset.mpr ⟨hsub', List.subset_append_right _ _⟩) hc k
      · rw [Block.mergeOrdered_of_not_isCompatible hb hc]
        exact ⟨⟨rows', hsub', hkeeps⟩, hlisted⟩

/-- What a target takes in, it takes in as its combiner keeps it. -/
theorem Maintains.perform (h : c.Maintains schema rows t)
    (hsource : ∀ source ∈ use.source?, source.schema.Aligned) :
    c.Maintains schema (rows ++ c.takenBy use t) (t.perform (use.action c)).2 where
  names := (Block.names_perform t _).trans h.names
  aligned := (h.schema_use hsource).1
  valid := (h.schema_use hsource).2
  order := (Block.order?_perform t _).trans h.order
  bounded := h.bounded_use use
  listed _ ho := h.listed_use use ho

/-! ### Use after use -/

theorem mergedRows_cons (c : Combiner) (use : Use) (uses : List Use) (t : Block) :
    c.mergedRows (use :: uses) t =
      c.takenBy use t ++ c.mergedRows uses (t.perform (use.action c)).2 := by
  rw [mergedRows, List.map_cons, Block.effective, takenBy]
  split <;> rfl

theorem Maintains.used {uses : List Use} (h : c.Maintains schema rows t)
    (hsources : ∀ use ∈ uses, ∀ source ∈ use.source?, source.schema.Aligned) :
    c.Maintains schema (rows ++ c.mergedRows uses t) (c.used uses t) := by
  induction uses generalizing rows t with
  | nil => simpa [mergedRows, used, Block.effective, Block.performAll] using h
  | cons use uses ih =>
    rw [mergedRows_cons, ← List.append_assoc]
    exact ih (h.perform (hsources use (by simp))) fun use' huse => hsources use' (by simp [huse])

/-- Whatever is merged into the target of a combiner, with or without success, and whenever it is
settled, it holds no more rows than the combiner's bound; the names and the number of its columns,
and its order, are those that it was created with; and if it has an order, this is valid for its
schema, and its rows are listed in it if it is consistent on all rows that were merged. -/
theorem target_stays_sound {uses : List Use} (hcreate : c.create schema = .ok t)
    (hschema : schema.Aligned)
    (hsources : ∀ use ∈ uses, ∀ source ∈ use.source?, source.schema.Aligned) :
    (c.used uses t).length ≤ c.bound ∧
      (c.used uses t).output.length = (c.used uses t).length ∧
      (c.used uses t).schema.names = schema.names ∧
      (c.used uses t).schema.types.length = schema.types.length ∧
      (c.used uses t).isOrdered = c.order?.isSome ∧
      (c.used uses t).order? = c.order? ∧
      ∀ o, c.order? = some o → o.validate (c.used uses t).schema = .ok () ∧
        (TotalPreorderOn o.compare (· ∈ c.mergedRows uses t) →
          Listed o.compare (c.used uses t).output) := by
  have h := (maintains_create hcreate hschema).used hsources
  rw [List.nil_append] at h
  obtain ⟨l, hstores, hle⟩ := h.bounded
  refine ⟨hstores.length_eq.trans_le hle, hstores.length_output, h.names, ?_, ?_, h.order, ?_⟩
  · rw [← h.aligned, h.names, hschema]
  · rw [Block.isOrdered, h.order]
  · intro o ho
    exact ⟨h.valid o ho, fun htotal => (h.listed o ho htotal).2⟩

/-! ### Readings -/

open Block (readings wholeReadings readingOrder)

/-- The bound is reached by the second merge that succeeds; the merge of texts fails; the last one
brings no rows, but a wider type. -/
def readingUses : List Use :=
  [.merge wholeReadings, .settle, .merge (readings (.one .string) [.string "low"]),
    .merge (readings (.one .long) [.long 5, .long 1, .null]), .merge (readings (.one .double) []),
    .settle]

def readingTarget : Block := .ordered wholeReadings.schema readingOrder 4

theorem totalPreorderOn_readings :
    TotalPreorderOn readingOrder.compare
      (· ∈ (bestRows readingOrder 4).mergedRows readingUses readingTarget) := by
  have hrows : (bestRows readingOrder 4).mergedRows readingUses readingTarget =
      [[.int 7], [.null], [.int 2], [.long 5], [.long 1], [.null]] := by
    rfl
  apply RowOrder.totalPreorderOn_of_not_real
  rw [hrows]
  intro r hr key hkey x hx
  obtain rfl : key = ⟨0, true⟩ := List.mem_singleton.mp hkey
  simp only [List.mem_cons, List.not_mem_nil, or_false] at hr
  rcases hr with rfl | rfl | rfl | rfl | rfl | rfl <;> cases hx

theorem target_stays_sound_readings :
    (bestRows readingOrder 4).create wholeReadings.schema = .ok readingTarget ∧
      ((bestRows readingOrder 4).used readingUses readingTarget).schema =
        .ofColumns [("reading", .one .double)] ∧
      ((bestRows readingOrder 4).used readingUses readingTarget).output =
        [[.long 1], [.int 2], [.long 5], [.int 7]] ∧
      ((bestRows readingOrder 4).used readingUses readingTarget).length ≤ 4 ∧
      readingOrder.validate ((bestRows readingOrder 4).used readingUses readingTarget).schema =
        .ok () ∧
      Listed readingOrder.compare
        ((bestRows readingOrder 4).used readingUses readingTarget).output := by
  have hcreate : (bestRows readingOrder 4).create wholeReadings.schema = .ok readingTarget := rfl
  have hsources : ∀ use ∈ readingUses, ∀ source ∈ use.source?, source.schema.Aligned := by
    intro use huse source hsource
    simp only [readingUses, List.mem_cons, List.not_mem_nil, or_false] at huse
    rcases huse with rfl | rfl | rfl | rfl | rfl | rfl <;> cases hsource <;> rfl
  obtain ⟨hle, -, -, -, -, -, hordered⟩ := target_stays_sound hcreate rfl hsources
  obtain ⟨hvalid, hlisted⟩ := hordered readingOrder rfl
  exact ⟨hcreate, by decide +kernel, by rfl, hle, hvalid,
    hlisted totalPreorderOn_readings⟩

end Combiner

end SelectMerge
