import SelectMerge.Proofs.Block.Stock
import SelectMerge.Proofs.Rank.RowOrder
import SelectMerge.Proofs.Rank.Selection

/-!
# Ordered merges

After an ordered merge the target lists the best of its own rows and the source's, in that order of
arrival, whether it was open or settled and however its bound changes (`output_mergeOrdered`).

The invariant is `Keeps`: a block keeps rows of a list, an open one the best of them. Under a new
bound its selection depends only on the rows that it lists (`Keeps.exists_opened`), and offering the
source's rows makes the best of all (`Keeps.mergeOrdered`). An open selection remembers nothing of
the rows that went, yet they have shaped its heap: so `Fed` collects the rows offered since the
selection was opened, and the law holds for a comparison that is consistent on all of these. It can
fail for one that is consistent on the rows still held only (`output_mergeOrdered_ne_best`).
-/

namespace SelectMerge

variable {o : RowOrder} {rows : List Row} {b source : Block}

/-! ## Blocks under an order -/

/-- The blocks under an order that can be had, each with the rows that were offered to it since its
selection was opened; a settled block will offer the rows it lists. -/
inductive Fed (o : RowOrder) : List Row → Block → Prop where
  | ordered (schema : Schema) (bound : Nat) : Fed o [] (.ordered schema o bound)
  | orderedOfRows (schema : Schema) (rows : List Row) (bound : Nat) :
      Fed o rows (.orderedOfRows schema rows o bound)
  | settle {rows : List Row} {b : Block} : Fed o rows b → Fed o b.output b.settle
  | merge {rows : List Row} {b : Block} (source : Block) (bound : Nat) : Fed o rows b →
      b.schema.isCompatible source.schema →
      Fed o (rows ++ source.output) (b.mergeOrdered source bound).2
  | refused {rows : List Row} {b : Block} (source : Block) (bound : Nat) : Fed o rows b →
      ¬ b.schema.isCompatible source.schema → Fed o rows (b.mergeOrdered source bound).2

/-- Whether the block keeps rows of a list under the order: an open one some of them, in order and
within its capacity, a settled one all. -/
inductive Keeps (o : RowOrder) (rows : List Row) : Block → Prop where
  | ranked (schema : Schema) {s : TopK o.compare} {l : List Row} (hl : s.Lists l)
      (hb : l.length ≤ s.capacity) (hsub : ∀ r ∈ l, r ∈ rows) : Keeps o rows ⟨schema, .ranked o s⟩
  | settled (schema : Schema) : Keeps o rows ⟨schema, .settled o rows⟩

/-! ## Selections of the best -/

theorem TopK.Lists.offerAll_best {s : TopK o.compare} {xs : List Row}
    (h : TotalPreorderOn o.compare (· ∈ rows ++ xs))
    (hs : s.Lists (best o.compare s.capacity rows)) :
    (TopK.offerAll xs s).2.Lists (best o.compare s.capacity (rows ++ xs)) ∧
      (TopK.offerAll xs s).2.capacity = s.capacity := by
  have hrows : ∀ r ∈ rows, r ∈ rows ++ xs := fun r hr => List.mem_append_left _ hr
  have hxs : ∀ r ∈ xs, r ∈ rows ++ xs := fun r hr => List.mem_append_right _ hr
  rw [← best_append_best h hrows hxs]
  exact hs.offerAll h hxs (fun r hr => hrows r (mem_of_mem_best hr)) (length_best_le _ _)

theorem lists_reopen (h : TotalPreorderOn o.compare (· ∈ rows)) (bound : Nat) :
    (Merging.reopen o rows bound).2.Lists (best o.compare bound rows) ∧
      (Merging.reopen o rows bound).2.capacity = bound :=
  (TopK.lists_empty bound).offerAll h (by simp) (by simp) (by simp)

theorem lists_rebound {s : TopK o.compare} {l : List Row} (h : TotalPreorderOn o.compare (· ∈ l))
    (hl : s.Lists l) (hb : l.length ≤ s.capacity) (bound : Nat) :
    (Merging.rebound o s bound).2.Lists (best o.compare bound l) ∧
      (Merging.rebound o s bound).2.capacity = bound := by
  rw [Merging.rebound, best, hl.listed.stableSort_eq]
  split
  · rename_i hcap
    rw [List.take_of_length_le (hcap ▸ hb)]
    exact ⟨hl, hcap⟩
  · exact (hl.setCapacity h (by simp) bound).2

/-! ## The law -/

theorem output_ranked {S : Row → Prop} (h : TotalPreorderOn o.compare S) (schema : Schema)
    {s : TopK o.compare} {l : List Row} (hS : ∀ r ∈ l, S r) (hl : s.Lists l) :
    (⟨schema, .ranked o s⟩ : Block).output = l := hl.sorted_eq h hS

theorem Keeps.mem_of_mem_output (h : TotalPreorderOn o.compare (· ∈ rows)) (hk : Keeps o rows b)
    {r : Row} (hr : r ∈ b.output) : r ∈ rows := by
  cases hk with
  | ranked schema hl hb hsub =>
    rw [output_ranked h schema hsub hl] at hr
    exact hsub r hr
  | settled schema => exact hr

theorem Keeps.mem_append {xs : List Row} (h : TotalPreorderOn o.compare (· ∈ rows ++ xs))
    (hk : Keeps o rows b) {r : Row} (hr : r ∈ b.output ++ xs) : r ∈ rows ++ xs := by
  rcases List.mem_append.mp hr with hr | hr
  · exact List.mem_append_left _ (hk.mem_of_mem_output h.append_left hr)
  · exact List.mem_append_right _ hr

theorem Keeps.order? (hk : Keeps o rows b) : b.order? = some o := by
  cases hk with
  | ranked | settled => rfl

theorem Keeps.length_eq (h : TotalPreorderOn o.compare (· ∈ rows)) (hk : Keeps o rows b) :
    b.length = b.output.length := by
  cases hk with
  | ranked schema hl hb hsub =>
    rw [output_ranked h schema hsub hl]
    exact hl.size_eq
  | settled schema => rfl

/-- A target's selection under a new bound depends only on the rows that the target lists. -/
theorem Keeps.exists_opened (h : TotalPreorderOn o.compare (· ∈ rows)) (hk : Keeps o rows b)
    (bound : Nat) :
    ∃ s : TopK o.compare, b.opened? bound = some (b.output.length - bound, ⟨o, s⟩) ∧
      s.Lists (best o.compare bound b.output) ∧ s.capacity = bound := by
  have hout : TotalPreorderOn o.compare (· ∈ b.output) := h.mono fun r => hk.mem_of_mem_output h
  cases hk with
  | @ranked schema s l hl hb hsub =>
    rw [output_ranked h schema hsub hl] at hout ⊢
    have hgone : (Merging.rebound o s bound).1 = l.length - bound := by
      unfold Merging.rebound
      by_cases hcap : s.capacity = bound
      · rw [if_pos hcap]
        omega
      · rw [if_neg hcap]
        simp [(hl.setCapacity hout (fun r hr => hr) bound).1]
    exact ⟨_, hgone ▸ Block.opened?_ranked rfl bound, lists_rebound hout hl hb bound⟩
  | settled schema =>
    obtain ⟨hgone, -⟩ := Block.stores_reopen o rows bound
    exact ⟨_, hgone ▸ Block.opened?_settled rfl bound, lists_reopen hout bound⟩

/-- The target of a merge becomes a selection of the best of its rows and the source's. -/
theorem Keeps.mergeOrdered (h : TotalPreorderOn o.compare (· ∈ rows ++ source.output))
    (hk : Keeps o rows b) (hc : b.schema.isCompatible source.schema) (bound : Nat) :
    ∃ tally c, ∃ s : TopK o.compare,
      b.mergeOrdered source bound = (.ok tally, ⟨c, .ranked o s⟩) ∧
        s.Lists (best o.compare bound (b.output ++ source.output)) ∧ s.capacity = bound := by
  have hboth : TotalPreorderOn o.compare (· ∈ b.output ++ source.output) :=
    h.mono fun r => hk.mem_append h
  obtain ⟨c, hcov⟩ := Schema.exists_cover? hc
  obtain ⟨s, hopen, hl, rfl⟩ := hk.exists_opened h.append_left bound
  exact ⟨_, c, _, Block.mergeOrdered_eq hopen hc hcov, hl.offerAll_best hboth⟩

theorem order?_settle (b : Block) : b.settle.order? = b.order? := by
  rcases b with ⟨schema, rows | ⟨o, s⟩ | ⟨o, rows⟩⟩ <;> rfl

theorem keeps_settle (hb : b.order? = some o) : Keeps o b.output b.settle := by
  rcases b with ⟨schema, rows | ⟨o', s⟩ | ⟨o', rows⟩⟩
  · cases hb
  · obtain rfl := Option.some.inj hb
    exact .settled schema
  · obtain rfl := Option.some.inj hb
    exact .settled schema

theorem order?_mergeOrdered (hb : b.order? = some o) (bound : Nat) :
    (b.mergeOrdered source bound).2.order? = some o := by
  by_cases hc : b.schema.isCompatible source.schema
  · obtain ⟨c, hcov⟩ := Schema.exists_cover? hc
    rcases hrows : b.rows with rows | ⟨o', s⟩ | ⟨o', rows⟩ <;>
      simp only [Block.order?, hrows, reduceCtorEq, Option.some.injEq] at hb
    · obtain ⟨tally, hmerge⟩ := Block.mergeOrdered_ranked hrows hc hcov bound
      rw [hmerge]
      exact congrArg some hb
    · obtain ⟨tally, hmerge⟩ := Block.mergeOrdered_settled hrows hc hcov bound
      rw [hmerge]
      exact congrArg some hb
  · rwa [Block.mergeOrdered_of_not_isCompatible (by simp [Block.isOrdered, hb]) hc]

theorem Fed.order? (hf : Fed o rows b) : b.order? = some o := by
  induction hf with
  | ordered | orderedOfRows => rfl
  | settle hf ih => exact (order?_settle _).trans ih
  | merge source bound hf hc ih => exact order?_mergeOrdered ih bound
  | refused source bound hf hc ih => exact order?_mergeOrdered ih bound

theorem Fed.keeps (h : TotalPreorderOn o.compare (· ∈ rows)) (hf : Fed o rows b) :
    Keeps o rows b := by
  induction hf with
  | ordered schema bound => exact .ranked schema (TopK.lists_empty bound) (by simp) (by simp)
  | orderedOfRows schema rows bound =>
    obtain ⟨hl, hcap⟩ := lists_reopen h bound
    exact .ranked schema hl (hcap.symm ▸ length_best_le bound rows) fun r hr => mem_of_mem_best hr
  | settle hf => exact keeps_settle hf.order?
  | @merge rows b source bound hf hc ih =>
    have hk := ih h.append_left
    obtain ⟨tally, c, s, hmerge, hl, hcap⟩ := hk.mergeOrdered h hc bound
    rw [hmerge]
    exact .ranked c hl (hcap.symm ▸ length_best_le _ _) fun r hr =>
      hk.mem_append h (mem_of_mem_best hr)
  | refused source bound hf hc ih =>
    rw [Block.mergeOrdered_of_not_isCompatible (by simp [Block.isOrdered, hf.order?]) hc]
    exact ih h

/-- An ordered merge succeeds and leaves the best of the target's rows and the source's, stably
sorted: of rows that tie, the target's come first and the source's keep their order. -/
theorem output_mergeOrdered (hf : Fed o rows b) (hc : b.schema.isCompatible source.schema)
    (h : TotalPreorderOn o.compare (· ∈ rows ++ source.output)) (bound : Nat) :
    (∃ tally, (b.mergeOrdered source bound).1 = .ok tally) ∧
      (b.mergeOrdered source bound).2.output =
        (stableSort o.compare (b.output ++ source.output)).take bound ∧
      ∀ r ∈ b.output ++ source.output,
        (stableSort o.compare (b.output ++ source.output)).filter (fun x => o.compare x r = .eq) =
          b.output.filter (fun x => o.compare x r = .eq) ++
            source.output.filter fun x => o.compare x r = .eq := by
  have hk := hf.keeps h.append_left
  have hsub : ∀ r ∈ b.output ++ source.output, r ∈ rows ++ source.output :=
    fun r => hk.mem_append h
  obtain ⟨tally, c, s, hmerge, hl, -⟩ := hk.mergeOrdered h hc bound
  rw [hmerge]
  refine ⟨⟨tally, rfl⟩, ?_, ?_⟩
  · exact output_ranked h c (fun r hr => hsub r (mem_of_mem_best hr)) hl
  · intro r hr
    rw [stableSort_filter_tie h (hsub r hr) hsub, List.filter_append]

/-! ## Scores -/

/-- Scores in descending order. -/
def scoreOrder : RowOrder := ⟨[⟨0, false⟩], .last⟩

def scoreSchema : Schema := .ofColumns [("score", .one .int), ("tag", .one .int)]

def scoreRow (score tag : Int32) : Row := [.int score, .int tag]

def oldScores : List Row := [scoreRow 1 0, scoreRow 4 1, scoreRow 2 2, scoreRow 4 3]

def settledScores : Block := (Block.orderedOfRows scoreSchema oldScores scoreOrder 3).settle

def newScores : Block := .ofRows scoreSchema [scoreRow 4 4, scoreRow 2 5, scoreRow 9 6]

/-- A settled target that takes its selection up again under a greater bound: of three rows that
tie it keeps its own two in front. -/
theorem output_mergeOrdered_scores :
    Fed scoreOrder settledScores.output settledScores ∧
      settledScores.schema.isCompatible newScores.schema ∧
      TotalPreorderOn scoreOrder.compare (· ∈ settledScores.output ++ newScores.output) ∧
      (settledScores.mergeOrdered newScores 4).2.output =
        [scoreRow 9 6, scoreRow 4 1, scoreRow 4 3, scoreRow 4 4] := by
  have hf : Fed scoreOrder settledScores.output settledScores :=
    (Fed.orderedOfRows scoreSchema oldScores 3).settle
  have hc : settledScores.schema.isCompatible newScores.schema := by decide
  have h : TotalPreorderOn scoreOrder.compare (· ∈ settledScores.output ++ newScores.output) := by
    apply RowOrder.totalPreorderOn_of_not_real
    intro r hr key hkey x hx
    obtain rfl : key = ⟨0, false⟩ := List.mem_singleton.mp hkey
    have hr' : r ∈ [scoreRow 4 1, scoreRow 4 3, scoreRow 2 2, scoreRow 4 4, scoreRow 2 5,
        scoreRow 9 6] := hr
    simp only [List.mem_cons, List.not_mem_nil, or_false] at hr'
    rcases hr' with rfl | rfl | rfl | rfl | rfl | rfl <;> cases hx
  exact ⟨hf, hc, h, (output_mergeOrdered hf hc h 4).2.1.trans rfl⟩

/-! ## Rows that went -/

/-- Values in ascending order. -/
def valueOrder : RowOrder := ⟨[⟨0, true⟩], .last⟩

def valueSchema : Schema := .ofColumns [("value", .one .double)]

/-- A source without rows. -/
def noValues : Block := .ofRows valueSchema []

/-- Rows under which the order of values is inconsistent, because of the one double. -/
def muddledRows : List Row :=
  let low := RowOrder.lesserRow
  let high := RowOrder.greaterRow
  [low, low, high, high, low, high, high, RowOrder.roundedRow, high, low, low]

/-- A target that has let go of the double: its rows are in order now, but its heap is not. -/
def shakenBlock : Block :=
  ((Block.orderedOfRows valueSchema muddledRows valueOrder 11).mergeOrdered noValues 9).2

theorem fed_shakenBlock : Fed valueOrder (muddledRows ++ noValues.output) shakenBlock :=
  .merge noValues 9 (.orderedOfRows valueSchema muddledRows 11) (by decide)

theorem output_shakenBlock : shakenBlock.output =
    [RowOrder.lesserRow, RowOrder.lesserRow, RowOrder.lesserRow, RowOrder.lesserRow,
      RowOrder.greaterRow, RowOrder.lesserRow, RowOrder.greaterRow, RowOrder.greaterRow,
      RowOrder.greaterRow] := by
  rfl

theorem output_mergeOrdered_ne_best :
    (∃ rows, Fed valueOrder rows shakenBlock) ∧
      shakenBlock.schema.isCompatible noValues.schema ∧
      TotalPreorderOn valueOrder.compare (· ∈ shakenBlock.output ++ noValues.output) ∧
      (shakenBlock.mergeOrdered noValues 9).2.output ≠
        (stableSort valueOrder.compare (shakenBlock.output ++ noValues.output)).take 9 := by
  refine ⟨⟨_, fed_shakenBlock⟩, by decide, ?_, ?_⟩
  · apply RowOrder.totalPreorderOn_of_not_real
    intro r hr key hkey x hx
    obtain rfl : key = ⟨0, true⟩ := List.mem_singleton.mp hkey
    have hr' : r = RowOrder.lesserRow ∨ r = RowOrder.greaterRow := by
      have hno : noValues.output = [] := rfl
      rw [output_shakenBlock, hno] at hr
      simp only [List.append_nil, List.mem_cons, List.not_mem_nil, or_false] at hr
      tauto
    rcases hr' with rfl | rfl <;> cases hx
  · intro heq
    -- the fifth row listed is a greater one, and the sixth a lesser one
    have hfifth := congrArg (fun rows => (rows.map fun r => (r.cell 0).quantity?)[4]?) heq
    revert hfifth
    decide +kernel

end SelectMerge
