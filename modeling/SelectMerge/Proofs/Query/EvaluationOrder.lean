import SelectMerge.Proofs.Expr.Canonical
import SelectMerge.Proofs.Query.Output
import SelectMerge.Proofs.Query.Resolution
import SelectMerge.Proofs.Run.Reduction
import SelectMerge.Proofs.Run.Target
import SelectMerge.Proofs.Schema.CellByCell

/-!
# The evaluation order

Repeats may stand anywhere: among what a query orders by, among what it selects or among the
physical columns, and between them. The columns that segments evaluate are the canonical texts of
all these, each where it first stands (`columnNames_ofQuery`), so every column is found under its
name at its own place (`nodup_columnNames`).

What is shown is chosen later, by name, when there is only a schema left to choose from. It is found
nevertheless: runs keep the names of the blocks that they are fed (`Progress.Named`), and all that a
query shows of such rows are columns of theirs (`Query.outputColumns_subset`), so that none is
missed (`Selection.table_ne_unknownColumn`). `every_column_found` has all of this.
-/

namespace SelectMerge

namespace Evaluation

variable {q : Query} {physical names : List String} {seen : List String} {es : List Expression}

/-! ## First occurrences -/

theorem map_text_firsts (seen : List String) (es : List Expression) :
    (firsts seen es).map (·.text) =
      ((es.map (·.text)).filter fun s => !seen.contains s).eraseDups := by
  induction es generalizing seen with
  | nil => rfl
  | cons x es ih =>
    rw [firsts, List.map_cons]
    cases hseen : seen.contains x.text with
    | true =>
      rw [if_pos rfl, List.filter_cons_of_neg (by rw [hseen]; decide), ih]
    | false =>
      rw [if_neg Bool.false_ne_true, List.map_cons, List.filter_cons_of_pos (by rw [hseen]; rfl),
        List.eraseDups_cons, ih, List.filter_filter]
      simp only [List.contains_cons, Bool.not_or]

theorem nodup_map_text_firsts (seen : List String) (es : List Expression) :
    ((firsts seen es).map (·.text)).Nodup := by
  induction es generalizing seen with
  | nil => exact List.nodup_nil
  | cons x es ih =>
    rw [firsts]
    split
    · exact ih seen
    · refine List.nodup_cons.mpr ⟨?_, ih _⟩
      intro hx
      -- what comes after `x` is of none of the texts seen by then
      obtain ⟨e, he, htext⟩ := List.mem_map.mp hx
      exact (mem_firsts_iff.mp he).1 (htext ▸ List.mem_cons_self)

/-! ## Names in order -/

theorem sortNames_perm (names : List String) : (sortNames names).Perm names :=
  List.mergeSort_perm _ _

theorem pairwise_sortNames (names : List String) : (sortNames names).Pairwise (· ≤ ·) := by
  have hle : ∀ a b : String, (!decide (b < a)) = true ↔ a ≤ b := by
    intro a b
    rw [Bool.not_eq_true', decide_eq_false_iff_not, String.not_lt]
  have htotal : ∀ a b : String, ((!decide (b < a)) || !decide (a < b)) = true := by
    intro a b
    rw [Bool.or_eq_true, hle, hle]
    exact String.le_total a b
  have h : (sortNames names).Pairwise fun a b => (!decide (b < a)) = true :=
    List.pairwise_mergeSort
      (fun a b c hab hbc => (hle a c).mpr (String.le_trans ((hle a b).mp hab) ((hle b c).mp hbc)))
      htotal names
  exact h.imp fun hab => (hle _ _).mp hab

theorem sortNames_eq {l : List String} (hperm : l.Perm names) (hl : l.Pairwise (· ≤ ·)) :
    sortNames names = l :=
  ((sortNames_perm names).trans hperm.symm).eq_of_pairwise
    (fun _ _ _ _ hab hba => String.le_antisymm hab hba) (pairwise_sortNames names) hl

/-! ## The columns of an evaluation -/

@[simp] theorem text_identifier (name : String) : (Expression.identifier name).text = name := by
  simp [Expression.text, Expression.render]

theorem map_text_selected (q : Query) (physical : List String) :
    (selected q physical).map (·.text) =
      if q.isWildcard then sortNames physical else q.select.map (·.text) := by
  rw [selected]
  split
  · simp [Function.comp_def]
  · rfl

theorem columnNames_ofQuery (q : Query) (physical : List String) :
    (ofQuery q physical).columnNames =
      (q.orderBy.map (·.expression.text) ++
        if q.isWildcard then sortNames physical else q.select.map (·.text)).eraseDups := by
  rw [columnNames, ofQuery, map_text_firsts, List.map_append, map_text_selected]
  simp [Function.comp_def]

theorem nodup_columnNames (q : Query) (physical : List String) :
    (ofQuery q physical).columnNames.Nodup := nodup_map_text_firsts _ _

theorem exists_orderPositions_of_isPlain (physical : List String)
    (h : ∀ o ∈ q.orderBy, o.expression.isPlain) :
    ∃ ps, (ofQuery q physical).orderPositions q = .ok ps := by
  refine exists_orderPositions_iff.mpr ((forall_mem_ofQuery_iff q physical).mpr ?_)
  intro o ho o' ho' htext
  exact Expression.eq_of_text_eq (h o' ho') (h o ho) htext

end Evaluation

/-! ## Names of a schema -/

theorem Schema.indexOf?_of_nodup {s : Schema} (h : s.names.Nodup) {i : Nat} {name : String}
    (hi : s.names[i]? = some name) : s.indexOf? name = some i := by
  obtain ⟨hlt, hname⟩ := List.getElem?_eq_some_iff.mp hi
  refine List.findIdx?_eq_some_iff_getElem.mpr ⟨hlt, beq_iff_eq.mpr hname, fun j hj => ?_⟩
  intro hsame
  exact Nat.ne_of_lt hj (h.getElem_inj_iff.mp ((eq_of_beq hsame).trans hname.symm))

namespace Query

variable {q : Query} {physical : List String} {s : Schema} {name : String}

theorem mem_names_of_isPlaceholder (hs : s.isPlaceholder) (h : name ∈ q.outputColumns s) :
    name ∈ s.names := by
  rw [outputColumns, if_pos hs] at h
  rwa [eq_of_beq hs]

theorem outputColumns_subset
    (hnames : s.names = (Evaluation.ofQuery q physical).columnNames) :
    q.outputColumns s ⊆ s.names := by
  intro name h
  by_cases hs : s.isPlaceholder
  · exact mem_names_of_isPlaceholder hs h
  · exact mem_names_of_mem_outputColumns hs hnames h

end Query

/-! ## Tables -/

/-- Where all that is shown are columns of the rows, none is missed. -/
theorem Selection.table_ne_unknownColumn {sel : Selection} {q : Query}
    (h : q.outputColumns sel.schema ⊆ sel.schema.names) (name : String) :
    sel.table q ≠ .error (.failed (.unknownColumn name)) := by
  intro htable
  rw [table] at htable
  split at htable
  · cases htable
  obtain ⟨indices, hindices, -⟩ := exists_indices fun name hname => h hname
  rcases bind_eq_error_iff.mp htable with herr | ⟨_, -, hrest⟩
  · cases hindices.symm.trans herr
  rcases bind_eq_error_iff.mp hrest with hrows | ⟨_, -, hdone⟩
  · obtain ⟨row, -, hrow⟩ := exists_of_mapM_eq_error hrows
    rcases bind_eq_error_iff.mp hrow with hproject | ⟨_, -, hdone⟩
    · -- rows are refused for their length or for a cast
      obtain ⟨e, hrefused, he⟩ := Abort.ofExcept_eq_error_iff.mp hproject
      cases he
      cases Schema.projectRow_eq_error_iff.mp hrefused
    · -- and cells are missed, not refused
      obtain ⟨_, -, hitem⟩ := exists_of_mapM_eq_error hdone
      cases (Abort.item_eq_error_iff.mp hitem).2
  · cases hdone

/-! ## Names along a run -/

namespace Progress

variable {c : Combiner} {names : List String} {p p' : Progress} {b : Block}

/-- Whether all that a run has so far is under the given names. -/
structure Named (names : List String) (p : Progress) : Prop where
  target : ∀ t ∈ p.target, t.schema.names = names
  fallback : ∀ s ∈ p.fallback, s.names = names

theorem Named.base (h : p.Named names) (hb : b.schema.names = names) {t : Block}
    (hbase : p.base c b.schema = .ok t) : t.schema.names = names := by
  cases ht : p.target with
  | some t' =>
    rw [base_of_some ht] at hbase
    obtain rfl := Except.ok.inj hbase
    exact h.target _ ht
  | none =>
    rw [base_of_none ht] at hbase
    rwa [Combiner.schema_create hbase]

theorem Named.offer (h : p.Named names) (hb : b.schema.names = names)
    (hoffer : (Run.offer c b).run.run p = (.ok (), p')) : p'.Named names := by
  cases hempty : b.isEmpty with
  | true =>
    rw [Run.offer_of_isEmpty hempty] at hoffer
    obtain ⟨-, rfl⟩ := Prod.mk.inj hoffer
    refine ⟨h.target, fun s hs => ?_⟩
    rcases Option.or_eq_some_iff.mp hs with hs | ⟨-, hs⟩
    · exact h.fallback s hs
    · rw [Block.lent?] at hs
      split at hs
      · rwa [← Option.some.inj hs]
      · cases hs
  | false =>
    obtain ⟨t, tally, t', hbase, hmerge, rfl⟩ := Run.offer_eq_ok hempty hoffer
    refine ⟨?_, h.fallback⟩
    rintro _ ⟨⟩
    have hnames := Block.names_perform t (c.action b)
    rw [Combiner.perform_action, hmerge] at hnames
    exact hnames.trans (h.base hb hbase)

theorem Named.names_selection (h : p.Named names) :
    p.selection.schema.names = names ∨ p.selection.schema = .placeholder := by
  rw [selection]
  cases ht : p.target with
  | some t => exact .inl (h.target t ht)
  | none =>
    cases hs : p.fallback with
    | some s => exact .inl (h.fallback s hs)
    | none => exact .inr rfl

end Progress

theorem Reducer.names_perform {r : Reducer} {job : Job} {names : List String} {sel : Selection}
    (hblocks : ∀ b ∈ job.turns.filterMap Turn.block?,
      b.schema.names = names)
    (hrun : (r.perform job).1 = .ok sel) :
    sel.schema.names = names ∨ sel.schema = .placeholder := by
  rw [perform_eq_run, run_eq] at hrun
  rcases hturns : (Run.turns r.combiner r.settings.timeoutMs
    job.turns).run.run (.start r.meter) with ⟨e | u, p⟩
  · rw [hturns] at hrun
    cases hrun
  · rw [hturns] at hrun
    obtain rfl := Except.ok.inj hrun
    have hnamed : p.Named names :=
      Run.turns_induction (P := fun _ p => p.Named names) hturns ⟨by simp [Progress.start],
        by simp [Progress.start]⟩ (fun _ _ _ h => ⟨h.target, h.fallback⟩)
        fun _ b _ _ h hb hoffer => h.offer (hblocks b hb) hoffer
    exact hnamed.names_selection

/-! ## What is shown is evaluated -/

namespace Evaluation

theorem schema_eq {v : Evaluation} {types : List ColumnType}
    (h : types.length = v.columnNames.length) :
    v.schema types = .ok ⟨v.columnNames, types⟩ := by
  rw [schema, Schema.ofLists, if_pos h.symm]

theorem names_of_schema {v : Evaluation} {types : List ColumnType} {s : Schema}
    (h : v.schema types = .ok s) : s.names = v.columnNames := by
  rw [schema, Schema.ofLists] at h
  split at h
  · rw [← Except.ok.inj h]
  · cases h

/-- Segments evaluate the canonical texts of what the query orders by and then of what it selects,
the physical columns in order for all of them, without repeats. Under any types a column is found at
its place, and all that the query shows is found; so no run over blocks that are evaluated so, each
under types of its own, ends in a result that a column is missed in. -/
theorem every_column_found (q : Query) (physical : List String) :
    (sortNames physical).Perm physical ∧ (sortNames physical).Pairwise (· ≤ ·) ∧
      (ofQuery q physical).columnNames =
        (q.orderBy.map (·.expression.text) ++
          if q.isWildcard then sortNames physical else q.select.map (·.text)).eraseDups ∧
      (ofQuery q physical).columnNames.Nodup ∧
      (∀ types : List ColumnType, types.length = (ofQuery q physical).columnNames.length →
        ∃ s, (ofQuery q physical).schema types = .ok s ∧
          s.names = (ofQuery q physical).columnNames ∧ s.types = types ∧
          (∀ i name, (ofQuery q physical).columnNames[i]? = some name →
            s.indexOf? name = some i) ∧
          ∀ name ∈ q.outputColumns s, ∃ i, s.indexOf? name = some i ∧
            s.names[i]? = some name) ∧
      ∀ (r : Reducer) (job : Job) (sel : Selection),
        (∀ b ∈ job.turns.filterMap Turn.block?,
          ∃ types, (ofQuery q physical).schema types = .ok b.schema) →
        (r.perform job).1 = .ok sel →
        ∀ name, sel.table q ≠ .error (.failed (.unknownColumn name)) := by
  have hnodup := nodup_columnNames q physical
  refine ⟨sortNames_perm physical, pairwise_sortNames physical, columnNames_ofQuery q physical,
    hnodup, ?_, ?_⟩
  · intro types htypes
    have hindex : ∀ i name, (ofQuery q physical).columnNames[i]? = some name →
        Schema.indexOf? ⟨(ofQuery q physical).columnNames, types⟩ name = some i :=
      fun i name hi => Schema.indexOf?_of_nodup hnodup hi
    refine ⟨_, schema_eq htypes, rfl, rfl, hindex, fun name hname => ?_⟩
    obtain ⟨i, hi⟩ := List.mem_iff_getElem?.mp (Query.outputColumns_subset rfl hname)
    exact ⟨i, hindex i name hi, hi⟩
  · intro r job sel hblocks hrun
    have hnames : sel.schema.names = (ofQuery q physical).columnNames ∨
        sel.schema = .placeholder :=
      Reducer.names_perform (fun b hb => (hblocks b hb).elim fun _ => names_of_schema) hrun
    refine Selection.table_ne_unknownColumn ?_
    rcases hnames with hnames | hplaceholder
    · exact Query.outputColumns_subset hnames
    · exact fun name => Query.mem_names_of_isPlaceholder (by rw [hplaceholder]; rfl)

/-! ### Repeats -/

/-- A query for all columns, ordered by a call twice and by one of the columns. -/
def repeats : Query :=
  ⟨[.wildcard], [⟨.call "f" [.identifier "a"], true⟩, ⟨.identifier "a", false⟩,
    ⟨.call "f" [.identifier "a"], false⟩], 10, 0⟩

def repeatTypes : List ColumnType := [.one .int, .one .long, .one .string]

def repeatBlock (types : List ColumnType) (rows : List Row) : Block :=
  .ofRows ⟨["f(a)", "a", "b"], types⟩ rows

/-- A block without rows, and one with a row under narrower types. -/
def repeatBlocks : List (Timed Block) :=
  [⟨0, repeatBlock repeatTypes []⟩,
    ⟨1, repeatBlock [.one .int, .one .int, .one .string] [[.int 1, .int 7, .string "x"]]⟩]

def repeatReducer : Reducer := .ofCombiner (.firstRows 10) .sequential

theorem every_column_found_repeats :
    (ofQuery repeats ["b", "a", "b"]).columnNames = ["f(a)", "a", "b"] ∧
      (∃ s, (ofQuery repeats ["b", "a", "b"]).schema repeatTypes = .ok s ∧
        repeats.outputColumns s = ["a", "b"] ∧
        ∀ name ∈ repeats.outputColumns s, ∃ i, s.indexOf? name = some i ∧
          s.names[i]? = some name) ∧
      ∃ sel, (repeatReducer.perform (.feed (.blocks repeatBlocks))).1 = .ok sel ∧
        sel.rows.length = 1 ∧
        ∀ name, sel.table repeats ≠ .error (.failed (.unknownColumn name)) := by
  have hsorted : sortNames ["b", "a", "b"] = ["a", "b", "b"] :=
    sortNames_eq (by decide) (by decide +kernel)
  have hnames : (ofQuery repeats ["b", "a", "b"]).columnNames = ["f(a)", "a", "b"] := by
    rw [columnNames_ofQuery, hsorted]
    decide +kernel
  have hlength : repeatTypes.length = (ofQuery repeats ["b", "a", "b"]).columnNames.length := by
    rw [hnames]
    rfl
  obtain ⟨-, -, -, -, hschema, htable⟩ := every_column_found repeats ["b", "a", "b"]
  obtain ⟨s, hs, hsnames, -, -, hshown⟩ := hschema repeatTypes hlength
  have hplain : repeats.outputColumns s = ["a", "b"] := by
    have hplace : s.isPlaceholder = false := by
      rw [Schema.isPlaceholder, hsnames, hnames]
      decide
    rw [Query.outputColumns, hplace, hsnames, hnames]
    exact sortNames_eq (by decide) (by decide +kernel)
  have hrun : ∃ sel,
      (repeatReducer.perform (.feed (.blocks repeatBlocks))).1 = .ok sel ∧
        sel.rows.length = 1 := ⟨_, rfl, rfl⟩
  obtain ⟨sel, hsel, hrows⟩ := hrun
  refine ⟨hnames, ⟨s, hs, hplain, hshown⟩, sel, hsel, hrows, htable _ _ sel ?_ hsel⟩
  have hblock : ∀ types rows, types.length = 3 →
      (ofQuery repeats ["b", "a", "b"]).schema types = .ok (repeatBlock types rows).schema := by
    intro types rows htypes
    rw [schema_eq (by rw [hnames]; exact htypes), hnames]
    rfl
  intro b hb
  have hmem : b ∈ repeatBlocks.map (·.item) := hb
  simp only [repeatBlocks, List.map_cons, List.map_nil, List.mem_cons, List.not_mem_nil,
    or_false] at hmem
  rcases hmem with rfl | rfl <;> exact ⟨_, hblock _ _ rfl⟩

end Evaluation

end SelectMerge
