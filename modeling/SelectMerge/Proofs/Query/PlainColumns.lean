import SelectMerge.Proofs.Query.EvaluationOrder

/-!
# What is shown of all columns

A query for all columns shows those that look plain. By then only names are left to look at, and a
column is taken for a call if its name ends in a parenthesis (`isCallColumn`). Calls are hidden that
way, as their texts always end so (`isCallColumn_text`), but so are physical columns of such names,
and literals that the query orders by are shown.

`outputColumns_of_isWildcard` lists what is shown, and says that it is the columns that are not
computed exactly if every name is `ReadRight`; `outputColumns_ordinal` has a query where one is not.
-/

namespace SelectMerge

namespace Expression

/-! ## Expressions that look plain -/

/-- Whether a query for all columns shows the values of the expression. -/
def looksPlain : Expression → Bool
  | identifier name => !Query.isCallColumn name
  | literal _ => true
  | call .. => false

/-- Whether the name of the expression's column is read right: a literal is taken for a column, and
a column whose name ends in a parenthesis is taken for a call. -/
def ReadRight : Expression → Prop
  | identifier name => name.toList.getLast? ≠ some ')'
  | literal _ => False
  | call .. => True

theorem isCallColumn_text (e : Expression) : Query.isCallColumn e.text = !e.looksPlain := by
  cases e with
  | identifier name => simp [looksPlain]
  | literal value =>
    rw [Query.isCallColumn, text, String.toList_ofList, render, List.getLast?_concat]
    rfl
  | call name args =>
    rw [Query.isCallColumn, text, String.toList_ofList, render, List.getLast?_concat]
    rfl

theorem looksPlain_eq_iff (e : Expression) : e.looksPlain = !e.isTransform ↔ e.ReadRight := by
  cases e <;> simp [looksPlain, isTransform, ReadRight, Query.isCallColumn]

end Expression

namespace Evaluation

variable {q : Query} {physical : List String} {v : Evaluation} {e : Expression}

/-! ## Columns by their texts -/

theorem text_mem_filter_iff (hv : v.columnNames.Nodup) (he : e ∈ v.expressions)
    (p : Expression → Bool) : e.text ∈ (v.expressions.filter p).map (·.text) ↔ p e := by
  constructor
  · intro h
    obtain ⟨x, hx, htext⟩ := List.mem_map.mp h
    obtain ⟨hx, hp⟩ := List.mem_filter.mp hx
    rwa [← List.inj_on_of_nodup_map hv hx he htext]
  · exact fun hp => List.mem_map_of_mem (List.mem_filter.mpr ⟨he, hp⟩)

theorem filter_perm_iff (hv : v.columnNames.Nodup) (p p' : Expression → Bool) :
    ((v.expressions.filter p).map (·.text)).Perm ((v.expressions.filter p').map (·.text)) ↔
      ∀ e ∈ v.expressions, p e = p' e := by
  constructor
  · intro hperm e he
    rw [Bool.eq_iff_iff, ← text_mem_filter_iff hv he, ← text_mem_filter_iff hv he]
    exact hperm.mem_iff
  · intro h
    rw [List.filter_congr h]

theorem outputColumns_eq (hq : q.isWildcard) {s : Schema} (hplace : ¬ s.isPlaceholder)
    (hs : s.names = v.columnNames) :
    q.outputColumns s = sortNames ((v.expressions.filter (·.looksPlain)).map (·.text)) := by
  rw [Query.outputColumns, if_neg hplace, if_pos hq, hs, columnNames, List.filter_map]
  simp [Function.comp_def, Expression.isCallColumn_text]

theorem mem_outputColumns_iff (hq : q.isWildcard) {s : Schema} (hplace : ¬ s.isPlaceholder)
    {name : String} : name ∈ q.outputColumns s ↔
      name ∈ s.names ∧ name.toList.getLast? ≠ some ')' := by
  rw [Query.outputColumns, if_neg hplace, if_pos hq, (sortNames_perm _).mem_iff, List.mem_filter]
  simp [Query.isCallColumn]

theorem mem_columnNames_of_mem_physical (hq : q.isWildcard) {name : String}
    (hname : name ∈ physical) : name ∈ (ofQuery q physical).columnNames := by
  rw [columnNames_ofQuery, if_pos hq, List.mem_eraseDups, List.mem_append]
  exact .inr ((sortNames_perm physical).mem_iff.mpr hname)

/-- A query for all columns shows, in the order of their names, the literals that it orders by and
the columns whose names do not end in a parenthesis, and no calls. So it shows the columns that are
not computed, no more and no less, exactly if all the names are read right. -/
theorem outputColumns_of_isWildcard (q : Query) (physical : List String)
    (types : List ColumnType) (s : Schema) (hq : q.isWildcard)
    (hs : (ofQuery q physical).schema types = .ok s) (hplace : ¬ s.isPlaceholder) :
    (q.outputColumns s).Pairwise (· ≤ ·) ∧
      (q.outputColumns s).Perm
        (((ofQuery q physical).expressions.filter (·.looksPlain)).map (·.text)) ∧
      (∀ f args, (Expression.call f args).text ∉ q.outputColumns s) ∧
      (∀ name ∈ physical, name ∈ q.outputColumns s ↔ name.toList.getLast? ≠ some ')') ∧
      ((q.outputColumns s).Perm
          (((ofQuery q physical).expressions.filter fun e => !e.isTransform).map (·.text)) ↔
        ∀ e ∈ (ofQuery q physical).expressions, e.ReadRight) := by
  have hnames := names_of_schema hs
  have hnodup := nodup_columnNames q physical
  have heq := outputColumns_eq hq hplace hnames
  have hperm : (q.outputColumns s).Perm
      (((ofQuery q physical).expressions.filter (·.looksPlain)).map (·.text)) :=
    heq ▸ sortNames_perm _
  refine ⟨heq ▸ pairwise_sortNames _, hperm, fun f args hmem => ?_, fun name hname => ?_, ?_⟩
  · have hcall := (Expression.call f args).isCallColumn_text
    exact ((mem_outputColumns_iff hq hplace).mp hmem).2 (eq_of_beq hcall)
  · rw [mem_outputColumns_iff hq hplace, hnames]
    exact and_iff_right (mem_columnNames_of_mem_physical hq hname)
  · calc (q.outputColumns s).Perm
          (((ofQuery q physical).expressions.filter fun e => !e.isTransform).map (·.text))
        ↔ (((ofQuery q physical).expressions.filter (·.looksPlain)).map (·.text)).Perm
          (((ofQuery q physical).expressions.filter fun e => !e.isTransform).map (·.text)) :=
          ⟨hperm.symm.trans, hperm.trans⟩
      _ ↔ ∀ e ∈ (ofQuery q physical).expressions, e.looksPlain = !e.isTransform :=
          filter_perm_iff hnodup _ _
      _ ↔ ∀ e ∈ (ofQuery q physical).expressions, e.ReadRight :=
          forall₂_congr fun e _ => e.looksPlain_eq_iff

/-! ### Prices -/

/-- A query for all columns, ordered by a call. -/
def pricesBySize : Query :=
  ⟨[.wildcard], [⟨.call "abs" [.identifier "price"], true⟩], 10, 0⟩

def priceTypes : List ColumnType := [.one .double, .one .double, .one .double]

/-- The call is hidden, and the column that it is taken from is shown; the other column is hidden
like a call. -/
theorem outputColumns_of_isWildcard_prices :
    let v := ofQuery pricesBySize ["price (net)", "price"]
    ∃ s, v.schema priceTypes = .ok s ∧
      pricesBySize.isWildcard ∧ ¬ s.isPlaceholder ∧
      "price" ∈ pricesBySize.outputColumns s ∧ "price (net)" ∉ pricesBySize.outputColumns s ∧
      ¬ (pricesBySize.outputColumns s).Perm
        ((v.expressions.filter fun e => !e.isTransform).map (·.text)) := by
  have hsorted : sortNames ["price (net)", "price"] = ["price", "price (net)"] :=
    sortNames_eq (by decide) (by decide +kernel)
  have hv : ofQuery pricesBySize ["price (net)", "price"] =
      ⟨[.call "abs" [.identifier "price"], .identifier "price", .identifier "price (net)"]⟩ := by
    rw [ofQuery, selected, hsorted]
    rfl
  have hs : (ofQuery pricesBySize ["price (net)", "price"]).schema priceTypes =
      .ok ⟨["abs(price)", "price", "price (net)"], priceTypes⟩ := by
    rw [hv]
    rfl
  have hq : pricesBySize.isWildcard := rfl
  have hplace : ¬ Schema.isPlaceholder ⟨["abs(price)", "price", "price (net)"], priceTypes⟩ := by
    decide
  obtain ⟨-, -, -, hphysical, hplain⟩ := outputColumns_of_isWildcard _ _ _ _ hq hs hplace
  refine ⟨_, hs, hq, hplace, (hphysical "price" (by simp)).mpr (by decide), ?_, ?_⟩
  · exact fun hmem => (hphysical "price (net)" (by simp)).mp hmem (by decide)
  · intro hperm
    exact hplain.mp hperm (.identifier "price (net)") (by rw [hv]; simp) (by decide)

/-- A query for all columns that is ordered by a number. -/
def ordinal : Query := ⟨[.wildcard], [⟨.literal "1", true⟩], 10, 0⟩

/-- The number is shown as if it were a column. -/
theorem outputColumns_ordinal :
    let v := ofQuery ordinal ["a"]
    ∃ s, v.schema [.one .int, .one .int] = .ok s ∧ ordinal.isWildcard ∧ ¬ s.isPlaceholder ∧
      ordinal.outputColumns s = ["'1'", "a"] ∧ (Expression.literal "1").isTransform ∧
      sortNames ((v.expressions.filter fun e => !e.isTransform).map (·.text)) = ["a"] := by
  have hsorted : sortNames ["a"] = ["a"] := sortNames_eq (by decide) (by decide)
  have hv : ofQuery ordinal ["a"] = ⟨[.literal "1", .identifier "a"]⟩ := by
    rw [ofQuery, selected, hsorted]
    rfl
  rw [hv]
  refine ⟨⟨["'1'", "a"], [.one .int, .one .int]⟩, rfl, rfl, by decide, ?_, rfl, hsorted⟩
  exact sortNames_eq (by decide) (by decide +kernel)

end Evaluation

end SelectMerge
