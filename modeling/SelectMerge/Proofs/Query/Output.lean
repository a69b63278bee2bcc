import Mathlib.Data.List.Basic
import SelectMerge.Query.Basic

/-!
# What a query shows

Every column that a query shows is one that segments evaluate for it
(`Query.mem_names_of_mem_outputColumns`), and its window lies within the rows that every merge keeps
(`Query.window_take`).
-/

namespace SelectMerge

namespace Evaluation

variable {q : Query} {physical : List String} {e : Expression}

theorem text_mem_firsts {seen : List String} {es : List Expression} (he : e ∈ es) :
    e.text ∈ seen ∨ e.text ∈ (firsts seen es).map (·.text) := by
  induction es generalizing seen with
  | nil => cases he
  | cons x es ih =>
    rw [firsts]
    rcases List.mem_cons.mp he with rfl | he
    · split
      · rename_i hseen
        exact .inl (List.contains_iff_mem.mp hseen)
      · exact .inr (by simp)
    · split
      · exact ih he
      · have ih : e.text ∈ x.text :: seen ∨ e.text ∈ (firsts (x.text :: seen) es).map (·.text) :=
          ih he
        rcases ih with hmem | hmem
        · rcases List.mem_cons.mp hmem with heq | hmem
          · exact .inr (by simp [heq])
          · exact .inl hmem
        · exact .inr (List.mem_cons_of_mem _ hmem)

theorem text_mem_columnNames (hq : ¬ q.isWildcard) (he : e ∈ q.select) :
    e.text ∈ (ofQuery q physical).columnNames := by
  have hmem : e ∈ q.orderBy.map (·.expression) ++ selected q physical := by
    rw [selected, if_neg hq]
    exact List.mem_append_right _ he
  exact (text_mem_firsts hmem).resolve_left List.not_mem_nil

end Evaluation

namespace Query

variable {q : Query} {physical : List String} {s : Schema} {name : String}

theorem mem_names_of_mem_outputColumns (hs : ¬ s.isPlaceholder)
    (hnames : s.names = (Evaluation.ofQuery q physical).columnNames)
    (h : name ∈ q.outputColumns s) : name ∈ s.names := by
  rw [outputColumns, if_neg hs] at h
  split at h
  · exact List.mem_of_mem_filter (List.mem_mergeSort.mp h)
  · rename_i hq
    obtain ⟨e, he, rfl⟩ := List.mem_map.mp h
    exact hnames ▸ Evaluation.text_mem_columnNames hq he

theorem exists_indexOf? (h : name ∈ s.names) :
    ∃ i, s.indexOf? name = some i ∧ i < s.names.length := by
  have hsome : (s.indexOf? name).isSome := by
    rw [Schema.indexOf?, List.findIdx?_isSome, List.any_eq_true]
    exact ⟨name, h, beq_self_eq_true name⟩
  obtain ⟨i, hi⟩ := Option.isSome_iff_exists.mp hsome
  exact ⟨i, hi, (List.findIdx?_eq_some_iff_getElem.mp hi).1⟩

/-- The rows that merges keep have all of the window, unless there are more than can be counted. -/
theorem window_take {α : Type} (q : Query) (l : List α)
    (h : min (q.offset + q.limit) l.length ≤ greatestCount) :
    ((l.take q.bound).drop q.offset).take q.limit = (l.drop q.offset).take q.limit := by
  rw [bound, List.drop_take, List.take_take]
  refine List.take_eq_take_iff.mpr ?_
  rw [List.length_drop]
  omega

end Query

end SelectMerge
