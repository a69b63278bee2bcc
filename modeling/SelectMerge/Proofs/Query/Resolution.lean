import Mathlib.Data.List.Forall2
import SelectMerge.Proofs.Outcome
import SelectMerge.Query.Order
import SelectMerge.Run.Reducer

/-!
# Sort keys of a query

Segments evaluate one expression of every canonical text, the first (`mem_firsts_iff`), while a sort
key is looked for as an expression. An expression to order by is found exactly if no other of the
same text is ordered by before it (`mem_ofQuery_iff`), so all of them are found exactly if the query
is `Unambiguous` (`orderPositions_ofQuery`). The texts of a column and of a call can be the same,
since a name may hold any characters (`orderPositions_quotedCall`).
-/

namespace SelectMerge

/-! ## Equality of expressions -/

namespace Expression

mutual

theorem beq_iff (a b : Expression) : beq a b ↔ a = b := by
  cases a <;> cases b <;> simp [beq]
  case call.call f xs g ys => exact fun _ => beqArgs_iff xs ys

theorem beqArgs_iff (xs ys : List Expression) : beqArgs xs ys ↔ xs = ys := by
  cases xs <;> cases ys <;> simp [beqArgs]
  case cons.cons x xs y ys => rw [beq_iff x y, beqArgs_iff xs ys]

end

instance : LawfulBEq Expression where
  eq_of_beq := (beq_iff _ _).mp
  rfl := (beq_iff _ _).mpr rfl

end Expression

/-! ## First of their text -/

namespace Evaluation

variable {e : Expression} {es : List Expression} {seen : List String} {i : Nat}

theorem mem_firsts_iff : e ∈ firsts seen es ↔
    e.text ∉ seen ∧ es.find? (fun x => x.text == e.text) = some e := by
  induction es generalizing seen with
  | nil => simp [firsts]
  | cons x es ih =>
    rw [firsts, List.find?_cons]
    by_cases htext : x.text = e.text
    · -- whether `x` is kept or not, nothing of its text is kept after it
      have hdrop : e ∉ firsts (e.text :: seen) es := by simp [ih]
      by_cases hseen : e.text ∈ seen
      · have hrest : e ∉ firsts seen es := by simp [ih, hseen]
        simp [htext, hseen, hrest]
      · simp [htext, hseen, hdrop, eq_comm]
    · have hbeq : (x.text == e.text) = false := beq_eq_false_iff_ne.mpr htext
      have hne : e ≠ x := fun h => htext (congrArg Expression.text h).symm
      by_cases hseen : x.text ∈ seen
      · simp [hbeq, hseen, ih]
      · simp [hbeq, hseen, ih, hne, Ne.symm htext]

theorem exists_indexOf?_iff {v : Evaluation} :
    (∃ i, v.indexOf? e = some i) ↔ e ∈ v.expressions := by
  rw [← Option.isSome_iff_exists, indexOf?, List.findIdx?_isSome, List.any_eq_true]
  simp

theorem getElem?_of_indexOf? {v : Evaluation} (h : v.indexOf? e = some i) :
    v.expressions[i]? = some e := by
  obtain ⟨hi, he, -⟩ := List.findIdx?_eq_some_iff_getElem.mp h
  rw [List.getElem?_eq_getElem hi, eq_of_beq he]

end Evaluation

/-! ## Positions -/

/-- Whether all that the query orders by under one text is the same expression. -/
def Query.Unambiguous (q : Query) : Prop :=
  ∀ o ∈ q.orderBy, ∀ o' ∈ q.orderBy, o'.expression.text = o.expression.text →
    o'.expression = o.expression

namespace Evaluation

variable {q : Query} {v : Evaluation} {physical : List String} {ps : List Nat} {o : OrderBy}

theorem position_eq_ok_iff {i : Nat} : (match v.indexOf? o.expression with
    | some i => Except.ok i
    | none => Except.error (MergeError.unknownColumn o.expression.text)) = .ok i ↔
      v.indexOf? o.expression = some i := by
  cases v.indexOf? o.expression <;> simp

theorem getElem?_of_orderPositions (h : v.orderPositions q = .ok ps) :
    List.Forall₂ (fun o i => v.expressions[i]? = some o.expression) q.orderBy ps :=
  (mapM_eq_ok_iff.mp h).imp fun _ _ ho => getElem?_of_indexOf? (position_eq_ok_iff.mp ho)

theorem exists_orderPositions_iff : (∃ ps, v.orderPositions q = .ok ps) ↔
    ∀ o ∈ q.orderBy, o.expression ∈ v.expressions := by
  constructor
  · rintro ⟨ps, h⟩ o ho
    obtain ⟨i, -, hi⟩ := (exists_of_mapM_eq_ok h).1 o ho
    exact exists_indexOf?_iff.mp ⟨i, position_eq_ok_iff.mp hi⟩
  · intro h
    apply exists_mapM_eq_ok
    intro o ho
    obtain ⟨i, hi⟩ := exists_indexOf?_iff.mpr (h o ho)
    exact ⟨i, position_eq_ok_iff.mpr hi⟩

theorem exists_of_orderPositions_eq_error {err : MergeError} (h : v.orderPositions q = .error err) :
    ∃ o ∈ q.orderBy, err = .unknownColumn o.expression.text ∧ o.expression ∉ v.expressions := by
  obtain ⟨o, ho, herr⟩ := exists_of_mapM_eq_error h
  cases hindex : v.indexOf? o.expression with
  | some i =>
    rw [hindex] at herr
    cases herr
  | none =>
    rw [hindex] at herr
    refine ⟨o, ho, (Except.error.inj herr).symm, fun hmem => ?_⟩
    obtain ⟨i, hi⟩ := exists_indexOf?_iff.mpr hmem
    rw [hindex] at hi
    cases hi

theorem exists_find?_orderBy (ho : o ∈ q.orderBy) : ∃ o' ∈ q.orderBy,
    o'.expression.text = o.expression.text ∧
      (q.orderBy.map (·.expression)).find? (fun x => x.text == o.expression.text) =
        some o'.expression := by
  have hsome : ((q.orderBy.map (·.expression)).find?
      fun x => x.text == o.expression.text).isSome := by
    rw [List.find?_isSome]
    exact ⟨o.expression, List.mem_map_of_mem ho, beq_self_eq_true _⟩
  obtain ⟨x, hx⟩ := Option.isSome_iff_exists.mp hsome
  obtain ⟨o', ho', rfl⟩ := List.mem_map.mp (List.mem_of_find?_eq_some hx)
  have htext := List.find?_some hx
  exact ⟨o', ho', eq_of_beq htext, hx⟩

/-- Of the expressions to order by under one text, the first is evaluated and no other. -/
theorem mem_ofQuery_iff (ho : o ∈ q.orderBy) :
    o.expression ∈ (ofQuery q physical).expressions ↔
      (q.orderBy.map (·.expression)).find? (fun x => x.text == o.expression.text) =
        some o.expression := by
  obtain ⟨o', -, -, hfind⟩ := exists_find?_orderBy ho
  rw [ofQuery, mem_firsts_iff, List.find?_append, hfind]
  simp

theorem forall_mem_ofQuery_iff (q : Query) (physical : List String) :
    (∀ o ∈ q.orderBy, o.expression ∈ (ofQuery q physical).expressions) ↔ q.Unambiguous := by
  constructor
  · intro h o ho o' ho' htext
    have hfind := (mem_ofQuery_iff ho).mp (h o ho)
    have hfind' := (mem_ofQuery_iff ho').mp (h o' ho')
    rw [htext, hfind] at hfind'
    exact (Option.some.inj hfind').symm
  · intro h o ho
    obtain ⟨o', ho', htext, hfind⟩ := exists_find?_orderBy ho
    rw [mem_ofQuery_iff ho, hfind, h o ho o' ho' htext]

end Evaluation

/-! ## Reducers -/

namespace Reducer

variable {q : Query} {v : Evaluation} {settings : Settings}

theorem exists_ofQuery_iff : (∃ r, ofQuery q v settings = .ok r) ↔
    ∃ ps, v.orderPositions q = .ok ps := by
  rw [ofQuery]
  by_cases horder : q.hasOrder
  · rw [if_pos horder, RowOrder.ofQuery]
    cases v.orderPositions q <;> simp [bind, Except.bind, pure, Except.pure]
  · have hnil : q.orderBy = [] := by simpa [Query.hasOrder] using horder
    rw [if_neg horder, Evaluation.orderPositions, hnil]
    simp [pure, Except.pure]

end Reducer

namespace Evaluation

/-- What a query orders by is found among what is evaluated for it exactly if no two different
expressions that it orders by have one text. Each is then found where its text stands, and else the
error names one that another of its text came before. -/
theorem orderPositions_ofQuery (q : Query) (physical : List String) :
    ((∃ ps, (ofQuery q physical).orderPositions q = .ok ps) ↔ q.Unambiguous) ∧
      (∀ ps, (ofQuery q physical).orderPositions q = .ok ps →
        List.Forall₂ (fun o i => (ofQuery q physical).expressions[i]? = some o.expression)
          q.orderBy ps) ∧
      (∀ err, (ofQuery q physical).orderPositions q = .error err → ∃ o ∈ q.orderBy,
        err = .unknownColumn o.expression.text ∧ ∃ o' ∈ q.orderBy,
          o'.expression.text = o.expression.text ∧ o'.expression ≠ o.expression) ∧
      ∀ settings, (∃ r, Reducer.ofQuery q (ofQuery q physical) settings = .ok r) ↔
        q.Unambiguous := by
  have hfound := exists_orderPositions_iff.trans (forall_mem_ofQuery_iff q physical)
  refine ⟨hfound, fun ps => getElem?_of_orderPositions, fun err herr => ?_,
    fun settings => Reducer.exists_ofQuery_iff.trans hfound⟩
  obtain ⟨o, ho, rfl, hmem⟩ := exists_of_orderPositions_eq_error herr
  obtain ⟨o', ho', htext, hfind⟩ := exists_find?_orderBy ho
  refine ⟨o, ho, rfl, o', ho', htext, fun heq => hmem ?_⟩
  rw [mem_ofQuery_iff ho, hfind, heq]

/-! ### Quoted names -/

/-- A query ordered by a call and by its argument. -/
def callOrder : Query :=
  ⟨[.identifier "a"], [⟨.call "f" [.identifier "a"], true⟩, ⟨.identifier "a", false⟩], 10, 0⟩

theorem orderPositions_ofQuery_callOrder : ∃ ps,
    (ofQuery callOrder ["a"]).orderPositions callOrder = .ok ps ∧
      List.Forall₂ (fun o i => (ofQuery callOrder ["a"]).expressions[i]? = some o.expression)
        callOrder.orderBy ps := by
  have hunambiguous : callOrder.Unambiguous := by
    intro o ho o' ho' htext
    simp only [callOrder, List.mem_cons, List.not_mem_nil, or_false] at ho ho'
    rcases ho with rfl | rfl <;> rcases ho' with rfl | rfl
    · rfl
    · exact absurd htext (by decide)
    · exact absurd htext (by decide)
    · rfl
  obtain ⟨hfound, hplaces, -⟩ := orderPositions_ofQuery callOrder ["a"]
  obtain ⟨ps, hps⟩ := hfound.mpr hunambiguous
  exact ⟨ps, hps, hplaces ps hps⟩

/-- A query ordered by a column whose name reads like a call, and by that call. -/
def quotedCall : Query :=
  ⟨[.identifier "a"], [⟨.identifier "f(a)", true⟩, ⟨.call "f" [.identifier "a"], true⟩], 10, 0⟩

/-- The call is not evaluated, as the column before it has its text. -/
theorem orderPositions_quotedCall :
    (ofQuery quotedCall ["a"]).columnNames = ["f(a)", "a"] ∧
      (ofQuery quotedCall ["a"]).orderPositions quotedCall = .error (.unknownColumn "f(a)") ∧
      ∀ settings, Reducer.ofQuery quotedCall (ofQuery quotedCall ["a"]) settings =
        .error (.unknownColumn "f(a)") := by
  exact ⟨rfl, rfl, fun _ => rfl⟩

end Evaluation

end SelectMerge
