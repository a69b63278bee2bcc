import Mathlib.Data.List.Forall2
import SelectMerge.Proofs.Expr.Reading

/-!
# Reading calls

Besides its arguments a call may say which of equal values count, in which order it takes them and
how many, which rows it takes, how nulls count and over which window it runs (`Clauses`). All of
this is read, and none of it is in what the call is read as (`readsAs_call`).

The tokens of each clause are spelled out (`Inside.around`, `Clauses.around`), and each is shown to
be passed over up to what comes next: the order, the bound and the arguments before it inside the
parentheses (`run_arguments`), the filter, the treatment of nulls and the window after them
(`run_clauses`). Optional clauses are told apart by the token that comes next, which is never a word
that could start the one before.
-/

namespace SelectMerge.Expr

/-! ## Clauses of calls -/

/-- Which of equal values count. -/
inductive Quantifier where
  | all
  | distinct
deriving DecidableEq

def Quantifier.word : Quantifier → String
  | all => "ALL"
  | distinct => "DISTINCT"

/-- How nulls count. -/
inductive NullTreatment where
  | respect
  | ignore
deriving DecidableEq

def NullTreatment.word : NullTreatment → String
  | respect => "RESPECT"
  | ignore => "IGNORE"

/-- The rows that a call runs over: those of a window that has a name, or of one written out. -/
inductive Window where
  | named (name : String)
  | over (partition : List Expression) (order : List OrderBy)

/-- What a call says inside its parentheses beyond its arguments. -/
structure Inside where
  quantifier : Option Quantifier
  order : List OrderBy
  limit : Option Expression

/-- What a call says beyond its arguments. The parameters stand in parentheses before them. -/
structure Clauses where
  parameters : Option (List Expression)
  inside : Inside
  group : List OrderBy
  filter : Option Expression
  nulls : Option NullTreatment
  window : Option Window

namespace Inside

def none : Inside := ⟨.none, [], .none⟩

def isNone (i : Inside) : Bool := i.quantifier.isNone && i.order.isEmpty && i.limit.isNone

theorem eq_none_of_isNone {i : Inside} (h : i.isNone) : i = .none := by
  obtain ⟨quantifier, order, limit⟩ := i
  simp only [isNone, Bool.and_eq_true, Option.isNone_iff_eq_none, List.isEmpty_iff] at h
  obtain ⟨⟨rfl, rfl⟩, rfl⟩ := h
  rfl

/-- The expressions in the clauses. -/
def expressions (i : Inside) : List Expression := i.order.map (·.expression) ++ i.limit.toList

end Inside

namespace Clauses

def none : Clauses := ⟨.none, .none, [], .none, .none, .none⟩

def windowExpressions : Window → List Expression
  | .named _ => []
  | .over partition order => partition ++ order.map (·.expression)

/-- The expressions in the clauses. -/
def expressions (c : Clauses) : List Expression :=
  c.parameters.toList.flatten ++ (c.inside.expressions ++ (c.group.map (·.expression) ++
    (c.filter.toList ++ c.window.toList.flatMap windowExpressions)))

end Clauses

/-! ## Their tokens -/

/-- A word with a blank before it. -/
def word (s : String) : Token := ⟨wordOf s, true⟩

def directionWord (ascending : Bool) : String := if ascending then "ASC" else "DESC"

/-- The tokens of an expression to order by, with its direction. -/
def keyTokens (o : OrderBy) : List Token :=
  o.expression.tokens true ++ [word (directionWord o.ascending)]

/-- The tokens of an order after its words; none for an empty order. -/
def orderTokens (spaced : Bool) (order : List OrderBy) : List Token :=
  if order.isEmpty then []
  else ⟨wordOf "ORDER", spaced⟩ :: word "BY" :: listed (order.map keyTokens)

def limitTokens : Option Expression → List Token
  | none => []
  | some e => word "LIMIT" :: e.tokens true

namespace Inside

/-- The tokens between the arguments and the closing parenthesis. -/
def tokens (i : Inside) : List Token := orderTokens true i.order ++ limitTokens i.limit

/-- The tokens of arguments up to the closing parenthesis, with the clauses. -/
def around (i : Inside) (args : List (List Token)) : List Token :=
  (i.quantifier.toList.map fun q => ⟨wordOf q.word, false⟩) ++
    (listed args ++ (i.tokens ++ [mark ")"]))

end Inside

def groupTokens (order : List OrderBy) : List Token :=
  if order.isEmpty then []
  else
    word "WITHIN" :: word "GROUP" :: ⟨.symbol "(", true⟩ ::
      (orderTokens false order ++ [mark ")"])

def filterTokens : Option Expression → List Token
  | none => []
  | some e =>
    word "FILTER" :: ⟨.symbol "(", true⟩ :: ⟨wordOf "WHERE", false⟩ :: (e.tokens true ++ [mark ")"])

def nullTokens : Option NullTreatment → List Token
  | none => []
  | some t => [word t.word, word "NULLS"]

def partitionTokens (es : List Expression) : List Token :=
  if es.isEmpty then []
  else ⟨wordOf "PARTITION", false⟩ :: word "BY" :: listed (es.map (Expression.tokens true))

def windowTokens : Option Window → List Token
  | none => []
  | some (.named name) => [word "OVER", word name]
  | some (.over partition order) =>
    word "OVER" :: ⟨.symbol "(", true⟩ ::
      (partitionTokens partition ++ (orderTokens true order ++ [mark ")"]))

namespace Clauses

/-- The tokens between the name and the arguments. -/
def parameterTokens : Option (List Expression) → List Token
  | .none => []
  | some es => mark "(" :: Inside.none.around (Expression.tokensOfAll es)

/-- The tokens after the arguments. -/
def tokens (c : Clauses) : List Token :=
  groupTokens c.group ++ (filterTokens c.filter ++ (nullTokens c.nulls ++ windowTokens c.window))

/-- The tokens of arguments, with the clauses. -/
def around (c : Clauses) (args : List (List Token)) : List Token :=
  parameterTokens c.parameters ++ (mark "(" :: (c.inside.around args ++ c.tokens))

end Clauses

/-! ## Reading clauses -/

variable {r : Rules} {place : Place} {ts us rest : List Token} {k : String} {order : List OrderBy}

open Expr.Parser

theorem flat_word {s : String} {spaced : Bool} (hs : isWordText s) (h : Flat ts) :
    Flat (⟨wordOf s, spaced⟩ :: ts) := flat_cons.mpr ⟨.word hs, h⟩

theorem stops_of_mem {x : Lexeme} {spaced : Bool} (hx : x ∈ stops) (h : Flat (⟨x, spaced⟩ :: ts)) :
    Stops (⟨x, spaced⟩ :: ts) where
  flat := h
  next y hy := by
    obtain rfl := Option.some.inj hy
    exact hx

theorem stops_close (h : Flat ts) : Stops (mark ")" :: ts) :=
  stops_of_mem (by decide) (flat_mark (by decide) h)

theorem ReadsAs.form {x : Surface} (h : ReadsAs r.expression place ts x) :
    ReadsAs r.form place ts () where
  flat := h.flat
  run rest hrest := by
    rw [Rules.form]
    simp only [run_discard, h.run rest hrest]

/-! ### Orders -/

theorem readsAs_ordering {o : OrderBy} {x : Surface}
    (h : ReadsAs r.expression place (o.expression.tokens true) x) :
    ReadsAs r.ordering place (keyTokens o) () where
  flat := by
    refine flat_append.mpr ⟨h.flat, flat_word ?_ (by simp [Flat])⟩
    cases o.ascending <;> decide
  run rest hrest := by
    have hword : isWordText (directionWord o.ascending) := by cases o.ascending <;> decide
    have hstop : wordOf (directionWord o.ascending) ∈ stops := by cases o.ascending <;> decide
    have hstops : Stops (word (directionWord o.ascending) :: rest) :=
      stops_of_mem hstop (flat_word hword hrest.flat)
    have hdirection : Rules.direction place (word (directionWord o.ascending) :: rest) =
        .ok ((), rest) := by
      cases o.ascending <;> rfl
    have hnulls : ∀ ks, keywords? ("NULLS" :: ks) place rest = .ok (false, rest) := fun ks =>
      run_keywords?_of_ne (hrest.nextKeyword_ne (by decide))
    have hfill : keywords? ["WITH", "FILL"] place rest = .ok (false, rest) :=
      run_keywords?_of_ne (hrest.nextKeyword_ne (by decide))
    rw [keyTokens, List.append_assoc, List.singleton_append, Rules.ordering]
    simp only [run_bind, h.form.run _ hstops, hdirection, hnulls, Bool.false_eq_true, if_false,
      run_discard, run_after_of_not hfill]

theorem readsAs_orderings (h : ∀ o ∈ order, ReadsAs r.ordering place (keyTokens o) ())
    (hne : order ≠ []) (hrest : Stops rest) (hcomma : next? rest ≠ some (.symbol ",")) :
    r.orderings place (listed (order.map keyTokens) ++ rest) = .ok ((), rest) := by
  have hall : List.Forall₂ (ReadsAs r.ordering place) (order.map keyTokens)
      (order.map fun _ => ()) := by
    rw [List.forall₂_map_left_iff, List.forall₂_map_right_iff, List.forall₂_same]
    exact h
  rw [Rules.orderings]
  simp only [run_discard, run_commas hall (by simpa using hne) hrest hcomma]

theorem run_orderings? (h : ∀ o ∈ order, ReadsAs r.ordering place (keyTokens o) ())
    (hrest : Stops rest) (hnext : nextKeyword rest ≠ "ORDER")
    (hcomma : next? rest ≠ some (.symbol ",")) (spaced : Bool) :
    r.orderings? place (orderTokens spaced order ++ rest) = .ok ((), rest) := by
  rw [Rules.orderings?, orderTokens]
  cases order with
  | nil => exact run_after_of_not (run_keywords?_of_ne hnext)
  | cons o order =>
    exact run_after_of_ok rfl (readsAs_orderings h (List.cons_ne_nil _ _) hrest hcomma)

/-! ### Arguments -/

/-- Whether an expression is read from its tokens, with or without a blank before them. -/
def Rules.Takes (r : Rules) (place : Place) (e : Expression) : Prop :=
  ∃ x, ∀ spaced, Opens (e.tokens spaced) ∧ ReadsAs r.expression place (e.tokens spaced) x

theorem run_documentClauses (h : nextKeyword ts ∉ ["ABSENT", "NULL", "RETURNING"]) :
    r.documentClauses place ts = .ok ((), ts) := by
  simp only [List.mem_cons, List.not_mem_nil, or_false, not_or] at h
  obtain ⟨habsent, hnull, hreturning⟩ := h
  rw [Rules.documentClauses]
  simp only [run_bind, run_keywords?_of_ne habsent, run_keywords?_of_ne hnull,
    Bool.false_eq_true, if_false, run_discard, run_after_of_not (run_keyword?_of_ne hreturning)]

theorem run_limit {limit : Option Expression} (h : ∀ e ∈ limit, r.Takes place e)
    (hrest : Stops rest) (hnext : nextKeyword rest ≠ "LIMIT") :
    after (keyword? "LIMIT") r.form place (limitTokens limit ++ rest) = .ok ((), rest) := by
  cases limit with
  | none => exact run_after_of_not (run_keyword?_of_ne hnext)
  | some e =>
    obtain ⟨x, hx⟩ := h e rfl
    exact run_after_of_ok rfl ((hx true).2.form.run rest hrest)

theorem run_arguments_nil (rest : List Token) :
    r.arguments place (mark ")" :: rest) = .ok (([], false), rest) := by
  have hdocs : r.documentClauses place (mark ")" :: rest) = .ok ((), mark ")" :: rest) :=
    run_documentClauses (show "" ∉ _ by decide)
  rw [Rules.arguments, run_bind_of_ok hdocs]
  rfl

theorem forall_readsAs_ordering (h : ∀ e ∈ order.map (·.expression), r.Takes place e) :
    ∀ o ∈ order, ReadsAs r.ordering place (keyTokens o) () := by
  intro o ho
  obtain ⟨x, hx⟩ := h o.expression (List.mem_map_of_mem ho)
  exact readsAs_ordering (hx true).2

theorem next?_limitTokens (limit : Option Expression) (rest : List Token) :
    next? (limitTokens limit ++ mark ")" :: rest) ∈
      [some (.symbol ")"), some (wordOf "LIMIT")] := by
  cases limit with
  | none => exact .head _
  | some e => exact .tail _ (.head _)

theorem stops_limitTokens {limit : Option Expression}
    (h : Flat (limitTokens limit ++ mark ")" :: rest)) :
    Stops (limitTokens limit ++ mark ")" :: rest) where
  flat := h
  next := by
    have hall : ∀ x? ∈ [some (.symbol ")"), some (wordOf "LIMIT")], ∀ x ∈ x?, x ∈ stops := by decide
    exact hall _ (next?_limitTokens limit rest)

theorem next?_insideTokens (i : Inside) (rest : List Token) :
    next? (i.tokens ++ mark ")" :: rest) ∈
      [some (.symbol ")"), some (wordOf "LIMIT"), some (wordOf "ORDER")] := by
  rw [Inside.tokens, List.append_assoc, orderTokens]
  split
  · exact List.mem_append_left [_] (next?_limitTokens i.limit rest)
  · exact .tail _ (.tail _ (.head _))

theorem stops_insideTokens {i : Inside} (h : Flat (i.tokens ++ mark ")" :: rest)) :
    Stops (i.tokens ++ mark ")" :: rest) where
  flat := h
  next := by
    have hall : ∀ x? ∈ [some (.symbol ")"), some (wordOf "LIMIT"), some (wordOf "ORDER")],
        ∀ x ∈ x?, x ∈ stops := by decide
    exact hall _ (next?_insideTokens i rest)

theorem run_quantifier (place : Place) (q : Option Quantifier)
    (h : nextKeyword ts ∉ reservedWords) :
    ∃ all distinct us, keyword? "ALL" place
        ((q.toList.map fun q => ⟨wordOf q.word, false⟩) ++ ts) = .ok (all, us) ∧
      keyword? "DISTINCT" place us = .ok (distinct, ts) ∧ (all && distinct) = false := by
  have hall : nextKeyword ts ≠ "ALL" := fun heq => h (heq ▸ by decide)
  have hdistinct : nextKeyword ts ≠ "DISTINCT" := fun heq => h (heq ▸ by decide)
  rcases q with _ | _ | _
  · exact ⟨_, _, _, run_keyword?_of_ne hall, run_keyword?_of_ne hdistinct, rfl⟩
  · exact ⟨true, _, _, rfl, run_keyword?_of_ne hdistinct, rfl⟩
  · exact ⟨false, true, _, rfl, rfl, rfl⟩

theorem run_nullTreatment_of_not_mem (place : Place) (h : nextKeyword ts ∉ ["RESPECT", "IGNORE"]) :
    Rules.nullTreatment place ts = .ok (false, ts) := by
  have hcontains : ["RESPECT", "IGNORE"].contains (nextKeyword ts) = false := by simpa using h
  rw [Rules.nullTreatment]
  simp only [run_bind, run_oneOf?, hcontains, Bool.false_eq_true, if_false, run_pure]

theorem exists_listed_cons (ts : List Token) (tss : List (List Token)) :
    ∃ us, listed (ts :: tss) = ts ++ us := by
  cases tss with
  | nil => exact ⟨[], by rw [listed_singleton, List.append_nil]⟩
  | cons us tss => exact ⟨_, listed_cons_cons ts us tss⟩

theorem head_listed {tss : List (List Token)} (hopens : ∀ ts ∈ tss, Opens ts) (hne : tss ≠ [])
    (rest : List Token) : nextKeyword (listed tss ++ rest) ∉ reservedWords ∧
      (next? (listed tss ++ rest) == some (.symbol ")")) = false := by
  cases tss with
  | nil => exact absurd rfl hne
  | cons ts tss =>
    obtain ⟨us, hus⟩ := exists_listed_cons ts tss
    rw [hus, List.append_assoc]
    cases hopens ts (by simp) with
    | word hs => exact ⟨hs, rfl⟩
    | quoted => exact ⟨(by decide : "" ∉ reservedWords), rfl⟩

theorem run_arguments_start (r : Rules) (place : Place) (i : Inside) {tss : List (List Token)}
    (hopens : ∀ ts ∈ tss, Opens ts) (hne : tss ≠ []) (rest : List Token) :
    r.documentClauses place (i.around tss ++ rest) = .ok ((), i.around tss ++ rest) ∧
      symbol? ")" place (i.around tss ++ rest) = .ok (false, i.around tss ++ rest) := by
  have hhead : nextKeyword (i.around tss ++ rest) ∉ ["ABSENT", "NULL", "RETURNING"] ∧
      (next? (i.around tss ++ rest) == some (.symbol ")")) = false := by
    rw [Inside.around, List.append_assoc, List.append_assoc]
    rcases i.quantifier with _ | _ | _
    · obtain ⟨hkeyword, hsymbol⟩ := head_listed hopens hne (i.tokens ++ [mark ")"] ++ rest)
      refine ⟨fun hmem => hkeyword ?_, hsymbol⟩
      have hsub : ["ABSENT", "NULL", "RETURNING"] ⊆ reservedWords := by decide
      exact hsub hmem
    · exact ⟨(by decide : "ALL" ∉ ["ABSENT", "NULL", "RETURNING"]), rfl⟩
    · exact ⟨(by decide : "DISTINCT" ∉ ["ABSENT", "NULL", "RETURNING"]), rfl⟩
  refine ⟨run_documentClauses hhead.1, ?_⟩
  rw [run_symbol?, hhead.2]
  rfl

theorem readsAs_argument {tss : List (List Token)} {as : List Surface}
    (hargs : List.Forall₂ (ReadsAs r.expression place) tss as) (hopens : ∀ ts ∈ tss, Opens ts) :
    List.Forall₂ (ReadsAs r.argument place) tss as := by
  refine ((List.forall₂_and_left _ _).mpr ⟨hopens, hargs⟩).imp ?_
  rintro ts a ⟨hts, ha⟩
  exact ⟨ha.flat, fun rest hrest => (run_argument hts ha.flat hrest).trans (ha.run rest hrest)⟩

theorem run_orderings?_insideTokens {i : Inside} (hi : ∀ e ∈ i.expressions, r.Takes place e)
    (hflat : Flat (i.tokens ++ mark ")" :: rest)) :
    r.orderings? place (i.tokens ++ mark ")" :: rest) =
      .ok ((), limitTokens i.limit ++ mark ")" :: rest) := by
  have horder := forall_readsAs_ordering fun e he => hi e (List.mem_append_left _ he)
  rw [Inside.tokens, List.append_assoc] at hflat ⊢
  have hbound := stops_limitTokens (flat_append.mp hflat).2
  have hnext : nextKeyword (limitTokens i.limit ++ mark ")" :: rest) ≠ "ORDER" := by
    cases i.limit with
    | none => exact (by decide : "" ≠ "ORDER")
    | some e => exact (by decide : "LIMIT" ≠ "ORDER")
  exact run_orderings? horder hbound hnext
    (ne_of_mem_of_not_mem (next?_limitTokens i.limit rest) (by decide)) true

/-- Arguments are read with the clauses in their parentheses, and the clauses are passed over. -/
theorem run_arguments {i : Inside} {tss : List (List Token)} {as : List Surface}
    (hargs : List.Forall₂ (ReadsAs r.expression place) tss as) (hopens : ∀ ts ∈ tss, Opens ts)
    (hne : tss ≠ []) (hi : ∀ e ∈ i.expressions, r.Takes place e)
    (hflat : Flat (i.around tss ++ rest)) :
    r.arguments place (i.around tss ++ rest) = .ok ((as, false), rest) := by
  have hlimit : ∀ e ∈ i.limit, r.Takes place e :=
    fun e he => hi e (List.mem_append_right _ (Option.mem_toList.mpr he))
  have hflat' : Flat (i.tokens ++ mark ")" :: rest) := by
    simp only [Inside.around, List.append_assoc, List.singleton_append, flat_append] at hflat ⊢
    exact hflat.2.2
  have hinside := stops_insideTokens hflat'
  have hclose := stops_close (flat_cons.mp (flat_append.mp hflat').2).2
  obtain ⟨hdoc, hopen⟩ := run_arguments_start r place i hopens hne rest
  obtain ⟨all, distinct, us, hall, hdistinct, hboth⟩ :=
    run_quantifier place i.quantifier (head_listed hopens hne (i.tokens ++ mark ")" :: rest)).1
  have hcommas := run_commas (readsAs_argument hargs hopens) hne hinside
    (ne_of_mem_of_not_mem (next?_insideTokens i rest) (by decide))
  have hnulls := run_nullTreatment_of_not_mem place (hinside.nextKeyword_not_mem (by decide))
  have horders := run_orderings?_insideTokens hi hflat'
  have hlimits : after (keyword? "LIMIT") r.form place (limitTokens i.limit ++ mark ")" :: rest) =
      .ok ((), mark ")" :: rest) := run_limit hlimit hclose (by decide : "" ≠ "LIMIT")
  have hafter : ∀ k p, "" ≠ k → after (keyword? k) p place (mark ")" :: rest) =
      .ok ((), mark ")" :: rest) := fun k p hk => run_after_of_not (run_keyword?_of_ne hk)
  have hoverflow : r.overflowClause place (mark ")" :: rest) = .ok ((), mark ")" :: rest) :=
    run_after_of_not (run_keywords?_of_ne (show "" ≠ "ON" by decide))
  have hdocs : r.documentClauses place (mark ")" :: rest) = .ok ((), mark ")" :: rest) :=
    run_documentClauses (show "" ∉ _ by decide)
  have hend : symbol ")" place (mark ")" :: rest) = .ok ((), rest) := run_symbol_self
  rw [Rules.arguments]
  simp only [run_bind, hdoc, hopen, Bool.false_eq_true, if_false]
  rw [Inside.around]
  simp only [List.append_assoc, List.singleton_append, run_bind, hall, hdistinct, hboth,
    Bool.false_eq_true, if_false, hcommas, hnulls, horders, hlimits,
    hafter "HAVING" _ (by decide), hafter "SEPARATOR" _ (by decide), hoverflow, hdocs, hend,
    run_pure]

theorem run_arguments_around {i : Inside} {tss : List (List Token)} {as : List Surface}
    (hargs : List.Forall₂ (ReadsAs r.expression place) tss as) (hopens : ∀ ts ∈ tss, Opens ts)
    (hempty : tss = [] → i = .none) (hi : ∀ e ∈ i.expressions, r.Takes place e)
    (hflat : Flat (i.around tss ++ rest)) :
    r.arguments place (i.around tss ++ rest) = .ok ((as, false), rest) := by
  by_cases hne : tss = []
  · obtain rfl := hne
    obtain rfl := hempty rfl
    obtain rfl := List.forall₂_nil_left_iff.mp hargs
    exact run_arguments_nil rest
  · exact run_arguments hargs hopens hne hi hflat

/-! ### After the arguments -/

/-- What comes next where an expression ends. -/
def ends : List (Option Lexeme) := none :: stops.map some

theorem Stops.next?_mem (h : Stops ts) : next? ts ∈ ends := by
  cases hnext : next? ts with
  | none => exact .head _
  | some x => exact .tail _ (List.mem_map_of_mem (h.next x hnext))

theorem nextKeyword_mem {xs : List (Option Lexeme)} (h : next? ts ∈ xs) :
    nextKeyword ts ∈ xs.map fun x => (x.map Lexeme.keyword).getD "" := by
  have hk : nextKeyword ts = ((next? ts).map Lexeme.keyword).getD "" := by cases ts <;> rfl
  rw [hk]
  exact List.mem_map_of_mem h

theorem next?_windowTokens (w : Option Window) (hrest : Stops rest) :
    next? (windowTokens w ++ rest) ∈ some (wordOf "OVER") :: ends := by
  rcases w with _ | _ | _
  · exact .tail _ hrest.next?_mem
  · exact .head _
  · exact .head _

theorem next?_nullTokens (t : Option NullTreatment) (w : Option Window) (hrest : Stops rest) :
    next? (nullTokens t ++ (windowTokens w ++ rest)) ∈
      some (wordOf "RESPECT") :: some (wordOf "IGNORE") :: some (wordOf "OVER") :: ends := by
  rcases t with _ | _ | _
  · exact .tail _ (.tail _ (next?_windowTokens w hrest))
  · exact .head _
  · exact .tail _ (.head _)

theorem next?_filterTokens (f : Option Expression) (t : Option NullTreatment) (w : Option Window)
    (hrest : Stops rest) :
    next? (filterTokens f ++ (nullTokens t ++ (windowTokens w ++ rest))) ∈
      some (wordOf "FILTER") :: some (wordOf "RESPECT") :: some (wordOf "IGNORE") ::
        some (wordOf "OVER") :: ends := by
  cases f with
  | none => exact .tail _ (next?_nullTokens t w hrest)
  | some e => exact .head _

theorem run_parens {α : Type} {p : Parser α} {a : α} {spaced : Bool}
    (h : p place (ts ++ mark ")" :: rest) = .ok (a, mark ")" :: rest)) :
    parens p place (⟨.symbol "(", spaced⟩ :: (ts ++ mark ")" :: rest)) = .ok (a, rest) := by
  have hclose : symbol ")" place (mark ")" :: rest) = .ok ((), rest) := run_symbol_self
  rw [parens]
  simp only [run_bind, run_symbol_self, h, hclose, run_pure]

theorem next?_close_ne : next? (mark ")" :: rest) ≠ some (.symbol ",") := by
  show some (Lexeme.symbol ")") ≠ some (.symbol ",")
  decide

theorem run_group {group : List OrderBy} (h : ∀ e ∈ group.map (·.expression), r.Takes place e)
    (hrest : Flat rest) (hnext : nextKeyword rest ≠ "WITHIN") :
    after (keywords? ["WITHIN", "GROUP"]) (parens do
      keywords ["ORDER", "BY"]
      r.orderings) place (groupTokens group ++ rest) = .ok ((), rest) := by
  cases group with
  | nil => exact run_after_of_not (run_keywords?_of_ne hnext)
  | cons o group =>
    have horder := readsAs_orderings (forall_readsAs_ordering h) (List.cons_ne_nil _ _)
      (stops_close hrest) next?_close_ne
    have hwords : ∀ ts, keywords ["ORDER", "BY"] place
        (⟨wordOf "ORDER", false⟩ :: word "BY" :: ts) = .ok ((), ts) := fun _ => rfl
    rw [groupTokens, List.isEmpty_cons, if_neg Bool.false_ne_true]
    simp only [List.cons_append, List.append_assoc, List.nil_append]
    refine run_after_of_ok rfl (run_parens ?_)
    rw [orderTokens, List.isEmpty_cons, if_neg Bool.false_ne_true]
    simp only [List.cons_append, run_bind, hwords, horder]

set_option maxRecDepth 20000 in
theorem isKeyword_of_mem_windowWords (h : k ∈ ["ORDER", "PARTITION"]) : isKeyword k := by
  simp only [List.mem_cons, List.not_mem_nil, or_false] at h
  rcases h with rfl | rfl <;> simp [isKeyword, keywordTable]

theorem exists_forall₂_readsAs {es : List Expression} (h : ∀ e ∈ es, r.Takes place e)
    (spaced : Bool) : ∃ xs, List.Forall₂ (ReadsAs r.expression place)
      (es.map (Expression.tokens spaced)) xs := by
  induction es with
  | nil => exact ⟨[], .nil⟩
  | cons e es ih =>
    obtain ⟨⟨x, hx⟩, hes⟩ := List.forall_mem_cons.mp h
    obtain ⟨xs, hxs⟩ := ih hes
    exact ⟨x :: xs, .cons (hx spaced).2 hxs⟩

theorem run_partition {es : List Expression} (h : ∀ e ∈ es, r.Takes place e) (hrest : Stops rest)
    (hcomma : next? rest ≠ some (.symbol ",")) :
    after (keywords? ["PARTITION", "BY"]) r.forms place (partitionTokens es ++ rest) =
      .ok ((), rest) := by
  cases es with
  | nil =>
    exact run_after_of_not (run_keywords?_of_ne (hrest.nextKeyword_ne (by decide)))
  | cons e es =>
    obtain ⟨xs, hxs⟩ := exists_forall₂_readsAs h true
    have hforms : r.forms place (listed ((e :: es).map (Expression.tokens true)) ++ rest) =
        .ok ((), rest) := by
      rw [Rules.forms, run_discard, run_commas hxs (by simp) hrest hcomma]
    exact run_after_of_ok rfl hforms

theorem run_window_of_isKeyword (h : ∀ x ∈ next? ts, x.isWord → isKeyword x.keyword) :
    r.window place ts = (do
      after (keywords? ["PARTITION", "BY"]) r.forms
      r.orderings?
      unless ← symbol? ")" do
        r.frame
        symbol ")") place ts := by
  rw [Rules.window]
  simp only [run_bind (ahead 0), run_ahead]
  cases ts with
  | nil => rfl
  | cons t ts =>
    obtain ⟨x, spaced⟩ := t
    cases x with
    | word s q k =>
      have hk : isKeyword (Lexeme.word s q k).keyword := h _ rfl rfl
      rw [Lexeme.keyword] at hk
      simp only [List.getElem?_cons_zero, Option.map_some, hk, if_true]
    | number | quoted | literal | placeholder | symbol => rfl

theorem isKeyword_windowTokens (partition : List Expression) (order : List OrderBy) :
    ∀ x ∈ next? (partitionTokens partition ++ (orderTokens true order ++ mark ")" :: rest)),
      x.isWord → isKeyword x.keyword := by
  intro x hx hword
  cases partition with
  | cons e es =>
    obtain rfl := Option.some.inj hx
    exact isKeyword_of_mem_windowWords (by decide : (wordOf "PARTITION").keyword ∈ _)
  | nil =>
    cases order with
    | cons o os =>
      obtain rfl := Option.some.inj hx
      exact isKeyword_of_mem_windowWords (by decide : (wordOf "ORDER").keyword ∈ _)
    | nil =>
      obtain rfl := Option.some.inj hx
      cases hword

theorem run_window {partition : List Expression} {order : List OrderBy}
    (hpartition : ∀ e ∈ partition, r.Takes place e)
    (horder : ∀ e ∈ order.map (·.expression), r.Takes place e)
    (hflat : Flat (orderTokens true order ++ mark ")" :: rest)) :
    r.window place (partitionTokens partition ++ (orderTokens true order ++ mark ")" :: rest)) =
      .ok ((), rest) := by
  have hclose := stops_close (flat_cons.mp (flat_append.mp hflat).2).2
  have hinside : orderTokens true order ++ mark ")" :: rest =
      (⟨none, order, none⟩ : Inside).tokens ++ mark ")" :: rest := by
    rw [Inside.tokens, limitTokens, List.append_nil]
  have hnext := next?_insideTokens ⟨none, order, none⟩ rest
  rw [← hinside] at hnext
  have hpart := run_partition hpartition (hinside ▸ stops_insideTokens (hinside ▸ hflat))
    (ne_of_mem_of_not_mem hnext (by decide))
  have hord := run_orderings? (forall_readsAs_ordering horder) hclose
    (show "" ≠ "ORDER" by decide) next?_close_ne true
  have hend : symbol? ")" place (mark ")" :: rest) = .ok (true, rest) := run_symbol?_self
  rw [run_window_of_isKeyword (isKeyword_windowTokens partition order)]
  simp only [run_bind, hpart, hord, hend, if_true, run_pure]

theorem run_over {w : Option Window} {e : Surface}
    (hw : ∀ e ∈ w.toList.flatMap Clauses.windowExpressions, r.Takes place e)
    (hflat : Flat (windowTokens w ++ rest)) (hnext : nextKeyword rest ≠ "OVER") :
    (do
      if ← keyword? "OVER" then
        if ← symbol? "(" then r.window else discard name
      return e : Parser Surface) place (windowTokens w ++ rest) = .ok (e, rest) := by
  rcases w with _ | s | ⟨partition, order⟩
  · rw [windowTokens, List.nil_append]
    simp only [run_bind, run_keyword?_of_ne hnext, Bool.false_eq_true, if_false, run_pure]
  · rfl
  · simp only [Option.toList_some, List.flatMap_singleton, Clauses.windowExpressions,
      List.forall_mem_append] at hw
    simp only [windowTokens, List.cons_append, List.append_assoc, List.nil_append] at hflat ⊢
    have hwindow := run_window hw.1 hw.2
      (flat_append.mp (flat_cons.mp (flat_cons.mp hflat).2).2).2
    have hword : capitalsOf "OVER" = "OVER" := by decide
    simp only [run_bind, word, run_keyword?_self hword, run_symbol?_self, if_true, hwindow,
      run_pure]

theorem run_nullTreatment (t : Option NullTreatment)
    (h : nextKeyword rest ∉ ["RESPECT", "IGNORE"]) :
    discard Rules.nullTreatment place (nullTokens t ++ rest) = .ok ((), rest) := by
  rcases t with _ | _ | _
  · rw [nullTokens, List.nil_append, run_discard, run_nullTreatment_of_not_mem place h]
  · rfl
  · rfl

theorem run_filter {f : Option Expression} {p : Parser Surface} (hf : ∀ e ∈ f, r.Takes place e)
    (hflat : Flat rest) (hnext : nextKeyword rest ≠ "FILTER") :
    (do
      if ← keyword? "FILTER" then
        if ← symbol? "(" then
          if ← keyword? "WHERE" then
            r.form
            symbol ")"
      p) place (filterTokens f ++ rest) = p place rest := by
  cases f with
  | none =>
    rw [filterTokens, List.nil_append]
    simp only [run_bind, run_keyword?_of_ne hnext, Bool.false_eq_true, if_false]
  | some e =>
    obtain ⟨x, hx⟩ := hf e rfl
    have hform := (hx true).2.form.run _ (stops_close hflat)
    have hfilter : capitalsOf "FILTER" = "FILTER" := by decide
    have hwhere : capitalsOf "WHERE" = "WHERE" := by decide
    have hclose : symbol ")" place (mark ")" :: rest) = .ok ((), rest) := run_symbol_self
    simp only [filterTokens, word, List.cons_append, List.append_assoc, List.nil_append, run_bind,
      run_keyword?_self hfilter, run_symbol?_self, run_keyword?_self hwhere, if_true, hform, hclose]

/-! ### Calls -/

/-- What the clauses after the arguments say is passed over. -/
theorem run_clauses {c : Clauses} {e : Surface} (hc : ∀ e ∈ c.expressions, r.Takes place e)
    (hflat : Flat c.tokens) (hrest : Stops rest) :
    (do
      after (keywords? ["WITHIN", "GROUP"]) <| parens do
        keywords ["ORDER", "BY"]
        r.orderings
      if ← keyword? "FILTER" then
        if ← symbol? "(" then
          if ← keyword? "WHERE" then
            r.form
            symbol ")"
      discard Rules.nullTreatment
      if ← keyword? "OVER" then
        if ← symbol? "(" then r.window else discard name
      return e : Parser Surface) place (c.tokens ++ rest) = .ok (e, rest) := by
  simp only [Clauses.expressions, List.forall_mem_append, Option.mem_toList] at hc
  obtain ⟨-, -, hgroup, hfilter, hwindow⟩ := hc
  simp only [Clauses.tokens, flat_append] at hflat
  obtain ⟨-, hfilterFlat, hnullFlat, hwindowFlat⟩ := hflat
  have hwindowRest := flat_append.mpr ⟨hwindowFlat, hrest.flat⟩
  have hnullRest := flat_append.mpr ⟨hnullFlat, hwindowRest⟩
  have hnoWindow : nextKeyword rest ≠ "OVER" :=
    ne_of_mem_of_not_mem (nextKeyword_mem hrest.next?_mem) (by decide)
  have hnoNull : nextKeyword (windowTokens c.window ++ rest) ∉ ["RESPECT", "IGNORE"] := by
    have hall : ∀ k ∈ (some (wordOf "OVER") :: ends).map fun x => (x.map Lexeme.keyword).getD "",
        k ∉ ["RESPECT", "IGNORE"] := by decide
    exact hall _ (nextKeyword_mem (next?_windowTokens c.window hrest))
  have hnoFilter : nextKeyword (nullTokens c.nulls ++ (windowTokens c.window ++ rest)) ≠ "FILTER" :=
    ne_of_mem_of_not_mem (nextKeyword_mem (next?_nullTokens c.nulls c.window hrest)) (by decide)
  have hnoGroup : nextKeyword (filterTokens c.filter ++
      (nullTokens c.nulls ++ (windowTokens c.window ++ rest))) ≠ "WITHIN" :=
    ne_of_mem_of_not_mem (nextKeyword_mem (next?_filterTokens c.filter c.nulls c.window hrest))
      (by decide)
  have hgroups := run_group hgroup (flat_append.mpr ⟨hfilterFlat, hnullRest⟩) hnoGroup
  simp only [Clauses.tokens, List.append_assoc]
  rw [run_bind_of_ok hgroups]
  refine (run_filter hfilter hnullRest hnoFilter).trans ?_
  rw [run_bind_of_ok (run_nullTreatment c.nulls hnoNull)]
  exact run_over hwindow hwindowRest hnoWindow

theorem next?_clauses_ne (c : Clauses) (hrest : Stops rest) :
    (next? (c.tokens ++ rest) == some (.symbol "(")) = false := by
  rw [Clauses.tokens, groupTokens, List.append_assoc, List.append_assoc, List.append_assoc]
  split
  · have hall : ∀ x? ∈ some (wordOf "FILTER") :: some (wordOf "RESPECT") ::
        some (wordOf "IGNORE") :: some (wordOf "OVER") :: ends,
        (x? == some (.symbol "(")) = false := by decide
    exact hall _ (next?_filterTokens c.filter c.nulls c.window hrest)
  · rfl

theorem run_parameters {es : List Expression} (h : ∀ e ∈ es, r.Takes place e)
    (hflat : Flat (Inside.none.around (Expression.tokensOfAll es) ++ rest)) :
    ∃ xs, r.arguments place (Inside.none.around (Expression.tokensOfAll es) ++ rest) =
      .ok ((xs, false), rest) := by
  rw [Expression.tokensOfAll_eq] at hflat ⊢
  obtain ⟨xs, hxs⟩ := exists_forall₂_readsAs h false
  have hopens : ∀ ts ∈ es.map (Expression.tokens false), Opens ts := by
    intro ts hts
    obtain ⟨e, he, rfl⟩ := List.mem_map.mp hts
    obtain ⟨x, hx⟩ := h e he
    exact (hx false).1
  exact ⟨xs, run_arguments_around hxs hopens (fun _ => rfl) (fun e he => absurd he List.not_mem_nil)
    hflat⟩

theorem run_call {c : Clauses} {tss : List (List Token)} {as : List Surface} (n : Name)
    (hargs : List.Forall₂ (ReadsAs r.expression place) tss as) (hopens : ∀ ts ∈ tss, Opens ts)
    (hempty : tss = [] → c.inside = .none) (hc : ∀ e ∈ c.expressions, r.Takes place e)
    (hflat : Flat (c.around tss)) (hrest : Stops rest) :
    r.call [n] place (c.around tss ++ rest) = .ok (.call [n] as, rest) := by
  have hnoMore : symbol? "(" place (c.tokens ++ rest) = .ok (false, c.tokens ++ rest) := by
    rw [run_symbol?, next?_clauses_ne c hrest, if_neg Bool.false_ne_true]
  simp only [Clauses.around, flat_append, flat_cons] at hflat
  obtain ⟨hflatParameters, -, hflatInside, hflatTokens⟩ := hflat
  have hflatRest : Flat (c.tokens ++ rest) := flat_append.mpr ⟨hflatTokens, hrest.flat⟩
  have hinside : ∀ e ∈ c.inside.expressions, r.Takes place e :=
    fun e he => hc e (List.mem_append_right _ (List.mem_append_left _ he))
  have harguments := run_arguments_around hargs hopens hempty hinside
    (flat_append.mpr ⟨hflatInside, hflatRest⟩)
  have hclauses := run_clauses (e := .call [n] as) hc hflatTokens hrest
  rw [Clauses.around]
  cases hps : c.parameters with
  | none =>
    simp only [Clauses.parameterTokens, List.nil_append, List.cons_append, List.append_assoc]
    rw [Rules.call]
    refine (run_bind_of_ok run_symbol_self).trans ((run_bind_of_ok harguments).trans ?_)
    exact (run_bind_of_ok hnoMore).trans hclauses
  | some es =>
    have hes : ∀ e ∈ es, r.Takes place e :=
      fun e he => hc e (List.mem_append_left _ (by simpa [hps]))
    rw [hps] at hflatParameters
    have hflatCall : Flat (mark "(" :: (c.inside.around tss ++ (c.tokens ++ rest))) :=
      flat_mark (by decide) (flat_append.mpr ⟨hflatInside, hflatRest⟩)
    obtain ⟨xs, hparameters⟩ :=
      run_parameters hes (flat_append.mpr ⟨(flat_cons.mp hflatParameters).2, hflatCall⟩)
    simp only [Clauses.parameterTokens, List.cons_append, List.append_assoc]
    rw [Rules.call]
    refine (run_bind_of_ok run_symbol_self).trans ((run_bind_of_ok hparameters).trans ?_)
    refine (run_bind_of_ok run_symbol?_self).trans ((run_bind_of_ok harguments).trans ?_)
    exact hclauses

theorem next?_around (c : Clauses) (tss : List (List Token)) :
    next? (c.around tss) = some (.symbol "(") := by
  rw [Clauses.around]
  cases c.parameters <;> rfl

theorem readsAs_call {c : Clauses} {tss : List (List Token)} {as : List Surface} {s : String}
    {spaced : Bool} (hs : capitalsOf s ∉ reservedWords) (hword : isWordText s)
    (hargs : List.Forall₂ (ReadsAs r.expression place) tss as) (hopens : ∀ ts ∈ tss, Opens ts)
    (hempty : tss = [] → c.inside = .none) (hc : ∀ e ∈ c.expressions, r.Takes place e)
    (hflat : Flat (c.around tss)) :
    ReadsAs (r.expressionAbove 0) place (⟨wordOf s, spaced⟩ :: c.around tss)
      (.call [⟨s, none⟩] as) where
  flat := flat_word hword hflat
  run rest hrest := by
    have hplain : r.plainWord ⟨s, none⟩ place (c.around tss ++ rest) =
        .ok (.call [⟨s, none⟩] as, rest) := by
      rw [← run_call ⟨s, none⟩ hargs hopens hempty hc hflat hrest, Rules.plainWord]
      have hnext := next?_around c tss
      cases hcall : c.around tss with
      | nil => rw [hcall] at hnext; cases hnext
      | cons t ts =>
        rw [hcall] at hnext
        obtain ⟨x, spaced⟩ := t
        obtain rfl : x = .symbol "(" := Option.some.inj hnext
        rfl
    exact run_expressionAbove (run_operand_word hs (flat_append.mpr ⟨hflat, hrest.flat⟩) hplain
      (hrest.nextKeyword_ne (by decide))) hrest

end SelectMerge.Expr
