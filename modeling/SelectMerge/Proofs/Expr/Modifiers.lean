import SelectMerge.Proofs.Expr.ReadingBack
import SelectMerge.Proofs.Query.EvaluationOrder

/-!
# Calls that lose their clauses

A call may say which of equal values count, in which order it takes them and how many, which rows it
takes, how nulls count and over which window it runs. None of this is in the expression that is
read: it is the same as for the call without these clauses, at any depth (`ofText_eq_ofText_bare`),
and one column holds the values of both (`read_alike_of_bare_eq`).

`Annotated` has expressions with clauses, `bare` drops them, and `isReadable` asks that names are
words that are not reserved. By mutual induction the tokens of an annotated expression can be
spelled and are read as the bare one (`readsAs_tokens`); the text then follows by `lex_spell`.
-/

namespace SelectMerge

namespace Expr

open Expression

variable {order : List OrderBy}

/-! ## Spelling clauses -/

/-- Whether the names in clauses are words that are not reserved; a window may have any word for its
name. -/
def Clauses.areReadable (c : Clauses) : Bool :=
  c.expressions.all (everyName isUnreserved) &&
    match c.window with
    | some (.named name) => isWordText name
    | _ => true

theorem follows_tokens {e : Expression} (h : e.everyName isUnreserved) : Follows (e.tokens true) :=
  ⟨spelled_of_unreserved h true, fun t ht => .inl (head?_tokens e t ht)⟩

theorem follows_keyTokens {o : OrderBy} (h : o.expression.everyName isUnreserved) :
    Follows (keyTokens o) := by
  have hword : isWordText (directionWord o.ascending) := by cases o.ascending <;> decide
  exact (follows_tokens h).append (.word hword .nil)

theorem follows_listed_of_follows {tss : List (List Token)} (h : ∀ ts ∈ tss, Follows ts) :
    Follows (listed tss) :=
  .listed (fun ts hts => (h ts hts).spelled) fun ts hts => (h ts (List.mem_of_mem_head? hts)).setOff

theorem follows_orderWords (h : ∀ e ∈ order.map (·.expression), e.everyName isUnreserved) :
    Follows (word "BY" :: listed (order.map keyTokens)) := by
  refine .word (by decide) (follows_listed_of_follows ?_)
  rw [List.forall_mem_map] at h ⊢
  exact fun o ho => follows_keyTokens (h o ho)

theorem spelled_orderTokens (h : ∀ e ∈ order.map (·.expression), e.everyName isUnreserved)
    (spaced : Bool) : Spelled (orderTokens spaced order) := by
  rw [orderTokens]
  split
  · trivial
  · exact spelled_word (by decide) (follows_orderWords h).spelled (follows_orderWords h).setOff

theorem follows_orderTokens (h : ∀ e ∈ order.map (·.expression), e.everyName isUnreserved) :
    Follows (orderTokens true order) := by
  refine ⟨spelled_orderTokens h true, ?_⟩
  rw [orderTokens]
  split
  · exact Follows.nil.setOff
  · exact setOff_spaced

theorem follows_limitTokens {limit : Option Expression}
    (h : ∀ e ∈ limit, e.everyName isUnreserved) : Follows (limitTokens limit) := by
  cases limit with
  | none => exact .nil
  | some e => exact .word (by decide) (follows_tokens (h e rfl))

theorem follows_close : Follows [mark ")"] := .mark (by decide) trivial

theorem spelled_around {i : Inside} {tss : List (List Token)}
    (hi : ∀ e ∈ i.expressions, e.everyName isUnreserved) (h : ∀ ts ∈ tss, Spelled ts)
    (hoff : i.quantifier.isSome → ∀ ts ∈ tss.head?, SetOff ts) : Spelled (i.around tss) := by
  rw [Inside.expressions, List.forall_mem_append] at hi
  have hlimit : ∀ e ∈ i.limit, e.everyName isUnreserved :=
    fun e he => hi.2 e (Option.mem_toList.mpr he)
  have hclauses : Follows (i.tokens ++ [mark ")"]) :=
    ((follows_orderTokens hi.1).append (follows_limitTokens hlimit)).append follows_close
  rw [Inside.around]
  cases hq : i.quantifier with
  | none => exact (spelled_listed h).append hclauses.spelled hclauses.setOff
  | some q =>
    rw [hq] at hoff
    have hargs := (Follows.listed h (hoff rfl)).append hclauses
    exact spelled_word (by cases q <;> decide) hargs.spelled hargs.setOff

theorem follows_groupTokens (h : ∀ e ∈ order.map (·.expression), e.everyName isUnreserved) :
    Follows (groupTokens order) := by
  rw [groupTokens]
  split
  · exact .nil
  · have horder := (spelled_orderTokens h false).append follows_close.spelled follows_close.setOff
    exact .word (by decide) (.word (by decide) (.mark (by decide) horder))

theorem follows_filterTokens {f : Option Expression} (h : ∀ e ∈ f, e.everyName isUnreserved) :
    Follows (filterTokens f) := by
  cases f with
  | none => exact .nil
  | some e =>
    have he := (follows_tokens (h e rfl)).append follows_close
    exact .word (by decide) (.mark (by decide) (spelled_word (by decide) he.spelled he.setOff))

theorem follows_nullTokens (t : Option NullTreatment) : Follows (nullTokens t) := by
  cases t with
  | none => exact .nil
  | some t => exact .word (by cases t <;> decide) (.word (by decide) .nil)

theorem spelled_partitionTokens {es : List Expression}
    (h : ∀ e ∈ es, e.everyName isUnreserved) : Spelled (partitionTokens es) := by
  rw [partitionTokens]
  split
  · trivial
  · have hes : Follows (word "BY" :: listed (es.map (tokens true))) := by
      refine .word (by decide) (follows_listed_of_follows ?_)
      rw [List.forall_mem_map]
      exact fun e he => follows_tokens (h e he)
    exact spelled_word (by decide) hes.spelled hes.setOff

theorem follows_windowTokens {w : Option Window}
    (h : ∀ e ∈ w.toList.flatMap Clauses.windowExpressions, e.everyName isUnreserved)
    (hname : ∀ name, w = some (.named name) → isWordText name) : Follows (windowTokens w) := by
  rcases w with _ | name | ⟨partition, order⟩
  · exact .nil
  · exact .word (by decide) (.word (hname name rfl) .nil)
  · simp only [Option.toList_some, List.flatMap_singleton, Clauses.windowExpressions,
      List.forall_mem_append] at h
    have horder := (follows_orderTokens h.2).append follows_close
    have hpartition := (spelled_partitionTokens h.1).append horder.spelled horder.setOff
    exact .word (by decide) (.mark (by decide) hpartition)

theorem follows_clauses {c : Clauses} (h : c.areReadable) {tss : List (List Token)}
    (htss : ∀ ts ∈ tss, Spelled ts)
    (hoff : c.inside.quantifier.isSome → ∀ ts ∈ tss.head?, SetOff ts) : Follows (c.around tss) := by
  rw [Clauses.areReadable, Bool.and_eq_true, List.all_eq_true, Clauses.expressions] at h
  obtain ⟨hall, hname⟩ := h
  simp only [List.forall_mem_append, Option.mem_toList] at hall
  obtain ⟨hparameters, hinside, hgroup, hfilter, hwindow⟩ := hall
  have hafter : Follows c.tokens :=
    (follows_groupTokens hgroup).append ((follows_filterTokens hfilter).append
      ((follows_nullTokens c.nulls).append (follows_windowTokens hwindow fun name hw => by
        simpa only [hw] using hname)))
  have hcall : Follows (mark "(" :: (c.inside.around tss ++ c.tokens)) :=
    .mark (by decide) ((spelled_around hinside htss hoff).append hafter.spelled hafter.setOff)
  rw [Clauses.around]
  cases hps : c.parameters with
  | none => exact hcall
  | some es =>
    have hes : ∀ ts ∈ tokensOfAll es, Spelled ts := by
      rw [tokensOfAll_eq, List.forall_mem_map]
      exact fun e he => spelled_of_unreserved (hparameters e (by simpa [hps])) false
    have hparameterTokens : Spelled (Inside.none.around (tokensOfAll es)) :=
      spelled_around (fun e he => absurd he List.not_mem_nil) hes fun hq => Bool.noConfusion hq
    exact (Follows.mark (by decide) hparameterTokens).append hcall

end Expr

open SelectMerge.Expr

/-! ## Calls with clauses -/

/-- An expression whose calls may have clauses. -/
inductive Annotated where
  | plain (e : Expression)
  | call (name : String) (clauses : Clauses) (args : List Annotated)

namespace Annotated

variable {place : Place}

mutual

/-- The expression without the clauses. -/
def bare : Annotated → Expression
  | plain e => e
  | call name _ args => .call name (bareAll args)

def bareAll : List Annotated → List Expression
  | [] => []
  | d :: ds => d.bare :: bareAll ds

end

mutual

/-- The tokens, with or without a blank before the first. -/
def tokens (spaced : Bool) : Annotated → List Token
  | plain e => e.tokens spaced
  | call name c args =>
    ⟨wordOf name, spaced⟩ :: c.around (tokensOfAll c.inside.quantifier.isSome args)

/-- The tokens of arguments; only the first may have a blank before it. -/
def tokensOfAll (spaced : Bool) : List Annotated → List (List Token)
  | [] => []
  | d :: ds => d.tokens spaced :: tokensOfAll false ds

end

/-- The text, with a blank where the tokens have one. -/
def text (d : Annotated) : String := String.ofList (spell (d.tokens false))

mutual

/-- How deep calls nest, the expressions in clauses among them. -/
def depth : Annotated → Nat
  | plain e => e.depth
  | call _ c args => max (depthOfAll args) (Expression.depthOfAll c.expressions) + 1

def depthOfAll : List Annotated → Nat
  | [] => 0
  | d :: ds => max d.depth (depthOfAll ds)

end

mutual

/-- Whether all names are words that are not reserved, those of calls in small letters; clauses
inside the parentheses need an argument. -/
def isReadable : Annotated → Bool
  | plain e => e.everyName isUnreserved
  | call name c args => isUnreserved name && Expression.lower name == name && c.areReadable &&
      (!args.isEmpty || c.inside.isNone) && areReadable args

def areReadable : List Annotated → Bool
  | [] => true
  | d :: ds => d.isReadable && areReadable ds

end

/-! ### The expression that is left -/

mutual

theorem everyName_bare (d : Annotated) (h : d.isReadable) : d.bare.everyName isUnreserved := by
  cases d with
  | plain e => exact h
  | call name c args =>
    simp only [isReadable, Bool.and_eq_true] at h
    obtain ⟨⟨⟨⟨hname, hlower⟩, -⟩, -⟩, hargs⟩ := h
    rw [bare, Expression.everyName, hname, hlower, everyNameOfAll_bareAll args hargs]
    rfl

theorem everyNameOfAll_bareAll (ds : List Annotated) (h : areReadable ds) :
    Expression.everyNameOfAll isUnreserved (bareAll ds) := by
  cases ds with
  | nil => rfl
  | cons d ds =>
    rw [areReadable, Bool.and_eq_true] at h
    rw [bareAll, Expression.everyNameOfAll, everyName_bare d h.1, everyNameOfAll_bareAll ds h.2]
    rfl

end

mutual

theorem depth_bare_le (d : Annotated) : d.bare.depth ≤ d.depth := by
  cases d with
  | plain e => exact Nat.le_refl _
  | call name c args =>
    have hargs := depthOfAll_bareAll_le args
    rw [bare, Expression.depth, depth]
    omega

theorem depthOfAll_bareAll_le (ds : List Annotated) :
    Expression.depthOfAll (bareAll ds) ≤ depthOfAll ds := by
  cases ds with
  | nil => exact Nat.le_refl _
  | cons d ds =>
    have hd := depth_bare_le d
    have hds := depthOfAll_bareAll_le ds
    rw [bareAll, Expression.depthOfAll, depthOfAll]
    omega

end

/-! ### Reading -/

theorem head?_tokens (d : Annotated) (spaced : Bool) :
    ∀ t ∈ (d.tokens spaced).head?, t.spaced = spaced := by
  cases d with
  | plain e => exact Expression.head?_tokens e
  | call name c args =>
    rintro t ⟨⟩
    rfl

theorem setOff_head_tokensOfAll (ds : List Annotated) :
    ∀ ts ∈ (tokensOfAll true ds).head?, SetOff ts := by
  cases ds with
  | nil => simp [tokensOfAll]
  | cons d ds =>
    rintro ts ⟨⟩
    exact fun t ht => .inl (head?_tokens d true t ht)

theorem opens_tokens {d : Annotated} (h : d.isReadable) (spaced : Bool) :
    Opens (d.tokens spaced) := by
  cases d with
  | plain e => exact Expression.opens_tokens h
  | call name c args =>
    simp only [isReadable, Bool.and_eq_true] at h
    refine .word (isUnreserved_iff.mp h.1.1.1.1).2 ?_
    rw [next?_around]
    rintro x ⟨⟩
    rfl

theorem forall_opens_tokensOfAll {ds : List Annotated} (h : areReadable ds) (spaced : Bool) :
    ∀ ts ∈ tokensOfAll spaced ds, Opens ts := by
  induction ds generalizing spaced with
  | nil => simp [tokensOfAll]
  | cons d ds ih =>
    rw [areReadable, Bool.and_eq_true] at h
    exact List.forall_mem_cons.mpr ⟨opens_tokens h.1 spaced, ih h.2 false⟩

mutual

theorem spelled_tokens (d : Annotated) (h : d.isReadable) (spaced : Bool) :
    Spelled (d.tokens spaced) := by
  cases d with
  | plain e => exact Expression.spelled_of_unreserved h spaced
  | call name c args =>
    simp only [isReadable, Bool.and_eq_true] at h
    obtain ⟨⟨⟨⟨hname, -⟩, hclauses⟩, -⟩, hargs⟩ := h
    have hcall : Follows (c.around (tokensOfAll c.inside.quantifier.isSome args)) := by
      refine follows_clauses hclauses (spelled_tokensOfAll args hargs _) fun hq => ?_
      rw [hq]
      exact setOff_head_tokensOfAll args
    exact spelled_word (isUnreserved_iff.mp hname).1 hcall.spelled hcall.setOff

theorem spelled_tokensOfAll (ds : List Annotated) (h : areReadable ds) (spaced : Bool) :
    ∀ ts ∈ tokensOfAll spaced ds, Spelled ts := by
  cases ds with
  | nil => simp [tokensOfAll]
  | cons d ds =>
    rw [areReadable, Bool.and_eq_true] at h
    exact List.forall_mem_cons.mpr
      ⟨spelled_tokens d h.1 spaced, spelled_tokensOfAll ds h.2 false⟩

end

mutual

/-- The tokens of an expression with clauses are read as the expression without them. -/
theorem readsAs_tokens {n : Nat} (d : Annotated) (h : d.isReadable) (hdepth : d.depth ≤ n)
    (spaced : Bool) :
    ReadsAs (Rules.within n).expression place (d.tokens spaced) d.bare.surface := by
  cases d with
  | plain e => exact Expression.readsAs_tokens e h hdepth spaced
  | call name c args =>
    have hflat : Flat ((call name c args).tokens spaced) := (spelled_tokens _ h spaced).simple
    simp only [isReadable, Bool.and_eq_true] at h
    obtain ⟨⟨⟨⟨hname, -⟩, hclauses⟩, hempty⟩, hargs⟩ := h
    obtain ⟨hword, hreserved⟩ := isUnreserved_iff.mp hname
    rw [depth] at hdepth
    obtain ⟨m, rfl⟩ : ∃ m, n = m + 1 := Nat.exists_eq_add_one_of_ne_zero (by omega)
    have hreads := readsAs_tokensOfAll args hargs (show depthOfAll args ≤ m by omega)
      c.inside.quantifier.isSome
    have htakes : ∀ e ∈ c.expressions, (Rules.within m).Takes place e := by
      intro e he
      have hnames : e.everyName isUnreserved :=
        List.all_eq_true.mp (Bool.and_eq_true_iff.mp hclauses).1 e he
      have hle := Expression.depth_le_depthOfAll he
      exact ⟨e.surface, fun spaced => ⟨Expression.opens_tokens hnames,
        Expression.readsAs_tokens e hnames (by omega) spaced⟩⟩
    have hnone : tokensOfAll c.inside.quantifier.isSome args = [] → c.inside = .none := by
      cases args with
      | nil => exact fun _ => Inside.eq_none_of_isNone (by simpa using hempty)
      | cons d ds => exact fun hnil => absurd hnil (List.cons_ne_nil _ _)
    exact readsAs_call hreserved hword hreads (forall_opens_tokensOfAll hargs _) hnone htakes
      (flat_cons.mp hflat).2

theorem readsAs_tokensOfAll {n : Nat} (ds : List Annotated) (h : areReadable ds)
    (hdepth : depthOfAll ds ≤ n) (spaced : Bool) :
    List.Forall₂ (ReadsAs (Rules.within n).expression place) (tokensOfAll spaced ds)
      (Expression.surfaceOfAll (bareAll ds)) := by
  cases ds with
  | nil => exact .nil
  | cons d ds =>
    rw [areReadable, Bool.and_eq_true] at h
    rw [depthOfAll, Nat.max_le] at hdepth
    exact .cons (readsAs_tokens d h.1 hdepth.1 spaced) (readsAs_tokensOfAll ds h.2 hdepth.2 false)

end

theorem ofText_eq_bare {d : Annotated} (h : d.isReadable) (hdepth : d.depth ≤ nestingLimit) :
    Expression.ofText d.text = .ok d.bare :=
  Expression.ofText_spell (spelled_tokens d h false) (opens_tokens h false) (head?_tokens d false)
    (readsAs_tokens d h hdepth false) (Expression.expression_surface d.bare (everyName_bare d h))

/-- A text with clauses is read as the canonical text without them. -/
theorem ofText_eq_ofText_bare {d : Annotated} (h : d.isReadable) (hdepth : d.depth ≤ nestingLimit) :
    Expression.ofText d.text = Expression.ofText d.bare.text := by
  have hbare := Expression.ofText_text_of_unreserved (everyName_bare d h)
    ((depth_bare_le d).trans hdepth)
  rw [ofText_eq_bare h hdepth, hbare]

theorem columnNames_select_twice (e : Expression) (physical : List String) :
    (Evaluation.ofQuery (.ofSelect [e, e]) physical).columnNames = [e.text] := by
  rw [Evaluation.columnNames_ofQuery]
  simp [Query.ofSelect, Query.isWildcard, List.eraseDups_cons]

/-- Calls that differ in their clauses only are read as one call, and one column holds the values of
both. -/
theorem read_alike_of_bare_eq {d d' : Annotated} (h : d.isReadable) (h' : d'.isReadable)
    (hdepth : d.depth ≤ nestingLimit) (hdepth' : d'.depth ≤ nestingLimit)
    (hbare : d.bare = d'.bare) :
    Expression.ofText d.text = .ok d.bare ∧ Expression.ofText d'.text = .ok d.bare ∧
      ∃ es, [d.text, d'.text].mapM Expression.ofText = .ok es ∧
        ∀ physical, (Evaluation.ofQuery (.ofSelect es) physical).columnNames = [d.bare.text] := by
  have hd := ofText_eq_bare h hdepth
  have hd' := ofText_eq_bare h' hdepth'
  rw [← hbare] at hd'
  refine ⟨hd, hd', [d.bare, d.bare], ?_, columnNames_select_twice d.bare⟩
  rw [List.mapM_cons, List.mapM_cons, List.mapM_nil, hd, hd']
  rfl

/-- The sum of the amounts that were paid. -/
def paid : Annotated :=
  .call "sum" { Clauses.none with filter := some (.identifier "settled") }
    [.plain (.identifier "amount")]

/-- The sums of the different amounts of each day. -/
def daily : Annotated :=
  .call "sum" { Clauses.none with
    inside := ⟨some .distinct, [], none⟩
    window := some (.over [.identifier "weekday"] []) } [.plain (.identifier "amount")]

theorem read_alike_paid_daily : paid.isReadable ∧ daily.isReadable ∧ paid.bare = daily.bare ∧
    paid.text = "sum(amount) FILTER (WHERE settled)" ∧
    daily.text = "sum(DISTINCT amount) OVER (PARTITION BY weekday)" ∧
    Expression.ofText paid.text = .ok paid.bare ∧ Expression.ofText daily.text = .ok paid.bare ∧
    ∃ es, [paid.text, daily.text].mapM Expression.ofText = .ok es ∧
      ∀ physical, (Evaluation.ofQuery (.ofSelect es) physical).columnNames = [paid.bare.text] := by
  have hpaid : paid.isReadable := by decide
  have hdaily : daily.isReadable := by decide
  exact ⟨hpaid, hdaily, rfl, by decide, by decide,
    read_alike_of_bare_eq hpaid hdaily (by decide) (by decide) rfl⟩

/-- A count of different values. -/
def countDistinct : Annotated :=
  .call "count" { Clauses.none with inside := ⟨some .distinct, [], none⟩ }
    [.plain (.identifier "a")]

theorem count_distinct_read_as_count :
    Expression.ofText "count(DISTINCT a)" = .ok (.call "count" [.identifier "a"]) ∧
      Expression.ofText "count(a)" = .ok (.call "count" [.identifier "a"]) := by
  have hreadable : countDistinct.isReadable := by decide
  have htext : countDistinct.text = "count(DISTINCT a)" := by decide
  have hbareText : countDistinct.bare.text = "count(a)" := by decide
  have hbare := ofText_eq_bare hreadable (by decide)
  rw [← htext, ← hbareText, ← ofText_eq_ofText_bare hreadable (by decide)]
  exact ⟨hbare, hbare⟩

end Annotated

end SelectMerge
