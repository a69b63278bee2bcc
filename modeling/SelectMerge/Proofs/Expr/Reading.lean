import SelectMerge.Expr.Grammar
import SelectMerge.Proofs.Expr.Lexing

/-!
# Reading operands and lists

A word that the grammar reserves for no purpose of its own (`reservedWords` lists the others) is a
name, or names a call before a parenthesis. Inside calls an expression ends before a comma, a
closing parenthesis or a word that starts another clause (`Stops`), and items with commas between
are read one after another up to there (`run_commas`).

`ReadsAs` says that a parser reads just some tokens wherever an expression may end behind them. For
operands this needs that nothing selects from them and no operator follows there
(`run_expressionAbove`), and that the trials made before, of data types and typed literals, give up
without a trace (`typeWithin_word_cases`, `typedLiteral_word`).
-/

namespace SelectMerge.Expr

/-! ## Reserved words -/

set_option maxRecDepth 2000 in
/-- The keywords that start an operand, a data type or the arguments of a call in a way of their
own, in order. -/
def reservedWords : List String :=
  ["ABSENT", "ALL", "ANY", "ARRAY", "BIGDECIMAL", "BIGINT", "BIGNUMERIC", "BINARY", "BIT",
    "BLOB", "BOOL", "BOOLEAN", "BYTEA", "BYTES", "CASE", "CAST", "CEIL", "CHAR", "CHARACTER",
    "CLOB", "CONVERT", "CURRENT_CATALOG", "CURRENT_DATE", "CURRENT_TIME", "CURRENT_TIMESTAMP",
    "CURRENT_USER", "DATE", "DATE32", "DATETIME", "DATETIME64", "DEC", "DECIMAL", "DISTINCT",
    "DOUBLE", "ENUM", "ENUM16", "ENUM8", "EXISTS", "EXTRACT", "FALSE", "FIXEDSTRING", "FLOAT",
    "FLOAT32", "FLOAT4", "FLOAT64", "FLOAT8", "FLOOR", "HUGEINT", "INT", "INT128", "INT16",
    "INT2", "INT256", "INT32", "INT4", "INT64", "INT8", "INTEGER", "INTERVAL", "JSON", "JSONB",
    "LOCALTIME", "LOCALTIMESTAMP", "LONGBLOB", "LONGTEXT", "LOWCARDINALITY", "MAP", "MATCH",
    "MEDIUMBLOB", "MEDIUMINT", "MEDIUMTEXT", "NESTED", "NOT", "NULL", "NULLABLE", "NUMERIC",
    "NVARCHAR", "OVERLAY", "POSITION", "PRIOR", "REAL", "REGCLASS", "RETURNING", "SAFE_CAST",
    "SESSION_USER", "SET", "SIGNED", "SMALLINT", "STRING", "STRUCT", "SUBSTR", "SUBSTRING",
    "TABLE", "TEXT", "TIME", "TIMESTAMP", "TIMESTAMPTZ", "TIMESTAMP_NTZ", "TIMETZ", "TINYBLOB",
    "TINYINT", "TINYTEXT", "TRIGGER", "TRIM", "TRUE", "TRY_CAST", "TRY_CONVERT", "TSQUERY",
    "TSVECTOR", "TUPLE", "UBIGINT", "UHUGEINT", "UINT128", "UINT16", "UINT256", "UINT32",
    "UINT64", "UINT8", "UNION", "UNSIGNED", "USER", "USMALLINT", "UTINYINT", "UUID",
    "VARBINARY", "VARBIT", "VARCHAR"]

set_option maxRecDepth 20000 in
theorem reservedWords_sublist : reservedWords.Sublist keywordTable.toList := by
  simp only [reservedWords, keywordTable]
  -- comparing words is slow, so one pass matches each with its place in the table
  repeat first | apply List.Sublist.cons_cons | apply List.Sublist.cons
  exact .slnil

theorem isKeyword_of_mem_reservedWords {k : String} (h : k ∈ reservedWords) : isKeyword k := by
  rw [isKeyword, Array.contains_iff_mem]
  exact Array.mem_toList_iff.mp (reservedWords_sublist.subset h)

/-! ## Steps of parsers -/

open Expr.Parser

section Steps

variable {α β : Type} {place : Place} {ts us rest : List Token} {k s : String}

@[simp] theorem run_pure (a : α) : (pure a : Parser α) place ts = .ok (a, ts) := rfl

@[simp] theorem run_bind (p : Parser α) (f : α → Parser β) : (p >>= f) place ts =
    match p place ts with
    | .ok (a, us) => f a place us
    | .error e => .error e := by
  show (p place ts >>= fun x => f x.1 place x.2) = _
  rcases p place ts with _ | ⟨_, _⟩ <;> rfl

theorem run_bind_of_ok {p : Parser α} {f : α → Parser β} {a : α} (h : p place ts = .ok (a, us)) :
    (p >>= f) place ts = f a place us := by
  rw [run_bind, h]

@[simp] theorem run_fail : (fail : Parser α) place ts = .error .malformed := rfl

@[simp] theorem run_get : (get : Parser (List Token)) place ts = .ok (ts, ts) := rfl

@[simp] theorem run_set (us : List Token) : (set us : Parser PUnit) place ts = .ok ((), us) := rfl

@[simp] theorem run_skip (n : Nat) : skip n place ts = .ok ((), ts.drop n) := rfl

@[simp] theorem run_ahead (n : Nat) : ahead n place ts = .ok (ts[n]?.map (·.lexeme), ts) := rfl

@[simp] theorem run_map (f : α → β) (p : Parser α) : (f <$> p) place ts =
    match p place ts with
    | .ok (a, us) => .ok (f a, us)
    | .error e => .error e := by
  rw [← bind_pure_comp, run_bind]
  rcases p place ts with _ | ⟨_, _⟩ <;> rfl

@[simp] theorem run_discard (p : Parser α) : discard p place ts =
    match p place ts with
    | .ok (_, us) => .ok ((), us)
    | .error e => .error e := by
  rw [Functor.discard, map_const, Function.comp_apply, run_map]

/-- The keyword that comes next. -/
def nextKeyword (ts : List Token) : String := (ts.head?.map (·.lexeme.keyword)).getD ""

@[simp] theorem run_keywordAhead_zero : keywordAhead 0 place ts = .ok (nextKeyword ts, ts) := by
  cases ts <;> rfl

theorem run_keyword? : keyword? k place ts =
    .ok (if nextKeyword ts == k then (true, ts.drop 1) else (false, ts)) := by
  rw [keyword?]
  simp only [run_bind, run_keywordAhead_zero]
  cases nextKeyword ts == k <;> rfl

theorem run_keyword?_of_ne (h : nextKeyword ts ≠ k) : keyword? k place ts = .ok (false, ts) := by
  rw [run_keyword?, beq_eq_false_iff_ne.mpr h]
  rfl

theorem run_keyword?_self {spaced : Bool} (h : capitalsOf k = k) :
    keyword? k place (⟨wordOf k, spaced⟩ :: ts) = .ok (true, ts) := by
  have hnext : nextKeyword (⟨wordOf k, spaced⟩ :: ts) = k := h
  rw [run_keyword?, hnext, beq_self_eq_true]
  rfl

theorem run_keywords? (ks : List String) : keywords? ks place ts =
    .ok (if (ts.take ks.length).map (·.lexeme.keyword) == ks then (true, ts.drop ks.length)
      else (false, ts)) := by
  rw [keywords?]
  simp only [run_bind, run_get]
  cases (ts.take ks.length).map (·.lexeme.keyword) == ks <;> rfl

theorem run_keywords?_of_ne {ks : List String} (h : nextKeyword ts ≠ k) :
    keywords? (k :: ks) place ts = .ok (false, ts) := by
  rw [run_keywords?]
  cases ts with
  | nil => rfl
  | cons t ts =>
    have ht : (t.lexeme.keyword == k) = false := beq_eq_false_iff_ne.mpr h
    simp [ht]

theorem run_oneOf? (ks : List String) : oneOf? ks place ts =
    .ok (if ks.contains (nextKeyword ts) then (true, ts.drop 1) else (false, ts)) := by
  rw [oneOf?]
  simp only [run_bind, run_keywordAhead_zero]
  cases ks.contains (nextKeyword ts) <;> rfl

/-- The token that comes next, without the blank before it. -/
def next? (ts : List Token) : Option Lexeme := ts.head?.map (·.lexeme)

theorem run_symbolAhead_zero : symbolAhead 0 s place ts =
    .ok (next? ts == some (.symbol s), ts) := by
  cases ts <;> rfl

theorem run_symbolAhead_one (t : Token) : symbolAhead 1 s place (t :: ts) =
    .ok (next? ts == some (.symbol s), t :: ts) := by
  cases ts <;> rfl

theorem run_symbol? : symbol? s place ts =
    .ok (if next? ts == some (.symbol s) then (true, ts.drop 1) else (false, ts)) := by
  rw [symbol?]
  simp only [run_bind, run_symbolAhead_zero]
  cases next? ts == some (.symbol s) <;> rfl

theorem run_symbol?_self {spaced : Bool} :
    symbol? s place (⟨.symbol s, spaced⟩ :: ts) = .ok (true, ts) := by
  rw [run_symbol?]
  simp [next?]

theorem run_symbol_self {spaced : Bool} :
    symbol s place (⟨.symbol s, spaced⟩ :: ts) = .ok ((), ts) := by
  rw [symbol, require]
  simp only [run_bind, run_symbol?_self, if_true, run_pure]

theorem run_after_of_not {announced : Parser Bool} {p : Parser Unit}
    (h : announced place ts = .ok (false, ts)) : after announced p place ts = .ok ((), ts) := by
  rw [after, after?]
  simp [h]

theorem run_after_of_ok {announced : Parser Bool} {p : Parser Unit}
    (h : announced place ts = .ok (true, us)) (hp : p place us = .ok ((), rest)) :
    after announced p place ts = .ok ((), rest) := by
  rw [after, after?]
  simp [h, hp]

end Steps

variable {r : Rules} {k : String} {place : Place} {ts us : List Token}

open DataType

theorem wordForm_eq_none (hk : k ∉ reservedWords) (operand : Parser Surface) (n : Name) :
    r.wordForm operand n k place ts = .ok (none, ts) := by
  simp only [reservedWords, List.mem_cons, List.not_mem_nil, or_false, not_or] at hk
  simp [Rules.wordForm, symbolAhead, hk]

theorem builtin?_eq_none (hk : k ∉ reservedWords) : builtin? k = none := by
  simp only [reservedWords, List.mem_cons, List.not_mem_nil, or_false, not_or] at hk
  simp [builtin?, plainTypes, wholeTypes, shortWholeTypes, preciseTypes, scaledTypes,
    scaledSignTypes, hk]

theorem container?_eq_none (hk : k ∉ reservedWords) (type : Parser (TypeKind × Bool)) :
    r.container? type k = none := by
  simp only [reservedWords, List.mem_cons, List.not_mem_nil, or_false, not_or] at hk
  simp [Rules.container?, hk]

/-! ## Words that are no data types -/

theorem whileWithin_cases {P : List Token → Prop} {goesOn : Parser Bool}
    (hstep : ∀ ts, P ts → goesOn place ts = .error .malformed ∨
      ∃ b us, goesOn place ts = .ok (b, us) ∧ P us) (fuel : Nat) (hts : P ts) :
    whileWithin goesOn fuel place ts = .error .malformed ∨
      ∃ us, whileWithin goesOn fuel place ts = .ok ((), us) ∧ P us := by
  induction fuel generalizing ts with
  | zero => exact .inl rfl
  | succ fuel ih =>
    rw [whileWithin]
    simp only [run_bind]
    rcases hstep ts hts with hfail | ⟨b, us, hok, hus⟩
    · rw [hfail]
      exact .inl rfl
    · rw [hok]
      cases b with
      | true => exact ih hus
      | false => exact .inr ⟨us, rfl, hus⟩

/-- Whether tokens are words, quoted texts and symbols of calls. -/
def Flat (ts : List Token) : Prop := ∀ t ∈ ts, t.lexeme.Simple

theorem flat_cons {t : Token} : Flat (t :: ts) ↔ t.lexeme.Simple ∧ Flat ts := List.forall_mem_cons

theorem flat_append : Flat (ts ++ us) ↔ Flat ts ∧ Flat us := List.forall_mem_append

theorem flat_mark {s : String} (hs : s ∈ marks) (h : Flat ts) : Flat (mark s :: ts) :=
  flat_cons.mpr ⟨.symbol hs, h⟩

theorem modifiers?_cases (place : Place) (h : Flat ts) : modifiers? place ts = .error .malformed ∨
    ∃ us, modifiers? place ts = .ok ((), us) ∧ Flat us := by
  rw [modifiers?]
  simp only [run_bind, run_symbol?]
  by_cases hparen : next? ts == some (.symbol "(")
  · simp only [hparen, if_true]
    rw [whileGoing]
    simp only [run_bind, run_get]
    refine whileWithin_cases (P := Flat) ?_ _ fun t ht => h t (List.mem_of_mem_drop ht)
    intro us hus
    cases us with
    | nil => exact .inl rfl
    | cons t us =>
      obtain ⟨ht, hrest⟩ := flat_cons.mp hus
      obtain ⟨x, spaced⟩ := t
      cases ht with
      | word => exact .inr ⟨true, us, rfl, hrest⟩
      | quoted => exact .inr ⟨true, us, rfl, hrest⟩
      | symbol hs =>
        simp only [marks, List.mem_cons, List.not_mem_nil, or_false] at hs
        rcases hs with rfl | rfl | rfl
        · exact .inl rfl
        · exact .inr ⟨true, us, rfl, hrest⟩
        · exact .inr ⟨false, us, rfl, hrest⟩
  · simp only [hparen, Bool.false_eq_true, if_false]
    exact .inr ⟨ts, rfl, h⟩

theorem next?_ne_of_flat (h : Flat ts) {s : String} (hs : s ∉ marks) :
    (next? ts == some (.symbol s)) = false := by
  cases ts with
  | nil => rfl
  | cons t ts =>
    obtain ⟨x, spaced⟩ := t
    cases (flat_cons.mp h).1 with
    | word | quoted => simp [next?]
    | @symbol s' hs' =>
      have hne : s' ≠ s := fun heq => hs (heq ▸ hs')
      simp [next?, hne]

theorem run_qualifiedName_word {s : String} {spaced : Bool} (h : Flat ts) :
    qualifiedName place (⟨wordOf s, spaced⟩ :: ts) = .ok ([⟨s, none⟩], ts) := by
  have hpoint := next?_ne_of_flat h (show "." ∉ marks by decide)
  rw [qualifiedName]
  simp only [run_bind, run_get]
  rw [namesWithin]
  have hname : name place (⟨wordOf s, spaced⟩ :: ts) = .ok (⟨s, none⟩, ts) := rfl
  simp only [run_bind, hname, run_symbol?, hpoint, Bool.false_eq_true, if_false, run_pure]

theorem typeWithin_word_cases (r : Rules) (place : Place) {s : String} (spaced : Bool)
    (hs : capitalsOf s ∉ reservedWords) (h : Flat ts) (fuel : Nat) :
    r.typeWithin (fuel + 1) place (⟨wordOf s, spaced⟩ :: ts) = .error .malformed ∨
      ∃ us, r.typeWithin (fuel + 1) place (⟨wordOf s, spaced⟩ :: ts) =
        .ok ((.custom, false), us) := by
  have hany : (capitalsOf s == "ANY") = false := by
    rw [beq_eq_false_iff_ne]
    rintro heq
    exact hs (heq ▸ by decide)
  have hinterval : (capitalsOf s == "INTERVAL") = false := by
    rw [beq_eq_false_iff_ne]
    rintro heq
    exact hs (heq ▸ by decide)
  have htake : take place (⟨wordOf s, spaced⟩ :: ts) = .ok (⟨wordOf s, spaced⟩, ts) := rfl
  have hword : (wordOf s).isWord = true := rfl
  have hkeyword : (wordOf s).keyword = capitalsOf s := rfl
  rw [Rules.typeWithin]
  simp only [run_bind, run_get, htake, hword, if_true, run_pure, hkeyword, hany, hinterval,
    Bool.false_eq_true, if_false, container?_eq_none hs, builtin?_eq_none hs, run_set, run_discard,
    run_qualifiedName_word h]
  rcases modifiers?_cases place h with hfail | ⟨us, hok, hus⟩
  · rw [hfail]
    exact .inl rfl
  · have hbracket := next?_ne_of_flat hus (show "[" ∉ marks by decide)
    rw [hok]
    simp only [whileGoing, run_bind, run_get, whileWithin, run_symbol?, hbracket,
      Bool.false_eq_true, if_false, run_pure, Nat.lt_irrefl]
    exact .inr ⟨us, rfl⟩

theorem typedLiteral_word {s : String} {spaced : Bool} (hs : capitalsOf s ∉ reservedWords)
    (h : Flat ts) (operand : Parser Surface) :
    r.typedLiteral operand place (⟨wordOf s, spaced⟩ :: ts) = .error .malformed := by
  rw [Rules.typedLiteral, Rules.dataType, DataType.whole, Rules.typePart]
  simp only [run_bind, run_get]
  rcases typeWithin_word_cases r place spaced hs h (ts.length + 1) with hfail | ⟨us, hok⟩
  · rw [List.length_cons, hfail]
  · rw [List.length_cons, hok]
    rfl

theorem typedLiteral_quoted {text : String} {spaced : Bool} (operand : Parser Surface) :
    r.typedLiteral operand place (⟨.quoted text, spaced⟩ :: ts) = .error .malformed := rfl

/-! ## Where an expression ends -/

/-- What an expression may end before, inside a call. -/
def stops : List Lexeme :=
  [.symbol ",", .symbol ")", wordOf "ASC", wordOf "DESC", wordOf "LIMIT", wordOf "ORDER"]

/-- Whether an expression ends before the tokens, which are all of calls. -/
structure Stops (ts : List Token) : Prop where
  flat : Flat ts
  next : ∀ x ∈ next? ts, x ∈ stops

theorem Stops.cases (h : Stops ts) :
    ts = [] ∨ ∃ x ∈ stops, ∃ spaced us, ts = ⟨x, spaced⟩ :: us := by
  cases ts with
  | nil => exact .inl rfl
  | cons t us => exact .inr ⟨t.lexeme, h.next _ rfl, t.spaced, us, rfl⟩

theorem Stops.nextKeyword_mem (h : Stops ts) :
    nextKeyword ts ∈ ["", "ASC", "DESC", "LIMIT", "ORDER"] := by
  obtain rfl | ⟨x, hx, spaced, us, rfl⟩ := h.cases
  · decide
  · have hall : ∀ x ∈ stops, x.keyword ∈ ["", "ASC", "DESC", "LIMIT", "ORDER"] := by decide
    exact hall x hx

theorem Stops.nextKeyword_ne (h : Stops ts) (hk : k ∉ ["", "ASC", "DESC", "LIMIT", "ORDER"]) :
    nextKeyword ts ≠ k := ne_of_mem_of_not_mem h.nextKeyword_mem hk

theorem Stops.nextKeyword_not_mem (h : Stops ts) {ks : List String}
    (hks : ∀ k ∈ ["", "ASC", "DESC", "LIMIT", "ORDER"], k ∉ ks) : nextKeyword ts ∉ ks :=
  hks _ h.nextKeyword_mem

theorem run_strength_of_stops (h : Stops ts) : Rules.strength place ts = .ok (0, ts) := by
  obtain rfl | ⟨x, hx, spaced, us, rfl⟩ := h.cases
  · rfl
  · simp only [stops, List.mem_cons, List.not_mem_nil, or_false] at hx
    rcases hx with rfl | rfl | rfl | rfl | rfl | rfl <;> rfl

theorem run_collated (e : Surface) (h : nextKeyword ts ≠ "COLLATE") :
    Rules.collated e place ts = .ok (e, ts) := by
  have hplace : (readThe Place : Parser Place) place ts = .ok (place, ts) := rfl
  rw [Rules.collated]
  simp only [run_bind, hplace]
  cases place == .columnOption with
  | true => rfl
  | false =>
    simp only [run_bind, run_keyword?_of_ne h, Bool.false_eq_true, if_false, run_pure]

/-! ## Operands -/

theorem run_operand_word {s : String} {spaced : Bool} {e : Surface}
    (hs : capitalsOf s ∉ reservedWords) (h : Flat ts)
    (hplain : r.plainWord ⟨s, none⟩ place ts = .ok (e, us)) (hus : nextKeyword us ≠ "COLLATE") :
    r.operand place (⟨wordOf s, spaced⟩ :: ts) = .ok (e, us) := by
  rw [Rules.operand]
  simp only [run_bind, run_get]
  rw [List.length_cons, Rules.operandWithin]
  have hmaybe : maybe (r.typedLiteral (r.operandWithin (ts.length + 1))) place
      (⟨wordOf s, spaced⟩ :: ts) = .ok (none, ⟨wordOf s, spaced⟩ :: ts) := by
    rw [maybe, typedLiteral_word hs h]
  have hform : attempt (r.wordForm (r.operandWithin (ts.length + 1)) ⟨s, none⟩ (capitalsOf s)) place
      ts = .ok (.ok none, ts) := by
    rw [attempt, wordForm_eq_none hs]
  have hahead : ahead 0 place (⟨wordOf s, spaced⟩ :: ts) =
      .ok (some (.word s none (capitalsOf s)), ⟨wordOf s, spaced⟩ :: ts) := rfl
  simp only [run_bind, hmaybe, Option.isSome_none, Bool.false_eq_true, if_false, hahead, run_skip,
    List.drop_succ_cons, List.drop_zero, Rules.word, hform, hplain, run_collated e hus]

theorem run_operand_quoted {text : String} {spaced : Bool} (h : nextKeyword ts ≠ "COLLATE") :
    r.operand place (⟨.quoted text, spaced⟩ :: ts) = .ok (.literal text, ts) := by
  rw [Rules.operand]
  simp only [run_bind, run_get]
  rw [List.length_cons, Rules.operandWithin]
  have hmaybe : maybe (r.typedLiteral (r.operandWithin (ts.length + 1))) place
      (⟨.quoted text, spaced⟩ :: ts) = .ok (none, ⟨.quoted text, spaced⟩ :: ts) := by
    rw [maybe, typedLiteral_quoted]
  have hahead : ahead 0 place (⟨.quoted text, spaced⟩ :: ts) =
      .ok (some (.quoted text), ⟨.quoted text, spaced⟩ :: ts) := rfl
  simp only [run_bind, hmaybe, Option.isSome_none, Bool.false_eq_true, if_false, hahead, run_skip,
    List.drop_succ_cons, List.drop_zero, Rules.otherOperand, run_pure,
    run_collated (Surface.literal text) h]

/-- Nothing selects from an operand before the end of the expression, and no operator follows. -/
theorem run_expressionAbove {e : Surface} (hroot : r.operand place ts = .ok (e, us))
    (h : Stops us) : r.expressionAbove 0 place ts = .ok (e, us) := by
  have hpoint := next?_ne_of_flat h.flat (show "." ∉ marks by decide)
  have hbracket := next?_ne_of_flat h.flat (show "[" ∉ marks by decide)
  rw [Rules.expressionAbove]
  simp only [run_bind, hroot, run_get, Rules.selectorsWithin, run_symbolAhead_zero, run_symbol?,
    hpoint, hbracket, Bool.false_eq_true, if_false, run_pure, Rules.operationsWithin,
    run_strength_of_stops h, Nat.le_refl, if_true]
  rfl

theorem run_plainWord_of_stops (n : Name) (h : Stops ts) :
    r.plainWord n place ts = .ok (.name n, ts) := by
  obtain rfl | ⟨x, hx, spaced, us, rfl⟩ := h.cases
  · rfl
  · simp only [stops, List.mem_cons, List.not_mem_nil, or_false] at hx
    rcases hx with rfl | rfl | rfl | rfl | rfl | rfl <;> rfl

/-! ## Tokens that are read whole -/

/-- Whether a parser reads just these tokens wherever an expression may end behind them. -/
structure ReadsAs {α : Type} (p : Parser α) (place : Place) (ts : List Token) (a : α) : Prop where
  flat : Flat ts
  run : ∀ rest, Stops rest → p place (ts ++ rest) = .ok (a, rest)

/-- Whether tokens begin with a word that is not reserved or with a quoted text, and go on with a
parenthesis or not at all. -/
inductive Opens : List Token → Prop where
  | word {s : String} {spaced : Bool} {more : List Token} (hs : capitalsOf s ∉ reservedWords)
      (h : ∀ x ∈ next? more, x = .symbol "(") : Opens (⟨wordOf s, spaced⟩ :: more)
  | quoted {text : String} {spaced : Bool} : Opens [⟨.quoted text, spaced⟩]

section Lists

variable {α : Type} {p : Parser α} {tss : List (List Token)} {as : List α} {rest : List Token}

theorem flat_listed (h : ∀ ts ∈ tss, Flat ts) : Flat (listed tss) := by
  induction tss with
  | nil => exact fun t ht => absurd ht List.not_mem_nil
  | cons ts tss ih =>
    obtain ⟨hts, htss⟩ := List.forall_mem_cons.mp h
    cases tss with
    | nil => rwa [listed_singleton]
    | cons us tss =>
      rw [listed_cons_cons, flat_append]
      exact ⟨hts, flat_mark (by decide) (ih htss)⟩

theorem forall_flat_of_readsAs (h : List.Forall₂ (ReadsAs p place) tss as) :
    ∀ ts ∈ tss, Flat ts := by
  induction h with
  | nil => simp
  | cons hts _ ih => exact List.forall_mem_cons.mpr ⟨hts.flat, ih⟩

theorem length_le_length_listed (tss : List (List Token)) :
    tss.length ≤ (listed tss).length + 1 := by
  induction tss with
  | nil => exact Nat.zero_le _
  | cons ts tss ih =>
    cases tss with
    | nil => simp
    | cons us tss =>
      rw [listed_cons_cons, List.length_append, List.length_cons (a := mark ",")]
      simp only [List.length_cons] at ih ⊢
      omega

theorem stops_comma (h : Flat ts) : Stops (mark "," :: ts) where
  flat := flat_mark (by decide) h
  next x hx := by
    obtain rfl := Option.some.inj hx
    decide

theorem run_commasWithin (h : List.Forall₂ (ReadsAs p place) tss as) (hne : tss ≠ []) {fuel : Nat}
    (hfuel : tss.length ≤ fuel) (hrest : Stops rest) (hcomma : next? rest ≠ some (.symbol ",")) :
    commasWithin p fuel place (listed tss ++ rest) = .ok (as, rest) := by
  induction h generalizing fuel with
  | nil => exact absurd rfl hne
  | @cons ts a tss as hts htss ih =>
    rw [List.length_cons] at hfuel
    obtain ⟨fuel, rfl⟩ := Nat.exists_eq_add_one_of_ne_zero (show fuel ≠ 0 by omega)
    rw [commasWithin]
    cases htss with
    | nil =>
      have hnext : (next? rest == some (.symbol ",")) = false := beq_eq_false_iff_ne.mpr hcomma
      rw [listed_singleton]
      simp only [run_bind, hts.run rest hrest, run_symbol?, hnext, Bool.false_eq_true, if_false,
        run_pure]
    | @cons us b tss as hus htss =>
      have hmore := ih (List.cons_ne_nil _ _) (Nat.le_of_succ_le_succ hfuel)
      have hflat : Flat (listed (us :: tss) ++ rest) :=
        flat_append.mpr ⟨flat_listed (forall_flat_of_readsAs (.cons hus htss)), hrest.flat⟩
      rw [listed_cons_cons, List.append_assoc, List.cons_append]
      have hnext : (next? (mark "," :: (listed (us :: tss) ++ rest)) ==
          some (.symbol ",")) = true := rfl
      simp only [run_bind, hts.run _ (stops_comma hflat), run_symbol?, hnext, if_true,
        List.drop_succ_cons, List.drop_zero, hmore, run_pure]

/-- Items with commas between are read one after another. -/
theorem run_commas (h : List.Forall₂ (ReadsAs p place) tss as) (hne : tss ≠ []) (hrest : Stops rest)
    (hcomma : next? rest ≠ some (.symbol ",")) :
    commas p place (listed tss ++ rest) = .ok (as, rest) := by
  rw [commas]
  simp only [run_bind, run_get]
  refine run_commasWithin h hne ?_ hrest hcomma
  have hlen := length_le_length_listed tss
  rw [List.length_append]
  omega

end Lists

/-! ## Arguments -/

theorem Opens.exists_append (h : Opens ts) {rest : List Token} (hrest : Stops rest) :
    ∃ t us, ts ++ rest = t :: us ∧ t.lexeme.isSymbol = false ∧ nextKeyword us ≠ "VALUE" := by
  cases h with
  | @word s spaced more _ hnext =>
    refine ⟨⟨wordOf s, spaced⟩, more ++ rest, rfl, rfl, ?_⟩
    cases more with
    | nil => exact hrest.nextKeyword_ne (by decide)
    | cons t more =>
      have ht : t.lexeme = .symbol "(" := hnext _ rfl
      show t.lexeme.keyword ≠ "VALUE"
      rw [ht]
      decide
  | quoted => exact ⟨_, rest, rfl, rfl, hrest.nextKeyword_ne (by decide)⟩

theorem run_argument (h : Opens ts) (hts : Flat ts) {rest : List Token} (hrest : Stops rest) :
    r.argument place (ts ++ rest) = r.expression place (ts ++ rest) := by
  have hflat : Flat (ts ++ rest) := flat_append.mpr ⟨hts, hrest.flat⟩
  obtain ⟨t, us, hcons, hsymbol, hvalue⟩ := h.exists_append hrest
  rw [hcons] at hflat ⊢
  obtain ⟨ht, hus⟩ := flat_cons.mp hflat
  have harrow := next?_ne_of_flat hus (show "=>" ∉ marks by decide)
  have hassign := next?_ne_of_flat hus (show ":=" ∉ marks by decide)
  have hpoint := next?_ne_of_flat hus (show "." ∉ marks by decide)
  obtain ⟨x, spaced⟩ := t
  have hname : ∃ n, name place (⟨x, spaced⟩ :: us) = .ok (n, us) := by
    cases ht with
    | word | quoted => exact ⟨_, rfl⟩
    | symbol => cases hsymbol
  obtain ⟨n, hname⟩ := hname
  have hnamed : r.namedArgument place (⟨x, spaced⟩ :: us) = .error .malformed := by
    rw [Rules.namedArgument]
    simp only [run_bind, run_discard, hname, run_keyword?_of_ne hvalue, run_symbol?, harrow,
      Bool.false_eq_true, if_false, symbol, require, hassign, run_fail]
  have hstarred : r.starred place (⟨x, spaced⟩ :: us) =
      r.expression place (⟨x, spaced⟩ :: us) := by
    rw [Rules.starred]
    cases ht with
    | word | quoted =>
      simp only [run_bind, run_get, run_ahead, List.getElem?_cons_zero, Option.map_some,
        run_symbolAhead_one, hpoint, Bool.false_eq_true, if_false]
    | symbol => cases hsymbol
  rw [Rules.argument]
  simp only [run_bind, maybe, hnamed, hstarred]

end SelectMerge.Expr
