import Mathlib.Data.List.DropRight
import SelectMerge.Expr.Grammar
import SelectMerge.Proofs.Expr.Calls

/-!
# Reading canonical texts back

The canonical text of an expression is read as that expression (`ofText_text`), if its names are
ASCII words that the grammar does not reserve and those of its calls are in small letters. Its
literals may hold any text, and calls may nest as deep as the grammar allows.

The tokens of the text are those of `Expression.tokens`, which are read as the `surface` of the
expression by mutual induction with its arguments (`readsAs_tokens`), and what is read means the
expression (`expression_surface`).
-/

namespace SelectMerge

namespace Expr

/-- Whether a name is an ASCII word that is no keyword. -/
def isFreeWord (name : String) : Bool := isWordText name && !isKeyword (capitalsOf name)

/-- Whether a name is an ASCII word that is not reserved; it may be another keyword. -/
def isUnreserved (name : String) : Bool :=
  isWordText name && !reservedWords.contains (capitalsOf name)

theorem isUnreserved_iff {name : String} :
    isUnreserved name ↔ isWordText name ∧ capitalsOf name ∉ reservedWords := by
  simp [isUnreserved]

theorem isUnreserved_of_isFreeWord {name : String} (h : isFreeWord name) : isUnreserved name := by
  rw [isFreeWord, Bool.and_eq_true, Bool.not_eq_true'] at h
  refine isUnreserved_iff.mpr ⟨h.1, fun hmem => ?_⟩
  rw [isKeyword_of_mem_reservedWords hmem] at h
  exact Bool.noConfusion h.2

end Expr

namespace Expression

open SelectMerge.Expr

variable {p : String → Bool} {place : Place} {spaced : Bool}

/-! ## Depth and form -/

mutual

/-- How deep calls nest: the number of expressions from the whole down to the innermost. -/
def depth : Expression → Nat
  | identifier _ => 1
  | literal _ => 1
  | call _ args => depthOfAll args + 1

def depthOfAll : List Expression → Nat
  | [] => 0
  | e :: es => max e.depth (depthOfAll es)

end

theorem depth_le_depthOfAll {e : Expression} {es : List Expression} (h : e ∈ es) :
    e.depth ≤ depthOfAll es := by
  induction es with
  | nil => exact absurd h List.not_mem_nil
  | cons e' es ih =>
    rw [depthOfAll]
    rcases List.mem_cons.mp h with rfl | h
    · exact Nat.le_max_left _ _
    · exact Nat.le_trans (ih h) (Nat.le_max_right _ _)

mutual

/-- The expression as the grammar reads it. -/
def surface : Expression → Surface
  | identifier name => .name ⟨name, none⟩
  | literal text => .literal text
  | call name args => .call [⟨name, none⟩] (surfaceOfAll args)

def surfaceOfAll : List Expression → List Surface
  | [] => []
  | e :: es => e.surface :: surfaceOfAll es

end

mutual

theorem expression_surface (e : Expression) (h : e.everyName p) : e.surface.expression = .ok e := by
  cases e with
  | identifier name => rfl
  | literal text => rfl
  | call name args =>
    rw [everyName, Bool.and_eq_true, Bool.and_eq_true, beq_iff_eq] at h
    have hargs := expressions_surfaceOfAll args h.2
    have hname : ".".intercalate [name] = name := String.intercalate_singleton
    rw [surface, Surface.expression, hargs]
    simp only [List.map_cons, List.map_nil, Name.written, hname, function, h.1.2]
    rfl

theorem expressions_surfaceOfAll (es : List Expression) (h : everyNameOfAll p es) :
    Surface.expressions (surfaceOfAll es) = .ok es := by
  cases es with
  | nil => rfl
  | cons e es =>
    rw [everyNameOfAll, Bool.and_eq_true] at h
    rw [surfaceOfAll, Surface.expressions, expression_surface e h.1,
      expressions_surfaceOfAll es h.2]
    rfl

end

/-! ## Reading tokens -/

theorem spelled_of_unreserved {e : Expression} (h : e.everyName isUnreserved) (spaced : Bool) :
    Spelled (e.tokens spaced) :=
  spelled_tokens (fun _ hs => (isUnreserved_iff.mp hs).1) e h spaced

theorem opens_tokens {e : Expression} (h : e.everyName isUnreserved) : Opens (e.tokens spaced) := by
  cases e with
  | identifier name => exact .word (isUnreserved_iff.mp h).2 (by simp [next?])
  | literal text => exact .quoted
  | call name args =>
    rw [everyName, Bool.and_eq_true, Bool.and_eq_true] at h
    exact .word (isUnreserved_iff.mp h.1.1).2 (by rintro x ⟨⟩; rfl)

theorem around_none (tss : List (List Token)) :
    Clauses.none.around tss = mark "(" :: (listed tss ++ [mark ")"]) := by
  have hclauses : Clauses.none.tokens = [] := rfl
  have hinside : Inside.none.around tss = listed tss ++ [mark ")"] := rfl
  rw [Clauses.around, hclauses, List.append_nil]
  exact congrArg (mark "(" :: ·) hinside

mutual

/-- The tokens of an expression are read as the expression. -/
theorem readsAs_tokens {n : Nat} (e : Expression) (h : e.everyName isUnreserved)
    (hdepth : e.depth ≤ n) (spaced : Bool) :
    ReadsAs (Rules.within n).expression place (e.tokens spaced) e.surface := by
  have hflat : Flat (e.tokens spaced) := (spelled_of_unreserved h spaced).simple
  obtain ⟨m, rfl⟩ : ∃ m, n = m + 1 :=
    Nat.exists_eq_add_one_of_ne_zero (by cases e <;> rw [depth] at hdepth <;> omega)
  -- a rule within an allowance reads an expression over the rules within the next smaller one
  change ReadsAs ((Rules.within m).expressionAbove 0) place (e.tokens spaced) e.surface
  cases e with
  | identifier name =>
    refine ⟨hflat, fun rest hrest => run_expressionAbove ?_ hrest⟩
    exact run_operand_word (isUnreserved_iff.mp h).2 hrest.flat (run_plainWord_of_stops _ hrest)
      (hrest.nextKeyword_ne (by decide))
  | literal text =>
    refine ⟨hflat, fun rest hrest => run_expressionAbove ?_ hrest⟩
    exact run_operand_quoted (hrest.nextKeyword_ne (by decide))
  | call name args =>
    rw [everyName, Bool.and_eq_true, Bool.and_eq_true] at h
    obtain ⟨hword, hreserved⟩ := isUnreserved_iff.mp h.1.1
    rw [depth, Nat.add_le_add_iff_right] at hdepth
    have hargs := readsAs_tokensOfAll args h.2 hdepth
    have hopens : ∀ ts ∈ tokensOfAll args, Opens ts := by
      rw [tokensOfAll_eq, List.forall_mem_map]
      exact fun e he => opens_tokens (everyNameOfAll_iff.mp h.2 e he)
    have hnone : ∀ e ∈ Clauses.none.expressions, (Rules.within m).Takes place e :=
      fun e he => absurd he List.not_mem_nil
    have hflatArgs : Flat (Clauses.none.around (tokensOfAll args)) := by
      rw [around_none]
      exact (flat_cons.mp hflat).2
    rw [tokens, ← around_none]
    exact readsAs_call hreserved hword hargs hopens (fun _ => rfl) hnone hflatArgs

theorem readsAs_tokensOfAll {n : Nat} (es : List Expression) (h : everyNameOfAll isUnreserved es)
    (hdepth : depthOfAll es ≤ n) : List.Forall₂ (ReadsAs (Rules.within n).expression place)
      (tokensOfAll es) (surfaceOfAll es) := by
  cases es with
  | nil => exact .nil
  | cons e es =>
    rw [everyNameOfAll, Bool.and_eq_true] at h
    rw [depthOfAll, Nat.max_le] at hdepth
    exact .cons (readsAs_tokens e h.1 hdepth.1 false) (readsAs_tokensOfAll es h.2 hdepth.2)

end

/-! ## Reading texts -/

theorem trim_ne_star {c : Char} {cs : List Char} (hblank : Text.isBlank c = false)
    (hstar : c ≠ '*') : Text.trim (c :: cs) ≠ ['*'] := by
  intro h
  have hprefix : Text.trim (c :: cs) <+: c :: cs := by
    rw [Text.trim, List.dropWhile_cons_of_neg (by simp [hblank])]
    exact List.rdropWhile_prefix Text.isBlank (c :: cs)
  rw [h] at hprefix
  obtain ⟨t, ht⟩ := hprefix
  exact hstar (List.cons.inj ht).1.symm

theorem isWordText_of_simple {s : String} (h : (wordOf s).Simple) : isWordText s := by
  generalize hx : wordOf s = x at h
  cases h with
  | word h => rwa [(Lexeme.word.inj hx).1]
  | quoted | symbol => cases hx

theorem trim_spell_ne_star {ts : List Token} (hflat : Flat ts) (hopens : Opens ts)
    (hhead : ∀ t ∈ ts.head?, t.spaced = false) : Text.trim (spell ts) ≠ ['*'] := by
  cases hopens with
  | @word s spaced more hs _ =>
    obtain rfl : spaced = false := hhead _ rfl
    have hword := isWordText_of_simple (flat_cons.mp hflat).1
    obtain ⟨c, cs, hlist, hc, -⟩ := exists_cons_of_isWordText hword
    have hspell : spell (⟨wordOf s, false⟩ :: more) = c :: (cs ++ spell more) := by
      rw [spell_cons, Token.spell, wordOf, Lexeme.spell, hlist]
      rfl
    rw [hspell]
    exact trim_ne_star (isBlank_of_isAlpha hc) (by rintro rfl; exact absurd hc (by decide))
  | @quoted text spaced =>
    obtain rfl : spaced = false := hhead _ rfl
    exact trim_ne_star (by decide) (by decide)

theorem ofText_spell {ts : List Token} {e : Expression} {x : Surface} (hts : Spelled ts)
    (hopens : Opens ts) (hhead : ∀ t ∈ ts.head?, t.spaced = false)
    (hread : ReadsAs (Rules.within nestingLimit).expression .ordinary ts x)
    (hx : x.expression = .ok e) : ofText (String.ofList (spell ts)) = .ok e := by
  have hstar : (Text.trim (spell ts) == ['*']) = false :=
    beq_eq_false_iff_ne.mpr (trim_spell_ne_star hts.simple hopens hhead)
  have hrun := hread.run [] ⟨by simp [Flat], by simp [next?]⟩
  rw [List.append_nil] at hrun
  have hmeaning : meaning .ordinary ts = .ok (e, []) := by
    rw [meaning]
    simp only [Expr.run_bind, hrun, hx, Expr.run_pure]
  rw [ofText, readWhole, String.toList_ofList, hstar, lex_spell hts, if_neg Bool.false_ne_true]
  simp only [hmeaning]

mutual

theorem everyName_mono {q : String → Bool} (hpq : ∀ s, p s → q s) (e : Expression)
    (h : e.everyName p) : e.everyName q := by
  cases e with
  | identifier name => exact hpq name h
  | literal text => rfl
  | call name args =>
    rw [everyName, Bool.and_eq_true, Bool.and_eq_true] at h ⊢
    exact ⟨⟨hpq name h.1.1, h.1.2⟩, everyNameOfAll_mono hpq args h.2⟩

theorem everyNameOfAll_mono {q : String → Bool} (hpq : ∀ s, p s → q s) (es : List Expression)
    (h : everyNameOfAll p es) : everyNameOfAll q es := by
  cases es with
  | nil => rfl
  | cons e es =>
    rw [everyNameOfAll, Bool.and_eq_true] at h ⊢
    exact ⟨everyName_mono hpq e h.1, everyNameOfAll_mono hpq es h.2⟩

end

theorem head?_tokens (e : Expression) : ∀ t ∈ (e.tokens spaced).head?, t.spaced = spaced := by
  cases e <;> rintro t ⟨⟩ <;> rfl

theorem ofText_text_of_unreserved {e : Expression} (h : e.everyName isUnreserved)
    (hdepth : e.depth ≤ nestingLimit) : ofText e.text = .ok e := by
  rw [text, ← spell_tokens]
  exact ofText_spell (spelled_of_unreserved h false) (opens_tokens h) (head?_tokens e)
    (readsAs_tokens e h hdepth false) (expression_surface e h)

/-- The canonical text of an expression is read as the expression. -/
theorem ofText_text {e : Expression} (h : e.everyName isFreeWord)
    (hdepth : e.depth ≤ nestingLimit) : ofText e.text = .ok e :=
  ofText_text_of_unreserved (everyName_mono (fun _ => isUnreserved_of_isFreeWord) e h) hdepth

/-- A call in a call, with a text that holds all the marks of calls and a line break. -/
def greeting : Expression :=
  call "concat" [literal "it's (a, b)\n", call "concat" [identifier "user_id"], call "concat" []]

set_option maxRecDepth 20000 in
theorem everyName_greeting : greeting.everyName isFreeWord := by
  have hfree : ∀ s k, isWordText s → capitalsOf s = k → isKeyword k = false → isFreeWord s := by
    rintro s k hword rfl hk
    rw [isFreeWord, hword, hk]
    rfl
  have hcall : isFreeWord "concat" :=
    hfree _ "CONCAT" (by decide) (by decide) (by simp [isKeyword, keywordTable])
  have hname : isFreeWord "user_id" :=
    hfree _ "USER_ID" (by decide) (by decide) (by simp [isKeyword, keywordTable])
  simp [greeting, everyName, everyNameOfAll, hcall, hname, lower, lowerChar]

theorem ofText_text_greeting : greeting.everyName isFreeWord ∧ greeting.depth ≤ nestingLimit ∧
    greeting.text = "concat('it''s (a, b)\n',concat(user_id),concat())" ∧
    ofText greeting.text = .ok greeting :=
  ⟨everyName_greeting, by decide, by decide, ofText_text everyName_greeting (by decide)⟩

end Expression

end SelectMerge
