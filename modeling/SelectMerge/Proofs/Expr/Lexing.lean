import Mathlib.Data.List.TakeDrop
import SelectMerge.Expr.Basic
import SelectMerge.Expr.Lexer

/-!
# Tokens of spelled texts

Tokens that are words, quoted texts, commas and parentheses (`Simple`) can be spelled one after
another, each with or without a blank before it (`spell`). A text so spelled has just these tokens
(`lex_spell`), as long as a word or a quoted text is not followed at once by another (`Spelled`).

A simple token is read off the front of a text that does not go on with it (`exists_lexOne_spell`,
`Breaks`); by induction so are all (`lexFrom_spell_append`). The second half has the spelling of
expressions: `Expression.tokens` spells an expression, and what can be spelled behind any tokens
(`Follows`) is closed under marks, words and lists.
-/

namespace SelectMerge.Expr

/-! ## Words -/

/-- Whether a character may stand in an ASCII word. -/
def isWordChar (c : Char) : Bool := c.isAlphanum || c == '_'

/-- Whether a text is an ASCII word: letters, digits and underscores after a letter. -/
def isWordText (s : String) : Bool := s.toList.head?.any Char.isAlpha && s.toList.all isWordChar

/-- The capitals of a text. -/
def capitalsOf (s : String) : String := String.ofList (s.toList.flatMap capitals)

/-- A text as a word without quotes. -/
def wordOf (s : String) : Lexeme := .word s none (capitalsOf s)

/-! ## Spelling -/

/-- The symbols of calls. -/
def marks : List String := ["(", ",", ")"]

namespace Lexeme

/-- The characters of a word, a quoted text or a symbol. -/
def spell : Lexeme → List Char
  | .word text _ _ => text.toList
  | .quoted text => '\'' :: text.toList.flatMap Expression.quoteChar ++ ['\'']
  | .symbol s => s.toList
  | _ => []

def isSymbol : Lexeme → Bool
  | .symbol _ => true
  | _ => false

/-- Whether a token is an ASCII word, a quoted text or a symbol of calls. -/
inductive Simple : Lexeme → Prop where
  | word {s : String} (h : isWordText s) : Simple (wordOf s)
  | quoted (text : String) : Simple (.quoted text)
  | symbol {s : String} (h : s ∈ marks) : Simple (.symbol s)

end Lexeme

/-- The characters of a token, with the blank before it. -/
def Token.spell (t : Token) : List Char := (if t.spaced then [' '] else []) ++ t.lexeme.spell

/-- The characters of tokens. -/
def spell (ts : List Token) : List Char := ts.flatMap Token.spell

/-- Whether tokens set off what stands right before them, be it a word. -/
def SetOff (ts : List Token) : Prop := ∀ t ∈ ts.head?, t.spaced ∨ t.lexeme.isSymbol

/-- Whether tokens are simple and can be told from each other when they are spelled. -/
def Spelled : List Token → Prop
  | [] => True
  | t :: ts => t.lexeme.Simple ∧ (t.lexeme.isSymbol ∨ SetOff ts) ∧ Spelled ts

variable {s : String} {c : Char} {cs rest : List Char} {x : Lexeme} {t : Token} {ts : List Token}
  {afterWord spaced : Bool}

theorem spell_cons (t : Token) (ts : List Token) : spell (t :: ts) = t.spell ++ spell ts := rfl

theorem spell_append (ts us : List Token) : spell (ts ++ us) = spell ts ++ spell us :=
  List.flatMap_append

theorem SetOff.append_left (h : SetOff ts) (hne : ts ≠ []) (us : List Token) :
    SetOff (ts ++ us) := by
  cases ts with
  | nil => exact absurd rfl hne
  | cons t ts => exact h

theorem Spelled.append {us : List Token} (h : Spelled ts) (hus : Spelled us) (hoff : SetOff us) :
    Spelled (ts ++ us) := by
  induction ts with
  | nil => exact hus
  | cons t ts ih =>
    obtain ⟨ht, hnext, hts⟩ := h
    refine ⟨ht, hnext.imp_right fun hts' => ?_, ih hts⟩
    by_cases hne : ts = []
    · rwa [hne]
    · exact hts'.append_left hne us

theorem Spelled.simple (h : Spelled ts) : ∀ t ∈ ts, t.lexeme.Simple := by
  induction ts with
  | nil => simp
  | cons t ts ih => exact List.forall_mem_cons.mpr ⟨h.1, ih h.2.2⟩

/-! ## Single tokens -/

/-- Whether the characters do not go on a word or a quoted text. -/
def Breaks (rest : List Char) : Prop := ∀ c ∈ rest.head?, c = ' ' ∨ c = '(' ∨ c = ',' ∨ c = ')'

theorem breaks_spell (h : Spelled ts) (hoff : SetOff ts) : Breaks (spell ts) := by
  cases ts with
  | nil => simp [spell, Breaks]
  | cons t ts =>
    obtain ⟨x, spaced⟩ := t
    intro c hc
    cases spaced with
    | true => exact .inl (Option.some.inj hc).symm
    | false =>
      rcases hoff _ rfl with hspaced | hsymbol
      · cases hspaced
      · cases h.1 with
        | word | quoted => cases hsymbol
        | symbol hs =>
          simp only [marks, List.mem_cons, List.not_mem_nil, or_false] at hs
          rcases hs with rfl | rfl | rfl
          · exact .inr (.inl (Option.some.inj hc).symm)
          · exact .inr (.inr (.inl (Option.some.inj hc).symm))
          · exact .inr (.inr (.inr (Option.some.inj hc).symm))

theorem toNat_of_isAlpha (h : c.isAlpha) :
    (65 ≤ c.toNat ∧ c.toNat ≤ 90) ∨ (97 ≤ c.toNat ∧ c.toNat ≤ 122) := by
  have hdef : c.isAlpha = (decide (65 ≤ c.val ∧ c.val ≤ 90) ||
      (decide (97 ≤ c.val) && decide (c.val ≤ 122))) := rfl
  rw [hdef] at h
  simpa [UInt32.le_iff_toNat_le] using h

theorem isBlank_of_isAlpha (h : c.isAlpha) : Text.isBlank c = false := by
  have hn := toNat_of_isAlpha h
  simp only [Text.isBlank, Bool.or_eq_false_iff, Bool.and_eq_false_iff, decide_eq_false_iff_not,
    beq_eq_false_iff_ne]
  omega

theorem isLetter_of_isAlpha (h : c.isAlpha) : Text.isLetter c := by
  have hn := toNat_of_isAlpha h
  rw [Text.isLetter, if_pos (by omega)]
  exact h

theorem continuesName_of_isWordChar (h : isWordChar c) : continuesName c := by
  rw [isWordChar, Char.isAlphanum, Bool.or_eq_true, Bool.or_eq_true] at h
  rw [continuesName, startsName]
  rcases h with (h | h) | h
  · simp [isLetter_of_isAlpha h]
  · simp [h]
  · simp [h]

theorem continuesName_of_breaks (h : Breaks rest) : ∀ c ∈ rest.head?, continuesName c = false := by
  intro c hc
  rcases h c hc with rfl | rfl | rfl | rfl <;> decide

theorem markedLiteral?_eq_none {mark : Char}
    (h : ∀ c ∈ cs.head?, c ≠ '\'' ∧ c ≠ '"' ∧ c ≠ '&') : markedLiteral? mark cs = none := by
  unfold markedLiteral?
  split
  case h_9 => rfl
  all_goals simp at h

theorem span_continuesName (hcs : cs.all isWordChar) (hrest : Breaks rest) :
    (cs ++ rest).span continuesName = (cs, rest) := by
  have hall : ∀ c ∈ cs, continuesName c :=
    fun c hc => continuesName_of_isWordChar (List.all_eq_true.mp hcs c hc)
  rw [List.span_eq_takeWhile_dropWhile, List.takeWhile_append_of_pos hall,
    List.dropWhile_append_of_pos hall]
  cases rest with
  | nil => simp
  | cons c rest => simp [continuesName_of_breaks hrest c rfl]

theorem plainWord_toList (s : String) : Lexeme.plainWord s.toList = wordOf s := by
  rw [Lexeme.plainWord, String.ofList_toList]
  rfl

theorem head_ne_of_isWordChar (hcs : cs.all isWordChar) (hrest : Breaks rest) :
    ∀ c ∈ (cs ++ rest).head?, c ≠ '\'' ∧ c ≠ '"' ∧ c ≠ '&' := by
  have hbreak : ∀ c, c = ' ' ∨ c = '(' ∨ c = ',' ∨ c = ')' → c ≠ '\'' ∧ c ≠ '"' ∧ c ≠ '&' := by
    rintro c (rfl | rfl | rfl | rfl) <;> decide
  cases cs with
  | nil => exact fun c hc => hbreak c (hrest c hc)
  | cons c cs =>
    have hc : isWordChar c := (Bool.and_eq_true_iff.mp hcs).1
    rintro d ⟨⟩
    refine ⟨?_, ?_, ?_⟩ <;> rintro rfl <;> revert hc <;> decide

theorem isDigit_of_isAlpha (hc : c.isAlpha) : c.isDigit = false := by
  have hn := toNat_of_isAlpha hc
  have hval : c.val.toNat = c.toNat := rfl
  have hnine : '9'.val.toNat = 57 := rfl
  simp only [Char.isDigit, UInt32.le_iff_toNat_le, ge_iff_le, Bool.and_eq_false_iff,
    decide_eq_false_iff_not]
  omega

theorem exists_cons_of_isWordText (hs : isWordText s) :
    ∃ c cs, s.toList = c :: cs ∧ c.isAlpha ∧ cs.all isWordChar := by
  obtain ⟨hhead, hall⟩ := Bool.and_eq_true_iff.mp hs
  cases hlist : s.toList with
  | nil =>
    rw [hlist] at hhead
    cases hhead
  | cons c cs =>
    rw [hlist] at hhead hall
    exact ⟨c, cs, rfl, hhead, (Bool.and_eq_true_iff.mp hall).2⟩

theorem lexOne_word (hs : isWordText s) (hrest : Breaks rest) :
    ∃ c cs, s.toList = c :: cs ∧
      lexOne afterWord c (cs ++ rest) = some (some (wordOf s), rest) := by
  obtain ⟨c, cs, hlist, hc, hcs⟩ := exists_cons_of_isWordText hs
  refine ⟨c, cs, hlist, ?_⟩
  have hstart : startsName c := by simp [startsName, isLetter_of_isAlpha hc]
  have hdigit : (c.isDigit || c == '.') = false := by
    have hpoint : c ≠ '.' := by
      rintro rfl
      revert hc
      decide
    simp [isDigit_of_isAlpha hc, hpoint]
  unfold lexOne
  simp only [isBlank_of_isAlpha hc, Bool.false_eq_true, if_false,
    markedLiteral?_eq_none (head_ne_of_isWordChar hcs hrest)]
  split
  case h_11 =>
    rw [if_neg (by simp [hdigit]), if_pos hstart, lexWord, span_continuesName hcs hrest]
    rw [← plainWord_toList, hlist]
    rfl
  all_goals exact absurd hc (by decide)

theorem closeQuote_flatMap_quoteChar (cs : List Char) (hrest : rest.head? ≠ some '\'') :
    closeQuote '\'' (cs.flatMap Expression.quoteChar ++ '\'' :: rest) = some (cs, rest) := by
  induction cs with
  | nil =>
    cases rest with
    | nil => rfl
    | cons c rest =>
      have hc : c ≠ '\'' := fun hc => hrest (congrArg some hc)
      simp [closeQuote, hc]
  | cons c cs ih =>
    rw [List.flatMap_cons, Expression.quoteChar]
    split
    · subst c
      simp only [List.cons_append, List.nil_append, closeQuote, if_true, ih, Option.map_some]
    · rename_i hc
      rw [List.cons_append, List.cons_append, List.nil_append, closeQuote.eq_def]
      simp only [hc, if_false, ih, Option.map_some]

theorem Breaks.head?_ne (h : Breaks rest) : rest.head? ≠ some '\'' := by
  intro hc
  rcases h _ hc with h | h | h | h <;> exact absurd h (by decide)

theorem markedLiteral?_mark {mark : Char}
    (h : mark = '\'' ∨ mark = '(' ∨ mark = ',' ∨ mark = ')') : markedLiteral? mark cs = none := by
  unfold markedLiteral?
  split
  case h_9 => rfl
  all_goals
    rename_i hmark
    rcases h with rfl | rfl | rfl | rfl <;> exact absurd hmark (by decide)

theorem lexOne_quoted (afterWord : Bool) (text : String) (hrest : Breaks rest) :
    lexOne afterWord '\'' (text.toList.flatMap Expression.quoteChar ++ '\'' :: rest) =
      some (some (.quoted text), rest) := by
  have hclose := closeQuote_flatMap_quoteChar text.toList hrest.head?_ne
  unfold lexOne
  rw [if_neg (by decide), markedLiteral?_mark (.inl rfl)]
  simp only [hclose, Option.map_some, String.ofList_toList]

theorem head_of_mem_longSymbols (hs : s ∈ longSymbols) :
    ∃ c cs, s.toList = c :: cs ∧ c ≠ '(' ∧ c ≠ ',' ∧ c ≠ ')' := by
  have hall : longSymbols.all fun s =>
      s.toList.head?.any fun c => c != '(' && c != ',' && c != ')' := by decide
  have hhead := List.all_eq_true.mp hall s hs
  cases hlist : s.toList with
  | nil => simp [hlist] at hhead
  | cons c cs => exact ⟨c, cs, rfl, by simpa [hlist, and_assoc] using hhead⟩

theorem lexSymbol_mark (hc : c = '(' ∨ c = ',' ∨ c = ')') :
    lexSymbol c cs = (.symbol (String.singleton c), cs) := by
  have hnone : (longSymbols.find? fun s => s.toList.isPrefixOf (c :: cs)) = none := by
    rw [List.find?_eq_none]
    intro s hs
    obtain ⟨d, ds, hlist, hne⟩ := head_of_mem_longSymbols hs
    rw [hlist]
    rcases hc with rfl | rfl | rfl <;> simp [List.isPrefixOf, hne]
  rw [lexSymbol, hnone]

theorem lexOne_mark (hc : c = '(' ∨ c = ',' ∨ c = ')') :
    lexOne afterWord c rest = some (some (.symbol (String.singleton c)), rest) := by
  have hblank : Text.isBlank c = false := by rcases hc with rfl | rfl | rfl <;> decide
  have hdigit : (c.isDigit || c == '.') = false := by rcases hc with rfl | rfl | rfl <;> decide
  have hstart : startsName c = false := by rcases hc with rfl | rfl | rfl <;> decide
  unfold lexOne
  simp only [hblank, Bool.false_eq_true, if_false, markedLiteral?_mark (.inr hc)]
  split
  case h_11 => simp only [hdigit, hstart, Bool.false_eq_true, if_false, lexSymbol_mark hc]
  all_goals rcases hc with hc | hc | hc <;> exact absurd hc (by decide)

theorem exists_lexOne_spell (afterWord : Bool) (hx : x.Simple) (hrest : x.isSymbol ∨ Breaks rest) :
    ∃ c cs, x.spell ++ rest = c :: cs ∧ lexOne afterWord c cs = some (some x, rest) := by
  cases hx with
  | word hs =>
    obtain ⟨c, cs, hlist, hlex⟩ := lexOne_word hs (hrest.resolve_left Bool.false_ne_true)
    exact ⟨c, cs ++ rest, by rw [wordOf, Lexeme.spell, hlist]; rfl, hlex⟩
  | quoted text =>
    have hlex := lexOne_quoted afterWord text (hrest.resolve_left Bool.false_ne_true)
    exact ⟨'\'', _, by simp [Lexeme.spell], hlex⟩
  | symbol hs =>
    simp only [marks, List.mem_cons, List.not_mem_nil, or_false] at hs
    rcases hs with rfl | rfl | rfl
    · exact ⟨'(', rest, rfl, lexOne_mark (.inl rfl)⟩
    · exact ⟨',', rest, rfl, lexOne_mark (.inr (.inl rfl))⟩
    · exact ⟨')', rest, rfl, lexOne_mark (.inr (.inr rfl))⟩

/-! ## All tokens -/

/-- A text that starts with a simple token has that token and those of the rest. -/
theorem lexFrom_spell_append (hx : x.Simple) (hrest : x.isSymbol ∨ Breaks rest) {fuel : Nat} :
    lexFrom (fuel + 1) afterWord spaced (x.spell ++ rest) =
      (lexFrom fuel x.isWord false rest).map (⟨x, spaced⟩ :: ·) := by
  obtain ⟨c, cs, hcons, hlex⟩ := exists_lexOne_spell afterWord hx hrest
  rw [hcons, lexFrom, hlex]
  cases hmore : lexFrom fuel x.isWord false rest <;> simp [hmore]

theorem length_spell_pos (hx : x.Simple) : 0 < x.spell.length := by
  obtain ⟨c, cs, hcons, -⟩ := exists_lexOne_spell false hx (.inr (by simp [Breaks] : Breaks []))
  rw [List.append_nil] at hcons
  rw [hcons]
  exact Nat.zero_lt_succ _

theorem lexFrom_spell (h : Spelled ts) {fuel : Nat} (hfuel : (spell ts).length ≤ fuel) :
    lexFrom fuel afterWord false (spell ts) = some ts := by
  induction ts generalizing fuel afterWord with
  | nil =>
    rw [spell, List.flatMap_nil]
    cases fuel <;> rfl
  | cons t ts ih =>
    obtain ⟨hx, hoff, hts⟩ := h
    have hpos := length_spell_pos hx
    have hbreaks : t.lexeme.isSymbol ∨ Breaks (spell ts) := hoff.imp_right (breaks_spell hts)
    obtain ⟨x, spaced⟩ := t
    rw [spell_cons, Token.spell] at hfuel ⊢
    cases spaced with
    | false =>
      simp only [Bool.false_eq_true, if_false, List.nil_append, List.length_append] at hfuel hpos ⊢
      obtain ⟨fuel, rfl⟩ := Nat.exists_eq_add_one_of_ne_zero (show fuel ≠ 0 by omega)
      rw [lexFrom_spell_append hx hbreaks, ih hts (by omega)]
      rfl
    | true =>
      simp only [if_true, List.cons_append, List.nil_append, List.length_cons,
        List.length_append] at hfuel hpos ⊢
      obtain ⟨fuel, rfl⟩ := Nat.exists_eq_add_of_le' (show 2 ≤ fuel by omega)
      have hblank : lexFrom (fuel + 2) afterWord false (' ' :: (x.spell ++ spell ts)) =
          lexFrom (fuel + 1) false true (x.spell ++ spell ts) := rfl
      rw [hblank, lexFrom_spell_append hx hbreaks, ih hts (by omega)]
      rfl

/-- A text that spells tokens has just these tokens. -/
theorem lex_spell (h : Spelled ts) : lex (spell ts) = some ts := lexFrom_spell h (Nat.le_refl _)

/-! ## Items and their commas -/

/-- A mark of calls, without a blank before it. -/
def mark (s : String) : Token := ⟨.symbol s, false⟩

/-- Tokens of items with commas between. -/
def listed (tss : List (List Token)) : List Token := [mark ","].intercalate tss

theorem listed_cons_cons (ts us : List Token) (tss : List (List Token)) :
    listed (ts :: us :: tss) = ts ++ mark "," :: listed (us :: tss) := by
  simp [listed, List.intercalate_cons_cons]

theorem listed_singleton (ts : List Token) : listed [ts] = ts := List.intercalate_singleton

theorem spelled_mark (hs : s ∈ marks) (h : Spelled ts) : Spelled (⟨.symbol s, spaced⟩ :: ts) :=
  ⟨.symbol hs, .inl rfl, h⟩

theorem spelled_word (hs : isWordText s) (h : Spelled ts) (hoff : SetOff ts) :
    Spelled (⟨wordOf s, spaced⟩ :: ts) := ⟨.word hs, .inr hoff, h⟩

theorem setOff_mark : SetOff (⟨.symbol s, spaced⟩ :: ts) := by
  rintro t ⟨⟩
  exact .inr rfl

theorem setOff_spaced : SetOff (⟨x, true⟩ :: ts) := by
  rintro t ⟨⟩
  exact .inl rfl

theorem spelled_listed {tss : List (List Token)} (h : ∀ ts ∈ tss, Spelled ts) :
    Spelled (listed tss) := by
  induction tss with
  | nil => trivial
  | cons ts tss ih =>
    obtain ⟨hts, htss⟩ := List.forall_mem_cons.mp h
    cases tss with
    | nil => rwa [listed_singleton]
    | cons us tss =>
      rw [listed_cons_cons]
      exact hts.append (spelled_mark (by decide) (ih htss)) setOff_mark

/-- Whether tokens can be spelled behind any others. -/
structure Follows (ts : List Token) : Prop where
  spelled : Spelled ts
  setOff : SetOff ts

namespace Follows

theorem nil : Follows [] := ⟨trivial, by simp [SetOff]⟩

theorem mark (hs : s ∈ marks) (h : Spelled ts) : Follows (⟨.symbol s, spaced⟩ :: ts) :=
  ⟨spelled_mark hs h, setOff_mark⟩

theorem word (hs : isWordText s) (h : Follows ts) : Follows (⟨wordOf s, true⟩ :: ts) :=
  ⟨spelled_word hs h.spelled h.setOff, setOff_spaced⟩

theorem append {us : List Token} (h : Follows ts) (hus : Follows us) : Follows (ts ++ us) := by
  refine ⟨h.spelled.append hus.spelled hus.setOff, ?_⟩
  by_cases hne : ts = []
  · rw [hne]
    exact hus.setOff
  · exact h.setOff.append_left hne us

theorem listed {tss : List (List Token)} (h : ∀ ts ∈ tss, Spelled ts)
    (hoff : ∀ ts ∈ tss.head?, SetOff ts) : Follows (listed tss) := by
  refine ⟨spelled_listed h, ?_⟩
  cases tss with
  | nil => exact nil.setOff
  | cons ts tss =>
    cases tss with
    | nil =>
      rw [listed_singleton]
      exact hoff ts rfl
    | cons us tss =>
      rw [listed_cons_cons]
      by_cases hne : ts = []
      · rw [hne]
        exact setOff_mark
      · exact (hoff ts rfl).append_left hne _

end Follows

end SelectMerge.Expr

/-! ## Expressions -/

namespace SelectMerge.Expression

open SelectMerge.Expr

mutual

/-- The tokens of the canonical text, with or without a blank before the first. -/
def tokens (spaced : Bool) : Expression → List Token
  | identifier name => [⟨wordOf name, spaced⟩]
  | literal text => [⟨.quoted text, spaced⟩]
  | call name args =>
    ⟨wordOf name, spaced⟩ :: mark "(" :: (listed (tokensOfAll args) ++ [mark ")"])

def tokensOfAll : List Expression → List (List Token)
  | [] => []
  | e :: es => e.tokens false :: tokensOfAll es

end

mutual

/-- Whether all names in an expression meet a condition, and those of calls are in small letters. -/
def everyName (p : String → Bool) : Expression → Bool
  | identifier name => p name
  | literal _ => true
  | call name args => p name && lower name == name && everyNameOfAll p args

def everyNameOfAll (p : String → Bool) : List Expression → Bool
  | [] => true
  | e :: es => e.everyName p && everyNameOfAll p es

end

theorem tokensOfAll_eq (es : List Expression) : tokensOfAll es = es.map (tokens false) := by
  induction es with
  | nil => rfl
  | cons e es ih => rw [tokensOfAll, ih, List.map_cons]

theorem everyNameOfAll_iff {p : String → Bool} {es : List Expression} :
    everyNameOfAll p es ↔ ∀ e ∈ es, e.everyName p := by
  induction es with
  | nil => simp [everyNameOfAll]
  | cons e es ih => rw [everyNameOfAll, Bool.and_eq_true, ih, List.forall_mem_cons]

mutual

theorem spell_tokens (e : Expression) : spell (e.tokens false) = e.render := by
  cases e with
  | identifier name => simp [tokens, spell, Token.spell, Lexeme.spell, wordOf, render]
  | literal text => simp [tokens, spell, Token.spell, Lexeme.spell, render]
  | call name args =>
    have hargs := spell_listed_tokensOfAll args
    rw [tokens, spell_cons, spell_cons, spell_append, hargs]
    simp [spell, Token.spell, Lexeme.spell, wordOf, mark, render]

theorem spell_listed_tokensOfAll (es : List Expression) :
    spell (listed (tokensOfAll es)) = renderArgs es := by
  cases es with
  | nil => rfl
  | cons e es =>
    have he := spell_tokens e
    have hes := spell_listed_tokensOfAll es
    cases es with
    | nil => rw [tokensOfAll, tokensOfAll, listed_singleton, he, renderArgs, renderMore,
        List.append_nil]
    | cons e' es =>
      have hcomma : (mark ",").spell = [','] := rfl
      have hmore : renderMore (e' :: es) = ',' :: renderArgs (e' :: es) := rfl
      rw [tokensOfAll, renderArgs, hmore, ← hes, tokensOfAll, listed_cons_cons, spell_append, he,
        spell_cons, hcomma]
      rfl

end

mutual

theorem spelled_tokens {p : String → Bool} (hp : ∀ s, p s → isWordText s) (e : Expression)
    (h : e.everyName p) (spaced : Bool) : Spelled (e.tokens spaced) := by
  cases e with
  | identifier name => exact spelled_word (hp name h) trivial (by simp [SetOff])
  | literal text => exact ⟨.quoted text, .inr (by simp [SetOff]), trivial⟩
  | call name args =>
    rw [everyName, Bool.and_eq_true, Bool.and_eq_true] at h
    have hargs := spelled_listed (spelled_tokensOfAll hp args h.2)
    have hclose : Spelled [mark ")"] := spelled_mark (by decide) trivial
    have hclosed := hargs.append hclose setOff_mark
    exact spelled_word (hp name h.1.1) (spelled_mark (by decide) hclosed) setOff_mark

theorem spelled_tokensOfAll {p : String → Bool} (hp : ∀ s, p s → isWordText s)
    (es : List Expression) (h : everyNameOfAll p es) : ∀ ts ∈ tokensOfAll es, Spelled ts := by
  cases es with
  | nil => simp [tokensOfAll]
  | cons e es =>
    rw [everyNameOfAll, Bool.and_eq_true] at h
    exact List.forall_mem_cons.mpr ⟨spelled_tokens hp e h.1 false, spelled_tokensOfAll hp es h.2⟩

end

end SelectMerge.Expression
