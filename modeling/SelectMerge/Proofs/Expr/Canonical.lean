import Mathlib.Data.List.TakeWhile
import SelectMerge.Expr.Basic

/-!
# Reading canonical texts

A canonical text can be read in one way only, if names are not empty and hold none of the marks `'`,
`(`, `)` and `,` (`isPlainName`): a name ends where the first mark stands, a literal at a quote that
no other follows, and the arguments of a call at the parenthesis that closes it. So expressions with
such names are told apart by their texts, whatever their literals hold (`text_eq_iff`).

By induction over expressions and arguments together, a text that begins with the text of an
expression and goes on as an argument may (`Ends`) determines both the expression and the rest
(`eq_of_render_append`).
-/

namespace SelectMerge

namespace Expression

/-! ## Plain names -/

/-- Whether the character sets the parts of a canonical text apart. -/
def isMark (c : Char) : Bool := c == '\'' || c == '(' || c == ')' || c == ','

/-- Whether a name is not empty and holds no mark. -/
def isPlainName (name : String) : Bool := name != "" && name.toList.all fun c => !isMark c

mutual

/-- Whether all names in an expression are plain; its literals may hold any text. -/
def isPlain : Expression → Bool
  | identifier name => isPlainName name
  | literal _ => true
  | call name args => isPlainName name && arePlain args

def arePlain : List Expression → Bool
  | [] => true
  | x :: xs => isPlain x && arePlain xs

end

variable {name name' : String} {x y : Char} {xs ys r s t u : List Char}

theorem name_append_ne (h : isPlainName name) (hx : isMark x) : name.toList ++ r ≠ x :: s := by
  intro heq
  obtain ⟨hne, hall⟩ := Bool.and_eq_true_iff.mp h
  cases hname : name.toList with
  | nil => exact bne_iff_ne.mp hne (String.toList_eq_nil_iff.mp hname)
  | cons c cs =>
    rw [hname] at heq hall
    obtain rfl := (List.cons.inj heq).1
    simp [hx] at hall

theorem takeWhile_of_isPlainName (h : isPlainName name) (hr : ∀ c ∈ r.head?, isMark c) :
    (name.toList ++ r).takeWhile (fun c => !isMark c) = name.toList := by
  obtain ⟨-, hall⟩ := Bool.and_eq_true_iff.mp h
  rw [List.takeWhile_append_of_pos (List.all_eq_true.mp hall)]
  cases r with
  | nil => simp
  | cons c r =>
    have hc : isMark c := hr c rfl
    simp [hc]

theorem eq_of_name_append (h : isPlainName name) (h' : isPlainName name')
    (hr : ∀ c ∈ r.head?, isMark c) (hs : ∀ c ∈ s.head?, isMark c)
    (heq : name.toList ++ r = name'.toList ++ s) : name = name' ∧ r = s := by
  have hname : name.toList = name'.toList := by
    rw [← takeWhile_of_isPlainName h hr, heq, takeWhile_of_isPlainName h' hs]
  rw [hname] at heq
  exact ⟨String.toList_injective hname, List.append_cancel_left heq⟩

/-! ## Literals -/

theorem eq_of_quoteChar_append (h : quoteChar x ++ t = quoteChar y ++ u) : x = y ∧ t = u := by
  unfold quoteChar at h
  by_cases hx : x = '\'' <;> by_cases hy : y = '\'' <;>
    simp only [hx, hy, if_true, if_false, List.cons_append, List.nil_append, List.cons.injEq] at h
  · exact ⟨hx.trans hy.symm, h.2.2⟩
  · exact absurd h.1.symm hy
  · exact h.1.elim
  · exact h

theorem quoteChar_append_ne (hr : r.head? ≠ some '\'') : quoteChar y ++ t ≠ '\'' :: r := by
  intro h
  unfold quoteChar at h
  split at h
  · obtain rfl : '\'' :: t = r := by simpa using h
    exact hr rfl
  · rename_i hy
    exact hy (List.cons.inj h).1

theorem eq_of_quoted_append (hr : r.head? ≠ some '\'') (hs : s.head? ≠ some '\'')
    (h : xs.flatMap quoteChar ++ '\'' :: r = ys.flatMap quoteChar ++ '\'' :: s) :
    xs = ys ∧ r = s := by
  induction xs generalizing ys with
  | nil =>
    cases ys with
    | nil => exact ⟨rfl, (List.cons.inj h).2⟩
    | cons y ys =>
      rw [List.flatMap_cons, List.append_assoc] at h
      exact absurd h.symm (quoteChar_append_ne hr)
  | cons x xs ih =>
    cases ys with
    | nil =>
      rw [List.flatMap_cons, List.append_assoc] at h
      exact absurd h (quoteChar_append_ne hs)
    | cons y ys =>
      rw [List.flatMap_cons, List.flatMap_cons, List.append_assoc, List.append_assoc] at h
      obtain ⟨rfl, hrest⟩ := eq_of_quoteChar_append h
      obtain ⟨rfl, hrs⟩ := ih hrest
      exact ⟨rfl, hrs⟩

/-! ## Expressions -/

/-- Whether an expression may end before the text: nothing follows, or another argument, or the end
of the arguments. -/
def Ends (r : List Char) : Prop := ∀ c ∈ r.head?, c = ',' ∨ c = ')'

theorem Ends.isMark (hr : Ends r) : ∀ c ∈ r.head?, isMark c := by
  intro c hc
  rcases hr c hc with rfl | rfl <;> rfl

theorem Ends.head?_ne (hr : Ends r) (hx : x ≠ ',') (hx' : x ≠ ')') : r.head? ≠ some x := by
  intro hc
  rcases hr x hc with rfl | rfl
  · exact hx rfl
  · exact hx' rfl

theorem ends_close (r : List Char) : Ends (')' :: r) := by
  intro c hc
  exact .inr (Option.some.inj hc).symm

theorem ends_renderMore (es : List Expression) (r : List Char) :
    Ends (renderMore es ++ ')' :: r) := by
  cases es with
  | nil => exact ends_close r
  | cons e es =>
    intro c hc
    exact .inl (Option.some.inj hc).symm

theorem render_append_ne {e : Expression} (he : e.isPlain) : e.render ++ r ≠ ')' :: s := by
  cases e with
  | identifier name => exact name_append_ne he rfl
  | literal text =>
    intro h
    exact absurd (List.cons.inj h).1 (by decide)
  | call name args =>
    rw [render, List.append_assoc, List.append_assoc]
    exact name_append_ne (Bool.and_eq_true_iff.mp he).1 rfl

theorem name_append_ne_call (h : isPlainName name) (h' : isPlainName name') (hr : Ends r) :
    name.toList ++ r ≠ name'.toList ++ '(' :: s := by
  intro heq
  have hmark : ∀ c ∈ ('(' :: s).head?, isMark c := by simp [isMark]
  obtain ⟨-, rfl⟩ := eq_of_name_append h h' hr.isMark hmark heq
  exact hr.head?_ne (by decide) (by decide) rfl

mutual

/-- From a text that begins with an expression, the expression and the rest can be told. -/
theorem eq_of_render_append (a b : Expression) {r s : List Char} (ha : a.isPlain) (hb : b.isPlain)
    (hr : Ends r) (hs : Ends s) (h : a.render ++ r = b.render ++ s) : a = b ∧ r = s := by
  cases a with
  | identifier name =>
    cases b with
    | identifier name' =>
      obtain ⟨rfl, hrs⟩ := eq_of_name_append ha hb hr.isMark hs.isMark h
      exact ⟨rfl, hrs⟩
    | literal text =>
      simp only [render, List.cons_append] at h
      exact absurd h (name_append_ne ha rfl)
    | call name' args =>
      simp only [render, List.cons_append, List.append_assoc] at h
      exact absurd h (name_append_ne_call ha (Bool.and_eq_true_iff.mp hb).1 hr)
  | literal text =>
    cases b with
    | identifier name =>
      simp only [render, List.cons_append] at h
      exact absurd h.symm (name_append_ne hb rfl)
    | literal text' =>
      simp only [render, List.cons_append, List.append_assoc, List.nil_append, List.cons.injEq,
        true_and] at h
      obtain ⟨htext, hrs⟩ := eq_of_quoted_append (hr.head?_ne (by decide) (by decide))
        (hs.head?_ne (by decide) (by decide)) h
      exact ⟨congrArg literal (String.toList_injective htext), hrs⟩
    | call name args =>
      simp only [render, List.cons_append, List.append_assoc] at h
      exact absurd h.symm (name_append_ne (Bool.and_eq_true_iff.mp hb).1 rfl)
  | call name args =>
    obtain ⟨hname, hargs⟩ := Bool.and_eq_true_iff.mp ha
    cases b with
    | identifier name' =>
      simp only [render, List.cons_append, List.append_assoc] at h
      exact absurd h.symm (name_append_ne_call hb hname hs)
    | literal text =>
      simp only [render, List.cons_append, List.append_assoc] at h
      exact absurd h (name_append_ne hname rfl)
    | call name' args' =>
      obtain ⟨hname', hargs'⟩ := Bool.and_eq_true_iff.mp hb
      simp only [render, List.cons_append, List.append_assoc, List.nil_append] at h
      obtain ⟨rfl, hrest⟩ := eq_of_name_append hname hname' (by simp [isMark]) (by simp [isMark]) h
      obtain ⟨rfl, hrs⟩ := eq_of_renderArgs_append args args' hargs hargs' (List.cons.inj hrest).2
      exact ⟨rfl, hrs⟩

theorem eq_of_renderArgs_append (as bs : List Expression) {r s : List Char} (ha : arePlain as)
    (hb : arePlain bs) (h : renderArgs as ++ ')' :: r = renderArgs bs ++ ')' :: s) :
    as = bs ∧ r = s := by
  cases as with
  | nil =>
    cases bs with
    | nil => exact ⟨rfl, (List.cons.inj h).2⟩
    | cons b bs =>
      rw [renderArgs, renderArgs, List.append_assoc] at h
      exact absurd h.symm (render_append_ne (Bool.and_eq_true_iff.mp hb).1)
  | cons a as =>
    obtain ⟨ha, has⟩ := Bool.and_eq_true_iff.mp ha
    cases bs with
    | nil =>
      rw [renderArgs, renderArgs, List.append_assoc] at h
      exact absurd h (render_append_ne ha)
    | cons b bs =>
      obtain ⟨hb, hbs⟩ := Bool.and_eq_true_iff.mp hb
      rw [renderArgs, renderArgs, List.append_assoc, List.append_assoc] at h
      obtain ⟨rfl, hmore⟩ :=
        eq_of_render_append a b ha hb (ends_renderMore as r) (ends_renderMore bs s) h
      obtain ⟨rfl, hrs⟩ := eq_of_renderMore_append as bs has hbs hmore
      exact ⟨rfl, hrs⟩

theorem eq_of_renderMore_append (as bs : List Expression) {r s : List Char} (ha : arePlain as)
    (hb : arePlain bs) (h : renderMore as ++ ')' :: r = renderMore bs ++ ')' :: s) :
    as = bs ∧ r = s := by
  cases as with
  | nil =>
    cases bs with
    | nil => exact ⟨rfl, (List.cons.inj h).2⟩
    | cons b bs => exact absurd (List.cons.inj h).1 (by decide)
  | cons a as =>
    cases bs with
    | nil => exact absurd (List.cons.inj h).1 (by decide)
    | cons b bs =>
      obtain ⟨ha, has⟩ := Bool.and_eq_true_iff.mp ha
      obtain ⟨hb, hbs⟩ := Bool.and_eq_true_iff.mp hb
      simp only [renderMore, List.cons_append, List.append_assoc, List.cons.injEq, true_and] at h
      obtain ⟨rfl, hmore⟩ :=
        eq_of_render_append a b ha hb (ends_renderMore as r) (ends_renderMore bs s) h
      obtain ⟨rfl, hrs⟩ := eq_of_renderMore_append as bs has hbs hmore
      exact ⟨rfl, hrs⟩

end

theorem eq_of_text_eq {a b : Expression} (ha : a.isPlain) (hb : b.isPlain)
    (h : a.text = b.text) : a = b := by
  have hrender : a.render ++ [] = b.render ++ [] := by
    rw [List.append_nil, List.append_nil]
    exact String.ofList_injective h
  exact (eq_of_render_append a b ha hb (by simp [Ends]) (by simp [Ends]) hrender).1

/-- Expressions whose names are plain are told apart by their canonical texts, however deep they are
and whatever their literals hold. -/
theorem text_eq_iff {a b : Expression} (ha : a.isPlain) (hb : b.isPlain) :
    a.text = b.text ↔ a = b :=
  ⟨eq_of_text_eq ha hb, congrArg text⟩

/-! ### A literal that reads like arguments -/

/-- A call of two arguments, the first of them a text with quotes, a comma and a parenthesis. -/
def imitation : Expression := .call "f" [.literal "a','b'),g(", .call "g" []]

/-- A call of the arguments that the text of `imitation` imitates. -/
def imitated : Expression := .call "f" [.literal "a", .literal "b'),g(", .call "g" []]

theorem text_eq_iff_imitation : imitation.isPlain ∧ imitated.isPlain ∧
    imitation.text = "f('a'',''b''),g(',g())" ∧ imitated.text = "f('a','b''),g(',g())" ∧
    (imitation.text = imitated.text ↔ imitation = imitated) := by
  have ha : imitation.isPlain := by decide
  have hb : imitated.isPlain := by decide
  exact ⟨ha, hb, by decide, by decide, text_eq_iff ha hb⟩

end Expression

end SelectMerge
