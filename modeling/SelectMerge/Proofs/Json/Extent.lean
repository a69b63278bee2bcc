import Mathlib.Algebra.GroupWithZero.Nat
import Mathlib.Data.String.Basic
import SelectMerge.Json.Tree

/-!
# How large a document is

What a document holds is no larger than the text that it is read from (`Json.sum_sizes_of_read?`):
an escape is longer than the character it names, every item and every field takes characters of its
own, and of two fields with one name only one is kept.

`JsonTree.extent` is the size of a text as written. The readers of values, items and members charge
for it together, by induction on their steps (`Charges`, `charges`), and the document that a text
stands for is no larger than its extent (`sum_sizes_of_doc?`).
-/

namespace SelectMerge

/-! ## Sizes -/

namespace Json

mutual

/-- The sizes of all texts, lists and objects in a document: the bytes of texts and of names, the
items of lists and the fields of objects. -/
def sizes : Json → List Nat
  | .text s => [s.utf8ByteSize]
  | .list xs => xs.length :: itemSizes xs
  | .object fields => fields.length :: fieldSizes fields
  | _ => []

def itemSizes : List Json → List Nat
  | [] => []
  | x :: xs => x.sizes ++ itemSizes xs

def fieldSizes : List (String × Json) → List Nat
  | [] => []
  | (name, x) :: fields => name.utf8ByteSize :: x.sizes ++ fieldSizes fields

end

end Json

namespace JsonTree

/-- The bytes of a string; one that is missing has none. -/
def stringExtent (s : Option String) : Nat := s.elim 0 String.utf8ByteSize

mutual

/-- The sizes of all strings, lists and objects in a text, together. -/
def extent : JsonTree → Nat
  | .text s => stringExtent s
  | .list xs => xs.length + itemsExtent xs
  | .object members => members.length + membersExtent members
  | _ => 0

def itemsExtent : List JsonTree → Nat
  | [] => 0
  | x :: xs => x.extent + itemsExtent xs

def membersExtent : List (Option String × JsonTree) → Nat
  | [] => 0
  | (name, x) :: members => stringExtent name + x.extent + membersExtent members

end

/-! ## Strings -/

/-- The bytes that a piece takes at most. -/
def Piece.extent : Piece → Nat
  | .char c => c.utf8Size
  | .unit _ => 4

def piecesExtent : List Piece → Nat
  | [] => 0
  | p :: ps => p.extent + piecesExtent ps

variable {cs rest : List Char}

theorem utf8Size_of_escaped? {e c : Char} (h : escaped? e = some c) : c.utf8Size = 1 := by
  rw [escaped?.eq_def] at h
  split at h
  all_goals cases h
  all_goals rfl

theorem utf8Len_of_chars? {ps : List Piece} (h : chars? ps = some cs) :
    String.utf8Len cs ≤ piecesExtent ps := by
  have hunit : ∀ (c : Char) (cs : List Char) (bound : Nat), String.utf8Len cs ≤ bound →
      String.utf8Len (c :: cs) ≤ 4 + bound := by
    intro c cs bound h
    have hsize := c.utf8Size_le_four
    rw [String.utf8Len_cons]
    omega
  fun_induction chars? ps generalizing cs with
  | case1 =>
    cases h
    exact Nat.zero_le _
  | case2 c ps ih =>
    obtain ⟨tail, htail, rfl⟩ := Option.map_eq_some_iff.mp h
    rw [String.utf8Len_cons, Nat.add_comm]
    exact Nat.add_le_add_left (ih htail) _
  | case3 high low ps _ _ ih =>
    -- two units make one character
    obtain ⟨tail, htail, rfl⟩ := Option.map_eq_some_iff.mp h
    exact (hunit _ tail _ (ih htail)).trans (Nat.add_le_add_left (Nat.le_add_left _ _) _)
  | case6 _ _ _ _ _ ih | case8 _ _ _ _ ih =>
    obtain ⟨tail, htail, rfl⟩ := Option.map_eq_some_iff.mp h
    exact hunit _ tail _ (ih htail)
  | case4 | case5 | case7 => cases h

theorem extent_of_pieces? {ps : List Piece} (h : pieces? cs = some (ps, rest)) :
    piecesExtent ps + 1 + String.utf8Len rest ≤ String.utf8Len cs := by
  fun_induction pieces? cs generalizing ps rest with
  | case1 tail =>
    cases h
    have hquote : ('"').utf8Size = 1 := rfl
    rw [String.utf8Len_cons, hquote, piecesExtent]
    omega
  | case2 a b c d tail ih =>
    obtain ⟨n, -, h⟩ := Option.bind_eq_some_iff.mp h
    obtain ⟨⟨ps', rest'⟩, htail, h⟩ := Option.bind_eq_some_iff.mp h
    cases h
    have hlen := ih htail
    have hpos := Char.utf8Size_pos
    have := hpos '\\'; have := hpos 'u'
    have := hpos a; have := hpos b; have := hpos c; have := hpos d
    simp only [String.utf8Len_cons, piecesExtent, Piece.extent]
    omega
  | case3 e tail _ ih =>
    obtain ⟨c, hc, h⟩ := Option.bind_eq_some_iff.mp h
    obtain ⟨⟨ps', rest'⟩, htail, h⟩ := Option.bind_eq_some_iff.mp h
    cases h
    have hlen := ih htail
    have := e.utf8Size_pos
    simp only [String.utf8Len_cons, piecesExtent, Piece.extent, utf8Size_of_escaped? hc]
    omega
  | case5 c tail _ _ _ _ ih =>
    obtain ⟨⟨ps', rest'⟩, htail, h⟩ := Option.bind_eq_some_iff.mp h
    cases h
    have hlen := ih htail
    simp only [String.utf8Len_cons, piecesExtent, Piece.extent]
    omega
  | case4 | case6 => cases h

theorem extent_of_string? {s : Option String} (h : string? cs = some (s, rest)) :
    stringExtent s + 1 + String.utf8Len rest ≤ String.utf8Len cs := by
  obtain ⟨⟨ps, rest'⟩, hps, h⟩ := Option.bind_eq_some_iff.mp h
  cases h
  have hlen := extent_of_pieces? hps
  cases hchars : chars? ps with
  | none =>
    rw [Option.map_none, stringExtent, Option.elim_none]
    omega
  | some chars =>
    have := utf8Len_of_chars? hchars
    rw [Option.map_some, stringExtent, Option.elim_some, String.utf8ByteSize_ofList]
    omega

/-! ## Numbers -/

theorem utf8Len_skipBlanks_le (cs : List Char) :
    String.utf8Len (skipBlanks cs) ≤ String.utf8Len cs :=
  String.utf8Len_le_of_suffix (List.dropWhile_suffix _)

theorem length_add_utf8Len_digits (cs : List Char) :
    (digits cs).1.length + String.utf8Len (digits cs).2 ≤ String.utf8Len cs := by
  rw [digits, List.length_map]
  show (cs.takeWhile Char.isDigit).length + String.utf8Len (cs.dropWhile Char.isDigit) ≤ _
  induction cs with
  | nil => exact Nat.le_refl _
  | cons c cs ih =>
    have := c.utf8Size_pos
    by_cases hc : c.isDigit
    · rw [List.takeWhile_cons_of_pos hc, List.dropWhile_cons_of_pos hc, List.length_cons,
        String.utf8Len_cons]
      omega
    · rw [List.takeWhile_cons_of_neg hc, List.dropWhile_cons_of_neg hc]
      exact (Nat.zero_add _).le

theorem utf8Len_digits_le (cs : List Char) : String.utf8Len (digits cs).2 ≤ String.utf8Len cs :=
  (Nat.le_add_left _ _).trans (length_add_utf8Len_digits cs)

theorem utf8Len_of_fraction? {fraction : Option (List Nat)}
    (h : fraction? cs = some (fraction, rest)) : String.utf8Len rest ≤ String.utf8Len cs := by
  unfold fraction? at h
  split at h
  · rename_i tail
    have hlen := utf8Len_digits_le tail
    split at h
    · cases h
    · rename_i ds rest' hdigits
      cases h
      rw [hdigits] at hlen
      exact hlen.trans (Nat.le_add_right _ _)
  · cases h
    exact Nat.le_refl _

theorem utf8Len_of_exponentDigits? {down : Bool} {exponent : Option (Bool × List Nat)}
    (h : exponentDigits? down cs = some (exponent, rest)) :
    String.utf8Len rest ≤ String.utf8Len cs := by
  have hlen := utf8Len_digits_le cs
  unfold exponentDigits? at h
  split at h
  · cases h
  · rename_i ds rest' hdigits
    cases h
    rwa [hdigits] at hlen

theorem utf8Len_of_exponent? {exponent : Option (Bool × List Nat)}
    (h : exponent? cs = some (exponent, rest)) : String.utf8Len rest ≤ String.utf8Len cs := by
  unfold exponent? at h
  split at h
  · rename_i c tail
    split at h
    · have htail : String.utf8Len rest ≤ String.utf8Len tail := by
        split at h
        all_goals have hlen := utf8Len_of_exponentDigits? h
        · exact hlen.trans (Nat.le_add_right _ _)
        · exact hlen.trans (Nat.le_add_right _ _)
        · exact hlen
      exact htail.trans (Nat.le_add_right _ _)
    · cases h
      exact Nat.le_refl _
  · cases h
    exact Nat.le_refl _

theorem extent_of_number? {negative : Bool} {x : JsonTree}
    (h : number? negative cs = some (x, rest)) :
    x.extent + 1 + String.utf8Len rest ≤ String.utf8Len cs := by
  have hlen := length_add_utf8Len_digits cs
  rw [number?] at h
  generalize digits cs = ds at h hlen
  obtain ⟨whole, tail⟩ := ds
  dsimp only at h hlen
  split at h
  · cases h
  · rename_i hwhole
    have hpos : 0 < whole.length := List.length_pos_iff.mpr fun h => hwhole (.inl h)
    obtain ⟨⟨fraction, tail₁⟩, hfraction, h⟩ := Option.bind_eq_some_iff.mp h
    obtain ⟨⟨exponent, tail₂⟩, hexponent, h⟩ := Option.bind_eq_some_iff.mp h
    cases h
    have htail₁ : String.utf8Len tail₁ ≤ String.utf8Len tail := utf8Len_of_fraction? hfraction
    have htail₂ : String.utf8Len tail₂ ≤ String.utf8Len tail₁ := utf8Len_of_exponent? hexponent
    dsimp only [extent]
    omega

/-! ## Values -/

/-- What the readers of values, items and members with at most `n` steps return is no larger than
what they take; every value takes a character, and one more ends each item and member. -/
structure Charges (n : Nat) : Prop where
  value {cs rest : List Char} {x : JsonTree} : value? n cs = some (x, rest) →
    x.extent + 1 + String.utf8Len rest ≤ String.utf8Len cs
  items {cs rest : List Char} {xs : List JsonTree} : items? n cs = some (xs, rest) →
    xs.length + itemsExtent xs + String.utf8Len rest ≤ String.utf8Len cs
  members {cs rest : List Char} {ms : List (Option String × JsonTree)} :
    members? n cs = some (ms, rest) →
      ms.length + membersExtent ms + String.utf8Len rest ≤ String.utf8Len cs

theorem Charges.value_succ {n : Nat} (hn : Charges n) {x : JsonTree}
    (h : value? (n + 1) cs = some (x, rest)) :
    x.extent + 1 + String.utf8Len rest ≤ String.utf8Len cs := by
  refine Nat.le_trans ?_ (utf8Len_skipBlanks_le cs)
  rw [value?] at h
  generalize skipBlanks cs = cs at h
  have hpos := Char.utf8Size_pos
  split at h
  · cases h
    have := hpos 'n'
    simp only [extent, String.utf8Len_cons]
    omega
  · cases h
    have := hpos 't'
    simp only [extent, String.utf8Len_cons]
    omega
  · cases h
    have := hpos 'f'
    simp only [extent, String.utf8Len_cons]
    omega
  · obtain ⟨⟨s, tail⟩, hs, h⟩ := Option.map_eq_some_iff.mp h
    cases h
    exact (extent_of_string? hs).trans (Nat.le_add_right _ _)
  · rename_i tail
    have hbracket := hpos '['
    have htail := utf8Len_skipBlanks_le tail
    rw [String.utf8Len_cons]
    split at h
    · rename_i tail' htail'
      cases h
      rw [htail', String.utf8Len_cons] at htail
      simp only [extent, itemsExtent, List.length_nil]
      omega
    · obtain ⟨⟨xs, tail'⟩, hxs, h⟩ := Option.map_eq_some_iff.mp h
      cases h
      have hlen := hn.items hxs
      rw [extent]
      omega
  · rename_i tail
    have hbrace := hpos '\x7b'
    have htail := utf8Len_skipBlanks_le tail
    rw [String.utf8Len_cons]
    split at h
    · rename_i tail' htail'
      cases h
      rw [htail', String.utf8Len_cons] at htail
      simp only [extent, membersExtent, List.length_nil]
      omega
    · obtain ⟨⟨ms, tail'⟩, hms, h⟩ := Option.map_eq_some_iff.mp h
      cases h
      have hlen := hn.members hms
      rw [extent]
      omega
  · exact (extent_of_number? h).trans (Nat.le_add_right _ _)
  · exact extent_of_number? h

theorem Charges.items_succ {n : Nat} (hn : Charges n) {xs : List JsonTree}
    (h : items? (n + 1) cs = some (xs, rest)) :
    xs.length + itemsExtent xs + String.utf8Len rest ≤ String.utf8Len cs := by
  rw [items?] at h
  obtain ⟨⟨x, tail⟩, hx, h⟩ := Option.bind_eq_some_iff.mp h
  have hhead := hn.value hx
  have htail := utf8Len_skipBlanks_le tail
  dsimp only at h
  split at h
  · rename_i tail' htail'
    obtain ⟨⟨ys, tail''⟩, hys, h⟩ := Option.bind_eq_some_iff.mp h
    cases h
    have hlen := hn.items hys
    rw [htail', String.utf8Len_cons] at htail
    dsimp only [List.length_cons, itemsExtent]
    omega
  · rename_i tail' htail'
    cases h
    rw [htail', String.utf8Len_cons] at htail
    simp only [List.length_singleton, itemsExtent]
    omega
  · cases h

theorem Charges.members_succ {n : Nat} (hn : Charges n) {ms : List (Option String × JsonTree)}
    (h : members? (n + 1) cs = some (ms, rest)) :
    ms.length + membersExtent ms + String.utf8Len rest ≤ String.utf8Len cs := by
  refine Nat.le_trans ?_ (utf8Len_skipBlanks_le cs)
  rw [members?] at h
  generalize skipBlanks cs = cs at h
  split at h
  · rename_i tail₀
    rw [String.utf8Len_cons]
    obtain ⟨⟨name, tail₁⟩, hname, h⟩ := Option.bind_eq_some_iff.mp h
    have hname := extent_of_string? hname
    have hcolon := utf8Len_skipBlanks_le tail₁
    dsimp only at h
    split at h
    · rename_i tail₂ htail₂
      rw [htail₂, String.utf8Len_cons] at hcolon
      obtain ⟨⟨x, tail₃⟩, hx, h⟩ := Option.bind_eq_some_iff.mp h
      have hx := hn.value hx
      have hend := utf8Len_skipBlanks_le tail₃
      dsimp only at h
      split at h
      · rename_i tail₄ htail₄
        obtain ⟨⟨ms', tail₅⟩, hms, h⟩ := Option.bind_eq_some_iff.mp h
        cases h
        have hms := hn.members hms
        rw [htail₄, String.utf8Len_cons] at hend
        dsimp only [List.length_cons, membersExtent]
        omega
      · rename_i tail₄ htail₄
        cases h
        rw [htail₄, String.utf8Len_cons] at hend
        simp only [List.length_singleton, membersExtent]
        omega
      · cases h
    · cases h
  · cases h

theorem charges (n : Nat) : Charges n := by
  induction n with
  | zero => exact ⟨nofun, nofun, nofun⟩
  | succ n ih => exact ⟨ih.value_succ, ih.items_succ, ih.members_succ⟩

theorem extent_of_read? {x : JsonTree} (h : read? cs = some x) :
    x.extent ≤ String.utf8Len cs := by
  obtain ⟨⟨y, tail⟩, hy, h⟩ := Option.bind_eq_some_iff.mp h
  dsimp only at h
  split at h
  · cases h
    have hlen := (charges _).value hy
    omega
  · cases h

end JsonTree

/-! ## Documents -/

namespace Json

theorem sum_fieldSizes_insertField (name : String) (x : Json) (fields : List (String × Json)) :
    (insertField name x fields).length + (fieldSizes (insertField name x fields)).sum ≤
      fields.length + (fieldSizes fields).sum + (1 + name.utf8ByteSize + x.sizes.sum) := by
  induction fields with
  | nil =>
    simp only [insertField, fieldSizes, List.length_cons, List.sum_cons, List.sum_append,
      List.cons_append, List.length_nil, List.sum_nil]
    omega
  | cons field fields ih =>
    obtain ⟨n, y⟩ := field
    rw [insertField]
    split
    · simp only [fieldSizes, List.length_cons, List.sum_cons, List.sum_append, List.cons_append]
      omega
    · split
      · simp only [fieldSizes, List.length_cons, List.sum_cons, List.sum_append, List.cons_append]
        omega
      · simp only [fieldSizes, List.length_cons, List.sum_cons, List.sum_append, List.cons_append]
        omega

theorem sum_sizes_ofFields (fields : List (String × Json)) :
    (ofFields fields).sizes.sum ≤ fields.length + (fieldSizes fields).sum := by
  have hfold : ∀ acc : List (String × Json),
      (sizes (.object (fields.foldl (fun acc f => insertField f.1 f.2 acc) acc))).sum ≤
        acc.length + (fieldSizes acc).sum + (fields.length + (fieldSizes fields).sum) := by
    induction fields with
    | nil => exact fun acc => by simp [sizes]
    | cons field fields ih =>
      intro acc
      have hinsert := sum_fieldSizes_insertField field.1 field.2 acc
      have hrest := ih (insertField field.1 field.2 acc)
      simp only [fieldSizes, List.length_cons, List.sum_cons, List.sum_append, List.cons_append,
        List.foldl_cons] at hrest ⊢
      omega
  rw [ofFields]
  simpa [fieldSizes] using hfold []

end Json

namespace JsonTree

mutual

theorem sum_sizes_of_doc? {depth : Nat} {j : Json} :
    ∀ {x : JsonTree}, doc? depth x = some j → j.sizes.sum ≤ x.extent
  | .null, h | .bool _, h => by
    rw [doc?] at h
    cases h
    exact Nat.zero_le _
  | .number x, h => by
    rw [doc?] at h
    obtain ⟨y, -, rfl⟩ := Option.map_eq_some_iff.mp h
    cases y <;> exact Nat.zero_le _
  | .text s, h => by
    rw [doc?] at h
    obtain ⟨s, rfl, rfl⟩ := Option.map_eq_some_iff.mp h
    rw [extent, stringExtent, Json.sizes, List.sum_singleton]
    exact Nat.le_refl _
  | .list xs, h => by
    rw [doc?] at h
    split at h
    · cases h
    · obtain ⟨ys, hys, rfl⟩ := Option.map_eq_some_iff.mp h
      obtain ⟨hlen, hsum⟩ := sum_itemSizes_of_docs? hys
      rw [extent, Json.sizes, List.sum_cons, hlen]
      exact Nat.add_le_add_left hsum _
  | .object ms, h => by
    rw [doc?] at h
    split at h
    · cases h
    · obtain ⟨fields, hfields, rfl⟩ := Option.map_eq_some_iff.mp h
      obtain ⟨hlen, hsum⟩ := sum_fieldSizes_of_fields? hfields
      have := Json.sum_sizes_ofFields fields
      rw [extent]
      omega

theorem sum_itemSizes_of_docs? {depth : Nat} {ys : List Json} :
    ∀ {xs : List JsonTree}, docs? depth xs = some ys →
      ys.length = xs.length ∧ (Json.itemSizes ys).sum ≤ itemsExtent xs
  | [], h => by
    rw [docs?] at h
    cases h
    exact ⟨rfl, Nat.le_refl _⟩
  | x :: xs, h => by
    rw [docs?] at h
    obtain ⟨y, hy, h⟩ := Option.bind_eq_some_iff.mp h
    obtain ⟨ys, hys, h⟩ := Option.bind_eq_some_iff.mp h
    cases h
    obtain ⟨hlen, hsum⟩ := sum_itemSizes_of_docs? hys
    refine ⟨congrArg (· + 1) hlen, ?_⟩
    rw [Json.itemSizes, itemsExtent, List.sum_append]
    exact Nat.add_le_add (sum_sizes_of_doc? hy) hsum

theorem sum_fieldSizes_of_fields? {depth : Nat} {fields : List (String × Json)} :
    ∀ {ms : List (Option String × JsonTree)}, fields? depth ms = some fields →
      fields.length = ms.length ∧ (Json.fieldSizes fields).sum ≤ membersExtent ms
  | [], h => by
    rw [fields?] at h
    cases h
    exact ⟨rfl, Nat.le_refl _⟩
  | (name, x) :: ms, h => by
    rw [fields?] at h
    obtain ⟨text, hname, h⟩ := Option.bind_eq_some_iff.mp h
    obtain ⟨y, hy, h⟩ := Option.bind_eq_some_iff.mp h
    obtain ⟨fields, hfields, h⟩ := Option.bind_eq_some_iff.mp h
    cases h
    subst hname
    obtain ⟨hlen, hsum⟩ := sum_fieldSizes_of_fields? hfields
    have hhead := sum_sizes_of_doc? hy
    refine ⟨congrArg (· + 1) hlen, ?_⟩
    simp only [Json.fieldSizes, membersExtent, stringExtent, Option.elim_some, List.sum_cons,
      List.sum_append, List.cons_append]
    omega

end

end JsonTree

/-- All texts, lists and objects of a document have together no more bytes, items and fields than
the text it is read from has bytes. -/
theorem Json.sum_sizes_of_read? {cs : List Char} {j : Json} (h : read? cs = some j) :
    j.sizes.sum ≤ String.utf8Len cs := by
  obtain ⟨x, hx, hj⟩ := Option.bind_eq_some_iff.mp h
  exact (JsonTree.sum_sizes_of_doc? hj).trans (JsonTree.extent_of_read? hx)

end SelectMerge
