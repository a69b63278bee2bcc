import Mathlib.Data.List.Forall2

/-!
# Steps that may fail

A sequence of steps succeeds exactly if each of them does (`mapM_eq_ok_iff`, `forM_eq_ok_iff`), and
fails with the error of the first that fails (`mapM_eq_error_iff`). `bind_eq_ok_iff` and
`bind_eq_error_iff` take a chain of steps apart, one step at a time; nothing that follows unfolds a
`do` block in any other way. Steps over the indices of a list are the steps over its items
(`mapM_range_eq`).
-/

namespace SelectMerge

variable {α β ε : Type}

theorem bind_eq_ok_iff {x : Except ε α} {f : α → Except ε β} {b : β} :
    x >>= f = .ok b ↔ ∃ a, x = .ok a ∧ f a = .ok b := by
  cases x with
  | error e => simp [bind, Except.bind]
  | ok a => simp [bind, Except.bind]

theorem bind_eq_error_iff {x : Except ε α} {f : α → Except ε β} {e : ε} :
    x >>= f = .error e ↔ x = .error e ∨ ∃ a, x = .ok a ∧ f a = .error e := by
  cases x with
  | error e => simp [bind, Except.bind]
  | ok a => simp [bind, Except.bind]

theorem map_eq_ok_iff {x : Except ε α} {f : α → β} {b : β} :
    x.map f = .ok b ↔ ∃ a, x = .ok a ∧ f a = b := by
  cases x with
  | error e => simp [Except.map]
  | ok a => simp [Except.map]

theorem map_eq_error_iff {x : Except ε α} {f : α → β} {e : ε} :
    x.map f = .error e ↔ x = .error e := by
  cases x with
  | error e => simp [Except.map]
  | ok a => simp [Except.map]

theorem mapM_eq_ok_iff {f : α → Except ε β} {l : List α} {l' : List β} :
    l.mapM f = .ok l' ↔ List.Forall₂ (fun a b => f a = .ok b) l l' := by
  induction l generalizing l' with
  | nil => cases l' <;> simp [pure, Except.pure]
  | cons a l ih =>
    rw [List.mapM_cons, bind_eq_ok_iff, List.forall₂_cons_left_iff]
    constructor
    · rintro ⟨b, hb, h⟩
      obtain ⟨bs, hbs, h⟩ := bind_eq_ok_iff.mp h
      cases h
      exact ⟨b, bs, hb, ih.mp hbs, rfl⟩
    · rintro ⟨b, bs, hb, hbs, rfl⟩
      exact ⟨b, hb, bind_eq_ok_iff.mpr ⟨bs, ih.mpr hbs, rfl⟩⟩

theorem mapM_eq_ok_map {f : α → Except ε β} {g : α → β} {l : List α}
    (h : ∀ a ∈ l, f a = .ok (g a)) : l.mapM f = .ok (l.map g) := by
  rw [mapM_eq_ok_iff, List.forall₂_map_right_iff, List.forall₂_same]
  exact h

theorem exists_of_mapM_eq_ok {f : α → Except ε β} {l : List α} {l' : List β}
    (h : l.mapM f = .ok l') :
    (∀ a ∈ l, ∃ b ∈ l', f a = .ok b) ∧ ∀ b ∈ l', ∃ a ∈ l, f a = .ok b := by
  induction mapM_eq_ok_iff.mp h with
  | nil => simp
  | @cons a b l l' hab hall ih =>
    obtain ⟨hl, hl'⟩ := ih (mapM_eq_ok_iff.mpr hall)
    constructor
    · refine List.forall_mem_cons.mpr ⟨⟨b, by simp, hab⟩, fun a' ha' => ?_⟩
      obtain ⟨b', hb', hf⟩ := hl a' ha'
      exact ⟨b', List.mem_cons_of_mem b hb', hf⟩
    · refine List.forall_mem_cons.mpr ⟨⟨a, by simp, hab⟩, fun b' hb' => ?_⟩
      obtain ⟨a', ha', hf⟩ := hl' b' hb'
      exact ⟨a', List.mem_cons_of_mem a ha', hf⟩

theorem mapM_eq_ok_map_iff {f : α → Except ε β} {g : α → β} {P : α → Prop} {l : List α}
    {l' : List β} (h : ∀ a ∈ l, ∀ b, f a = .ok b ↔ P a ∧ b = g a) :
    l.mapM f = .ok l' ↔ (∀ a ∈ l, P a) ∧ l' = l.map g := by
  rw [mapM_eq_ok_iff]
  induction l generalizing l' with
  | nil => simp [List.forall₂_nil_left_iff]
  | cons a l ih =>
    have ih : ∀ l', List.Forall₂ (fun a b => f a = .ok b) l l' ↔
        (∀ a ∈ l, P a) ∧ l' = l.map g := fun l' => ih fun a' ha' => h a' (by simp [ha'])
    rw [List.forall₂_cons_left_iff]
    simp only [h a (by simp), ih, List.forall_mem_cons, List.map_cons]
    constructor
    · rintro ⟨b, bs, ⟨ha, rfl⟩, ⟨hl, rfl⟩, rfl⟩
      exact ⟨⟨ha, hl⟩, rfl⟩
    · rintro ⟨⟨ha, hl⟩, rfl⟩
      exact ⟨g a, l.map g, ⟨ha, rfl⟩, ⟨hl, rfl⟩, rfl⟩

theorem exists_mapM_forall₂ {f : α → Except ε β} {R : α → β → Prop} {l : List α}
    (h : ∀ a ∈ l, ∃ b, f a = .ok b ∧ R a b) : ∃ l', l.mapM f = .ok l' ∧ List.Forall₂ R l l' := by
  induction l with
  | nil => exact ⟨[], rfl, .nil⟩
  | cons a l ih =>
    obtain ⟨b, hb, hR⟩ := h a (by simp)
    obtain ⟨l', hl', hall⟩ := ih fun a' ha' => h a' (by simp [ha'])
    exact ⟨b :: l', mapM_eq_ok_iff.mpr (.cons hb (mapM_eq_ok_iff.mp hl')), .cons hR hall⟩

theorem exists_mapM_eq_ok {f : α → Except ε β} {l : List α} (h : ∀ a ∈ l, ∃ b, f a = .ok b) :
    ∃ l', l.mapM f = .ok l' := by
  have hall : ∀ a ∈ l, ∃ b, f a = .ok b ∧ True := by
    intro a ha
    obtain ⟨b, hb⟩ := h a ha
    exact ⟨b, hb, trivial⟩
  obtain ⟨l', hl', -⟩ := exists_mapM_forall₂ hall
  exact ⟨l', hl'⟩

theorem forM_eq_ok_iff {f : α → Except ε Unit} {l : List α} :
    l.forM f = .ok () ↔ ∀ x ∈ l, f x = .ok () := by
  induction l with
  | nil => simp [List.forM, pure, Except.pure]
  | cons x l ih =>
    have hcons : (x :: l).forM f = (f x).bind fun _ => l.forM f := rfl
    rw [hcons, List.forall_mem_cons]
    cases hx : f x with
    | error e => simp [Except.bind]
    | ok u => simpa [Except.bind] using ih

theorem exists_of_forM_eq_error {f : α → Except ε Unit} {l : List α} {e : ε}
    (h : l.forM f = .error e) : ∃ x ∈ l, f x = .error e := by
  induction l with
  | nil => cases h
  | cons x l ih =>
    have hcons : (x :: l).forM f = (f x).bind fun _ => l.forM f := rfl
    rw [hcons] at h
    cases hx : f x with
    | error e' =>
      rw [hx] at h
      obtain rfl := Except.error.inj h
      exact ⟨x, by simp, hx⟩
    | ok u =>
      rw [hx] at h
      obtain ⟨y, hy, he⟩ := ih h
      exact ⟨y, by simp [hy], he⟩

/-- Steps in sequence fail with the error of the first that fails. -/
theorem mapM_eq_error_iff {f : α → Except ε β} {l : List α} {e : ε} :
    l.mapM f = .error e ↔ ∃ before x after, l = before ++ x :: after ∧
      (∀ y ∈ before, ∃ b, f y = .ok b) ∧ f x = .error e := by
  induction l with
  | nil => simp [pure, Except.pure]
  | cons a l ih =>
    rw [List.mapM_cons]
    constructor
    · intro h
      rcases bind_eq_error_iff.mp h with ha | ⟨b, hb, h⟩
      · exact ⟨[], a, l, rfl, by simp, ha⟩
      · rcases bind_eq_error_iff.mp h with hl | ⟨bs, -, h⟩
        · obtain ⟨before, x, after, rfl, hbefore, hx⟩ := ih.mp hl
          exact ⟨a :: before, x, after, rfl, List.forall_mem_cons.mpr ⟨⟨b, hb⟩, hbefore⟩, hx⟩
        · cases h
    · rintro ⟨before, x, after, hl, hbefore, hx⟩
      cases before with
      | nil =>
        obtain ⟨rfl, rfl⟩ := List.cons.inj hl
        exact bind_eq_error_iff.mpr (.inl hx)
      | cons y before =>
        obtain ⟨rfl, rfl⟩ := List.cons.inj hl
        obtain ⟨⟨b, hb⟩, hbefore⟩ := List.forall_mem_cons.mp hbefore
        have hrest := ih.mpr ⟨before, x, after, rfl, hbefore, hx⟩
        exact bind_eq_error_iff.mpr (.inr ⟨b, hb, bind_eq_error_iff.mpr (.inl hrest)⟩)

theorem exists_of_mapM_eq_error {f : α → Except ε β} {l : List α} {e : ε}
    (h : l.mapM f = .error e) : ∃ x ∈ l, f x = .error e := by
  obtain ⟨before, x, after, rfl, -, hx⟩ := mapM_eq_error_iff.mp h
  exact ⟨x, by simp, hx⟩

theorem mapError_eq_ok_iff {ε' : Type} {x : Except ε α} {f : ε → ε'} {a : α} :
    x.mapError f = .ok a ↔ x = .ok a := by
  cases x <;> simp [Except.mapError]

theorem toOption_eq_some_iff {x : Except ε α} {a : α} : x.toOption = some a ↔ x = .ok a := by
  cases x <;> simp [Except.toOption]

/-! ## Steps by index -/

variable {m : Type → Type} [Monad m] [LawfulMonad m]

theorem mapM_range_eq {f : Nat → m β} {g : α → m β} {l : List α}
    (h : ∀ (j : Nat) a, l[j]? = some a → f j = g a) : (List.range l.length).mapM f = l.mapM g := by
  induction l generalizing f with
  | nil => rfl
  | cons a l ih =>
    rw [List.length_cons, List.range_succ_eq_map, List.mapM_cons, List.mapM_cons, h 0 a rfl,
      List.mapM_map]
    have hrest : (List.range l.length).mapM (f ∘ Nat.succ) = l.mapM g :=
      ih fun j a hj => h (j + 1) a hj
    rw [hrest]

theorem forM_range_eq {f : Nat → m PUnit} {g : α → m PUnit} {l : List α}
    (h : ∀ (j : Nat) a, l[j]? = some a → f j = g a) : (List.range l.length).forM f = l.forM g := by
  induction l generalizing f with
  | nil => rfl
  | cons a l ih =>
    have hrest : (List.range l.length).forM (fun j => f (j + 1)) = l.forM g :=
      ih fun j a hj => h (j + 1) a hj
    have hsucc : ((List.range l.length).map Nat.succ).forM f =
        (List.range l.length).forM fun j => f (j + 1) := List.forM_map
    have hhead : f 0 = g a := h 0 a rfl
    rw [List.length_cons, List.range_succ_eq_map]
    show (f 0 >>= fun _ => ((List.range l.length).map Nat.succ).forM f) = _
    rw [hhead, hsucc, hrest]
    rfl

end SelectMerge
