import SelectMerge.Proofs.Schema.Cover

/-!
# Covers in any order

A join does not depend on the order of what is joined, and neither does whether there is one
(`join?_comm`, `join?_right_comm`), for kinds, for types and, position by position, for schemas. So
the cover of many schemas under the same names is the same in every order of them
(`coverAll?_perm`).
-/

namespace SelectMerge

/-! ## Kinds and types -/

namespace Scalar

variable {a b c : Scalar}

theorem join?_comm (a b : Scalar) : a.join? b = b.join? a := by
  unfold join?
  by_cases hab : a = b
  · rw [if_pos hab, if_pos hab.symm, hab]
  · rw [if_neg hab, if_neg (Ne.symm hab), Bool.and_comm, Bool.and_comm (x := a.isNumber)]

theorem join?_right_comm (a b c : Scalar) :
    ((a.join? b).bind fun u => u.join? c) = (a.join? c).bind fun u => u.join? b := by
  cases a <;> cases b <;> cases c <;> rfl

end Scalar

namespace ColumnType

theorem join?_comm (s t : ColumnType) : s.join? t = t.join? s := by
  cases s <;> cases t <;> simp only [join?, Scalar.join?_comm]

theorem join?_one_one (a b : Scalar) : (one a).join? (one b) = (a.join? b).map one := rfl

theorem join?_many_many (a b : Scalar) : (many a).join? (many b) = (a.join? b).map many := rfl

theorem join?_one_many (a b : Scalar) : (one a).join? (many b) = none := rfl

theorem join?_many_one (a b : Scalar) : (many a).join? (one b) = none := rfl

theorem join?_right_comm (s t u : ColumnType) :
    ((s.join? t).bind fun v => v.join? u) = (s.join? u).bind fun v => v.join? t := by
  -- types of one form are joined by kind, and no others are
  have hones : ∀ (x : Option Scalar) c, ((x.map one).bind fun v => v.join? (one c)) =
      (x.bind fun a => a.join? c).map one := by
    intro x c
    cases x <;> rfl
  have hmanys : ∀ (x : Option Scalar) c, ((x.map many).bind fun v => v.join? (many c)) =
      (x.bind fun a => a.join? c).map many := by
    intro x c
    cases x <;> rfl
  have hone : ∀ (x : Option Scalar) c, ((x.map one).bind fun v => v.join? (many c)) = none := by
    intro x c
    cases x <;> rfl
  have hmany : ∀ (x : Option Scalar) c, ((x.map many).bind fun v => v.join? (one c)) = none := by
    intro x c
    cases x <;> rfl
  cases s <;> cases t <;> cases u <;>
    simp only [join?_one_one, join?_many_many, join?_one_many, join?_many_one, Option.bind_none,
      hones, hmanys, hone, hmany]
  · rw [Scalar.join?_right_comm]
  · rw [Scalar.join?_right_comm]

end ColumnType

/-! ## Schemas -/

namespace Schema

variable {a b : Schema} {ss ts us : List ColumnType}

theorem Agrees.symm (h : a.Agrees b) : b.Agrees a := by
  refine ⟨h.names.symm, h.types.flip.imp ?_⟩
  intro t s hst
  rwa [ColumnType.isCompatible_comm]

theorem joinTypes?_cons (s t : ColumnType) (ss ts : List ColumnType) :
    joinTypes? (s :: ss) (t :: ts) =
      (s.join? t).bind fun u => (joinTypes? ss ts).map fun us => u :: us := by
  rw [joinTypes?]
  cases s.join? t <;> cases joinTypes? ss ts <;> rfl

theorem joinTypes?_comm (ss ts : List ColumnType) : joinTypes? ss ts = joinTypes? ts ss := by
  induction ss generalizing ts with
  | nil => cases ts <;> rfl
  | cons s ss ih =>
    cases ts with
    | nil => rfl
    | cons t ts => rw [joinTypes?_cons, joinTypes?_cons, s.join?_comm t, ih]

theorem joinTypes?_right_comm (hlen : ts.length = us.length) (ss : List ColumnType) :
    ((joinTypes? ss ts).bind fun vs => joinTypes? vs us) =
      (joinTypes? ss us).bind fun vs => joinTypes? vs ts := by
  induction ss generalizing ts us with
  | nil => cases ts <;> cases us <;> rfl
  | cons s ss ih =>
    cases ts with
    | nil =>
      obtain rfl := List.length_eq_zero_iff.mp hlen.symm
      rfl
    | cons t ts =>
      cases us with
      | nil => cases hlen
      | cons u us =>
        -- the heads are joined first and the tails only if the heads can be
        have hcons : ∀ t u ts us,
            ((joinTypes? (s :: ss) (t :: ts)).bind fun vs => joinTypes? vs (u :: us)) =
              ((s.join? t).bind fun v => v.join? u).bind fun w =>
                ((joinTypes? ss ts).bind fun vs => joinTypes? vs us).map fun ws => w :: ws := by
          intro t u ts us
          rw [joinTypes?_cons]
          cases s.join? t with
          | none => rfl
          | some v =>
            cases hts : joinTypes? ss ts with
            | none => cases v.join? u <;> simp
            | some vs => simp [joinTypes?_cons]
        rw [hcons, hcons, s.join?_right_comm, ih (by simpa using hlen)]

theorem cover?_comm (hnames : a.names = b.names) : a.cover? b = b.cover? a := by
  have hlen : a.length = b.length := congrArg List.length hnames
  rw [cover?, cover?, if_pos hlen, if_pos hlen.symm, joinTypes?_comm, hnames]

theorem cover?_right_comm (hnames : a.names = b.names) (htypes : a.types.length = b.types.length)
    (s : Schema) :
    ((s.cover? a).bind fun u => u.cover? b) = (s.cover? b).bind fun u => u.cover? a := by
  have hlen : a.length = b.length := congrArg List.length hnames
  have hcover : ∀ {x : Schema} (y : Schema), s.length = x.length → x.length = y.length →
      ((s.cover? x).bind fun u => u.cover? y) =
        ((joinTypes? s.types x.types).bind fun vs => joinTypes? vs y.types).map
          fun us => ⟨s.names, us⟩ := by
    intro x y hsx hxy
    rw [cover?, if_pos hsx]
    cases hjoin : joinTypes? s.types x.types with
    | none => rfl
    | some vs =>
      show cover? ⟨s.names, vs⟩ y = (joinTypes? vs y.types).map fun us => ⟨s.names, us⟩
      exact if_pos (hsx.trans hxy)
  by_cases hs : s.length = a.length
  · rw [hcover b hs hlen, hcover a (hs.trans hlen) hlen.symm, joinTypes?_right_comm htypes]
  · rw [cover?, if_neg hs, cover?, if_neg (hlen ▸ hs)]
    rfl

/-- The cover of schemas with the same names is the same in every order of them. -/
theorem coverAll?_perm {names : List String} {l l' : List Schema} (h : l.Perm l')
    (hnames : ∀ s ∈ l, s.names = names ∧ s.Aligned) : coverAll? l = coverAll? l' := by
  have hfold : ∀ (l : List Schema) (s : Schema),
      l.foldlM cover? s = l.foldl (fun u s => u.bind fun u => u.cover? s) (some s) := by
    intro l
    induction l using List.reverseRecOn with
    | nil => intro s; rfl
    | append_singleton l t ih =>
      intro s
      rw [List.foldlM_append, List.foldl_append, ih]
      cases l.foldl (fun u s => u.bind fun u => u.cover? s) (some s) <;> simp
  induction h with
  | nil => rfl
  | @cons s l l' hperm ih =>
    rw [coverAll?, coverAll?, hfold, hfold]
    apply hperm.foldl_eq'
    intro a ha b hb u
    have hab : a.names = b.names :=
      (hnames a (by simp [ha])).1.trans (hnames b (by simp [hb])).1.symm
    have htypes : a.types.length = b.types.length := by
      rw [← (hnames a (by simp [ha])).2, ← (hnames b (by simp [hb])).2, hab]
    cases u with
    | none => rfl
    | some u => exact cover?_right_comm hab htypes u
  | swap s t l =>
    have hts : t.names = s.names := (hnames t (by simp)).1.trans (hnames s (by simp)).1.symm
    rw [coverAll?, coverAll?, List.foldlM_cons, List.foldlM_cons, cover?_comm hts]
  | trans hperm hperm' ih ih' =>
    exact (ih hnames).trans (ih' fun s hs => hnames s (hperm.mem_iff.mpr hs))

end Schema

end SelectMerge
