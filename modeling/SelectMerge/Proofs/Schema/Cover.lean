import Mathlib.Data.List.Forall2
import Mathlib.Data.List.Induction
import SelectMerge.Proofs.Column.Widening
import SelectMerge.Schema.Project

/-!
# Covers of schemas

Schemas that are compatible have a cover (`exists_cover?`). When they also have the same names and
as many types (`Agrees`), the cover agrees with both and every column widens to it (`WidensTo`), so
the schemas of many blocks can be covered one after another (`coverAll?`) and rows made under any of
them can be cast to the last cover (`exists_coverAll?`). The names play no part in how columns widen
(`widen_of_cover?`).
-/

namespace SelectMerge

namespace Schema

variable {a b c : Schema} {ss ts us : List ColumnType}

/-! ## Covers of compatible schemas -/

theorem exists_joinTypes?_iff : (∃ us, joinTypes? ss ts = some us) ↔
    (ss.zip ts).all fun (s, t) => s.isCompatible t := by
  induction ss generalizing ts with
  | nil => simp [joinTypes?]
  | cons s ss ih =>
    cases ts with
    | nil => simp [joinTypes?]
    | cons t ts =>
      have hst : s.isCompatible t ↔ ∃ u, s.join? t = some u := Option.isSome_iff_exists
      rw [List.zip_cons_cons, List.all_cons, Bool.and_eq_true, ← ih, hst]
      constructor
      · rintro ⟨us, h⟩
        simp only [joinTypes?, Option.bind_eq_bind, Option.bind_eq_some_iff] at h
        obtain ⟨u, hu, us', hus', -⟩ := h
        exact ⟨⟨u, hu⟩, us', hus'⟩
      · rintro ⟨⟨u, hu⟩, us, hus⟩
        exact ⟨u :: us, by simp [joinTypes?, hu, hus]⟩

theorem cover_eq_ok_iff : a.cover b = .ok c ↔ a.cover? b = some c := by
  rw [cover]
  cases a.cover? b <;> simp

theorem exists_cover?_iff : (∃ c, a.cover? b = some c) ↔ a.isCompatible b := by
  rw [cover?, isCompatible, Bool.and_eq_true, ← exists_joinTypes?_iff, beq_iff_eq]
  split
  · rename_i hlen
    simp [hlen]
  · rename_i hlen
    simp [hlen]

theorem exists_cover? (h : a.isCompatible b) : ∃ c, a.cover? b = some c := exists_cover?_iff.mpr h

theorem cover_of_not_isCompatible (h : ¬ a.isCompatible b) :
    a.cover b = .error (.schemaMismatch a.text b.text) := by
  rw [← exists_cover?_iff, not_exists, ← Option.eq_none_iff_forall_ne_some] at h
  rw [cover, h]

theorem joinTypes?_self (ts : List ColumnType) : joinTypes? ts ts = some ts := by
  induction ts with
  | nil => rfl
  | cons t ts ih => simp [joinTypes?, t.join?_self, ih]

theorem cover?_self (a : Schema) : a.cover? a = some a := by
  rw [cover?, if_pos rfl, joinTypes?_self]
  rfl

/-! ## Schemas that agree -/

/-- Whether the schemas have the same names and compatible types under them. -/
structure Agrees (a b : Schema) : Prop where
  names : a.names = b.names
  types : List.Forall₂ (fun s t => s.isCompatible t) a.types b.types

/-- Whether the schemas have the same names and the types of the one widen to those of the other. -/
structure WidensTo (a b : Schema) : Prop where
  names : a.names = b.names
  types : List.Forall₂ (fun s t => s.widensTo t) a.types b.types

theorem forall₂_comp {α β γ : Type} {R : α → β → Prop} {S : β → γ → Prop} {T : α → γ → Prop}
    {as : List α} {bs : List β} {cs : List γ} (hab : List.Forall₂ R as bs)
    (hbc : List.Forall₂ S bs cs) (h : ∀ {a b c}, R a b → S b c → T a c) :
    List.Forall₂ T as cs := by
  induction hab generalizing cs with
  | nil =>
    cases hbc
    exact .nil
  | cons hhead _ ih =>
    cases hbc with
    | cons hhead' htail => exact .cons (h hhead hhead') (ih htail)

theorem Agrees.refl (a : Schema) : a.Agrees a :=
  ⟨rfl, List.forall₂_same.mpr fun t _ => t.isCompatible_self⟩

theorem Agrees.trans (hab : a.Agrees b) (hbc : b.Agrees c) : a.Agrees c :=
  ⟨hab.names.trans hbc.names, forall₂_comp hab.types hbc.types ColumnType.isCompatible_trans⟩

theorem WidensTo.refl (a : Schema) : a.WidensTo a :=
  ⟨rfl, List.forall₂_same.mpr fun t _ => t.widensTo_self⟩

theorem WidensTo.trans (hab : a.WidensTo b) (hbc : b.WidensTo c) : a.WidensTo c :=
  ⟨hab.names.trans hbc.names, forall₂_comp hab.types hbc.types ColumnType.widensTo_trans⟩

theorem Agrees.isCompatible (h : a.Agrees b) : a.isCompatible b := by
  refine Bool.and_eq_true_iff.mpr ⟨by simp [length, h.names], List.all_eq_true.mpr ?_⟩
  rintro ⟨s, t⟩ hst
  exact List.forall₂_zip h.types hst

theorem agrees_of_isCompatible (hnames : a.names = b.names) (ha : a.Aligned) (hb : b.Aligned)
    (h : a.isCompatible b) : a.Agrees b := by
  have hlen : a.types.length = b.types.length := by rw [← ha, ← hb, hnames]
  obtain ⟨-, htypes⟩ := Bool.and_eq_true_iff.mp h
  exact ⟨hnames, List.forall₂_iff_zip.mpr ⟨hlen, fun hst => List.all_eq_true.mp htypes _ hst⟩⟩

theorem forall₂_joinTypes? (h : joinTypes? ss ts = some us) (hlen : ss.length = ts.length) :
    List.Forall₂ (fun u s => u.isCompatible s) us ss ∧
      List.Forall₂ (fun s u => s.widensTo u) ss us ∧
      List.Forall₂ (fun t u => t.widensTo u) ts us := by
  induction ss generalizing ts us with
  | nil =>
    obtain rfl := List.length_eq_zero_iff.mp hlen.symm
    obtain rfl := Option.some.inj h
    exact ⟨.nil, .nil, .nil⟩
  | cons s ss ih =>
    cases ts with
    | nil => cases hlen
    | cons t ts =>
      simp only [joinTypes?, Option.bind_eq_bind, Option.bind_eq_some_iff, Option.pure_def,
        Option.some.injEq] at h
      obtain ⟨u, hu, us, hus, rfl⟩ := h
      obtain ⟨hcomp, hleft, hright⟩ := ih hus (by simpa using hlen)
      obtain ⟨hs, ht⟩ := ColumnType.widensTo_join? hu
      exact ⟨.cons (ColumnType.isCompatible_join? hu) hcomp, .cons hs hleft, .cons ht hright⟩

theorem widen_of_cover? (ha : a.Aligned) (hb : b.Aligned) (h : a.cover? b = some c) :
    c.Aligned ∧ List.Forall₂ (fun s t => s.widensTo t) a.types c.types ∧
      List.Forall₂ (fun s t => s.widensTo t) b.types c.types := by
  rw [cover?] at h
  split at h
  · rename_i hlen
    obtain ⟨us, hus, rfl⟩ := Option.map_eq_some_iff.mp h
    have htypes : a.types.length = b.types.length := ha.symm.trans (Eq.trans hlen hb)
    obtain ⟨-, hleft, hright⟩ := forall₂_joinTypes? hus htypes
    exact ⟨ha.trans hleft.length_eq, hleft, hright⟩
  · cases h

theorem Agrees.cover? (h : a.Agrees b) (hc : a.cover? b = some c) :
    c.Agrees a ∧ a.WidensTo c ∧ b.WidensTo c := by
  rw [Schema.cover?, if_pos (by rw [length, length, h.names])] at hc
  obtain ⟨us, hus, rfl⟩ := Option.map_eq_some_iff.mp hc
  obtain ⟨hcomp, hleft, hright⟩ := forall₂_joinTypes? hus h.types.length_eq
  exact ⟨⟨rfl, hcomp⟩, ⟨rfl, hleft⟩, ⟨h.names.symm, hright⟩⟩

/-! ## Covers of many schemas -/

/-- The cover of a first schema and those after it, taken in turn. -/
def coverAll? : List Schema → Option Schema
  | [] => none
  | s :: ss => ss.foldlM cover? s

theorem coverAll?_concat {l : List Schema} (hne : l ≠ []) (s : Schema) :
    coverAll? (l ++ [s]) = (coverAll? l).bind (·.cover? s) := by
  cases l with
  | nil => exact absurd rfl hne
  | cons a l =>
    rw [List.cons_append, coverAll?, List.foldlM_append]
    rw [coverAll?, Option.bind_eq_bind]
    congr 1
    funext u
    simp

/-- Schemas that agree have a cover that agrees with them and that they widen to. -/
theorem exists_coverAll? {l : List Schema} (hne : l ≠ [])
    (h : ∀ a ∈ l, ∀ b ∈ l, a.Agrees b) :
    ∃ u, coverAll? l = some u ∧ ∀ s ∈ l, u.Agrees s ∧ s.WidensTo u := by
  induction l using List.reverseRecOn with
  | nil => exact absurd rfl hne
  | append_singleton l s ih =>
    by_cases hl : l = []
    · subst hl
      refine ⟨s, rfl, ?_⟩
      intro a ha
      obtain rfl : a = s := by simpa using ha
      exact ⟨.refl a, .refl a⟩
    · obtain ⟨u, hu, hall⟩ := ih hl fun a ha b hb => h a (by simp [ha]) b (by simp [hb])
      obtain ⟨a, ha⟩ := List.exists_mem_of_ne_nil l hl
      -- the cover so far agrees with its first schema, and that with the new one
      have hus : u.Agrees s := (hall a ha).1.trans (h a (by simp [ha]) s (by simp))
      obtain ⟨c, hc⟩ := exists_cover? hus.isCompatible
      obtain ⟨hcu, huc, hsc⟩ := hus.cover? hc
      refine ⟨c, by rw [coverAll?_concat hl, hu]; exact hc, ?_⟩
      intro b hb
      rcases List.mem_append.mp hb with hb | hb
      · exact ⟨hcu.trans (hall b hb).1, (hall b hb).2.trans huc⟩
      · obtain rfl := List.mem_singleton.mp hb
        exact ⟨hcu.trans hus, hsc⟩

end Schema

end SelectMerge
