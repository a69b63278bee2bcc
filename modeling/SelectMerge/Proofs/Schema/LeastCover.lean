import SelectMerge.Proofs.Schema.Joins

/-!
# Least covers

Types lie below others if a join with them changes nothing (`Below`). This order is finer than
widening: INT widens to FLOAT but lies below DOUBLE only. In it the cover of two schemas is the
least one above both (`below_joinTypes?_iff`), so the cover of many (`IsCover`) depends neither on
their order nor on how they are put together: its types depend only on which schemas it covers
(`IsCover.types_eq`), and the cover of two covers covers all that they cover (`IsCover.append`).
Covers taken in turn can also be taken group by group (`coverAll?_flatten`).
-/

namespace SelectMerge

namespace Schema

variable {a b c s u v : Schema} {ss ts us vs : List ColumnType} {l l' : List Schema}

/-! ## Compatible schemas -/

theorem length_eq_of_isCompatible (h : a.isCompatible b) : a.length = b.length :=
  beq_iff_eq.mp (Bool.and_eq_true_iff.mp h).1

theorem isCompatible_iff (ha : a.Aligned) (hb : b.Aligned) : a.isCompatible b ↔
    List.Forall₂ (fun s t => s.isCompatible t) a.types b.types := by
  constructor
  · intro h
    have hlen : a.types.length = b.types.length :=
      ha.symm.trans ((length_eq_of_isCompatible h).trans hb)
    obtain ⟨-, hall⟩ := Bool.and_eq_true_iff.mp h
    exact List.forall₂_iff_zip.mpr ⟨hlen, fun hst => List.all_eq_true.mp hall _ hst⟩
  · intro h
    have hlen : a.length = b.length := ha.trans (h.length_eq.trans hb.symm)
    refine Bool.and_eq_true_iff.mpr ⟨beq_iff_eq.mpr hlen, List.all_eq_true.mpr ?_⟩
    rintro ⟨s, t⟩ hst
    exact List.forall₂_zip h hst

theorem isCompatible_self (a : Schema) : a.isCompatible a := (Agrees.refl a).isCompatible

theorem isCompatible_symm (ha : a.Aligned) (hb : b.Aligned) (h : a.isCompatible b) :
    b.isCompatible a := by
  rw [isCompatible_iff ha hb] at h
  rw [isCompatible_iff hb ha]
  refine h.flip.imp ?_
  intro t s hst
  rwa [ColumnType.isCompatible_comm]

theorem isCompatible_trans (ha : a.Aligned) (hb : b.Aligned) (hc : c.Aligned)
    (hab : a.isCompatible b) (hbc : b.isCompatible c) : a.isCompatible c := by
  rw [isCompatible_iff ha hb] at hab
  rw [isCompatible_iff hb hc] at hbc
  rw [isCompatible_iff ha hc]
  exact forall₂_comp hab hbc ColumnType.isCompatible_trans

theorem cover?_eq_some_iff : a.cover? b = some c ↔
    a.length = b.length ∧ joinTypes? a.types b.types = some c.types ∧ c.names = a.names := by
  rw [cover?]
  split
  · rename_i hlen
    rw [Option.map_eq_some_iff]
    constructor
    · rintro ⟨us, hus, rfl⟩
      exact ⟨hlen, hus, rfl⟩
    · rintro ⟨-, hus, hnames⟩
      exact ⟨c.types, hus, by rw [← hnames]⟩
  · rename_i hlen
    simp [hlen]

theorem isCompatible_of_cover? (ha : a.Aligned) (hb : b.Aligned) (h : a.cover? b = some c) :
    c.Aligned ∧ c.isCompatible a ∧ c.isCompatible b := by
  obtain ⟨hlen, hjoin, hnames⟩ := cover?_eq_some_iff.mp h
  have htypes : a.types.length = b.types.length := ha.symm.trans (hlen.trans hb)
  obtain ⟨hca, -, -⟩ := forall₂_joinTypes? hjoin htypes
  obtain ⟨hcb, -, -⟩ := forall₂_joinTypes? ((joinTypes?_comm _ _).trans hjoin) htypes.symm
  have hc : c.Aligned := by rw [Aligned, hnames, hca.length_eq, ha]
  exact ⟨hc, (isCompatible_iff hc ha).mpr hca, (isCompatible_iff hc hb).mpr hcb⟩

/-! ## The order of joins -/

/-- Whether a join of types with others leaves the others as they are. -/
def Below (ss ts : List ColumnType) : Prop := joinTypes? ss ts = some ts

theorem below_self (ts : List ColumnType) : Below ts ts := joinTypes?_self ts

theorem Below.antisymm (h : Below ss ts) (h' : Below ts ss) : ss = ts :=
  Option.some.inj (h'.symm.trans ((joinTypes?_comm ts ss).trans h))

theorem Below.trans (hst : ss.length = ts.length) (htu : ts.length = us.length)
    (h : Below ss ts) (h' : Below ts us) : Below ss us := by
  have hjoin := joinTypes?_right_comm (hst.trans htu) ts
  rw [joinTypes?_comm ts ss, h, h'] at hjoin
  rw [Below, joinTypes?_comm]
  exact hjoin.symm.trans h'

theorem below_of_joinTypes? (hlen : ss.length = ts.length) (h : joinTypes? ss ts = some us) :
    Below ss us ∧ Below ts us := by
  have hleft : ∀ {ss ts us}, ss.length = ts.length → joinTypes? ss ts = some us →
      Below ss us := by
    intro ss ts us hlen h
    have hjoin := joinTypes?_right_comm hlen.symm ss
    rw [h, joinTypes?_self] at hjoin
    rw [Below, joinTypes?_comm]
    exact hjoin.trans h
  exact ⟨hleft hlen h, hleft hlen.symm ((joinTypes?_comm ts ss).trans h)⟩

/-- The join is the least above what is joined. -/
theorem below_joinTypes?_iff (hst : ss.length = ts.length) (htv : ts.length = vs.length)
    (h : joinTypes? ss ts = some us) : Below us vs ↔ Below ss vs ∧ Below ts vs := by
  have hus : us.length = ts.length := (forall₂_joinTypes? h hst).1.length_eq.trans hst
  obtain ⟨hsu, htu⟩ := below_of_joinTypes? hst h
  constructor
  · intro huv
    exact ⟨hsu.trans (hst.trans hus.symm) (hus.trans htv) huv,
      htu.trans hus.symm (hus.trans htv) huv⟩
  · rintro ⟨hsv, htv'⟩
    have hjoin := joinTypes?_right_comm htv ss
    rw [h, hsv] at hjoin
    exact hjoin.trans ((joinTypes?_comm vs ts).trans htv')

/-! ## Covers of many schemas -/

/-- Whether a schema has the least types above those of some schemas with as many columns. -/
structure IsCover (l : List Schema) (u : Schema) : Prop where
  aligned : u.Aligned
  shape : ∀ s ∈ l, s.Aligned ∧ s.length = u.length
  least : ∀ vs, vs.length = u.length → (Below u.types vs ↔ ∀ s ∈ l, Below s.types vs)

namespace IsCover

theorem singleton (h : s.Aligned) : IsCover [s] s := ⟨h, by simp [h], by simp⟩

theorem below (h : IsCover l u) (hs : s ∈ l) : Below s.types u.types :=
  (h.least u.types h.aligned.symm).mp (below_self u.types) s hs

theorem length_types (h : IsCover l u) (hs : s ∈ l) : s.types.length = u.types.length := by
  obtain ⟨haligned, hlen⟩ := h.shape s hs
  exact haligned.symm.trans (hlen.trans h.aligned)

theorem isCompatible (h : IsCover l u) (hs : s ∈ l) : u.isCompatible s := by
  obtain ⟨hcomp, -, -⟩ := forall₂_joinTypes? (h.below hs) (h.length_types hs)
  exact (isCompatible_iff h.aligned (h.shape s hs).1).mpr hcomp

theorem widensTo (h : IsCover l u) (hs : s ∈ l) :
    List.Forall₂ (fun s t => s.widensTo t) s.types u.types :=
  (forall₂_joinTypes? (h.below hs) (h.length_types hs)).2.1

theorem pairwise (h : IsCover l u) : ∀ a ∈ l, ∀ b ∈ l, a.isCompatible b := by
  intro a ha b hb
  have haligned := (h.shape a ha).1
  exact isCompatible_trans haligned h.aligned (h.shape b hb).1
    (isCompatible_symm h.aligned haligned (h.isCompatible ha)) (h.isCompatible hb)

theorem append (h : IsCover l u) (h' : IsCover l' v) (hc : u.cover? v = some c) :
    IsCover (l ++ l') c := by
  obtain ⟨hlen, hjoin, hnames⟩ := cover?_eq_some_iff.mp hc
  obtain ⟨haligned, -, -⟩ := isCompatible_of_cover? h.aligned h'.aligned hc
  have hcu : c.length = u.length := congrArg List.length hnames
  have htypes : u.types.length = v.types.length := h.aligned.symm.trans (hlen.trans h'.aligned)
  refine ⟨haligned, ?_, ?_⟩
  · intro s hs
    rw [hcu]
    rcases List.mem_append.mp hs with hs | hs
    · exact h.shape s hs
    · exact ⟨(h'.shape s hs).1, (h'.shape s hs).2.trans hlen.symm⟩
  · intro vs hvs
    have hvs' : v.types.length = vs.length :=
      h'.aligned.symm.trans (hvs.trans (hcu.trans hlen)).symm
    rw [below_joinTypes?_iff htypes hvs' hjoin, h.least vs (hvs.trans hcu),
      h'.least vs (hvs.trans (hcu.trans hlen)), List.forall_mem_append]

/-- The types of a cover depend on nothing but which schemas it covers. -/
theorem types_eq (h : IsCover l u) (h' : IsCover l' v) (hmem : ∀ s, s ∈ l ↔ s ∈ l')
    (hne : l ≠ []) : u.types = v.types := by
  obtain ⟨s, hs⟩ := List.exists_mem_of_ne_nil l hne
  have hlen : u.length = v.length :=
    (h.shape s hs).2.symm.trans (h'.shape s ((hmem s).mp hs)).2
  have huv : Below u.types v.types :=
    (h.least v.types (h'.aligned.symm.trans hlen.symm)).mpr fun s hs => h'.below ((hmem s).mp hs)
  have hvu : Below v.types u.types :=
    (h'.least u.types (h.aligned.symm.trans hlen)).mpr fun s hs => h.below ((hmem s).mpr hs)
  exact huv.antisymm hvu

theorem foldlM (h : IsCover l u) (haligned : ∀ s ∈ l', s.Aligned)
    (hc : l'.foldlM cover? u = some c) : IsCover (l ++ l') c := by
  induction l' generalizing l u with
  | nil =>
    obtain rfl := Option.some.inj hc
    rwa [List.append_nil]
  | cons s l' ih =>
    obtain ⟨v, hv, hc⟩ := Option.bind_eq_some_iff.mp hc
    have hwith : IsCover (l ++ [s]) v := h.append (.singleton (haligned s (by simp))) hv
    rw [List.append_cons]
    exact ih hwith (fun t ht => haligned t (by simp [ht])) hc

theorem exists_foldlM (h : IsCover l u) (hne : l ≠ []) (haligned : ∀ s ∈ l', s.Aligned)
    (hcompat : ∀ a ∈ l ++ l', ∀ b ∈ l ++ l', a.isCompatible b) :
    ∃ c, l'.foldlM cover? u = some c := by
  induction l' generalizing l u with
  | nil => exact ⟨u, rfl⟩
  | cons s l' ih =>
    obtain ⟨a, ha⟩ := List.exists_mem_of_ne_nil l hne
    have hs : s.Aligned := haligned s (by simp)
    have hus : u.isCompatible s := isCompatible_trans h.aligned (h.shape a ha).1 hs
      (h.isCompatible ha) (hcompat a (by simp [ha]) s (by simp))
    obtain ⟨v, hv⟩ := exists_cover? hus
    have hwith : IsCover (l ++ [s]) v := h.append (.singleton hs) hv
    rw [List.append_cons] at hcompat
    obtain ⟨c, hc⟩ := ih hwith (by simp) (fun t ht => haligned t (by simp [ht])) hcompat
    exact ⟨c, Option.bind_eq_some_iff.mpr ⟨v, hv, hc⟩⟩

end IsCover

/-! ## Covers taken in turn -/

theorem isCover_of_coverAll? (haligned : ∀ s ∈ l, s.Aligned) (h : coverAll? l = some u) :
    IsCover l u := by
  cases l with
  | nil => cases h
  | cons s l =>
    exact (IsCover.singleton (haligned s (by simp))).foldlM
      (fun t ht => haligned t (by simp [ht])) h

theorem exists_coverAll?_iff (hne : l ≠ []) (haligned : ∀ s ∈ l, s.Aligned) :
    (∃ u, coverAll? l = some u) ↔ ∀ a ∈ l, ∀ b ∈ l, a.isCompatible b := by
  constructor
  · rintro ⟨u, hu⟩
    exact (isCover_of_coverAll? haligned hu).pairwise
  · intro hcompat
    cases l with
    | nil => exact absurd rfl hne
    | cons s l =>
      exact (IsCover.singleton (haligned s (by simp))).exists_foldlM (by simp)
        (fun t ht => haligned t (by simp [ht])) hcompat

theorem joinTypes?_assoc (hst : ss.length = ts.length) (htu : ts.length = us.length) :
    ((joinTypes? ss ts).bind fun vs => joinTypes? vs us) =
      (joinTypes? ts us).bind fun vs => joinTypes? ss vs := by
  rw [joinTypes?_comm ss ts, joinTypes?_right_comm (hst.trans htu)]
  congr 1
  funext vs
  exact joinTypes?_comm vs ss

theorem cover?_assoc (ha : a.Aligned) (hb : b.Aligned) (hc : c.Aligned) :
    ((a.cover? b).bind fun u => u.cover? c) = (b.cover? c).bind fun u => a.cover? u := by
  have hlen : ∀ {a b : Schema}, a.Aligned → b.Aligned → a.length = b.length →
      a.types.length = b.types.length := fun ha hb hab => ha.symm.trans (hab.trans hb)
  ext u
  simp only [Option.bind_eq_some_iff, cover?_eq_some_iff]
  constructor
  · rintro ⟨v, ⟨hab, hv, hva⟩, hvc, hu, huv⟩
    have hbc : b.length = c.length := by rw [← hab, ← hvc, length, length, hva]
    have hjoin := joinTypes?_assoc (hlen ha hb hab) (hlen hb hc hbc)
    rw [hv, Option.bind_some, hu] at hjoin
    obtain ⟨ws, hws, hu⟩ := Option.bind_eq_some_iff.mp hjoin.symm
    exact ⟨⟨b.names, ws⟩, ⟨hbc, hws, rfl⟩, hab, hu, huv.trans hva⟩
  · rintro ⟨v, ⟨hbc, hv, hvb⟩, hav, hu, hua⟩
    have hab : a.length = b.length := by rw [hav, length, length, hvb]
    have hjoin := joinTypes?_assoc (hlen ha hb hab) (hlen hb hc hbc)
    rw [hv, Option.bind_some, hu] at hjoin
    obtain ⟨ws, hws, hu⟩ := Option.bind_eq_some_iff.mp hjoin
    exact ⟨⟨a.names, ws⟩, ⟨hab, hws, rfl⟩, hab.trans hbc, hu, hua⟩

theorem bind_foldlM_cover? (hu : u.Aligned) (hs : s.Aligned) (haligned : ∀ t ∈ l, t.Aligned) :
    ((u.cover? s).bind fun w => l.foldlM cover? w) =
      (l.foldlM cover? s).bind fun v => u.cover? v := by
  induction l generalizing s with
  | nil => simp
  | cons t l ih =>
    have ht : t.Aligned := haligned t (by simp)
    have hcons : ∀ w : Schema, (t :: l).foldlM cover? w =
        (w.cover? t).bind fun w => l.foldlM cover? w := fun w => List.foldlM_cons
    simp only [hcons]
    rw [← Option.bind_assoc, cover?_assoc hu hs ht, Option.bind_assoc, Option.bind_assoc]
    cases hst : s.cover? t with
    | none => rfl
    | some w =>
      exact ih (isCompatible_of_cover? hs ht hst).1 fun t ht => haligned t (by simp [ht])

theorem foldlM_cover? (hu : u.Aligned) (haligned : ∀ s ∈ l, s.Aligned)
    (hv : coverAll? l = some v) : l.foldlM cover? u = u.cover? v := by
  cases l with
  | nil => cases hv
  | cons s l =>
    have hcover : l.foldlM cover? s = some v := hv
    rw [List.foldlM_cons, Option.bind_eq_bind,
      bind_foldlM_cover? hu (haligned s (by simp)) fun t ht => haligned t (by simp [ht]), hcover,
      Option.bind_some]

variable {gs : List (List Schema)}

theorem foldlM_flatten (haligned : ∀ g ∈ gs, ∀ s ∈ g, s.Aligned)
    (h : List.Forall₂ (fun g v => coverAll? g = some v) gs l) (hu : u.Aligned) :
    gs.flatten.foldlM cover? u = l.foldlM cover? u := by
  induction h generalizing u with
  | nil => rfl
  | @cons g v gs l hg _ ih =>
    have hgroup : ∀ s ∈ g, s.Aligned := haligned g (by simp)
    rw [List.flatten_cons, List.foldlM_append, foldlM_cover? hu hgroup hg, List.foldlM_cons]
    cases huv : u.cover? v with
    | none => rfl
    | some w =>
      exact ih (fun g hg => haligned g (by simp [hg]))
        (isCompatible_of_cover? hu (isCover_of_coverAll? hgroup hg).aligned huv).1

/-- The cover of the covers of some groups is the cover of all that is in them. -/
theorem coverAll?_flatten (haligned : ∀ g ∈ gs, ∀ s ∈ g, s.Aligned)
    (h : List.Forall₂ (fun g v => coverAll? g = some v) gs l) :
    coverAll? gs.flatten = coverAll? l := by
  cases h with
  | nil => rfl
  | @cons g v gs l hg h =>
    have hgroup : ∀ s ∈ g, s.Aligned := haligned g (by simp)
    cases g with
    | nil => cases hg
    | cons s g =>
      have hcover : g.foldlM cover? s = some v := hg
      rw [List.flatten_cons, List.cons_append, coverAll?, List.foldlM_append, hcover]
      exact foldlM_flatten (fun g hg => haligned g (by simp [hg])) h
        (isCover_of_coverAll? hgroup hg).aligned

end Schema

end SelectMerge
