import SelectMerge.Proofs.Schema.CellByCell
import SelectMerge.Proofs.Schema.LeastCover

/-!
# Projection in stages

On its way a row may be projected several times, each time to the cover of more schemas
(`coversInTurn`). Casts along widening need not compose, for an INT that becomes a FLOAT on the way
to DOUBLE has been rounded. Joins keep off FLOAT: two kinds of numbers meet at LONG or at DOUBLE. So
along joins (`RisesTo`) a conversion may be made in two steps (`conversion?_trans`), a row that was
projected once is projected again to what it is projected to at once (`row_projectRow_trans`), and
by induction along the covers a row is cast in stages to what it is cast to at once
(`projectInTurn_eq_projectRow`).
-/

namespace SelectMerge

/-! ## Casts along joins -/

namespace Scalar

variable {a b c : Scalar}

/-- A conversion along joins may be made in two steps. -/
theorem conversion?_trans (hab : a.join? b = some b) (hbc : b.join? c = some c) :
    ((a.conversion? b).bind fun f => (b.conversion? c).map fun g x => g (f x)) =
      a.conversion? c := by
  revert hab hbc
  cases a <;> cases b <;> rintro ⟨⟩ <;> cases c <;> rintro ⟨⟩ <;> try rfl
  -- in all other cases one of the steps changes nothing
  case int.long.double =>
    have hlong : ∀ x : Int32, Binary64.ofInt x.toInt64.toInt = Binary64.ofInt x.toInt := by
      intro x
      rw [Int32.toInt_toInt64]
    exact congrArg some (funext hlong)

/-- Along widening it may not: an INT is rounded if it becomes a FLOAT first. -/
example : Binary32.widen (Binary32.ofInt 16777217) ≠ Binary64.ofInt 16777217 := by decide

theorem elementConversion?_of_join? (h : a.join? b = some b) :
    a.elementConversion? b = a.conversion? b := by
  refine if_neg ?_
  rintro ⟨rfl, hb⟩
  revert h
  cases b <;> rintro ⟨⟩
  exact hb rfl

end Scalar

namespace ColumnType

variable {s t u : ColumnType}

theorem join?_trans (hst : s.join? t = some t) (htu : t.join? u = some u) :
    s.join? u = some u := by
  have h := join?_right_comm t s u
  rw [join?_comm t s, hst, htu, Option.bind_some, Option.bind_some, htu] at h
  rw [join?_comm, ← h]

end ColumnType

theorem Cell.cast?_trans {c c' : Cell} {s t u : ColumnType} (hc : c.fits s)
    (hst : s.join? t = some t) (htu : t.join? u = some u) (h : c.cast? t = some c') :
    c'.cast? u = c.cast? u := by
  cases c with
  | null =>
    obtain rfl := Option.some.inj h
    rfl
  | one a x =>
    obtain rfl : ColumnType.one a = s := by simpa [fits, type?] using hc
    cases t with
    | many b => cases h
    | one b =>
      cases u with
      | many c => cases htu
      | one c =>
        obtain ⟨hab, hbc⟩ : a.join? b = some b ∧ b.join? c = some c := by
          simpa [ColumnType.join?] using And.intro hst htu
        obtain ⟨f, hf, rfl⟩ := Option.map_eq_some_iff.mp h
        have htrans := Scalar.conversion?_trans hab hbc
        rw [hf, Option.bind_some] at htrans
        simp [cast?, ← htrans, Function.comp_def]
  | many a xs =>
    obtain rfl : ColumnType.many a = s := by simpa [fits, type?] using hc
    cases t with
    | one b => cases h
    | many b =>
      cases u with
      | one c => cases htu
      | many c =>
        obtain ⟨⟨hab, hbc⟩, hac⟩ :
            (a.join? b = some b ∧ b.join? c = some c) ∧ a.join? c = some c := by
          simpa [ColumnType.join?] using
            And.intro (And.intro hst htu) (ColumnType.join?_trans hst htu)
        obtain ⟨f, hf, rfl⟩ := Option.map_eq_some_iff.mp h
        have htrans := Scalar.conversion?_trans hab hbc
        rw [← Scalar.elementConversion?_of_join? hab, hf, Option.bind_some] at htrans
        simp [cast?, Scalar.elementConversion?_of_join? hbc,
          Scalar.elementConversion?_of_join? hac, ← htrans, Function.comp_def]

namespace Schema

variable {a b c s t u v : Schema} {r r' r'' : Row} {ss ts us : List ColumnType} {l : List Schema}

/-! ## Schemas along joins -/

/-- Whether the types of another schema are joins of this one's, column by column. -/
def RisesTo (s u : Schema) : Prop :=
  List.Forall₂ (fun s u => s.join? u = some u) s.types u.types

theorem RisesTo.refl (s : Schema) : s.RisesTo s :=
  List.forall₂_same.mpr fun t _ => t.join?_self

theorem RisesTo.trans (hst : s.RisesTo t) (htu : t.RisesTo u) : s.RisesTo u :=
  forall₂_comp hst htu ColumnType.join?_trans

theorem RisesTo.admits (h : s.RisesTo u) (hr : s.Fits r) : u.Admits r :=
  hr.admits.widen (h.imp fun _ _ hjoin => (ColumnType.widensTo_join? hjoin).1)

theorem forall₂_of_below (hlen : ss.length = ts.length) (h : Below ss ts) :
    List.Forall₂ (fun s t => s.join? t = some t) ss ts := by
  induction ss generalizing ts with
  | nil =>
    obtain rfl := List.length_eq_zero_iff.mp hlen.symm
    exact .nil
  | cons s ss ih =>
    cases ts with
    | nil => cases hlen
    | cons t ts =>
      rw [Below, joinTypes?_cons, Option.bind_eq_some_iff] at h
      obtain ⟨u, hu, h⟩ := h
      obtain ⟨us, hus, h⟩ := Option.map_eq_some_iff.mp h
      obtain ⟨rfl, rfl⟩ := List.cons.inj h
      exact .cons hu (ih (by simpa using hlen) hus)

theorem risesTo_cover (ha : a.Aligned) (hb : b.Aligned) (h : a.cover b = .ok c) :
    c.Aligned ∧ a.RisesTo c := by
  obtain ⟨hlen, hjoin, -⟩ := cover?_eq_some_iff.mp (cover_eq_ok_iff.mp h)
  obtain ⟨hc, hwiden, -⟩ := widen_of_cover? ha hb (cover_eq_ok_iff.mp h)
  have htypes : a.types.length = b.types.length := ha.symm.trans (hlen.trans hb)
  exact ⟨hc, forall₂_of_below hwiden.length_eq (below_of_joinTypes? htypes hjoin).1⟩

/-! ## Two stages -/

theorem forall₂_cast?_trans (hr : List.Forall₂ (fun c t => c.fits t) r ss)
    (hst : List.Forall₂ (fun s t => s.join? t = some t) ss ts)
    (htu : List.Forall₂ (fun t u => t.join? u = some u) ts us)
    (h : List.Forall₂ (fun p c => p.1.cast? p.2 = some c) (List.zip r ts) r')
    (h' : List.Forall₂ (fun p c => p.1.cast? p.2 = some c) (List.zip r us) r'') :
    List.Forall₂ (fun p c => p.1.cast? p.2 = some c) (List.zip r' us) r'' := by
  induction hr generalizing ts us r' r'' with
  | nil =>
    cases h
    exact h'
  | cons hc _ ih =>
    cases hst with
    | cons hs hst =>
      cases htu with
      | cons ht htu =>
        cases h with
        | cons hcell h =>
          cases h' with
          | cons hcell' h' =>
            have hboth := (Cell.cast?_trans hc hs ht hcell).trans hcell'
            exact .cons hboth (ih hst htu h h')

/-- A row that was projected once is projected again to what it is projected to at once. -/
theorem row_projectRow_trans (ht : t.Aligned) (hu : u.Aligned) (hst : s.RisesTo t)
    (htu : t.RisesTo u) (hr : s.Fits r) (h : (t.projectRow r).map (·.row) = .ok r')
    (h' : (u.projectRow r).map (·.row) = .ok r'') : (u.projectRow r').map (·.row) = .ok r'' := by
  obtain ⟨hfits, -⟩ := fits_of_row_projectRow ht h
  obtain ⟨-, hcells⟩ := (row_projectRow_eq_ok_iff ht).mp h
  obtain ⟨-, hcells'⟩ := (row_projectRow_eq_ok_iff hu).mp h'
  have hlen : r'.length = u.length := hfits.length_eq.trans (htu.length_eq.trans hu.symm)
  exact (row_projectRow_eq_ok_iff hu).mpr ⟨hlen, forall₂_cast?_trans hr hst htu hcells hcells'⟩

/-! ## Many stages -/

/-- The covers of a schema with the first of some others, with the first two, and so on to all. -/
def coversInTurn (s : Schema) (l : List Schema) : Except MergeError (List Schema) :=
  l.inits.tail.mapM fun l => l.foldlM cover s

/-- Projects a row to one schema after another. -/
def projectInTurn (us : List Schema) (r : Row) : Except MergeError Row :=
  us.foldlM (fun r u => (u.projectRow r).map (·.row)) r

theorem foldlM_cover_eq_ok_iff : l.foldlM cover s = .ok u ↔ l.foldlM cover? s = some u := by
  induction l generalizing s with
  | nil => simp [pure, Except.pure]
  | cons t l ih =>
    rw [List.foldlM_cons, List.foldlM_cons, bind_eq_ok_iff, Option.bind_eq_bind,
      Option.bind_eq_some_iff]
    simp only [cover_eq_ok_iff, ih]

theorem coversInTurn_cons {us : List Schema} (ht : s.cover t = .ok u) (hus : coversInTurn u l = .ok us) :
    coversInTurn s (t :: l) = .ok (u :: us) := by
  have hcons : ∀ {l v}, l.foldlM cover u = .ok v → (t :: l).foldlM cover s = .ok v := by
    intro l v hv
    rw [List.foldlM_cons]
    exact bind_eq_ok_iff.mpr ⟨u, ht, hv⟩
  have hinits : (t :: l).inits.tail = [t] :: l.inits.tail.map (t :: ·) := by cases l <;> rfl
  rw [coversInTurn, mapM_eq_ok_iff] at hus ⊢
  rw [hinits, List.forall₂_cons, List.forall₂_map_left_iff]
  exact ⟨hcons rfl, hus.imp fun _ _ => hcons⟩

theorem exists_projectInTurn (hu : u.Aligned) (hl : ∀ t ∈ l, t.Aligned) (hsu : s.RisesTo u)
    (hr : s.Fits r) (hu' : (u.projectRow r).map (·.row) = .ok r') (hv : l.foldlM cover u = .ok v) :
    ∃ us p, coversInTurn u l = .ok us ∧ v.projectRow r = .ok p ∧ projectInTurn us r' = .ok p.row := by
  induction l generalizing u r' with
  | nil =>
    obtain rfl := Except.ok.inj hv
    obtain ⟨p, hp, rfl⟩ := map_eq_ok_iff.mp hu'
    exact ⟨[], p, rfl, hp, rfl⟩
  | cons t l ih =>
    obtain ⟨w, hw, hv⟩ := bind_eq_ok_iff.mp hv
    obtain ⟨haligned, huw⟩ := risesTo_cover hu (hl t (by simp)) hw
    obtain ⟨p, hp⟩ := (exists_projectRow_iff haligned).mpr ((hsu.trans huw).admits hr)
    have hw' : (w.projectRow r).map (·.row) = .ok p.row := map_eq_ok_iff.mpr ⟨p, hp, rfl⟩
    have hnext := row_projectRow_trans hu haligned hsu huw hr hu' hw'
    obtain ⟨us, q, hus, hq, hturn⟩ :=
      ih haligned (fun t ht => hl t (by simp [ht])) (hsu.trans huw) hw' hv
    refine ⟨w :: us, q, coversInTurn_cons hw hus, hq, ?_⟩
    rw [projectInTurn, List.foldlM_cons]
    exact bind_eq_ok_iff.mpr ⟨p.row, hnext, hturn⟩

/-- Along the covers of more and more schemas a row is cast in stages to what it is cast to at
once. -/
theorem projectInTurn_eq_projectRow (haligned : ∀ t ∈ s :: l, t.Aligned)
    (hcompat : ∀ a ∈ s :: l, ∀ b ∈ s :: l, a.isCompatible b) (hr : s.Fits r) :
    ∃ us u p, coversInTurn s l = .ok us ∧ l.foldlM cover s = .ok u ∧ u.projectRow r = .ok p ∧
      projectInTurn us r = .ok p.row := by
  have hs : s.Aligned := haligned s (by simp)
  obtain ⟨u, hu⟩ := (exists_coverAll?_iff (by simp) haligned).mpr hcompat
  have hfold : l.foldlM cover s = .ok u := foldlM_cover_eq_ok_iff.mpr hu
  have hself : (s.projectRow r).map (·.row) = .ok r :=
    map_eq_ok_iff.mpr ⟨.kept r, (projectRow_eq_kept_iff hs).mpr hr, rfl⟩
  obtain ⟨us, p, hus, hp, hturn⟩ := exists_projectInTurn hs (fun t ht => haligned t (by simp [ht]))
    (.refl s) hr hself hfold
  exact ⟨us, u, p, hus, hfold, hp, hturn⟩

/-! ### A count that meets a FLOAT -/

/-- A count, some samples and a share, of the given kinds of numbers, and a flag. -/
def metered (count samples share : Scalar) : Schema :=
  ofColumns [("count", .one count), ("samples", .many samples), ("share", .one share),
    ("flag", .one .boolean)]

/-- Readings of the narrowest kinds; the count is no FLOAT. -/
def readings : Row :=
  [.int 16777217, .many .int ([2147483647, -1] : List Int32), .null, .boolean true]

theorem projectInTurn_eq_projectRow_readings :
    (metered .int .int .float).Fits readings ∧
    ∃ p, (metered .double .long .double).projectRow readings = .ok p ∧
      projectInTurn [metered .long .int .float, metered .double .long .double] readings =
        .ok p.row := by
  have hfits : (metered .int .int .float).Fits readings := by
    simp [Fits, metered, readings, ofColumns, Cell.fits, Cell.type?]
  have hcovers : coversInTurn (metered .int .int .float)
      [metered .long .int .float, metered .float .long .double] =
        .ok [metered .long .int .float, metered .double .long .double] := rfl
  have hcover : [metered .long .int .float, metered .float .long .double].foldlM cover
      (metered .int .int .float) = .ok (metered .double .long .double) := rfl
  obtain ⟨us, u, p, hus, hu, hp, hturn⟩ := projectInTurn_eq_projectRow
    (l := [metered .long .int .float, metered .float .long .double]) (by decide) (by decide) hfits
  obtain rfl := Except.ok.inj (hcovers.symm.trans hus)
  obtain rfl := Except.ok.inj (hcover.symm.trans hu)
  exact ⟨hfits, p, hp, hturn⟩

end Schema

end SelectMerge
