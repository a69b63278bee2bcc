import SelectMerge.Proofs.Block.Settling
import SelectMerge.Proofs.Schema.LeastCover

/-!
# How often schemas widen

A join either leaves a type as it is or moves it strictly up, and from every type it is at most two
moves to the top: INT, LONG and DOUBLE, arrays alike. `headroom` counts the moves that are left to
all columns together.

An action leaves the schema as it is or widens it, and reports a change exactly if there is one
(`schema_perform_cases`); a change takes from the headroom (`headroom_joinTypes?`). So what a run
reports and the room that it leaves make up at most the room there was (`countP_reportsUpgrade_le`),
which bounds the reports of a run by twice the number of columns, however long it is and whatever
fails in it (`schema_widens`).
-/

namespace SelectMerge

/-! ## Room in types -/

/-- How often joins can still change the kind. -/
def Scalar.headroom : Scalar → Nat
  | int => 2
  | long | float => 1
  | double | boolean | string | bytes | timestamp | object => 0

/-- How often joins can still change the type. -/
def ColumnType.headroom : ColumnType → Nat
  | one s => s.headroom
  | many s => s.headroom

theorem Scalar.headroom_le (s : Scalar) : s.headroom ≤ 2 := by
  cases s <;> decide

theorem Scalar.headroom_join? {a b c : Scalar} (h : a.join? b = some c) :
    c = a ∨ c.headroom < a.headroom := by
  by_cases hab : a = b
  · rw [join?, if_pos hab] at h
    exact .inl (Option.some.inj h).symm
  · -- two kinds that differ meet at LONG or DOUBLE, and either is theirs or above them
    rw [join?, if_neg hab] at h
    split_ifs at h with hwhole hnumber <;> obtain rfl := Option.some.inj h
    · cases a <;> simp_all [isWhole, headroom]
    · cases a <;> simp_all [isNumber, headroom]

theorem ColumnType.headroom_le (t : ColumnType) : t.headroom ≤ 2 := by
  cases t with
  | one s | many s => exact s.headroom_le

theorem ColumnType.headroom_join? {s t u : ColumnType} (h : s.join? t = some u) :
    u = s ∨ u.headroom < s.headroom := by
  cases s <;> cases t <;> simp only [join?, Option.map_eq_some_iff, reduceCtorEq] at h <;>
  · obtain ⟨c, hc, rfl⟩ := h
    exact (Scalar.headroom_join? hc).imp_left fun heq => by rw [heq]

/-! ## Room in schemas -/

namespace Schema

variable {s t u : Schema} {ss ts us : List ColumnType}

/-- How often joins can still change one of some types. -/
def headroom : List ColumnType → Nat
  | [] => 0
  | t :: ts => t.headroom + headroom ts

theorem headroom_le (ts : List ColumnType) : headroom ts ≤ 2 * ts.length := by
  induction ts with
  | nil => exact Nat.le_refl 0
  | cons t ts ih =>
    have ht := t.headroom_le
    rw [headroom, List.length_cons]
    omega

theorem headroom_joinTypes? (h : joinTypes? ss ts = some us) (hlen : ss.length = ts.length) :
    us = ss ∨ headroom us < headroom ss := by
  induction ss generalizing ts us with
  | nil => exact .inl (Option.some.inj h).symm
  | cons s ss ih =>
    cases ts with
    | nil => cases hlen
    | cons t ts =>
      rw [joinTypes?_cons] at h
      obtain ⟨u, hu, h⟩ := Option.bind_eq_some_iff.mp h
      obtain ⟨us, hus, rfl⟩ := Option.map_eq_some_iff.mp h
      rw [headroom, headroom]
      rcases ColumnType.headroom_join? hu, ih hus (by simpa using hlen) with
        ⟨rfl | hhead, rfl | htail⟩
      · exact .inl rfl
      all_goals exact .inr (by omega)

/-- Whether the one schema is as the other or wider, and told so exactly if it is wider. -/
structure Upgrades (s u : Schema) (reported : Bool) : Prop where
  widensTo : s.WidensTo u
  reported_iff : reported ↔ u ≠ s
  headroom_le : headroom u.types + reported.toNat ≤ headroom s.types

theorem upgrades_self (s : Schema) : s.Upgrades s false := ⟨.refl s, by simp, Nat.le_refl _⟩

theorem upgrades_cover? (hs : s.Aligned) (ht : t.Aligned) (h : s.cover? t = some u) :
    s.Upgrades u (decide (u ≠ s)) := by
  obtain ⟨hlen, hjoin, hnames⟩ := cover?_eq_some_iff.mp h
  obtain ⟨-, hwiden, -⟩ := widen_of_cover? hs ht h
  refine ⟨⟨hnames.symm, hwiden⟩, decide_eq_true_iff, ?_⟩
  rcases headroom_joinTypes? hjoin (hs.symm.trans (hlen.trans ht)) with htypes | hlt
  · have hus : u = s := by
      cases u; cases s
      exact congrArg₂ Schema.mk hnames htypes
    simp [hus]
  · have hreport := (decide (u ≠ s)).toNat_le
    omega

theorem WidensTo.aligned (h : s.WidensTo u) (hs : s.Aligned) : u.Aligned := by
  rw [Aligned, ← h.names, ← h.types.length_eq]
  exact hs

end Schema

/-! ## Merges -/

namespace Block

variable {b b' source : Block} {bound : Nat} {tally : MergeTally} {action : Action}

theorem cover?_of_mergeUnordered_ok (h : b.mergeUnordered source bound = (.ok tally, b')) :
    b.schema.cover? source.schema = some b'.schema ∧
      tally.schemaUpgraded = decide (b'.schema ≠ b.schema) := by
  obtain ⟨hb, hc⟩ := of_mergeUnordered_ok h
  obtain ⟨c, hcov⟩ := Schema.exists_cover? hc
  cases hrows : b.rows with
  | arrived rows =>
    rw [mergeUnordered_eq hrows hc hcov] at h
    obtain ⟨htally, rfl⟩ := Prod.mk.inj h
    obtain rfl := Except.ok.inj htally
    exact ⟨hcov, rfl⟩
  | ranked o s | settled o rows => simp [isOrdered, order?, hrows] at hb

theorem cover?_of_mergeOrdered_ok (h : b.mergeOrdered source bound = (.ok tally, b')) :
    b.schema.cover? source.schema = some b'.schema ∧
      tally.schemaUpgraded = decide (b'.schema ≠ b.schema) := by
  obtain ⟨hb, hc⟩ := of_mergeOrdered_ok h
  obtain ⟨c, hcov⟩ := Schema.exists_cover? hc
  have hopened : ∃ gone, ∃ o, ∃ s : TopK o.compare, b.opened? bound = some (gone, ⟨o, s⟩) := by
    cases hrows : b.rows with
    | arrived rows => simp [isOrdered, order?, hrows] at hb
    | ranked o s => exact ⟨_, _, _, opened?_ranked hrows bound⟩
    | settled o rows => exact ⟨_, _, _, opened?_settled hrows bound⟩
  obtain ⟨gone, o, s, hopen⟩ := hopened
  rw [mergeOrdered_eq hopen hc hcov] at h
  obtain ⟨htally, rfl⟩ := Prod.mk.inj h
  obtain rfl := Except.ok.inj htally
  exact ⟨hcov, rfl⟩

/-- Whether an answer tells of a wider schema. -/
def reportsUpgrade : Except MergeError (Option MergeTally) → Bool
  | .ok (some tally) => tally.schemaUpgraded
  | .ok none | .error _ => false

theorem schema_perform_cases (b : Block) (action : Action) :
    ((b.perform action).2.schema = b.schema ∧ reportsUpgrade (b.perform action).1 = false) ∨
      ∃ source ∈ action.source?,
        b.schema.cover? source.schema = some (b.perform action).2.schema ∧
          reportsUpgrade (b.perform action).1 =
            decide ((b.perform action).2.schema ≠ b.schema) := by
  cases action with
  | mergeUnordered source bound =>
    rcases hmerge : b.mergeUnordered source bound with ⟨e | tally, b'⟩
    · simp only [perform, hmerge]
      exact .inl ⟨congrArg Block.schema (eq_of_mergeUnordered_error hmerge), rfl⟩
    · simp only [perform, hmerge]
      exact .inr ⟨source, rfl, cover?_of_mergeUnordered_ok hmerge⟩
  | mergeOrdered source bound =>
    rcases hmerge : b.mergeOrdered source bound with ⟨e | tally, b'⟩
    · simp only [perform, hmerge]
      exact .inl ⟨congrArg Block.schema (eq_of_mergeOrdered_error hmerge), rfl⟩
    · simp only [perform, hmerge]
      exact .inr ⟨source, rfl, cover?_of_mergeOrdered_ok hmerge⟩
  | settle => exact .inl ⟨schema_settle b, rfl⟩

theorem schema_perform (b : Block) (action : Action) :
    (b.perform action).2.schema = b.schema ∨ ∃ source ∈ action.source?,
      b.schema.cover? source.schema = some (b.perform action).2.schema := by
  rcases schema_perform_cases b action with ⟨hschema, -⟩ | ⟨source, hsource, hcov, -⟩
  · exact .inl hschema
  · exact .inr ⟨source, hsource, hcov⟩

theorem names_perform (b : Block) (action : Action) :
    (b.perform action).2.schema.names = b.schema.names := by
  rcases schema_perform b action with hschema | ⟨source, -, hcov⟩
  · rw [hschema]
  · exact (Schema.cover?_eq_some_iff.mp hcov).2.2

theorem upgrades_perform (hb : b.schema.Aligned)
    (hsource : ∀ source ∈ action.source?, source.schema.Aligned) :
    b.schema.Upgrades (b.perform action).2.schema (reportsUpgrade (b.perform action).1) := by
  rcases schema_perform_cases b action with ⟨hschema, hreport⟩ | ⟨source, hmem, hcov, hreport⟩
  · rw [hschema, hreport]
    exact Schema.upgrades_self b.schema
  · rw [hreport]
    exact Schema.upgrades_cover? hb (hsource source hmem) hcov

/-! ## Runs of merges -/

variable {actions : List Action}

theorem aligned_performAll (hb : b.schema.Aligned)
    (hsources : ∀ action ∈ actions, ∀ source ∈ action.source?, source.schema.Aligned) :
    (performAll actions b).2.schema.Aligned := by
  induction actions generalizing b with
  | nil => exact hb
  | cons action actions ih =>
    rw [performAll_cons]
    exact ih ((upgrades_perform hb (hsources action (by simp))).widensTo.aligned hb)
      fun action' haction => hsources action' (by simp [haction])

/-- What a run reports and the room that it leaves make up at most the room there was. -/
theorem countP_reportsUpgrade_le (hb : b.schema.Aligned)
    (hsources : ∀ action ∈ actions, ∀ source ∈ action.source?, source.schema.Aligned) :
    (performAll actions b).1.countP reportsUpgrade +
        Schema.headroom (performAll actions b).2.schema.types ≤
      Schema.headroom b.schema.types := by
  induction actions generalizing b with
  | nil => exact Nat.le_of_eq (Nat.zero_add _)
  | cons action actions ih =>
    have hstep := upgrades_perform hb (hsources action (by simp))
    have hrest := ih (hstep.widensTo.aligned hb)
      fun action' haction => hsources action' (by simp [haction])
    have hanswers : (performAll (action :: actions) b).1 =
        (b.perform action).1 :: (performAll actions (b.perform action).2).1 := rfl
    have hroom := hstep.headroom_le
    rw [hanswers, performAll_cons, List.countP_cons]
    cases hreport : reportsUpgrade (b.perform action).1 <;> simp [hreport] at hroom ⊢ <;> omega

/-- Whatever is merged into a target, with or without success, its names stay, its types only widen,
and a wider schema is reported exactly by the actions that bring one. There are at most two such
reports for each column, however long the run. -/
theorem schema_widens {target : Block} (htarget : target.schema.Aligned)
    (hsources : ∀ action ∈ actions, ∀ source ∈ action.source?, source.schema.Aligned) :
    (∀ before action after, actions = before ++ action :: after →
      let b := (performAll before target).2
      let b' := (b.perform action).2
      b'.schema.names = b.schema.names ∧
        List.Forall₂ (fun s t => s.widensTo t) b.schema.types b'.schema.types ∧
        (reportsUpgrade (b.perform action).1 ↔ b'.schema ≠ b.schema)) ∧
      (performAll actions target).1.countP reportsUpgrade ≤ 2 * target.schema.length := by
  constructor
  · rintro before action after rfl b b'
    have haligned := aligned_performAll htarget fun action haction =>
      hsources action (List.mem_append_left _ haction)
    obtain ⟨hwidens, hreport, -⟩ := upgrades_perform haligned (hsources action (by simp))
    exact ⟨hwidens.names.symm, hwidens.types, hreport⟩
  · have hcount := countP_reportsUpgrade_le htarget hsources
    have hroom := Schema.headroom_le target.schema.types
    rw [Schema.length, htarget]
    omega

/-! ### Measures of two kinds -/

/-- A block of no rows with two measures. -/
def measures (s t : Scalar) : Block := .ofRows (.ofColumns [("count", .one s), ("sum", .one t)]) []

/-- Four of the merges widen one column each; the others are refused or bring nothing new. -/
def measureActions : List Action :=
  [.mergeUnordered (measures .int .long) 5, .mergeUnordered (measures .string .long) 5,
    .mergeOrdered (measures .double .double) 5, .mergeUnordered (measures .long .int) 5,
    .mergeUnordered (measures .long .float) 5, .mergeUnordered (measures .long .int) 5,
    .mergeUnordered (measures .double .int) 5, .mergeUnordered (measures .float .float) 5]

/-- The schema of the target after the first four actions. -/
def halfwayMeasures : Block := (performAll (measureActions.take 4) (measures .int .int)).2

theorem schema_widens_measures : (measures .int .int).schema.Aligned ∧
    (∀ action ∈ measureActions, ∀ source ∈ action.source?, source.schema.Aligned) ∧
    (performAll measureActions (measures .int .int)).1.map reportsUpgrade =
      [true, false, false, true, true, false, true, false] ∧
    halfwayMeasures.schema.types = [.one .long, .one .long] ∧
    List.Forall₂ (fun s t => s.widensTo t) halfwayMeasures.schema.types
      (halfwayMeasures.mergeUnordered (measures .long .float) 5).2.schema.types ∧
    (performAll measureActions (measures .int .int)).1.countP reportsUpgrade ≤ 2 * 2 := by
  have haligned : ∀ s t, (measures s t).schema.Aligned := fun _ _ => rfl
  have hsources : ∀ action ∈ measureActions, ∀ source ∈ action.source?, source.schema.Aligned := by
    simp [measureActions, Action.source?, haligned]
  obtain ⟨hsteps, hcount⟩ := schema_widens (haligned .int .int) hsources
  obtain ⟨-, hwiden, -⟩ := hsteps (measureActions.take 4) _ (measureActions.drop 5) rfl
  exact ⟨haligned .int .int, hsources, by decide +kernel, by decide +kernel, hwiden, hcount⟩

end Block

end SelectMerge
