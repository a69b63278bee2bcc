import SelectMerge.Proofs.Block.Folding
import SelectMerge.Proofs.Run.Joining

/-!
# Reductions group by group

Blocks can be reduced in groups, and the results of the groups in their turn (`reduceGroups`). Each
group cuts its rows to the bound, lists them in output order and widens its schema before it meets
the others; a group without rows has nothing to give but a schema. The reduction of the groups ends
all the same with the rows and the schema that a single reduction of all blocks ends with
(`reduceGroups_iff_reduce`).

A group is reduced to its `digest`. The digests can be joined exactly if all blocks can
(`joinable_digests`, `joinable_flatten`), have one cover with them (`coverAll?_digests`), and what
they are reduced to is what all blocks are reduced to (`digest_digests`).
-/

namespace SelectMerge

/-! ## What a group is reduced to -/

/-- The block of what a run selects, as one more input. -/
def Selection.toBlock (sel : Selection) : Block := .ofRows sel.schema sel.rows

/-- Whether a block can be had and has as many types as names. -/
structure Block.Sound (b : Block) : Prop where
  obtained : b.Obtained
  aligned : b.schema.Aligned

theorem aligned_of_mem_nonempty {g : List Block} (hg : ∀ b ∈ g, b.Sound) :
    ∀ b ∈ nonempty g, b.schema.Aligned := fun b hb => (hg b (nonempty_subset g hb)).aligned

theorem Block.lent?_eq_some_iff {b : Block} {s : Schema} :
    b.lent? = some s ↔ b.isEmpty ∧ b.schema.isPlaceholder = false ∧ b.schema = s := by
  rw [lent?]
  cases b.isEmpty <;> cases b.schema.isPlaceholder <;> simp

namespace Combiner

/-- The block of what the blocks of a group are reduced to. -/
def digest (c : Combiner) (g : List Block) : Block := ((Ledger.total g).selection c).toBlock

variable {c : Combiner} {g : List Block} {gs : List (List Block)} {u : Schema}

theorem schema_digest_eq (c : Combiner) (g : List Block) : (c.digest g).schema =
    (Schema.coverAll? ((nonempty g).map (·.schema))).getD
      ((g.findSome? (·.lent?)).getD .placeholder) := rfl

theorem length_digest (c : Combiner) (g : List Block) :
    (c.digest g).length = min c.bound ((nonempty g).flatMap (·.output)).length := by
  rw [flatMap_output_nonempty]
  exact c.length_keep _

theorem isEmpty_digest (hbound : 0 < c.bound) (hg : ∀ b ∈ g, b.Sound) :
    (c.digest g).isEmpty = (nonempty g).isEmpty := by
  cases hn : nonempty g with
  | nil =>
    rw [Block.isEmpty, length_digest, hn]
    simp
  | cons b bs =>
    have hb : b ∈ nonempty g := by simp [hn]
    obtain ⟨hmem, hrows⟩ := List.mem_filter.mp hb
    have hout : 0 < b.output.length :=
      List.length_pos_iff.mpr ((hg b hmem).obtained.output_ne_nil (by simpa using hrows))
    rw [Block.isEmpty, length_digest, hn, List.flatMap_cons, List.length_append,
      List.isEmpty_cons, beq_eq_false_iff_ne]
    omega

theorem schema_digest (hu : Schema.coverAll? ((nonempty g).map (·.schema)) = some u) :
    (c.digest g).schema = u := by
  rw [schema_digest_eq, hu, Option.getD_some]

theorem isCover_digest (hg : ∀ b ∈ g, b.Sound)
    (hu : Schema.coverAll? ((nonempty g).map (·.schema)) = some u) :
    Schema.IsCover ((nonempty g).map (·.schema)) u :=
  Schema.isCover_of_coverAll? (List.forall_mem_map.mpr (aligned_of_mem_nonempty hg)) hu

theorem schema_digest_of_nil (hnil : nonempty g = []) :
    (c.digest g).schema = (g.findSome? (·.lent?)).getD .placeholder := by
  rw [schema_digest_eq, hnil]
  rfl

theorem lent?_digest (hnil : nonempty g = []) : (c.digest g).lent? = g.findSome? (·.lent?) := by
  have hempty : (c.digest g).isEmpty := by
    rw [Block.isEmpty, length_digest, hnil]
    simp
  cases hlent : g.findSome? (·.lent?) with
  | none =>
    rw [Block.lent?, schema_digest_of_nil hnil, hlent, hempty]
    rfl
  | some s =>
    obtain ⟨b, -, hb⟩ := List.exists_of_findSome?_eq_some hlent
    obtain ⟨-, hplace, rfl⟩ := Block.lent?_eq_some_iff.mp hb
    refine Block.lent?_eq_some_iff.mpr ⟨hempty, ?_⟩
    rw [schema_digest_of_nil hnil, hlent]
    exact ⟨hplace, rfl⟩

theorem aligned_digest (hg : ∀ b ∈ g, b.Sound) : (c.digest g).schema.Aligned := by
  cases hu : Schema.coverAll? ((nonempty g).map (·.schema)) with
  | some u =>
    rw [schema_digest hu]
    exact (isCover_digest hg hu).aligned
  | none =>
    rw [schema_digest_eq, hu, Option.getD_none]
    cases hlent : g.findSome? (·.lent?) with
    | none => rfl
    | some s =>
      obtain ⟨b, hb, hlent⟩ := List.exists_of_findSome?_eq_some hlent
      obtain ⟨-, -, rfl⟩ := Block.lent?_eq_some_iff.mp hlent
      exact (hg b hb).aligned

theorem validate_digest {o : RowOrder} (hg : ∀ b ∈ g, b.Sound) (hne : nonempty g ≠ [])
    (hjoin : Joinable c (nonempty g)) (ho : c.order? = some o) :
    o.validate (c.digest g).schema = .ok () := by
  have haligned := aligned_of_mem_nonempty hg
  obtain ⟨u, hu⟩ := hjoin.exists_coverAll? hne haligned
  obtain ⟨b, hb⟩ := List.exists_mem_of_ne_nil _ hne
  have hcover := isCover_digest hg hu
  have hcompat : u.isCompatible b.schema := hcover.isCompatible (List.mem_map_of_mem hb)
  rw [schema_digest hu]
  exact RowOrder.validate_of_isCompatible (haligned b hb) hcover.aligned
    (Schema.isCompatible_symm hcover.aligned (haligned b hb) hcompat) (hjoin.valid o ho b hb)

/-! ## All groups -/

/-- The groups that have rows. -/
def withRows (gs : List (List Block)) : List (List Block) :=
  gs.filter fun g => !(nonempty g).isEmpty

theorem mem_withRows : g ∈ withRows gs ↔ g ∈ gs ∧ nonempty g ≠ [] := by
  simp [withRows]

theorem nonempty_flatten (gs : List (List Block)) :
    nonempty gs.flatten = ((withRows gs).map nonempty).flatten := by
  rw [nonempty, List.filter_flatten, ← List.flatten_filter_not_isEmpty, List.filter_map]
  rfl

theorem flatMap_output_flatten (gs : List (List Block)) :
    gs.flatten.flatMap (·.output) = gs.flatMap fun g => g.flatMap (·.output) := by
  rw [List.flatten_eq_flatMap, List.flatMap_assoc]
  rfl

theorem flatMap_output_subset (hg : g ∈ gs) :
    g.flatMap (·.output) ⊆ gs.flatten.flatMap (·.output) := by
  intro row hrow
  obtain ⟨b, hb, hrow⟩ := List.mem_flatMap.mp hrow
  exact List.mem_flatMap.mpr ⟨b, List.mem_flatten_of_mem hg hb, hrow⟩

theorem flatMap_output_digests_subset (c : Combiner) (gs : List (List Block)) :
    (gs.map c.digest).flatMap (·.output) ⊆ gs.flatten.flatMap (·.output) := by
  intro row hrow
  obtain ⟨d, hd, hrow⟩ := List.mem_flatMap.mp hrow
  obtain ⟨g, hg, rfl⟩ := List.mem_map.mp hd
  exact flatMap_output_subset hg (c.keep_subset _ hrow)

theorem keep_digests (hcons : c.Consistent (gs.flatten.flatMap (·.output))) :
    c.keep ((gs.map c.digest).flatMap (·.output)) = c.keep (gs.flatten.flatMap (·.output)) := by
  rw [flatMap_output_flatten] at hcons ⊢
  rw [List.flatMap_map]
  exact keep_flatMap (fun g : List Block => g.flatMap (·.output)) hcons

theorem findSome?_digests (hnil : ∀ g ∈ gs, nonempty g = []) :
    (gs.map c.digest).findSome? (·.lent?) = gs.flatten.findSome? (·.lent?) := by
  induction gs with
  | nil => rfl
  | cons g gs ih =>
    rw [List.map_cons, List.flatten_cons, List.findSome?_append, ← List.singleton_append,
      List.findSome?_append, List.findSome?_singleton, lent?_digest (hnil g (by simp)),
      ih fun g hg => hnil g (by simp [hg])]

theorem joinable_of_flatten (hjoin : Joinable c (nonempty gs.flatten)) (hg : g ∈ gs) :
    Joinable c (nonempty g) :=
  hjoin.mono (List.filter_subset _ fun _ hb => List.mem_flatten_of_mem hg hb)

section

variable (hbound : 0 < c.bound) (hgs : ∀ g ∈ gs, ∀ b ∈ g, b.Sound)

include hgs

theorem aligned_flatten : ∀ b ∈ nonempty gs.flatten, b.schema.Aligned :=
  aligned_of_mem_nonempty (List.forall_mem_flatten.mpr hgs)

theorem aligned_digests : ∀ d ∈ gs.map c.digest, d.schema.Aligned :=
  List.forall_mem_map.mpr fun g hg => aligned_digest (hgs g hg)

include hbound

theorem nonempty_digests : nonempty (gs.map c.digest) = (withRows gs).map c.digest := by
  rw [nonempty, List.filter_map, withRows]
  congr 1
  refine List.filter_congr fun g hg => ?_
  simp [isEmpty_digest hbound (hgs g hg)]

theorem nonempty_digests_eq_nil_iff :
    nonempty (gs.map c.digest) = [] ↔ nonempty gs.flatten = [] := by
  rw [nonempty_digests hbound hgs, nonempty_flatten, List.map_eq_nil_iff, List.flatten_eq_nil_iff,
    List.forall_mem_map, List.eq_nil_iff_forall_not_mem]
  exact forall₂_congr fun g hg => iff_of_false not_false (mem_withRows.mp hg).2

theorem coverAll?_digests (hjoin : ∀ g ∈ gs, Joinable c (nonempty g)) :
    Schema.coverAll? ((nonempty (gs.map c.digest)).map (·.schema)) =
      Schema.coverAll? ((nonempty gs.flatten).map (·.schema)) := by
  have haligned : ∀ g ∈ gs, ∀ b ∈ nonempty g, b.schema.Aligned :=
    fun g hg => aligned_of_mem_nonempty (hgs g hg)
  rw [nonempty_digests hbound hgs, nonempty_flatten, List.map_flatten, List.map_map, List.map_map]
  refine (Schema.coverAll?_flatten ?_ ?_).symm
  · refine List.forall_mem_map.mpr fun g hg => List.forall_mem_map.mpr ?_
    exact haligned g (mem_withRows.mp hg).1
  · rw [List.forall₂_map_left_iff, List.forall₂_map_right_iff, List.forall₂_same]
    intro g hg
    obtain ⟨hmem, hne⟩ := mem_withRows.mp hg
    obtain ⟨u, hu⟩ := (hjoin g hmem).exists_coverAll? hne (haligned g hmem)
    exact hu.trans (congrArg some (schema_digest hu).symm)

theorem joinable_digests (hjoin : Joinable c (nonempty gs.flatten)) :
    Joinable c (nonempty (gs.map c.digest)) := by
  have hnil := nonempty_digests_eq_nil_iff hbound hgs
  by_cases hne : nonempty gs.flatten = []
  · rw [hnil.mpr hne]
    exact .nil c
  have hgroups : ∀ g ∈ gs, Joinable c (nonempty g) := fun g hg => joinable_of_flatten hjoin hg
  obtain ⟨u, hu⟩ := hjoin.exists_coverAll? hne (aligned_flatten hgs)
  rw [← coverAll?_digests hbound hgs hgroups] at hu
  refine .of_coverAll? (fun d hd => aligned_digests hgs d (nonempty_subset _ hd)) hu ?_
  intro o ho
  obtain ⟨d, hd⟩ := List.exists_mem_of_ne_nil _ (hne ∘ hnil.mp)
  refine ⟨d, hd, ?_⟩
  rw [nonempty_digests hbound hgs] at hd
  obtain ⟨g, hg, rfl⟩ := List.mem_map.mp hd
  obtain ⟨hmem, hrows⟩ := mem_withRows.mp hg
  exact validate_digest (hgs g hmem) hrows (hgroups g hmem) ho

theorem joinable_flatten (hgroups : ∀ g ∈ gs, Joinable c (nonempty g))
    (hjoin : Joinable c (nonempty (gs.map c.digest))) : Joinable c (nonempty gs.flatten) := by
  have hnil := nonempty_digests_eq_nil_iff hbound hgs
  by_cases hne : nonempty gs.flatten = []
  · rw [hne]
    exact .nil c
  obtain ⟨u, hu⟩ := hjoin.exists_coverAll? (hne ∘ hnil.mp)
    fun d hd => aligned_digests hgs d (nonempty_subset _ hd)
  rw [coverAll?_digests hbound hgs hgroups] at hu
  refine .of_coverAll? (aligned_flatten hgs) hu ?_
  intro o ho
  obtain ⟨b, hb⟩ := List.exists_mem_of_ne_nil _ hne
  refine ⟨b, hb, ?_⟩
  rw [nonempty_flatten] at hb
  obtain ⟨bs, hbs, hb⟩ := List.mem_flatten.mp hb
  obtain ⟨g, hg, rfl⟩ := List.mem_map.mp hbs
  exact (hgroups g (mem_withRows.mp hg).1).valid o ho b hb

/-- What the results of the groups are reduced to is what all blocks are reduced to. -/
theorem digest_digests (hjoin : Joinable c (nonempty gs.flatten))
    (hcons : c.Consistent (gs.flatten.flatMap (·.output))) :
    c.digest (gs.map c.digest) = c.digest gs.flatten := by
  have hschema : (c.digest (gs.map c.digest)).schema = (c.digest gs.flatten).schema := by
    rw [schema_digest_eq, schema_digest_eq,
      coverAll?_digests hbound hgs fun g hg => joinable_of_flatten hjoin hg]
    by_cases hne : nonempty gs.flatten = []
    · have hnil : ∀ g ∈ gs, nonempty g = [] := by
        intro g hg
        have hsub : nonempty g ⊆ nonempty gs.flatten :=
          List.filter_subset _ fun _ hb => List.mem_flatten_of_mem hg hb
        rwa [hne, List.subset_nil] at hsub
      rw [findSome?_digests hnil]
    · obtain ⟨u, hu⟩ := hjoin.exists_coverAll? hne (aligned_flatten hgs)
      rw [hu, Option.getD_some, Option.getD_some]
  have hofRows : ∀ bs : List Block,
      c.digest bs = .ofRows (c.digest bs).schema (c.keep (bs.flatMap (·.output))) := fun _ => rfl
  rw [hofRows, hofRows gs.flatten, hschema, keep_digests hcons]

end

end Combiner

/-! ## Reductions of groups -/

namespace Reducer

variable {r : Reducer} {groups : List (Timed (List (Timed Block)))} {bs : List (Timed Block)}
  {sel : Selection}

/-- Reduces groups of blocks and then what they are reduced to. The reading with a group is the one
that the last reduction takes before the result of the group. -/
def reduceGroups (r : Reducer) (groups : List (Timed (List (Timed Block)))) : Outcome := do
  let results ← groups.mapM fun g =>
    (r.reduce g.item).1.map fun sel => (⟨g.now, sel.toBlock⟩ : Timed Block)
  (r.reduce results).1

/-- The blocks of the groups, without readings of the clock. -/
def members (groups : List (Timed (List (Timed Block)))) : List (List Block) :=
  groups.map fun g => g.item.map (·.item)

/-- What the groups are reduced to, each with the reading before it. -/
def digests (c : Combiner) (groups : List (Timed (List (Timed Block)))) : List (Timed Block) :=
  groups.map fun g => ⟨g.now, c.digest (g.item.map (·.item))⟩

theorem map_item_digests (c : Combiner) (groups : List (Timed (List (Timed Block)))) :
    (digests c groups).map (·.item) = (members groups).map c.digest := by
  rw [digests, members, List.map_map, List.map_map]
  rfl

/-- Whether the clock never reaches the deadline, in any group or between them. -/
def GroupsInTime (r : Reducer) (groups : List (Timed (List (Timed Block)))) : Prop :=
  ∀ g ∈ groups, InTime r.settings.timeoutMs g.now ∧
    ∀ b ∈ g.item, InTime r.settings.timeoutMs b.now

section

variable (hclock : r.GroupsInTime groups) (hsound : ∀ g ∈ members groups, ∀ b ∈ g, b.Sound)
  (hcons : r.combiner.Consistent ((members groups).flatten.flatMap (·.output)))

include hclock hsound hcons

theorem reduce_group_eq_ok_iff {g : Timed (List (Timed Block))} (hg : g ∈ groups) :
    (r.reduce g.item).1 = .ok sel ↔ Joinable r.combiner (nonempty (g.item.map (·.item))) ∧
      sel = (Ledger.total (g.item.map (·.item))).selection r.combiner := by
  have hmem : g.item.map (·.item) ∈ members groups := List.mem_map_of_mem hg
  have haligned : ∀ b ∈ g.item, b.item.schema.Aligned :=
    fun b hb => (hsound _ hmem _ (List.mem_map_of_mem hb)).aligned
  have hrows : r.combiner.Consistent (g.item.flatMap (·.item.output)) := by
    rw [← List.flatMap_map]
    exact hcons.mono (Combiner.flatMap_output_subset hmem)
  exact reduce_eq_ok_iff (hclock g hg).2 haligned hrows

theorem reduce_digests_eq_ok_iff : (r.reduce (digests r.combiner groups)).1 = .ok sel ↔
    Joinable r.combiner (nonempty ((members groups).map r.combiner.digest)) ∧
      sel = (Ledger.total ((members groups).map r.combiner.digest)).selection r.combiner := by
  have hnow : ∀ d ∈ digests r.combiner groups, InTime r.settings.timeoutMs d.now :=
    List.forall_mem_map.mpr fun g hg => (hclock g hg).1
  have haligned : ∀ d ∈ (digests r.combiner groups).map (·.item), d.schema.Aligned := by
    rw [map_item_digests]
    exact Combiner.aligned_digests hsound
  have hrows : r.combiner.Consistent ((digests r.combiner groups).flatMap (·.item.output)) := by
    rw [← List.flatMap_map, map_item_digests]
    exact hcons.mono (Combiner.flatMap_output_digests_subset _ _)
  rw [reduce_eq_ok_iff hnow (fun d hd => haligned d.item (List.mem_map_of_mem hd)) hrows,
    map_item_digests]

/-- A reduction of groups succeeds exactly if all blocks can be joined. -/
theorem reduceGroups_eq_ok_iff (hbound : 0 < r.combiner.bound) : r.reduceGroups groups = .ok sel ↔
    Joinable r.combiner (nonempty (members groups).flatten) ∧
      sel = (Ledger.total ((members groups).map r.combiner.digest)).selection r.combiner := by
  have hgroup : ∀ g ∈ groups, ∀ d,
      ((r.reduce g.item).1.map fun sel => (⟨g.now, sel.toBlock⟩ : Timed Block)) = .ok d ↔
        Joinable r.combiner (nonempty (g.item.map (·.item))) ∧
          d = ⟨g.now, r.combiner.digest (g.item.map (·.item))⟩ := by
    intro g hg d
    simp only [map_eq_ok_iff, reduce_group_eq_ok_iff hclock hsound hcons hg]
    constructor
    · rintro ⟨sel, ⟨hjoin, rfl⟩, rfl⟩
      exact ⟨hjoin, rfl⟩
    · rintro ⟨hjoin, rfl⟩
      exact ⟨_, ⟨hjoin, rfl⟩, rfl⟩
  have hlast : (r.reduce (digests r.combiner groups)).1 = .ok sel ↔ _ :=
    reduce_digests_eq_ok_iff hclock hsound hcons
  rw [reduceGroups, bind_eq_ok_iff]
  simp only [mapM_eq_ok_map_iff hgroup]
  constructor
  · rintro ⟨results, ⟨hgroups, rfl⟩, hsel⟩
    obtain ⟨hjoin, hsel⟩ := hlast.mp hsel
    exact ⟨Combiner.joinable_flatten hbound hsound (List.forall_mem_map.mpr hgroups) hjoin, hsel⟩
  · rintro ⟨hjoin, hsel⟩
    refine ⟨_, ⟨?_, rfl⟩, hlast.mpr ⟨Combiner.joinable_digests hbound hsound hjoin, hsel⟩⟩
    exact fun g hg => Combiner.joinable_of_flatten hjoin (List.mem_map_of_mem hg)

end

/-- Whatever the groups, which may be empty or have no rows, a reduction of them succeeds exactly if
that of all blocks one after another does, and both end with the same schema and the same rows in
the same order. -/
theorem reduceGroups_iff_reduce (hbound : 0 < r.combiner.bound)
    (hsplit : (members groups).flatten = bs.map (·.item)) (hclock : r.GroupsInTime groups)
    (hclock' : ∀ b ∈ bs, InTime r.settings.timeoutMs b.now) (hsound : ∀ b ∈ bs, b.item.Sound)
    (hcons : r.combiner.Consistent (bs.flatMap (·.item.output))) :
    ((∃ sel, r.reduceGroups groups = .ok sel) ↔ ∃ sel, (r.reduce bs).1 = .ok sel) ∧
      ∀ sel sel', r.reduceGroups groups = .ok sel → (r.reduce bs).1 = .ok sel' →
        sel.schema = sel'.schema ∧ sel.rows = sel'.rows := by
  have hmembers : ∀ g ∈ members groups, ∀ b ∈ g, b.Sound := by
    rw [← List.forall_mem_flatten, hsplit]
    exact List.forall_mem_map.mpr hsound
  have hcons' : r.combiner.Consistent ((members groups).flatten.flatMap (·.output)) := by
    rwa [hsplit, List.flatMap_map]
  have hgroups : ∀ sel, r.reduceGroups groups = .ok sel ↔
      Joinable r.combiner (nonempty (bs.map (·.item))) ∧
        sel = (Ledger.total ((members groups).map r.combiner.digest)).selection r.combiner := by
    intro sel
    rw [← hsplit]
    exact reduceGroups_eq_ok_iff hclock hmembers hcons' hbound
  have hall : ∀ sel, (r.reduce bs).1 = .ok sel ↔
      Joinable r.combiner (nonempty (bs.map (·.item))) ∧
        sel = (Ledger.total (bs.map (·.item))).selection r.combiner :=
    fun sel => reduce_eq_ok_iff hclock' (fun b hb => (hsound b hb).aligned) hcons
  refine ⟨?_, ?_⟩
  · simp only [hgroups, hall, exists_and_left, exists_eq]
  · intro sel sel' hsel hsel'
    obtain ⟨hjoin, rfl⟩ := (hgroups sel).mp hsel
    obtain ⟨-, rfl⟩ := (hall sel').mp hsel'
    rw [← hsplit] at hjoin ⊢
    have hdigest := Combiner.digest_digests hbound hmembers hjoin hcons'
    exact ⟨congrArg Block.schema hdigest, congrArg Block.output hdigest⟩

/-! ### Groups of players -/

def guests : Block := players (.one .double) [(.null, "gil")]

/-- A group without players, one of two blocks, an empty one, and one of a wider type. -/
def playerGroups : List (Timed (List (Timed Block))) :=
  [⟨0, [⟨0, players (.one .string) []⟩]⟩, ⟨1, [⟨0, juniors⟩, ⟨3, seniors⟩]⟩, ⟨2, []⟩,
    ⟨2, [⟨0, .ofRows .placeholder []⟩, ⟨1, guests⟩]⟩]

def allPlayers : List (Timed Block) :=
  [⟨0, players (.one .string) []⟩, ⟨0, juniors⟩, ⟨1, seniors⟩, ⟨1, .ofRows .placeholder []⟩,
    ⟨2, guests⟩]

/-- Of the players with score 7 the junior stays in front, and scores end up as DOUBLE for the sake
of a guest without a score who is not among the best. -/
theorem reduceGroups_players : ∃ sel, scoreReducer.reduceGroups playerGroups = .ok sel ∧
    sel.schema = guests.schema ∧
    sel.rows = [[.long 9, .string "eve"], [.int 7, .string "cid"], [.long 7, .string "flo"]] := by
  have hclock : scoreReducer.GroupsInTime playerGroups :=
    fun g _ => ⟨inTime_none g.now, fun b _ => inTime_none b.now⟩
  have hclock' : ∀ b ∈ allPlayers, InTime scoreReducer.settings.timeoutMs b.now :=
    fun b _ => inTime_none b.now
  have hsound : ∀ b ∈ allPlayers, b.item.Sound := by
    intro b hb
    simp only [allPlayers, List.mem_cons, List.not_mem_nil, or_false] at hb
    rcases hb with rfl | rfl | rfl | rfl | rfl <;> exact ⟨.ofRows _ _, rfl⟩
  have hpre : TotalPreorderOn scoreOrder.compare (· ∈ allPlayers.flatMap (·.item.output)) :=
    totalPreorderOn_players [(.int 4, "ann"), (.null, "bob"), (.int 7, "cid"), (.long 4, "dot"),
      (.long 9, "eve"), (.long 7, "flo"), (.null, "gil")] (by simp [Cell.quantity?])
  have hcons : scoreReducer.combiner.Consistent (allPlayers.flatMap (·.item.output)) := by
    intro o ho
    obtain rfl : scoreOrder = o := Option.some.inj ho
    exact hpre
  obtain ⟨hiff, heq⟩ :=
    reduceGroups_iff_reduce (by decide) rfl hclock hclock' hsound hcons
  have hall : (scoreReducer.reduce allPlayers).1 = .ok ⟨guests.schema,
      [[.long 9, .string "eve"], [.int 7, .string "cid"], [.long 7, .string "flo"]], 3⟩ := rfl
  obtain ⟨sel, hsel⟩ := hiff.mpr ⟨_, hall⟩
  obtain ⟨hschema, hrows⟩ := heq _ _ hsel hall
  exact ⟨sel, hsel, hschema, hrows⟩

end Reducer

end SelectMerge
