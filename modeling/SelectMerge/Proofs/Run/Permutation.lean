import SelectMerge.Proofs.Run.Arrival
import SelectMerge.Proofs.Run.Turns

/-!
# Reductions of blocks in another order

What a pool delivers is reduced as if the blocks had been given one after another
(`reduceReceipts_eq_reduce`). Blocks of the same columns are reduced in every order or in none, to
one schema and as many rows, which tie place by place if the query orders them and its order is
consistent on them (`reduce_perm`).

Without a deadline a run folds all blocks with rows or fails because they cannot be
(`reduce_cases`), and whether they can does not depend on their order (`foldable_iff_of_perm`). The
rest is about two sorted lists of the same rows.
-/

namespace SelectMerge

namespace Reducer

variable {r : Reducer} {bs bs' : List (Timed Block)} {names : List String}

theorem reduceReceipts_eq_reduce (hdeadline : r.settings.timeoutMs = none)
    (bs : List (Timed Block)) :
    (r.reduceReceipts bs.length (bs.map fun b => .block b.item)).1 = (r.reduce bs).1 := by
  have hturns : (Job.receipts bs.length (bs.map fun b => .block b.item)).turns =
      bs.map fun b => .ofReceipt (.block b.item) := by
    have hall := awaited_length (bs.map fun b => .block b.item)
    rw [List.length_map] at hall
    rw [Job.turns, hall, List.map_map]
    rfl
  have hjob := r.perform_eq_run (.receipts bs.length (bs.map fun b => .block b.item))
  rw [hdeadline, hturns] at hjob
  refine (congrArg Prod.fst hjob).trans
    ((fst_run_turns_eq_reduce ?_ ?_).trans (by rw [untimed_eq hdeadline]))
  · simp [Turn.folds]
  · simp [List.filterMap_map, Function.comp_def]

/-! ## Success -/

/-- Without a deadline a run either folds all blocks with rows or fails because they cannot be. -/
theorem reduce_cases (hdeadline : r.settings.timeoutMs = none)
    (hnames : ∀ b ∈ bs, b.item.schema.names = names ∧ b.item.schema.Aligned) :
    (∃ p : Progress, (r.reduce bs).1 = .ok p.selection ∧
        p.Gathers r.combiner (nonempty (bs.map (·.item)))) ∨
      (¬ Foldable r.combiner (nonempty (bs.map (·.item))) ∧ ∃ e, (r.reduce bs).1 = .error e) := by
  have hstart : (Progress.start r.meter).Gathers r.combiner [] :=
    ⟨rfl, ⟨by simp, by simp⟩, rfl⟩
  have hseen : ∀ a ∈ nonempty (bs.map (·.item)), a.schema.names = names ∧ a.schema.Aligned := by
    intro a ha
    obtain ⟨b, hb, rfl⟩ := List.mem_map.mp (List.mem_filter.mp ha).1
    exact hnames b hb
  rw [reduce, hdeadline, run_fst]
  have hblocks := hstart.blocks hseen
  rcases hblocks with ⟨p, hp, hgathers⟩ | ⟨hnot, e, p, hp⟩
  · exact .inl ⟨p, by rw [hp], hgathers⟩
  · exact .inr ⟨hnot, e, by rw [hp]⟩

theorem exists_reduce_iff (hdeadline : r.settings.timeoutMs = none)
    (hnames : ∀ b ∈ bs, b.item.schema.names = names ∧ b.item.schema.Aligned) :
    (∃ sel, (r.reduce bs).1 = .ok sel) ↔
      Foldable r.combiner (nonempty (bs.map (·.item))) := by
  rcases reduce_cases hdeadline hnames with ⟨p, hp, hgathers⟩ | ⟨hnot, e, he⟩
  · exact ⟨fun _ => hgathers.foldable, fun _ => ⟨_, hp⟩⟩
  · refine ⟨?_, fun hf => absurd hf hnot⟩
    rintro ⟨sel, hsel⟩
    rw [he] at hsel
    cases hsel

theorem schema_length_merged_of_reduce {sel : Selection} (hdeadline : r.settings.timeoutMs = none)
    (hnames : ∀ b ∈ bs, b.item.schema.names = names ∧ b.item.schema.Aligned)
    (hsel : (r.reduce bs).1 = .ok sel) (hne : nonempty (bs.map (·.item)) ≠ []) :
    Schema.coverAll? ((nonempty (bs.map (·.item))).map (·.schema)) = some sel.schema ∧
      sel.rows.length = min r.combiner.bound ((bs.map (·.item)).flatMap (·.output)).length ∧
      sel.merged = (nonempty (bs.map (·.item))).length := by
  rcases reduce_cases hdeadline hnames with ⟨p, hp, hgathers⟩ | ⟨-, e, he⟩
  · obtain rfl : p.selection = sel := Except.ok.inj (hp.symm.trans hsel)
    have htarget := hgathers.target
    cases ht : p.target with
    | none => exact absurd (by simpa [ht] using htarget) hne
    | some t =>
      rw [ht] at htarget
      obtain ⟨-, hcover, hholds⟩ := htarget
      rw [flatMap_output_nonempty] at hholds
      rw [Progress.selection, ht]
      exact ⟨hcover, hholds.length_output, hgathers.merged⟩
  · rw [he] at hsel
    cases hsel

theorem rows_of_reduce {sel : Selection} (hdeadline : r.settings.timeoutMs = none)
    (hf : Foldable r.combiner (nonempty (bs.map (·.item))))
    (hne : nonempty (bs.map (·.item)) ≠ [])
    (hcons : r.combiner.Consistent (bs.flatMap (·.item.output)))
    (hsel : (r.reduce bs).1 = .ok sel) :
    sel.rows = (r.combiner.arrange (bs.flatMap (·.item.output))).take r.combiner.bound := by
  rw [← List.flatMap_map, ← flatMap_output_nonempty] at hcons
  obtain ⟨sel₀, hsel₀, -, hrows⟩ := exists_reduce hdeadline ⟨hf.agree, hf.valid, hcons⟩ hne
  obtain rfl : sel₀ = sel := Except.ok.inj (hsel₀.symm.trans hsel)
  exact hrows

theorem sorted_rows_of_reduce {sel : Selection} {o : RowOrder}
    (hdeadline : r.settings.timeoutMs = none)
    (hf : Foldable r.combiner (nonempty (bs.map (·.item))))
    (hne : nonempty (bs.map (·.item)) ≠ []) (ho : r.combiner.order? = some o)
    (hpre : TotalPreorderOn o.compare (· ∈ bs.flatMap (·.item.output)))
    (hsel : (r.reduce bs).1 = .ok sel) :
    sel.rows = (stableSort o.compare (bs.flatMap (·.item.output))).take r.combiner.bound := by
  have hcons : r.combiner.Consistent (bs.flatMap (·.item.output)) := by
    intro o' ho'
    obtain rfl : o = o' := Option.some.inj (ho.symm.trans ho')
    exact hpre
  rw [rows_of_reduce hdeadline hf hne hcons hsel, Combiner.arrange, ho]

theorem first_rows_of_reduce {sel : Selection} (hdeadline : r.settings.timeoutMs = none)
    (hf : Foldable r.combiner (nonempty (bs.map (·.item))))
    (hne : nonempty (bs.map (·.item)) ≠ []) (ho : r.combiner.order? = none)
    (hsel : (r.reduce bs).1 = .ok sel) :
    sel.rows = (bs.flatMap (·.item.output)).take r.combiner.bound := by
  have hcons : r.combiner.Consistent (bs.flatMap (·.item.output)) := by
    intro o ho'
    rw [ho] at ho'
    cases ho'
  rw [rows_of_reduce hdeadline hf hne hcons hsel, Combiner.arrange, ho]

/-! ## Permutations -/

theorem nonempty_perm {bs bs' : List Block} (h : bs.Perm bs') :
    (nonempty bs).Perm (nonempty bs') := h.filter _

theorem foldable_iff_of_perm {c : Combiner} {bs bs' : List Block} (h : bs.Perm bs') :
    Foldable c bs ↔ Foldable c bs' := by
  constructor
  · intro hf
    exact hf.mono fun b hb => h.mem_iff.mpr hb
  · intro hf
    exact hf.mono fun b hb => h.mem_iff.mp hb

/-- In any order of arrival, blocks of the same columns are reduced or none of the orders is, and a
run over receipts of a pool is one of these. The schema and the numbers of rows and of blocks are
the same in all of them; the rows tie place by place if the order of the query is consistent on
them, and are the same if no two tie. Without an order they are the first that arrived. -/
theorem reduce_perm (hdeadline : r.settings.timeoutMs = none)
    (hnames : ∀ b ∈ bs, b.item.schema.names = names ∧ b.item.schema.Aligned)
    (hperm : (bs.map (·.item)).Perm (bs'.map (·.item))) :
    (r.reduceReceipts bs.length (bs.map fun b => .block b.item)).1 = (r.reduce bs).1 ∧
      ((∃ sel, (r.reduce bs).1 = .ok sel) ↔ ∃ sel, (r.reduce bs').1 = .ok sel) ∧
      ∀ sel sel', (r.reduce bs).1 = .ok sel → (r.reduce bs').1 = .ok sel' →
        (∃ b ∈ bs, b.item.isEmpty = false) →
        sel.schema = sel'.schema ∧ sel.rows.length = sel'.rows.length ∧
          sel.merged = sel'.merged ∧
          (∀ o, r.combiner.order? = some o →
            TotalPreorderOn o.compare (· ∈ bs.flatMap (·.item.output)) →
            List.Forall₂ (fun x y => o.compare x y = .eq) sel.rows sel'.rows ∧
              ((bs.flatMap (·.item.output)).Pairwise (fun x y => o.compare x y ≠ .eq) →
                sel.rows = sel'.rows)) ∧
          (r.combiner.order? = none →
            sel.rows = (bs.flatMap (·.item.output)).take r.combiner.bound ∧
              sel'.rows = (bs'.flatMap (·.item.output)).take r.combiner.bound) := by
  have hnames' : ∀ b ∈ bs', b.item.schema.names = names ∧ b.item.schema.Aligned := by
    intro b hb
    obtain ⟨a, ha, hab⟩ := List.mem_map.mp (hperm.mem_iff.mpr (List.mem_map_of_mem hb))
    exact hab ▸ hnames a ha
  have hblocks : (nonempty (bs.map (·.item))).Perm (nonempty (bs'.map (·.item))) :=
    nonempty_perm hperm
  have hfold := foldable_iff_of_perm (c := r.combiner) hblocks
  refine ⟨reduceReceipts_eq_reduce hdeadline bs, ?_, ?_⟩
  · rw [exists_reduce_iff hdeadline hnames, exists_reduce_iff hdeadline hnames', hfold]
  intro sel sel' hsel hsel' hsome
  have hne : nonempty (bs.map (·.item)) ≠ [] := by
    obtain ⟨b, hb, hrows⟩ := hsome
    refine List.ne_nil_of_mem (List.mem_filter.mpr ⟨List.mem_map_of_mem hb, ?_⟩)
    rw [hrows]
    rfl
  have hne' : nonempty (bs'.map (·.item)) ≠ [] := fun h => hne (List.perm_nil.mp (h ▸ hblocks))
  have hschemas : ∀ s ∈ (nonempty (bs.map (·.item))).map (·.schema),
      s.names = names ∧ s.Aligned := by
    intro s hs
    obtain ⟨a, ha, rfl⟩ := List.mem_map.mp hs
    obtain ⟨b, hb, rfl⟩ := List.mem_map.mp (List.mem_filter.mp ha).1
    exact hnames b hb
  obtain ⟨hcover, hlen, hmerged⟩ := schema_length_merged_of_reduce hdeadline hnames hsel hne
  obtain ⟨hcover', hlen', hmerged'⟩ := schema_length_merged_of_reduce hdeadline hnames' hsel' hne'
  have hrows : (bs.flatMap (·.item.output)).Perm (bs'.flatMap (·.item.output)) := by
    have hmapped := hperm.flatMap_right (·.output)
    rwa [List.flatMap_map, List.flatMap_map] at hmapped
  have hf := (exists_reduce_iff hdeadline hnames).mp ⟨sel, hsel⟩
  have hf' := hfold.mp hf
  refine ⟨?_, ?_, ?_, ?_, ?_⟩
  · exact Option.some.inj (hcover.symm.trans
      ((Schema.coverAll?_perm (hblocks.map _) hschemas).trans hcover'))
  · rw [hlen, hlen', (hperm.flatMap_right (·.output)).length_eq]
  · rw [hmerged, hmerged', hblocks.length_eq]
  · intro o ho hpre
    have hpre' : TotalPreorderOn o.compare (· ∈ bs'.flatMap (·.item.output)) :=
      hpre.mono fun row hrow => hrows.mem_iff.mpr hrow
    rw [sorted_rows_of_reduce hdeadline hf hne ho hpre hsel,
      sorted_rows_of_reduce hdeadline hf' hne' ho hpre' hsel']
    refine ⟨List.forall₂_take _ (forall₂_tie_stableSort hpre hrows), ?_⟩
    intro hapart
    rw [stableSort_eq_of_perm hpre hrows hapart]
  · intro ho
    exact ⟨first_rows_of_reduce hdeadline hf hne ho hsel,
      first_rows_of_reduce hdeadline hf' hne' ho hsel'⟩

/-! ### A ranking that arrives in another order -/

/-- A block without players, under a type that no other block is compatible with. -/
def noPlayers : Block := players (.one .string) []

def firstArrivals : List (Timed Block) := [⟨0, juniors⟩, ⟨4, noPlayers⟩, ⟨7, seniors⟩]

def otherArrivals : List (Timed Block) := [⟨1, noPlayers⟩, ⟨2, seniors⟩, ⟨2, juniors⟩]

/-- Of two players that tie the one that arrives first is listed first. -/
theorem reduce_perm_arrivals : ∃ sel sel', (scoreReducer.reduce firstArrivals).1 = .ok sel ∧
    (scoreReducer.reduce otherArrivals).1 = .ok sel' ∧ sel.schema = sel'.schema ∧
    List.Forall₂ (fun x y => RowOrder.compare ⟨[⟨0, false⟩], .last⟩ x y = .eq)
      sel.rows sel'.rows ∧
    sel.rows = [[.long 9, .string "eve"], [.int 7, .string "cid"], [.long 7, .string "flo"]] ∧
    sel'.rows = [[.long 9, .string "eve"], [.long 7, .string "flo"], [.int 7, .string "cid"]] := by
  have hnames : ∀ b ∈ firstArrivals,
      b.item.schema.names = ["score", "player"] ∧ b.item.schema.Aligned := by
    intro b hb
    simp only [firstArrivals, List.mem_cons, List.not_mem_nil, or_false] at hb
    rcases hb with rfl | rfl | rfl <;> exact ⟨rfl, rfl⟩
  have hperm : (firstArrivals.map (·.item)).Perm (otherArrivals.map (·.item)) := by
    show ([juniors] ++ [noPlayers, seniors]).Perm ([noPlayers, seniors] ++ [juniors])
    exact List.perm_append_comm
  have hpre : TotalPreorderOn (RowOrder.compare ⟨[⟨0, false⟩], .last⟩)
      (· ∈ firstArrivals.flatMap (·.item.output)) := by
    apply RowOrder.totalPreorderOn_of_not_real
    intro row hrow key hkey x hx
    obtain rfl : key = ⟨0, false⟩ := List.mem_singleton.mp hkey
    have hrow' : row ∈ juniors.output ++ seniors.output := hrow
    simp only [juniors, seniors, players, Block.ofRows, Block.output, List.map_cons, List.map_nil,
      List.cons_append, List.nil_append, List.mem_cons, List.not_mem_nil, or_false] at hrow'
    rcases hrow' with rfl | rfl | rfl | rfl | rfl | rfl <;> cases hx
  obtain ⟨-, -, hall⟩ := reduce_perm (r := scoreReducer) rfl hnames hperm
  have hsel : (scoreReducer.reduce firstArrivals).1 = .ok ⟨seniors.schema,
      [[.long 9, .string "eve"], [.int 7, .string "cid"], [.long 7, .string "flo"]], 2⟩ := rfl
  have hsel' : (scoreReducer.reduce otherArrivals).1 = .ok ⟨seniors.schema,
      [[.long 9, .string "eve"], [.long 7, .string "flo"], [.int 7, .string "cid"]], 2⟩ := rfl
  obtain ⟨hschema, -, -, hties, -⟩ := hall _ _ hsel hsel' ⟨⟨0, juniors⟩, by simp [firstArrivals], rfl⟩
  exact ⟨_, _, hsel, hsel', hschema, (hties _ rfl hpre).1, rfl, rfl⟩

end Reducer

end SelectMerge
