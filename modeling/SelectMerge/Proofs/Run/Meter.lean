import SelectMerge.Run.Progress

/-!
# What a meter shows

The entries of a meter stay in the order of their names (`sorted_alter`), so that each name is found
where it was put (`lookup_alter_self`) and adding to one counter changes no other
(`counter_increment_of_ne`). A counter that has reached its greatest value stays there. A meter that
has just been reset shows nothing (`shows_start`); each merge adds what its tally says
(`Shows.record`).
-/

namespace SelectMerge

namespace Meter

/-! ## Entries -/

section Entries

variable {α : Type} {name other : String} {f : Option α → α} {entries : List (String × α)}

/-- Whether names come in order, none of them twice. -/
def Sorted (entries : List (String × α)) : Prop := entries.Pairwise (·.1 < ·.1)

theorem lookup_cons_of_ne (hne : other ≠ name) (x : α) :
    ((name, x) :: entries).lookup other = entries.lookup other := by
  rw [List.lookup_cons, beq_eq_false_iff_ne.mpr hne]

theorem lookup_eq_none_of_lt (h : ∀ e ∈ entries, name < e.1) : entries.lookup name = none := by
  rw [List.lookup_eq_none_iff]
  intro e he
  rw [bne_iff_ne]
  intro heq
  exact String.lt_irrefl name (heq ▸ h e he)

theorem lookup_alter_self (h : Sorted entries) :
    (alter name f entries).lookup name = some (f (entries.lookup name)) := by
  induction entries with
  | nil => exact List.lookup_cons_self
  | cons e entries ih =>
    obtain ⟨n, x⟩ := e
    obtain ⟨hfirst, hrest⟩ := List.pairwise_cons.mp h
    rw [alter]
    split
    · rename_i hlt
      have habsent : ((n, x) :: entries).lookup name = none := by
        apply lookup_eq_none_of_lt
        rw [List.forall_mem_cons]
        exact ⟨hlt, fun e he => String.lt_trans hlt (hfirst e he)⟩
      rw [habsent, List.lookup_cons_self]
    · split
      · rename_i heq
        subst heq
        rw [List.lookup_cons_self, List.lookup_cons_self]
      · rename_i hne
        rw [lookup_cons_of_ne (Ne.symm hne), lookup_cons_of_ne (Ne.symm hne), ih hrest]

theorem lookup_alter_of_ne (hne : other ≠ name) :
    (alter name f entries).lookup other = entries.lookup other := by
  induction entries with
  | nil => exact lookup_cons_of_ne hne _
  | cons e entries ih =>
    obtain ⟨n, x⟩ := e
    rw [alter]
    split
    · exact lookup_cons_of_ne hne _
    · split
      · rename_i heq
        subst heq
        rw [lookup_cons_of_ne hne, lookup_cons_of_ne hne]
      · rw [List.lookup_cons, List.lookup_cons, ih]

theorem mem_alter {e : String × α} (he : e ∈ alter name f entries) :
    e.1 = name ∨ e ∈ entries := by
  induction entries with
  | nil => simp_all [alter]
  | cons e' entries ih =>
    obtain ⟨n, x⟩ := e'
    rw [alter] at he
    split at he
    · simp only [List.mem_cons] at he ⊢
      rcases he with rfl | he
      · exact .inl rfl
      · exact .inr he
    · split at he
      · simp only [List.mem_cons] at he ⊢
        rcases he with rfl | he
        · exact .inl rfl
        · exact .inr (.inr he)
      · simp only [List.mem_cons] at he ⊢
        rcases he with rfl | he
        · exact .inr (.inl rfl)
        · exact (ih he).imp_right .inr

theorem sorted_alter (h : Sorted entries) : Sorted (alter name f entries) := by
  induction entries with
  | nil => exact List.pairwise_singleton _ _
  | cons e entries ih =>
    obtain ⟨n, x⟩ := e
    obtain ⟨hfirst, hrest⟩ := List.pairwise_cons.mp h
    rw [alter]
    split
    · rename_i hlt
      refine List.pairwise_cons.mpr ⟨?_, h⟩
      rw [List.forall_mem_cons]
      exact ⟨hlt, fun e he => String.lt_trans hlt (hfirst e he)⟩
    · split
      · rename_i heq
        subst heq
        exact List.pairwise_cons.mpr ⟨hfirst, hrest⟩
      · rename_i hlt hne
        have hgt : n < name := by
          apply String.not_le.mp
          intro hle
          exact hne (String.le_antisymm (String.not_lt.mp hlt) hle)
        refine List.pairwise_cons.mpr ⟨fun e he => ?_, ih hrest⟩
        rcases mem_alter he with heq | he
        · exact heq ▸ hgt
        · exact hfirst e he

end Entries

/-! ## Counters -/

variable {m : Meter}

theorem sorted_increment (h : Sorted m.counters) (name : String) (n : Nat) :
    Sorted (m.increment name n).counters := sorted_alter h

theorem counter_increment_self (h : Sorted m.counters) (name : String) (n : Nat) :
    (m.increment name n).counter name = min (m.counter name + n) greatest := by
  rw [counter, increment, lookup_alter_self h, Option.getD_some, counter]

theorem counter_increment_of_ne {name other : String} (hne : other ≠ name) (n : Nat) :
    (m.increment name n).counter other = m.counter other := by
  rw [counter, increment, lookup_alter_of_ne hne, counter]

/-- Whether the counters of merges stand at some numbers, each as far as a counter goes. -/
structure Shows (m : Meter) (blocks rows discarded upgrades : Nat) : Prop where
  sorted : Sorted m.counters
  blocksMerged : m.counter blocksMerged = min blocks greatest
  rowsMerged : m.counter rowsMerged = min rows greatest
  rowsDiscarded : m.counter rowsDiscarded = min discarded greatest
  schemaUpgrades : m.counter schemaUpgrades = min upgrades greatest

theorem shows_start (m : Meter) (now : Nat) : (m.reset.start now).Shows 0 0 0 0 :=
  ⟨List.Pairwise.nil, rfl, rfl, rfl, rfl⟩

theorem Shows.record {blocks rows discarded upgrades : Nat}
    (h : m.Shows blocks rows discarded upgrades) (t : MergeTally) :
    (m.increment Meter.blocksMerged 1 |>.increment Meter.rowsMerged t.rowsIn
        |>.increment Meter.rowsDiscarded t.rowsDiscarded
        |>.increment Meter.schemaUpgrades t.schemaUpgraded.toNat).Shows
      (blocks + 1) (rows + t.rowsIn) (discarded + t.rowsDiscarded)
      (upgrades + t.schemaUpgraded.toNat) := by
  have h₁ := sorted_increment h.sorted Meter.blocksMerged 1
  have h₂ := sorted_increment h₁ Meter.rowsMerged t.rowsIn
  have h₃ := sorted_increment h₂ Meter.rowsDiscarded t.rowsDiscarded
  refine ⟨sorted_increment h₃ Meter.schemaUpgrades t.schemaUpgraded.toNat, ?_, ?_, ?_, ?_⟩
  · rw [counter_increment_of_ne (by decide), counter_increment_of_ne (by decide),
      counter_increment_of_ne (by decide), counter_increment_self h.sorted, h.blocksMerged]
    omega
  · rw [counter_increment_of_ne (by decide), counter_increment_of_ne (by decide),
      counter_increment_self h₁, counter_increment_of_ne (by decide), h.rowsMerged]
    omega
  · rw [counter_increment_of_ne (by decide), counter_increment_self h₂,
      counter_increment_of_ne (by decide), counter_increment_of_ne (by decide), h.rowsDiscarded]
    omega
  · rw [counter_increment_self h₃, counter_increment_of_ne (by decide),
      counter_increment_of_ne (by decide), counter_increment_of_ne (by decide), h.schemaUpgrades]
    omega

end Meter

end SelectMerge
