import Mathlib.Data.List.Nodup
import SelectMerge.Proofs.Outcome
import SelectMerge.Run.Settings

/-!
# Members of settings

Settings that are given as an object have no members but the settings themselves, each at most once
(`Members.Only`). A mode that is given as an object is read from its name and, for a pool, from its
threads. Its other members are strays (`isStray`): if all of them read as documents the settings are
what they are without them (`tidy`), and otherwise the text is refused. `skips_only_strays` has this
for all texts, and `exists_stray_mistyped` a text with a stray that is accepted.

From the inside out: `mode?_eq_some_iff` is about modes, `record?_refuse_eq_some_iff` about records
that refuse what they do not know, and `ofTree?_eq_some_iff` about settings.
-/

namespace SelectMerge

namespace JsonTree

/-! ## Objects -/

/-- The members of an object as written. -/
abbrev Members := List (Option String × JsonTree)

/-- The values that are given for a name. -/
def valuesOf (name : String) (ms : Members) : List JsonTree :=
  (ms.filter fun m => m.1 == some name).map (·.2)

/-- The members of an object all of whose names read. -/
def ofNamed (ns : List (String × JsonTree)) : Members := ns.map fun m => (some m.1, m.2)

variable {ms : Members} {ns : List (String × JsonTree)} {name : String}

theorem valuesOf_filter {keep : Option String × JsonTree → Bool}
    (hkeep : ∀ m ∈ ms, m.1 = some name → keep m) :
    valuesOf name (ms.filter keep) = valuesOf name ms := by
  rw [valuesOf, List.filter_filter]
  refine congrArg _ (List.filter_congr fun m hm => ?_)
  by_cases h : m.1 = some name
  · simp [h, hkeep m hm h]
  · simp [h]

theorem length_valuesOf (ms : Members) (name : String) :
    (valuesOf name ms).length = (ms.map (·.1)).count (some name) := by
  rw [List.count, List.countP_map, List.countP_eq_length_filter, valuesOf, List.length_map]
  rfl

theorem valuesOf_eq_singleton {x : JsonTree} (honce : (valuesOf name ms).length ≤ 1)
    (hx : (some name, x) ∈ ms) : valuesOf name ms = [x] := by
  have hmem : x ∈ valuesOf name ms :=
    List.mem_map_of_mem (f := Prod.snd) (List.mem_filter.mpr ⟨hx, by simp⟩)
  obtain ⟨y, hy⟩ := List.length_eq_one_iff.mp
    (Nat.le_antisymm honce (List.length_pos_of_mem hmem))
  rw [hy, List.mem_singleton] at hmem
  rw [hy, hmem]

theorem valuesOf_ofNamed (ns : List (String × JsonTree)) (name : String) :
    valuesOf name (ofNamed ns) = (ns.filter fun m => m.1 == name).map (·.2) := by
  rw [valuesOf, ofNamed, List.filter_map, List.map_map]
  rfl

theorem forall_mem_ofNamed {P : Option String × JsonTree → Prop} :
    (∀ m ∈ ofNamed ns, P m) ↔ ∀ m ∈ ns, P (some m.1, m.2) := List.forall_mem_map

theorem mapM_ofNamed (ns : List (String × JsonTree)) :
    ((ofNamed ns).mapM fun (n, x) => n.map (·, x)) = some ns := by
  induction ns with
  | nil => rfl
  | cons m ns ih =>
    rw [ofNamed, List.map_cons, List.mapM_cons, ← ofNamed, ih]
    rfl

theorem mapM_eq_none (h : ¬ ∀ m ∈ ms, m.1.isSome) :
    (ms.mapM fun (n, x) => n.map (·, x)) = none := by
  induction ms with
  | nil => simp at h
  | cons m ms ih =>
    obtain ⟨_ | n, x⟩ := m
    · rw [List.mapM_cons]
      rfl
    · have h' : ¬ ∀ m ∈ ms, m.1.isSome := by simpa using h
      rw [List.mapM_cons, ih h']
      rfl

theorem exists_ofNamed (h : ∀ m ∈ ms, m.1.isSome) : ∃ ns, ms = ofNamed ns := by
  induction ms with
  | nil => exact ⟨[], rfl⟩
  | cons m ms ih =>
    obtain ⟨hm, hms⟩ := List.forall_mem_cons.mp h
    obtain ⟨ns, rfl⟩ := ih hms
    obtain ⟨n, hn⟩ := Option.isSome_iff_exists.mp hm
    exact ⟨(n, m.2) :: ns, by rw [ofNamed, ofNamed, List.map_cons, ← hn]⟩

theorem lookup_eq_head? (ns : List (String × JsonTree)) (name : String) :
    ns.lookup name = (valuesOf name (ofNamed ns)).head? := by
  rw [valuesOf_ofNamed]
  induction ns with
  | nil => rfl
  | cons m ns ih =>
    rw [List.lookup_cons, List.filter_cons]
    by_cases h : m.1 = name
    · simp [h]
    · have h' : (name == m.1) = false := beq_false_of_ne (Ne.symm h)
      rw [h', ih]
      simp [h]

/-- Whether the members of an object are fields of a record, each at most once. -/
def Members.Only (names : List String) (ms : Members) : Prop :=
  (∀ m ∈ ms, ∃ n ∈ names, m.1 = some n) ∧ (ms.map (·.1)).Nodup

theorem only_iff {names : List String} : ms.Only names ↔
    (∀ n ∈ names, (valuesOf n ms).length ≤ 1) ∧ ∀ m ∈ ms, ∃ n ∈ names, m.1 = some n := by
  rw [Members.Only, List.nodup_iff_count_le_one]
  constructor
  · rintro ⟨hnames, hnodup⟩
    refine ⟨fun n _ => ?_, hnames⟩
    rw [length_valuesOf]
    exact hnodup (some n)
  · rintro ⟨honce, hnames⟩
    refine ⟨hnames, fun a => ?_⟩
    by_cases ha : a ∈ ms.map (·.1)
    · obtain ⟨m, hm, rfl⟩ := List.mem_map.mp ha
      obtain ⟨n, hn, heq⟩ := hnames m hm
      rw [heq, ← length_valuesOf]
      exact honce n hn
    · rw [List.count_eq_zero.mpr ha]
      exact Nat.zero_le 1

/-- A record that refuses what it does not know reads exactly the objects that have no other
members than its fields. -/
theorem record?_refuse_eq_some_iff {names : List String} {xs : List (Option JsonTree)} :
    record? .refuse names (.object ms) = some xs ↔
      ms.Only names ∧ xs = names.map fun n => (valuesOf n ms).head? := by
  by_cases hnamed : ∀ m ∈ ms, m.1.isSome
  · obtain ⟨ns, rfl⟩ := exists_ofNamed hnamed
    have hknown : (ns.all fun m => names.contains m.1) ↔
        ∀ m ∈ ofNamed ns, ∃ n ∈ names, m.1 = some n := by
      rw [forall_mem_ofNamed]
      simp
    have honce : (names.all fun n => (ns.filter fun m => m.1 == n).length ≤ 1) ↔
        ∀ n ∈ names, (valuesOf n (ofNamed ns)).length ≤ 1 := by
      simp [valuesOf_ofNamed]
    simp only [record?, membersByName?, mapM_ofNamed, Option.bind_eq_bind, Option.bind_some,
      lookup_eq_head?, reduceCtorEq, or_false, honce, hknown]
    rw [Option.ite_none_right_eq_some, only_iff, Option.some.injEq, eq_comm]
  · have hnone : record? .refuse names (.object ms) = none := by
      rw [record?, membersByName?, mapM_eq_none hnamed]
      rfl
    have hnot : ¬ ms.Only names := by
      rintro ⟨hnames, -⟩
      refine hnamed fun m hm => ?_
      obtain ⟨n, -, hn⟩ := hnames m hm
      rw [hn]
      rfl
    simp [hnone, hnot]

end JsonTree

namespace Settings

open JsonTree

/-! ## Modes -/

/-- The name of a mode that is given as an object. -/
def modeName? (fs : Members) : Option String :=
  match valuesOf modeMember fs with
  | [tag] => tag.text?
  | _ => none

/-- The names of the members that a mode is read from. -/
def modeMembers (name : Option String) : List String :=
  if name = some "parallel" then [modeMember, threadsMember] else [modeMember]

/-- Whether a member of a mode is none of those that it is read from. -/
def isStray (fs : Members) (m : Option String × JsonTree) : Bool :=
  !(modeMembers (modeName? fs)).any fun n => m.1 == some n

/-- Whether a member can be skipped: its name reads, and its value is a document. -/
def isReadable (m : Option String × JsonTree) : Bool := m.1.isSome && (m.2.doc? modeDepth).isSome

/-- The stray members of a mode. -/
def modeStrays : JsonTree → Members
  | .object fs => fs.filter (isStray fs)
  | _ => []

/-- A mode without its stray members. -/
def tidyMode : JsonTree → JsonTree
  | .object fs => .object (fs.filter fun m => !isStray fs m)
  | t => t

variable {fs : Members} {mode : RunMode}

theorem mode?_ofNamed (ns : List (String × JsonTree)) : mode? (.object (ofNamed ns)) =
    if (ns.filter fun m => m.1 != modeMember).any fun m => (m.2.doc? modeDepth).isNone then none
    else (modeName? (ofNamed ns)).bind fun name =>
      modeOf? name (valuesOf threadsMember (ofNamed ns)) := by
  have hthreads : ((ns.filter fun m => m.1 != modeMember).filter fun m => m.1 == threadsMember) =
      ns.filter fun m => m.1 == threadsMember := by
    rw [List.filter_filter]
    refine List.filter_congr fun m _ => ?_
    by_cases h : m.1 = threadsMember
    · rw [h]
      rfl
    · simp [h]
  simp only [mode?, mapM_ofNamed, Option.bind_eq_bind, Option.bind_some, hthreads, modeName?,
    valuesOf_ofNamed]
  split
  · rfl
  · generalize ns.filter (fun m => m.1 == modeMember) = tags
    rcases tags with _ | ⟨⟨n, tag⟩, _ | ⟨m, rest⟩⟩ <;> rfl

theorem mode?_object_eq_some_iff : mode? (.object fs) = some mode ↔ (∀ f ∈ fs, f.1.isSome) ∧
    (∀ f ∈ fs, f.1 ≠ some modeMember → (f.2.doc? modeDepth).isSome) ∧
      ∃ name, modeName? fs = some name ∧
        modeOf? name (valuesOf threadsMember fs) = some mode := by
  by_cases hnamed : ∀ f ∈ fs, f.1.isSome
  · obtain ⟨ns, rfl⟩ := exists_ofNamed hnamed
    have hdocs : ((ns.filter fun m => m.1 != modeMember).any fun m =>
        (m.2.doc? modeDepth).isNone) ↔
          ¬ ∀ f ∈ ofNamed ns, f.1 ≠ some modeMember → (f.2.doc? modeDepth).isSome := by
      rw [forall_mem_ofNamed]
      simp
    rw [mode?_ofNamed]
    simp only [hdocs, ite_not]
    rw [Option.ite_none_right_eq_some, Option.bind_eq_some_iff]
    exact (and_iff_right hnamed).symm
  · have hnone : mode? (.object fs) = none := by
      rw [mode?, mapM_eq_none hnamed]
      rfl
    rw [hnone]
    exact iff_of_false (by simp) fun h => hnamed h.1

theorem isStray_of_mem_modeMembers {m : Option String × JsonTree} {n : String}
    (hn : n ∈ modeMembers (modeName? fs)) (hm : m.1 = some n) : isStray fs m = false := by
  rw [isStray, Bool.not_eq_false', List.any_eq_true]
  exact ⟨n, hn, by simp [hm]⟩

theorem modeMember_mem (name : Option String) : modeMember ∈ modeMembers name := by
  rw [modeMembers]
  split <;> simp

theorem modeName?_tidy : modeName? (fs.filter fun m => !isStray fs m) = modeName? fs := by
  have hkeep : ∀ m ∈ fs, m.1 = some modeMember → !isStray fs m := fun m _ hm =>
    Bool.not_eq_true' _ ▸ isStray_of_mem_modeMembers (modeMember_mem _) hm
  rw [modeName?, valuesOf_filter hkeep, ← modeName?]

theorem modeOf?_tidy {name : String} (hname : modeName? fs = some name) :
    modeOf? name (valuesOf threadsMember (fs.filter fun m => !isStray fs m)) =
      modeOf? name (valuesOf threadsMember fs) := by
  by_cases hparallel : name = "parallel"
  · have hthreads : threadsMember ∈ modeMembers (modeName? fs) := by
      rw [hname, hparallel]
      decide
    rw [valuesOf_filter fun m _ hm => Bool.not_eq_true' _ ▸ isStray_of_mem_modeMembers hthreads hm]
  · simp only [modeOf?, if_neg hparallel]

/-- A mode is read as it is without its stray members, if all of these can be skipped. -/
theorem mode?_eq_some_iff {t : JsonTree} : mode? t = some mode ↔
    (modeStrays t).all isReadable ∧ mode? (tidyMode t) = some mode := by
  cases t with
  | object fs =>
    rw [tidyMode, modeStrays, mode?_object_eq_some_iff, mode?_object_eq_some_iff, modeName?_tidy,
      List.all_eq_true]
    constructor
    · rintro ⟨hnames, hdocs, name, hname, hmode⟩
      refine ⟨fun f hf => ?_, fun f hf => hnames f (List.mem_of_mem_filter hf),
        fun f hf => hdocs f (List.mem_of_mem_filter hf), name, hname,
        (modeOf?_tidy hname).trans hmode⟩
      obtain ⟨hmem, hstray⟩ := List.mem_filter.mp hf
      have hne : f.1 ≠ some modeMember := by
        intro heq
        rw [isStray_of_mem_modeMembers (modeMember_mem _) heq] at hstray
        cases hstray
      rw [isReadable, hnames f hmem, hdocs f hmem hne]
      rfl
    · rintro ⟨hreadable, hnames, hdocs, name, hname, hmode⟩
      -- What is kept is read as before, and what is not kept can be skipped.
      have hcases : ∀ f ∈ fs, isReadable f ∨ f ∈ fs.filter fun m => !isStray fs m := by
        intro f hf
        cases hstray : isStray fs f with
        | true => exact .inl (hreadable f (List.mem_filter.mpr ⟨hf, hstray⟩))
        | false => exact .inr (List.mem_filter.mpr ⟨hf, by rw [hstray]; rfl⟩)
      refine ⟨fun f hf => ?_, fun f hf hne => ?_, name, hname,
        (modeOf?_tidy hname).symm.trans hmode⟩
      · rcases hcases f hf with hread | hkept
        · exact (Bool.and_eq_true_iff.mp hread).1
        · exact hnames f hkept
      · rcases hcases f hf with hread | hkept
        · exact (Bool.and_eq_true_iff.mp hread).2
        · exact hdocs f hkept hne
  | _ => simp [modeStrays, tidyMode]

/-! ## Settings as objects -/

/-- The name of the member that holds the mode. -/
def execMember : String := "exec_mode"

/-- The stray members of the modes among some settings. -/
def strays (ms : Members) : Members := (valuesOf execMember ms).flatMap modeStrays

/-- A member of settings, without the stray members if it is the mode. -/
def tidyMember (m : Option String × JsonTree) : Option String × JsonTree :=
  if m.1 = some execMember then (m.1, tidyMode m.2) else m

/-- Settings without the stray members of their mode. -/
def tidy (ms : Members) : Members := ms.map tidyMember

variable {ms : Members} {s : Settings}

@[simp] theorem fst_tidyMember (m : Option String × JsonTree) : (tidyMember m).1 = m.1 := by
  rw [tidyMember]
  split <;> rfl

theorem map_fst_tidy (ms : Members) : (tidy ms).map (·.1) = ms.map (·.1) := by
  rw [tidy, List.map_map]
  exact List.map_congr_left fun m _ => fst_tidyMember m

theorem only_tidy_iff {names : List String} : (tidy ms).Only names ↔ ms.Only names := by
  have hnames : (∀ m ∈ tidy ms, ∃ n ∈ names, m.1 = some n) ↔
      ∀ m ∈ ms, ∃ n ∈ names, m.1 = some n := by
    have h := congrArg (fun l => ∀ a ∈ l, ∃ n ∈ names, a = some n) (map_fst_tidy ms)
    simpa only [List.forall_mem_map] using Iff.of_eq h
  rw [Members.Only, Members.Only, hnames, map_fst_tidy]

theorem valuesOf_tidy (ms : Members) (n : String) : valuesOf n (tidy ms) =
    (ms.filter fun m => m.1 == some n).map fun m => (tidyMember m).2 := by
  have hfilter : (fun m => m.1 == some n) ∘ tidyMember = fun m => m.1 == some n := by
    funext m
    simp
  rw [valuesOf, tidy, List.filter_map, List.map_map, hfilter]
  rfl

theorem valuesOf_tidy_of_ne {n : String} (hn : n ≠ execMember) :
    valuesOf n (tidy ms) = valuesOf n ms := by
  rw [valuesOf_tidy, valuesOf]
  refine List.map_congr_left fun m hm => ?_
  have hname : m.1 = some n := by simpa using (List.mem_filter.mp hm).2
  rw [tidyMember, hname, if_neg (mt Option.some.inj hn)]

theorem valuesOf_tidy_execMember :
    valuesOf execMember (tidy ms) = (valuesOf execMember ms).map tidyMode := by
  rw [valuesOf_tidy, valuesOf, List.map_map]
  refine List.map_congr_left fun m hm => ?_
  have hname : m.1 = some execMember := by simpa using (List.mem_filter.mp hm).2
  rw [tidyMember, if_pos hname]
  rfl

theorem ofTree?_object_eq_some_iff : ofTree? (.object ms) = some s ↔ ms.Only fieldNames ∧
    orDefault standard.nulls (fun t => t.variantName? >>= NullOrder.ofName?)
      (valuesOf "null_ordering" ms).head? = some s.nulls ∧
    orDefault standard.mode mode? (valuesOf execMember ms).head? = some s.mode ∧
    orDefault standard.timeoutMs (JsonTree.orNull? count?) (valuesOf "timeout_ms" ms).head? =
      some s.timeoutMs ∧
    orDefault standard.collectMetrics JsonTree.bool? (valuesOf "collect_metrics" ms).head? =
      some s.collectMetrics := by
  rcases hrecord : JsonTree.record? .refuse fieldNames (.object ms) with _ | xs
  · have hnot : ¬ ms.Only fieldNames := by
      intro honly
      have hsome := record?_refuse_eq_some_iff.mpr ⟨honly, rfl⟩
      rw [hrecord] at hsome
      cases hsome
    rw [ofTree?, hrecord]
    exact iff_of_false (by simp) fun h => hnot h.1
  · obtain ⟨honly, rfl⟩ := record?_refuse_eq_some_iff.mp hrecord
    obtain ⟨nulls, mode, timeoutMs, collectMetrics⟩ := s
    rw [ofTree?, hrecord, and_iff_right honly]
    simp only [fieldNames, List.map_cons, List.map_nil, Option.bind_eq_bind, Option.bind_some,
      Option.bind_eq_some_iff, Option.pure_def, Option.some.injEq, Settings.mk.injEq]
    constructor
    · rintro ⟨_, hnulls, _, hmode, _, htimeout, _, hmetrics, rfl, rfl, rfl, rfl⟩
      exact ⟨hnulls, hmode, htimeout, hmetrics⟩
    · rintro ⟨hnulls, hmode, htimeout, hmetrics⟩
      exact ⟨_, hnulls, _, hmode, _, htimeout, _, hmetrics, rfl, rfl, rfl, rfl⟩

theorem orDefault_mode?_eq_some_iff (mode : RunMode) {ts : List JsonTree} (hts : ts.length ≤ 1) :
    orDefault standard.mode mode? ts.head? = some mode ↔ (ts.flatMap modeStrays).all isReadable ∧
      orDefault standard.mode mode? (ts.map tidyMode).head? = some mode := by
  rcases ts with _ | ⟨t, _ | ⟨t', ts⟩⟩
  · simp
  · simpa [orDefault] using mode?_eq_some_iff
  · simp at hts

theorem ofTree?_eq_some_iff : ofTree? (.object ms) = some s ↔
    (strays ms).all isReadable ∧ ofTree? (.object (tidy ms)) = some s := by
  rw [ofTree?_object_eq_some_iff, ofTree?_object_eq_some_iff, only_tidy_iff,
    valuesOf_tidy_of_ne (by decide), valuesOf_tidy_execMember, valuesOf_tidy_of_ne (by decide),
    valuesOf_tidy_of_ne (by decide)]
  -- Settings with two modes are refused either way, so that at most one has to be looked at.
  have hmode (honly : ms.Only fieldNames) := orDefault_mode?_eq_some_iff s.mode
    ((only_iff.mp honly).1 execMember (by decide))
  constructor
  · rintro ⟨honly, hnulls, hexec, hrest⟩
    obtain ⟨hreadable, hexec⟩ := (hmode honly).mp hexec
    exact ⟨hreadable, honly, hnulls, hexec, hrest⟩
  · rintro ⟨hreadable, honly, hnulls, hexec, hrest⟩
    exact ⟨honly, hnulls, (hmode honly).mpr ⟨hreadable, hexec⟩, hrest⟩

theorem ofTree?_tidy (hreadable : (strays ms).all isReadable) :
    ofTree? (.object (tidy ms)) = ofTree? (.object ms) := by
  refine Option.ext fun s => ?_
  rw [@ofTree?_eq_some_iff ms s]
  exact (and_iff_right hreadable).symm

/-! ## Texts -/

variable {cs : List Char}

theorem ofText_of_read (hread : JsonTree.read? cs = some (.object ms)) : ofText cs =
    match ofTree? (.object ms) with
    | some s => s.validate.map fun _ => s
    | none => .error .malformed := by
  rw [ofText, hread]
  rfl

/-- Settings that are given as an object are refused unless all members are settings, each at most
once. A mode that is given as an object is read from its name and its threads alone. Its stray
members are skipped: texts that differ in them only are read alike, whatever these members hold, if
they read as documents. Otherwise the text is refused. -/
theorem skips_only_strays (hread : JsonTree.read? cs = some (.object ms)) :
    (∀ s, ofText cs = .ok s → ms.Only fieldNames ∧ ∀ fs, (some execMember, .object fs) ∈ ms →
      ∃ name, modeName? fs = some name ∧
        modeOf? name (valuesOf threadsMember fs) = some s.mode) ∧
    (∀ cs' ms', JsonTree.read? cs' = some (.object ms') → tidy ms' = tidy ms →
      (strays ms).all isReadable → (strays ms').all isReadable → ofText cs' = ofText cs) ∧
    (¬ (strays ms).all isReadable → ofText cs = .error .malformed) := by
  refine ⟨fun s hok => ?_, fun cs' ms' hread' htidy hreadable hreadable' => ?_,
    fun hunreadable => ?_⟩
  · have htree : ofTree? (.object ms) = some s := by
      rw [ofText_of_read hread] at hok
      split at hok
      · rename_i s' hs'
        obtain ⟨u, -, rfl⟩ := map_eq_ok_iff.mp hok
        exact hs'
      · cases hok
    obtain ⟨honly, -, hmode, -⟩ := ofTree?_object_eq_some_iff.mp htree
    refine ⟨honly, fun fs hfs => ?_⟩
    have hvalue : valuesOf execMember ms = [.object fs] :=
      valuesOf_eq_singleton ((only_iff.mp honly).1 execMember (by decide)) hfs
    rw [hvalue] at hmode
    exact (mode?_object_eq_some_iff.mp hmode).2.2
  · have htree : ofTree? (.object ms') = ofTree? (.object ms) := by
      rw [← ofTree?_tidy hreadable, ← ofTree?_tidy hreadable', htidy]
    rw [ofText_of_read hread, ofText_of_read hread', htree]
  · have htree : ofTree? (.object ms) = none := by
      rw [Option.eq_none_iff_forall_ne_some]
      exact fun s hs => hunreadable (ofTree?_eq_some_iff.mp hs).1
    rw [ofText_of_read hread, htree]

/-! ### A mistyped setting -/

/-- Settings with a name mistyped inside the mode. -/
def mistypedText : List Char :=
  (Json.object [("timeout_ms", .int 250), (execMember, .object [("thread", .int 5),
    (modeMember, .text "parallel")])]).print.toList

/-- The same settings without it. -/
def plainText : List Char :=
  (Json.object [("timeout_ms", .int 250), (execMember,
    .object [(modeMember, .text "parallel")])]).print.toList

/-- The member with the mistyped name. -/
def mistyped : Members := [(some "thread", .number ⟨false, [5], none, none⟩)]

/-- The members of both: a deadline of a quarter of a second, and a pool. -/
def quarterSecond (others : Members) : Members :=
  [(some "timeout_ms", .number ⟨false, [2, 5, 0], none, none⟩),
    (some execMember, .object (others ++ [(some modeMember, .text (some "parallel"))]))]

theorem read?_mistypedText :
    JsonTree.read? mistypedText = some (.object (quarterSecond mistyped)) := by
  rw [mistypedText, Json.print, String.toList_ofList]
  rfl

theorem read?_plainText : JsonTree.read? plainText = some (.object (quarterSecond [])) := by
  rw [plainText, Json.print, String.toList_ofList]
  rfl

/-- The number of threads under a mistyped name is skipped. -/
theorem skips_only_strays_mistyped :
    (quarterSecond []).Only fieldNames ∧ ofText mistypedText = ofText plainText := by
  obtain ⟨honly, halike, -⟩ := skips_only_strays read?_plainText
  have hplain : ofText plainText = .ok { standard with timeoutMs := some 250 } := by
    rw [ofText_of_read read?_plainText]
    rfl
  exact ⟨(honly _ hplain).1, halike _ _ read?_mistypedText rfl rfl rfl⟩

/-- A mode with a member that is neither its name nor its threads is accepted, with as many threads
as there would be without it. -/
theorem exists_stray_mistyped : ofText mistypedText = .ok { standard with timeoutMs := some 250 } ∧
    ∃ ms fs, JsonTree.read? mistypedText = some (.object ms) ∧
      (some execMember, .object fs) ∈ ms ∧
        ∃ f ∈ fs, f.1 ≠ some modeMember ∧ f.1 ≠ some threadsMember := by
  refine ⟨?_, _, _, read?_mistypedText, .tail _ (.head _), _, .head _, by decide, by decide⟩
  rw [ofText_of_read read?_mistypedText]
  rfl

end Settings

end SelectMerge
