import Syscape.CpuCaches
import Mathlib.Data.Prod.Lex

/-!
# One descriptor for each cache

A cache is known by its level, its kind and the set of processors that share it. Sorting
brings the observations of one cache together, and those of one level and kind. So the
merge sees every pair of observations that contradict each other, in whatever order they
were made, and what it keeps is each observed cache once.
-/
namespace Syscape.Cpu
open Checked StdSort

section Keys
variable {a b : ObservedCacheInstance}

/-- What identifies a cache. -/
def ObservedCacheInstance.key (o : ObservedCacheInstance) : ℕ ×ₗ ℕ ×ₗ List ℕ :=
  toLex (o.entry.level, toLex (o.entry.kind.number, o.sharedProcessors.values))

theorem CacheKind.number_injective : Function.Injective CacheKind.number := by
  intro k l h
  cases k <;> cases l <;> first | rfl | cases h

theorem key_eq_iff : a.key = b.key ↔ a.entry.level = b.entry.level ∧
    a.entry.kind = b.entry.kind ∧ a.sharedProcessors.values = b.sharedProcessors.values := by
  simp only [ObservedCacheInstance.key, toLex_inj, Prod.mk.injEq, CacheKind.number_injective.eq_iff]

theorem sameInstance_iff : sameInstance a b = true ↔ a.key = b.key := by
  rw [sameInstance, decide_eq_true_eq, key_eq_iff]

/-- The sort compares the keys. -/
theorem precedes_eq (a b : ObservedCacheInstance) : precedes a b = decide (a.key < b.key) := by
  rw [Bool.eq_iff_iff, decide_eq_true_eq, precedes, ObservedCacheInstance.key,
    ObservedCacheInstance.key, Prod.Lex.toLex_lt_toLex, Prod.Lex.toLex_lt_toLex]
  by_cases hlevel : a.entry.level = b.entry.level
  · by_cases hkind : a.entry.kind = b.entry.kind
    · simp [hlevel, hkind]
    · simp [hlevel, hkind, CacheKind.number_injective.eq_iff]
  · simp [hlevel]

theorem strictWeak_precedes : StrictWeak precedes := by
  have horder : StrictTotal fun k l : ℕ ×ₗ ℕ ×ₗ List ℕ => decide (k < l) :=
    StrictTotal.of_injective Function.injective_id
  have hkey : precedes = fun a b => decide (a.key < b.key) := by
    ext a b
    rw [precedes_eq]
  rw [hkey]
  exact horder.on ObservedCacheInstance.key

/-- The geometry of a cache. -/
def CacheEntry.geometry (e : CacheEntry) : ℕ × ℕ × ℕ × ℕ :=
  (e.instanceSizeBytes, e.lineSizeBytes, e.associativityWays, e.setsCount)

/-- An observation is known by its key and the geometry. -/
theorem ObservedCacheInstance.eq_of_key_eq (hkey : a.key = b.key)
    (hgeometry : a.entry.geometry = b.entry.geometry) : a = b := by
  obtain ⟨hlevel, hkind, hvalues⟩ := key_eq_iff.mp hkey
  simp only [CacheEntry.geometry, Prod.mk.injEq] at hgeometry
  obtain ⟨hsize, hline, hways, hsets⟩ := hgeometry
  have hcount : a.entry.sharedLogicalProcessorCount = b.entry.sharedLogicalProcessorCount := by
    rw [a.count_eq, b.count_eq, hvalues]
  rcases a with ⟨⟨_, _, _, _, _, _, _⟩, ⟨_, _⟩, _, _⟩
  rcases b with ⟨⟨_, _, _, _, _, _, _⟩, ⟨_, _⟩, _, _⟩
  simp only at hlevel hkind hvalues hsize hline hways hsets hcount
  subst hlevel hkind hvalues hsize hline hways hsets hcount
  rfl

/-- For observations of one cache, the test of the geometry compares the geometry. -/
theorem sameCacheGeometry_iff (hkey : a.key = b.key) :
    sameCacheGeometry a.entry b.entry = true ↔ a.entry.geometry = b.entry.geometry := by
  obtain ⟨hlevel, hkind, hvalues⟩ := key_eq_iff.mp hkey
  have hcount : a.entry.sharedLogicalProcessorCount = b.entry.sharedLogicalProcessorCount := by
    rw [a.count_eq, b.count_eq, hvalues]
  rw [sameCacheGeometry, decide_eq_true_eq, CacheEntry.geometry, CacheEntry.geometry]
  simp [hlevel, hkind, hcount]

/-- Two increasing lists are walked over together until they meet. -/
theorem processorSetsOverlap_iff {left right : List ℕ} (hl : left.Pairwise (· < ·))
    (hr : right.Pairwise (· < ·)) :
    processorSetsOverlap left right = true ↔ ¬ left.Disjoint right := by
  induction left, right using processorSetsOverlap.induct with
  | case1 l left right =>
    rw [processorSetsOverlap, if_pos rfl]
    simp [List.Disjoint]
  | case2 l left r right hne hlt ih =>
    have hout : l ∉ r :: right := by
      intro hmem
      rcases List.mem_cons.mp hmem with rfl | h
      · exact hne rfl
      · exact absurd (List.rel_of_pairwise_cons hr h) (by omega)
    rw [processorSetsOverlap, if_neg hne, if_pos hlt, ih hl.tail hr, List.disjoint_cons_left]
    simp [hout]
  | case3 l left r right hne hlt ih =>
    have hout : r ∉ l :: left := by
      intro hmem
      rcases List.mem_cons.mp hmem with rfl | h
      · exact hne rfl
      · exact absurd (List.rel_of_pairwise_cons hl h) (by omega)
    rw [processorSetsOverlap, if_neg hne, if_neg hlt, ih hl hr.tail, List.disjoint_cons_right]
    simp [hout]
  | case4 left right hnil =>
    have hempty : left = [] ∨ right = [] := by
      cases left with
      | nil => exact .inl rfl
      | cons l left =>
        cases right with
        | nil => exact .inr rfl
        | cons r right => exact absurd rfl (hnil l left r right rfl)
    rcases hempty with rfl | rfl <;> simp [processorSetsOverlap]

end Keys

section Consistency

/-- Two observations do not contradict each other: for one level and kind, the sets are
equal or disjoint, and for equal sets the geometry is the same. -/
def Compatible (a b : ObservedCacheInstance) : Prop :=
  a.entry.level = b.entry.level → a.entry.kind = b.entry.kind →
    (a.sharedProcessors = b.sharedProcessors ∨
      a.sharedProcessors.values.Disjoint b.sharedProcessors.values) ∧
    (a.sharedProcessors = b.sharedProcessors → a.entry.geometry = b.entry.geometry)

def Consistent (instances : List ObservedCacheInstance) : Prop :=
  ∀ a ∈ instances, ∀ b ∈ instances, Compatible a b

theorem CpuList.eq_iff {s t : CpuList} : s = t ↔ s.values = t.values := by
  cases s
  cases t
  simp

theorem Compatible.refl (a : ObservedCacheInstance) : Compatible a a :=
  fun _ _ => ⟨.inl rfl, fun _ => rfl⟩

theorem Compatible.symm {a b : ObservedCacheInstance} (h : Compatible a b) : Compatible b a := by
  intro hlevel hkind
  obtain ⟨hsets, hgeometry⟩ := h hlevel.symm hkind.symm
  refine ⟨?_, fun heq => (hgeometry heq.symm).symm⟩
  rcases hsets with heq | hdisjoint
  · exact .inl heq.symm
  · exact .inr hdisjoint.symm

theorem consistent_concat {done : List ObservedCacheInstance} {x : ObservedCacheInstance} :
    Consistent (done ++ [x]) ↔ Consistent done ∧ ∀ d ∈ done, Compatible d x := by
  constructor
  · intro h
    exact ⟨fun a ha b hb => h a (by simp [ha]) b (by simp [hb]),
      fun d hd => h d (by simp [hd]) x (by simp)⟩
  · rintro ⟨hdone, hx⟩ a ha b hb
    rcases List.mem_append.mp ha with ha | ha
    · rcases List.mem_append.mp hb with hb | hb
      · exact hdone a ha b hb
      · rw [List.mem_singleton.mp hb]
        exact hx a ha
    · rw [List.mem_singleton.mp ha]
      rcases List.mem_append.mp hb with hb | hb
      · exact (hx b hb).symm
      · rw [List.mem_singleton.mp hb]
        exact Compatible.refl x

theorem Consistent.of_append {instances more : List ObservedCacheInstance}
    (h : Consistent (instances ++ more)) : Consistent instances :=
  fun a ha b hb => h a (by simp [ha]) b (by simp [hb])

theorem consistent_perm {l l' : List ObservedCacheInstance} (h : l.Perm l') :
    Consistent l ↔ Consistent l' := by
  unfold Consistent
  simp only [h.mem_iff]

end Consistency

section Loop
variable {done unique : List ObservedCacheInstance} {x : ObservedCacheInstance}

/-- After some observations: they are consistent, and each of them is kept once, the
caches that come last in the order first. -/
structure Merged (done unique : List ObservedCacheInstance) : Prop where
  consistent : Consistent done
  mem_iff : ∀ o, o ∈ unique ↔ o ∈ done
  sorted : unique.Pairwise fun newer older => older.key < newer.key

/-- The search over the siblings sees every kept cache of the level and kind. -/
theorem mem_siblings (hsorted : unique.Pairwise fun newer older => older.key < newer.key)
    (hle : ∀ o ∈ unique, o.key ≤ x.key) {o : ObservedCacheInstance} (ho : o ∈ unique)
    (hlevel : o.entry.level = x.entry.level) (hkind : o.entry.kind = x.entry.kind) :
    o ∈ unique.takeWhile fun previous =>
      previous.entry.level = x.entry.level ∧ previous.entry.kind = x.entry.kind := by
  induction unique with
  | nil => exact absurd ho (by simp)
  | cons newest unique ih =>
    -- what lies between the sibling and the observation is a sibling too
    have hnewest : newest.entry.level = x.entry.level ∧ newest.entry.kind = x.entry.kind := by
      rcases List.mem_cons.mp ho with rfl | hmem
      · exact ⟨hlevel, hkind⟩
      · have hlow : o.key ≤ newest.key := (List.rel_of_pairwise_cons hsorted hmem).le
        have hhigh : newest.key ≤ x.key := hle newest (by simp)
        rw [ObservedCacheInstance.key, ObservedCacheInstance.key, Prod.Lex.toLex_le_toLex,
          Prod.Lex.toLex_le_toLex] at hlow hhigh
        rw [hlevel, hkind] at hlow
        have hlevel' : newest.entry.level = x.entry.level := by omega
        refine ⟨hlevel', CacheKind.number_injective ?_⟩
        simp only [hlevel', lt_irrefl, true_and, false_or] at hlow hhigh
        omega
    rw [List.takeWhile_cons_of_pos (by simpa using hnewest)]
    rcases List.mem_cons.mp ho with rfl | hmem
    · exact List.mem_cons_self
    · exact List.mem_cons_of_mem _ (ih hsorted.tail (fun p hp => hle p (by simp [hp])) hmem)

/-- An observation of a cache that is not kept yet. -/
theorem addInstance_spec (h : Merged done unique) (hle : ∀ d ∈ done, d.key ≤ x.key)
    (hnew : ∀ d ∈ done, d.key ≠ x.key) :
    (∃ unique', addInstance unique x = .ok unique' ∧ Merged (done ++ [x]) unique') ∨
      (addInstance unique x = fail .temporarilyUnavailable ∧ ¬ Consistent (done ++ [x])) := by
  unfold addInstance
  dsimp only
  split_ifs with hoverlap
  · right
    refine ⟨rfl, fun hconsistent => ?_⟩
    rw [List.any_eq_true] at hoverlap
    obtain ⟨previous, hmem, hmeet⟩ := hoverlap
    have htest := List.mem_takeWhile_imp hmem
    simp only [decide_eq_true_eq] at htest
    have hdone := (h.mem_iff previous).mp (List.takeWhile_subset _ hmem)
    rw [processorSetsOverlap_iff previous.sharedProcessors.sorted x.sharedProcessors.sorted] at hmeet
    rcases ((consistent_concat.mp hconsistent).2 previous hdone htest.1 htest.2).1 with heq | hdis
    · exact hnew previous hdone
        (key_eq_iff.mpr ⟨htest.1, htest.2, CpuList.eq_iff.mp heq⟩)
    · exact hmeet hdis
  · left
    refine ⟨x :: unique, rfl, ?_, ?_, ?_⟩
    · rw [consistent_concat]
      refine ⟨h.consistent, ?_⟩
      intro d hd hlevel hkind
      have hne : d.sharedProcessors ≠ x.sharedProcessors := by
        intro heq
        exact hnew d hd (key_eq_iff.mpr ⟨hlevel, hkind, CpuList.eq_iff.mp heq⟩)
      have hsibling := mem_siblings h.sorted (fun o ho => hle o ((h.mem_iff o).mp ho))
        ((h.mem_iff d).mpr hd) hlevel hkind
      refine ⟨.inr ?_, fun heq => absurd heq hne⟩
      by_contra hmeet
      rw [← processorSetsOverlap_iff d.sharedProcessors.sorted x.sharedProcessors.sorted] at hmeet
      exact hoverlap (List.any_eq_true.mpr ⟨d, hsibling, hmeet⟩)
    · intro o
      rw [List.mem_cons, h.mem_iff, List.mem_append, List.mem_singleton, or_comm]
    · apply List.Pairwise.cons _ h.sorted
      intro o ho
      have hdone := (h.mem_iff o).mp ho
      exact lt_of_le_of_ne (hle o hdone) (hnew o hdone)

/-- One observation, behind those that come before it in the order. -/
theorem mergeInstance_spec (h : Merged done unique) (hle : ∀ d ∈ done, d.key ≤ x.key) :
    (∃ unique', mergeInstance unique x = .ok unique' ∧ Merged (done ++ [x]) unique') ∨
      (mergeInstance unique x = fail .temporarilyUnavailable ∧ ¬ Consistent (done ++ [x])) := by
  unfold mergeInstance
  cases unique with
  | nil =>
    apply addInstance_spec h hle
    intro d hd
    exact absurd ((h.mem_iff d).mpr hd) (by simp)
  | cons last older =>
    have hlast : last ∈ done := (h.mem_iff last).mp (by simp)
    dsimp only
    by_cases hsame : sameInstance last x = true
    · rw [if_pos hsame]
      have hkey := sameInstance_iff.mp hsame
      by_cases hgeometry : sameCacheGeometry last.entry x.entry = true
      · left
        rw [if_neg (by simp [hgeometry])]
        -- then nothing new is observed
        have heq : last = x := ObservedCacheInstance.eq_of_key_eq hkey
          ((sameCacheGeometry_iff hkey).mp hgeometry)
        subst heq
        refine ⟨last :: older, rfl, ?_, ?_, h.sorted⟩
        · rw [consistent_concat]
          exact ⟨h.consistent, fun d hd => h.consistent d hd last hlast⟩
        · intro o
          rw [h.mem_iff, List.mem_append, List.mem_singleton]
          constructor
          · exact .inl
          · rintro (ho | rfl)
            · exact ho
            · exact hlast
      · right
        rw [if_pos (by simp [hgeometry])]
        refine ⟨rfl, fun hconsistent => ?_⟩
        obtain ⟨hlevel, hkind, hvalues⟩ := key_eq_iff.mp hkey
        have hcompatible := (consistent_concat.mp hconsistent).2 last hlast hlevel hkind
        exact hgeometry ((sameCacheGeometry_iff hkey).mpr
          (hcompatible.2 (CpuList.eq_iff.mpr hvalues)))
    · rw [if_neg hsame]
      apply addInstance_spec h hle
      -- an older cache lies before the last one, and the observation does not
      intro d hd hkey
      have hne : last.key ≠ x.key := fun heq => hsame (sameInstance_iff.mpr heq)
      rcases List.mem_cons.mp ((h.mem_iff d).mpr hd) with rfl | hmem
      · exact hne hkey
      · have hlt : d.key < last.key := List.rel_of_pairwise_cons h.sorted hmem
        rw [hkey] at hlt
        exact absurd (hle last hlast) (not_le.mpr hlt)

/-- The loop over sorted observations. -/
theorem foldlM_mergeInstance (rest : List ObservedCacheInstance) (h : Merged done unique)
    (hsorted : (done ++ rest).Pairwise fun a b => a.key ≤ b.key) :
    (∃ unique', rest.foldlM mergeInstance unique = .ok unique' ∧ Merged (done ++ rest) unique') ∨
      (rest.foldlM mergeInstance unique = fail .temporarilyUnavailable ∧
        ¬ Consistent (done ++ rest)) := by
  induction rest generalizing done unique with
  | nil =>
    left
    exact ⟨unique, rfl, by rwa [List.append_nil]⟩
  | cons x rest ih =>
    have hcons : done ++ x :: rest = (done ++ [x]) ++ rest := by simp
    have hle : ∀ d ∈ done, d.key ≤ x.key := by
      intro d hd
      exact (List.pairwise_append.mp hsorted).2.2 d hd x (by simp)
    rw [List.foldlM_cons, hcons]
    rw [hcons] at hsorted
    rcases mergeInstance_spec h hle with ⟨unique', hok, hmerged⟩ | ⟨hfail, hbad⟩
    · rw [hok, ok_bind]
      exact ih hmerged hsorted
    · right
      rw [hfail, fail_bind]
      exact ⟨rfl, fun hconsistent => hbad hconsistent.of_append⟩

end Loop

section Descriptors
variable {instances : List ObservedCacheInstance}

theorem sorted_keys (sorter : Sorter precedes) (instances : List ObservedCacheInstance) :
    (sorter.sort instances).Pairwise fun a b => a.key ≤ b.key := by
  have h := sorter.sorted instances
  simpa only [precedes_eq, decide_eq_false_iff_not, not_lt] using h

/-- The query over the observations: it keeps each of them once, in the order of the keys,
or the observations contradict each other. -/
theorem describeInstances_spec (sorter : Sorter precedes) (hne : instances ≠ []) :
    (∃ unique : List ObservedCacheInstance,
        describeInstances sorter instances = .ok (unique.map (·.entry)) ∧
        Consistent instances ∧ (∀ o, o ∈ unique ↔ o ∈ instances) ∧
        unique.Pairwise fun a b => a.key < b.key) ∨
      (describeInstances sorter instances = fail .temporarilyUnavailable ∧
        ¬ Consistent instances) := by
  have hperm := sorter.perm instances
  have hstart : Merged [] [] := ⟨by simp [Consistent], by simp, List.Pairwise.nil⟩
  have hloop := foldlM_mergeInstance (sorter.sort instances) hstart (sorted_keys sorter instances)
  rw [List.nil_append] at hloop
  rw [describeInstances, if_neg hne]
  rcases hloop with ⟨unique, hok, hmerged⟩ | ⟨hfail, hbad⟩
  · left
    rw [hok, ok_bind]
    refine ⟨unique.reverse, rfl, (consistent_perm hperm).mp hmerged.consistent, ?_, ?_⟩
    · intro o
      rw [List.mem_reverse, hmerged.mem_iff, hperm.mem_iff]
    · rw [List.pairwise_reverse]
      exact hmerged.sorted
  · right
    rw [hfail, fail_bind]
    exact ⟨rfl, fun h => hbad ((consistent_perm hperm).mpr h)⟩

/-- The order of the observations and the choice of the sort do not matter. -/
theorem describeInstances_perm (sorter sorter' : Sorter precedes)
    {l l' : List ObservedCacheInstance} (hperm : l.Perm l') :
    describeInstances sorter l = describeInstances sorter' l' := by
  by_cases hne : l = []
  · subst hne
    have hnil : l' = [] := hperm.symm.eq_nil
    rw [hnil, describeInstances, describeInstances, if_pos rfl, if_pos rfl]
  · have hne' : l' ≠ [] := fun h => hne (by rw [h] at hperm; exact hperm.eq_nil)
    rcases describeInstances_spec sorter hne with ⟨u, hok, hcons, hmem, hsorted⟩ | ⟨hfail, hbad⟩
    · rcases describeInstances_spec sorter' hne' with
        ⟨u', hok', -, hmem', hsorted'⟩ | ⟨-, hbad'⟩
      · have hu : u = u' := by
          apply StdSort.eq_of_ascending hsorted hsorted'
          intro o
          rw [hmem, hmem', hperm.mem_iff]
        rw [hok, hok', hu]
      · exact absurd ((consistent_perm hperm).mp hcons) hbad'
    · rcases describeInstances_spec sorter' hne' with ⟨-, -, hcons', -, -⟩ | ⟨hfail', -⟩
      · exact absurd ((consistent_perm hperm).mpr hcons') hbad
      · rw [hfail, hfail']

/-- The query over observed caches succeeds exactly if there are some and no two of them
contradict each other. Then it gives one entry for each level, kind and processor set that
was observed. The order of the observations never matters, nor how the sort orders equals. -/
theorem cache_descriptors_exact :
    (∀ (sorter : Sorter precedes) instances,
        (∃ entries, describeInstances sorter instances = .ok entries) ↔
          instances ≠ [] ∧ Consistent instances) ∧
      (∀ (sorter : Sorter precedes) instances entries,
        describeInstances sorter instances = .ok entries →
          ∃ unique : List ObservedCacheInstance, entries = unique.map (·.entry) ∧
            (∀ o, o ∈ unique ↔ o ∈ instances) ∧ (unique.map (·.key)).Nodup) ∧
      ∀ (sorter sorter' : Sorter precedes) instances instances', instances.Perm instances' →
        describeInstances sorter instances = describeInstances sorter' instances' := by
  have hnil : ∀ sorter : Sorter precedes, describeInstances sorter [] = fail .notSupported :=
    fun sorter => if_pos rfl
  refine ⟨?_, ?_, fun sorter sorter' _ _ h => describeInstances_perm sorter sorter' h⟩
  · intro sorter instances
    by_cases hne : instances = []
    · subst hne
      simp [hnil]
    · rcases describeInstances_spec sorter hne with ⟨u, hok, hcons, -, -⟩ | ⟨hfail, hbad⟩
      · simp [hok, hne, hcons]
      · simp [hfail, hbad]
  · intro sorter instances entries hentries
    by_cases hne : instances = []
    · subst hne
      rw [hnil] at hentries
      exact absurd hentries (fail_ne_ok _ _)
    · rcases describeInstances_spec sorter hne with ⟨u, hok, -, hmem, hsorted⟩ | ⟨hfail, -⟩
      · rw [hok] at hentries
        cases hentries
        refine ⟨u, rfl, hmem, ?_⟩
        rw [List.Nodup, List.pairwise_map]
        exact hsorted.imp fun h => h.ne
      · rw [hfail] at hentries
        exact absurd hentries (fail_ne_ok _ _)

/-- Without observations there is no contradiction, and the query fails all the same. -/
theorem no_caches_not_described :
    ¬ ∀ (sorter : Sorter precedes) instances,
      (∃ entries, describeInstances sorter instances = .ok entries) ↔ Consistent instances := by
  intro h
  obtain ⟨entries, hentries⟩ := (h (Sorter.merge strictWeak_precedes) []).mpr (by simp [Consistent])
  rw [describeInstances, if_pos rfl] at hentries
  exact fail_ne_ok _ _ hentries

end Descriptors

end Syscape.Cpu
