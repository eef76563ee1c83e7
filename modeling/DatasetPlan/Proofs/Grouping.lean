import DatasetPlan.Proofs.Retyping

namespace DatasetPlan.Retyping

variable {r : Retyping} {rs : List Retyping} {t : String × String} {i : Nat}

def types (r : Retyping) : String × String :=
  (r.old, r.new)

namespace Group

variable {g : Group}

def types (g : Group) : String × String :=
  (g.old, g.new)

def gather (rs : List Retyping) (t : String × String) : Group where
  old := t.1
  new := t.2
  indices := (rs.filter (·.types = t)).map (·.index)

@[simp] theorem types_gather (rs : List Retyping) (t : String × String) :
    (gather rs t).types = t := rfl

theorem mem_gather_indices : i ∈ (gather rs t).indices ↔ ⟨i, t.1, t.2⟩ ∈ rs := by
  simp only [gather, List.mem_map, List.mem_filter, decide_eq_true_iff]
  constructor
  · rintro ⟨r, ⟨hmem, rfl⟩, rfl⟩
    exact hmem
  · intro hmem
    exact ⟨⟨i, t.1, t.2⟩, ⟨hmem, rfl⟩, rfl⟩

theorem gather_cons_of_ne (hne : r.types ≠ t) : gather (r :: rs) t = gather rs t := by
  simp [gather, hne]

theorem gather_filter_of_ne (hne : t ≠ r.types) :
    gather (rs.filter (·.types ≠ r.types)) t = gather rs t := by
  have hfilter : (rs.filter (·.types ≠ r.types)).filter (·.types = t) =
      rs.filter (·.types = t) := by
    rw [List.filter_filter]
    apply List.filter_congr
    intro s _
    by_cases hs : s.types = t
    · simp [hs, hne]
    · simp [hs]
  simp only [gather, hfilter]

/-! The first change opens a group and takes in all others like it; the rest are grouped as if
these had not been there. -/

private theorem foldl_add_cons (g : Group) (groups : List Group) (rs : List Retyping) :
    rs.foldl (fun groups r => add r groups) (g :: groups) =
      { g with indices := g.indices ++ (rs.filter (·.types = g.types)).map (·.index) } ::
        (rs.filter (·.types ≠ g.types)).foldl (fun groups r => add r groups) groups := by
  induction rs generalizing g groups with
  | nil => simp
  | cons r rs ih =>
      rw [List.foldl_cons]
      by_cases hsame : r.types = g.types
      · obtain ⟨hold, hnew⟩ := Prod.ext_iff.mp hsame
        rw [add, if_pos ⟨hold.symm, hnew.symm⟩, ih,
          List.filter_cons_of_pos (by simpa using hsame),
          List.filter_cons_of_neg (by simpa using hsame), List.map_cons]
        simp only [List.append_assoc, List.singleton_append]
        rfl
      · have hother : ¬(g.old = r.old ∧ g.new = r.new) := fun heq =>
          hsame (Prod.ext_iff.mpr ⟨heq.1.symm, heq.2.symm⟩)
        rw [add, if_neg hother, ih]
        simp [hsame]

theorem ofRetypings_cons (r : Retyping) (rs : List Retyping) :
    ofRetypings (r :: rs) =
      gather (r :: rs) r.types :: ofRetypings (rs.filter (·.types ≠ r.types)) := by
  have hfold := foldl_add_cons ⟨r.old, r.new, [r.index]⟩ [] rs
  rw [ofRetypings, List.foldl_cons, add, hfold]
  simp [gather, ofRetypings, types, Retyping.types]

theorem ofRetypings_eq_nil : ofRetypings rs = [] ↔ rs = [] := by
  cases rs with
  | nil => simp [ofRetypings]
  | cons r rs => simp [ofRetypings_cons]

@[elab_as_elim] theorem induction {motive : List Retyping → Prop} (nil : motive [])
    (cons : ∀ r rs, motive (rs.filter (·.types ≠ r.types)) → motive (r :: rs)) :
    ∀ rs, motive rs
  | [] => nil
  | r :: rs => cons r rs (induction nil cons _)
termination_by rs => rs.length
decreasing_by exact Nat.lt_succ_of_le (List.length_filter_le _ rs)

/-- The groups are those of the distinct pairs of types, in the order in which these come. -/
theorem ofRetypings_eq_map_gather (rs : List Retyping) :
    ofRetypings rs = (rs.map (·.types)).eraseDups.map (gather rs) := by
  induction rs using induction with
  | nil => rfl
  | cons r rs ih =>
      have hrest : ((rs.map (·.types)).filter fun t => !t == r.types) =
          (rs.filter (·.types ≠ r.types)).map (·.types) := by
        rw [List.filter_map]
        congr 2
        funext s
        simp [beq_eq_decide]
      rw [ofRetypings_cons, ih, List.map_cons, List.eraseDups_cons, List.map_cons, hrest]
      congr 1
      -- The other groups are the same with the changes of the first one and without them.
      apply List.map_congr_left
      intro t ht
      obtain ⟨s, hs, rfl⟩ := List.mem_map.mp (List.mem_eraseDups.mp ht)
      have hne : s.types ≠ r.types := by simpa using (List.mem_filter.mp hs).2
      rw [gather_filter_of_ne hne, gather_cons_of_ne hne.symm]

theorem mem_ofRetypings :
    g ∈ ofRetypings rs ↔ ∃ r ∈ rs, g = gather rs r.types := by
  simp only [ofRetypings_eq_map_gather, List.mem_map, List.mem_eraseDups]
  constructor
  · rintro ⟨_, ⟨r, hr, rfl⟩, rfl⟩
    exact ⟨r, hr, rfl⟩
  · rintro ⟨r, hr, rfl⟩
    exact ⟨r.types, ⟨r, hr, rfl⟩, rfl⟩

theorem map_types_ofRetypings (rs : List Retyping) :
    (ofRetypings rs).map (·.types) = (rs.map (·.types)).eraseDups := by
  rw [ofRetypings_eq_map_gather, List.map_map]
  exact List.map_id _

theorem nodup_types (rs : List Retyping) : ((ofRetypings rs).map (·.types)).Nodup := by
  induction rs using induction with
  | nil => exact .nil
  | cons r rs ih =>
      rw [ofRetypings_cons, List.map_cons, List.nodup_cons]
      refine ⟨?_, ih⟩
      intro hmem
      obtain ⟨g, hg, htypes⟩ := List.mem_map.mp hmem
      obtain ⟨s, hs, rfl⟩ := mem_ofRetypings.mp hg
      have hne : s.types ≠ r.types := by simpa using (List.mem_filter.mp hs).2
      exact hne htypes

theorem indices_ne_nil (hg : g ∈ ofRetypings rs) : g.indices ≠ [] := by
  obtain ⟨r, hr, rfl⟩ := mem_ofRetypings.mp hg
  exact List.ne_nil_of_mem (mem_gather_indices.mpr hr)

theorem mem_indices (hg : g ∈ ofRetypings rs) : i ∈ g.indices ↔ ⟨i, g.old, g.new⟩ ∈ rs := by
  obtain ⟨r, hr, rfl⟩ := mem_ofRetypings.mp hg
  exact mem_gather_indices

theorem exists_mem_indices :
    (∃ g ∈ ofRetypings rs, i ∈ g.indices ∧ g.types = t) ↔ ⟨i, t.1, t.2⟩ ∈ rs := by
  constructor
  · rintro ⟨g, hg, hi, rfl⟩
    exact (mem_indices hg).mp hi
  · intro hmem
    exact ⟨gather rs t, mem_ofRetypings.mpr ⟨_, hmem, rfl⟩, mem_gather_indices.mpr hmem, rfl⟩

theorem flatMap_indices_perm (rs : List Retyping) :
    ((ofRetypings rs).flatMap (·.indices)).Perm (rs.map (·.index)) := by
  induction rs using induction with
  | nil => exact .nil
  | cons r rs ih =>
      have hrest : (r :: rs).filter (fun s => !decide (s.types = r.types)) =
          rs.filter (·.types ≠ r.types) := by
        simp
      have hsplit := (List.filter_append_perm (fun s => decide (s.types = r.types))
        (r :: rs)).map (·.index)
      rw [hrest, List.map_append] at hsplit
      rw [ofRetypings_cons, List.flatMap_cons]
      exact (ih.append_left _).trans hsplit

theorem representative?_ofRetypings (rs : List Retyping) :
    representative? (ofRetypings rs) = rs.head?.map (·.types) := by
  cases rs with
  | nil => rfl
  | cons r rs =>
      rw [ofRetypings_cons]
      rfl

theorem areHomogeneous_ofRetypings :
    areHomogeneous (ofRetypings rs) = true ↔ ∀ r ∈ rs, ∀ s ∈ rs, r.types = s.types := by
  cases rs with
  | nil => simp [areHomogeneous, ofRetypings]
  | cons r rs =>
      have hlength : areHomogeneous (ofRetypings (r :: rs)) = true ↔
          ofRetypings (rs.filter (·.types ≠ r.types)) = [] := by
        simp [areHomogeneous, ofRetypings_cons]
      rw [hlength, ofRetypings_eq_nil, List.filter_eq_nil_iff]
      constructor
      · intro hsame
        have hfirst : ∀ s ∈ r :: rs, s.types = r.types := by
          simpa using hsame
        intro s hs s' hs'
        exact (hfirst s hs).trans (hfirst s' hs').symm
      · intro hsame s hs
        simpa using hsame s (List.mem_cons_of_mem r hs) r List.mem_cons_self

section Ascending

variable (hrs : (rs.map (·.index)).Pairwise (· < ·))
include hrs

theorem pairwise_indices (hg : g ∈ ofRetypings rs) : g.indices.Pairwise (· < ·) := by
  obtain ⟨r, _, rfl⟩ := mem_ofRetypings.mp hg
  exact hrs.sublist (List.filter_sublist.map _)

theorem pairwise_disjoint :
    (ofRetypings rs).Pairwise fun g g' => g.indices.Disjoint g'.indices := by
  have hnodup : (rs.map (·.index)).Nodup := hrs.imp Nat.ne_of_lt
  have htypes := List.pairwise_map.mp (nodup_types rs)
  refine htypes.imp_of_mem ?_
  intro g g' hg hg' hne i hi hi'
  have heq := List.inj_on_of_nodup_map hnodup ((mem_indices hg).mp hi)
    ((mem_indices hg').mp hi') rfl
  injection heq with _ hold hnew
  exact hne (Prod.ext hold hnew)

theorem pairwise_head :
    (ofRetypings rs).Pairwise fun g g' =>
      ∀ i ∈ g.indices.head?, ∀ j ∈ g'.indices.head?, i < j := by
  induction rs using induction with
  | nil => exact .nil
  | cons r rs ih =>
      obtain ⟨hlt, hrest⟩ := List.pairwise_cons.mp hrs
      rw [ofRetypings_cons, List.pairwise_cons]
      refine ⟨?_, ih (hrest.sublist (List.filter_sublist.map _))⟩
      intro g hg i hi j hj
      have hr : i = r.index := by simpa [gather, eq_comm] using hi
      obtain ⟨s, hs, hindex⟩ : ∃ s ∈ rs, s.index = j :=
        ⟨_, List.mem_of_mem_filter ((mem_indices hg).mp (List.mem_of_mem_head? hj)), rfl⟩
      exact hr ▸ hindex ▸ hlt _ (List.mem_map_of_mem hs)

end Ascending

structure Divides (groups : List Group) (rs : List Retyping) : Prop where
  types_eq : groups.map (·.types) = (rs.map (·.types)).eraseDups
  nodup_types : (groups.map (·.types)).Nodup
  old_ne_new : ∀ g ∈ groups, g.old ≠ g.new
  indices_eq : ∀ g ∈ groups, g.indices = (rs.filter (·.types = g.types)).map (·.index)
  nonempty : ∀ g ∈ groups, g.indices ≠ []
  perm : (groups.flatMap (·.indices)).Perm (rs.map (·.index))
  representative_eq : representative? groups = rs.head?.map (·.types)
  homogeneous_iff : areHomogeneous groups = true ↔ ∀ r ∈ rs, ∀ s ∈ rs, r.types = s.types

theorem ofRetypings_divides (hrs : ∀ r ∈ rs, r.old ≠ r.new) : Divides (ofRetypings rs) rs where
  types_eq := map_types_ofRetypings rs
  nodup_types := nodup_types rs
  old_ne_new := by
    intro g hg
    obtain ⟨r, hr, rfl⟩ := mem_ofRetypings.mp hg
    exact hrs r hr
  indices_eq := by
    intro g hg
    obtain ⟨r, -, rfl⟩ := mem_ofRetypings.mp hg
    rfl
  nonempty := fun _ hg => indices_ne_nil hg
  perm := flatMap_indices_perm rs
  representative_eq := representative?_ofRetypings rs
  homogeneous_iff := areHomogeneous_ofRetypings

end Group

/-! What the labels of a list of variables come to. -/

variable {registry : Registry} {vars : List Variable} {old new : Variable → String}

theorem filterMap_change?_of_resolves
    (h : ∀ v ∈ vars, v.Resolves registry (old v) (new v)) :
    vars.filterMap (change? registry) =
      (vars.filter fun v => old v ≠ new v).map fun v => ⟨v.index, old v, new v⟩ := by
  induction vars with
  | nil => rfl
  | cons v vars ih =>
      obtain ⟨hv, hvars⟩ := List.forall_mem_cons.mp h
      by_cases hsame : old v = new v
      · rw [List.filterMap_cons_none (by simp [change?_of_resolves hv, hsame]), ih hvars,
          List.filter_cons_of_neg (by simpa using hsame)]
      · rw [List.filterMap_cons_some (by rw [change?_of_resolves hv, if_neg (Ne.symm hsame)]),
          ih hvars, List.filter_cons_of_pos (by simpa using hsame), List.map_cons]

/-- Where all labels are known, each variable whose types differ changes, in the order of the
variables, and the groups divide these changes. -/
theorem ofVariables_divided (h : ∀ v ∈ vars, v.Resolves registry (old v) (new v)) :
    ∃ rs, ofVariables registry vars = .ok rs ∧
      rs = ((vars.filter fun v => old v ≠ new v).map fun v => ⟨v.index, old v, new v⟩) ∧
      Group.Divides (Group.ofRetypings rs) rs := by
  have hresolves : ∀ v ∈ vars, ∃ old new, v.Resolves registry old new :=
    fun v hv => ⟨old v, new v, h v hv⟩
  refine ⟨_, ofVariables_eq_ok.mpr ⟨hresolves, rfl⟩, filterMap_change?_of_resolves h, ?_⟩
  apply Group.ofRetypings_divides
  intro r hr
  obtain ⟨v, -, hchange⟩ := List.mem_filterMap.mp hr
  exact (change?_eq_some.mp hchange).2.1

def repeated : List Variable := [
  { name := "x", type := "integer", originalType := "real", index := 3 },
  { name := "y", type := "city", originalType := "text", index := 1 },
  { name := "z", type := "city", originalType := "ordinal", index := 0 },
  { name := "x", type := "integer", originalType := "latitude", index := 3 }]

theorem ofVariables_divided_repeated :
    ∃ rs, ofVariables .standard repeated = .ok rs ∧ rs.map (·.index) = [3, 1, 3] ∧
      (Group.ofRetypings rs).map (·.types) =
        [(SemanticType.float, SemanticType.integer),
          (SemanticType.text, SemanticType.categorical)] ∧
      ((Group.ofRetypings rs).flatMap (·.indices)).Perm [3, 1, 3] := by
  have hresolves : ∀ v ∈ repeated, v.Resolves .standard
      ((Registry.standard.resolve v.originalType).getD "")
      ((Registry.standard.resolve v.type).getD "") := by
    intro v hv
    simp only [repeated, List.mem_cons, List.not_mem_nil, or_false] at hv
    rcases hv with rfl | rfl | rfl | rfl
    · exact ⟨rfl, rfl⟩
    · exact ⟨rfl, rfl⟩
    · exact ⟨rfl, rfl⟩
    · exact ⟨rfl, rfl⟩
  obtain ⟨rs, hrs, hchanges, hgroups⟩ := ofVariables_divided hresolves
  have hindices : rs.map (·.index) = [3, 1, 3] := hchanges ▸ rfl
  refine ⟨rs, hrs, hindices, ?_, hindices ▸ hgroups.perm⟩
  rw [hgroups.types_eq, hchanges]
  decide

end DatasetPlan.Retyping
