import DatasetPlan.Proofs.Document.Codec

namespace DatasetPlan

/-! Drafts of records. -/

/-- What the fields write of `x` can be stored, and reading it, one field after another, makes the
draft into `x`. -/
inductive Field.Completes (x : σ) : List (Field σ) → σ → Prop
  | done : Completes x [] x
  | written {f : Field σ} {fields : List (Field σ)} {draft next : σ} {value : Value}
      (hwrite : f.write x = some value) (hstorable : value.IsStorable)
      (hput : ∀ {α : Type} (d : Dialect α) {depth : Nat} {node : Tree α},
        value.NestsWithin depth → d.Presents node value → f.put d depth node draft = .ok next)
      (h : Completes x fields next) : Completes x (f :: fields) draft
  | skipped {f : Field σ} {fields : List (Field σ)} {draft : σ} (hwrite : f.write x = none)
      (hmandatory : f.mandatory = false) (h : Completes x fields draft) :
      Completes x (f :: fields) draft

theorem Codec.Represents.put {c : Codec β} {value : Value} {y : β} (hc : c.Represents value y)
    {set : σ → β → σ} {draft : σ} (d : Dialect α) {depth : Nat} {node : Tree α}
    (hdepth : value.NestsWithin depth) (hnode : d.Presents node value) :
    (do return set draft (← c.read d depth node) : Except Fault σ) = .ok (set draft y) := by
  rw [hc.read d hdepth hnode]
  rfl

namespace Field.Completes

variable {x draft : σ} {fields : List (Field σ)} {name : String} {c : Codec β} {get : σ → β}
  {set : σ → β → σ}

theorem required (hc : c.Keeps (get x)) (h : Completes x fields (set draft (get x))) :
    Completes x (.required name c get set :: fields) draft :=
  .written rfl hc.storable hc.represents.put h

theorem optional (hc : c.Keeps (get x)) (h : Completes x fields (set draft (get x))) :
    Completes x (.optional name c get set :: fields) draft :=
  .written rfl hc.storable hc.represents.put h

theorem sparse {skip : β → Bool} (hskip : skip (get x) = true → set draft (get x) = draft)
    (hc : c.Keeps (get x)) (h : Completes x fields (set draft (get x))) :
    Completes x (.sparse name c skip get set :: fields) draft := by
  cases hleft : skip (get x) with
  | true => exact .skipped (if_pos hleft) rfl (hskip hleft ▸ h)
  | false =>
      exact .written (if_neg (Bool.not_eq_true _ ▸ hleft)) hc.storable hc.represents.put h

end Field.Completes

/-- The entries are those of some of the fields, in their order, and reading them makes the draft
into `x`. Fields without an entry are optional. -/
inductive Field.Fills (x : σ) : List (Field σ) → List (String × Value) → σ → Prop
  | done : Fills x [] [] x
  | present {f : Field σ} {fields : List (Field σ)} {entries : List (String × Value)}
      {draft next : σ} {value : Value} (hstorable : value.IsStorable)
      (hput : ∀ {α : Type} (d : Dialect α) {depth : Nat} {node : Tree α},
        value.NestsWithin depth → d.Presents node value → f.put d depth node draft = .ok next)
      (h : Fills x fields entries next) : Fills x (f :: fields) ((f.name, value) :: entries) draft
  | missing {f : Field σ} {fields : List (Field σ)} {entries : List (String × Value)} {draft : σ}
      (hmandatory : f.mandatory = false) (h : Fills x fields entries draft) :
      Fills x (f :: fields) entries draft

namespace Field.Fills

variable {x draft : σ} {fields : List (Field σ)} {entries : List (String × Value)}

theorem keys_sublist (h : Fills x fields entries draft) :
    (entries.map Prod.fst).Sublist (fields.map (·.name)) := by
  induction h with
  | done => exact .slnil
  | @present f _ _ _ _ _ _ _ _ ih => exact ih.cons_cons f.name
  | @missing f _ _ _ _ _ ih => exact ih.cons f.name

theorem storable (h : Fills x fields entries draft) : ∀ entry ∈ entries, entry.2.IsStorable := by
  induction h with
  | done => nofun
  | present hstorable _ _ ih => exact List.forall_mem_cons.mpr ⟨hstorable, ih⟩
  | missing _ _ ih => exact ih

end Field.Fills

namespace Record

variable {r : Record σ} {x : σ}

def written (x : σ) (fields : List (Field σ)) : List (String × Value) :=
  fields.filterMap fun field => (field.write x).map (field.name, ·)

theorem written_cons_of_some {f : Field σ} {fields : List (Field σ)} {value : Value}
    (h : f.write x = some value) : written x (f :: fields) = (f.name, value) :: written x fields := by
  simp [written, h]

theorem written_cons_of_none {f : Field σ} {fields : List (Field σ)} (h : f.write x = none) :
    written x (f :: fields) = written x fields := by
  simp [written, h]

theorem keys_written_sublist (x : σ) (fields : List (Field σ)) :
    ((written x fields).map Prod.fst).Sublist (fields.map (·.name)) := by
  induction fields with
  | nil => exact .slnil
  | cons f fields ih =>
      cases hwrite : f.write x with
      | none => simpa [written_cons_of_none hwrite] using ih.cons f.name
      | some value => simpa [written_cons_of_some hwrite] using ih.cons_cons f.name

theorem fills_written {fields : List (Field σ)} {draft : σ} (h : Field.Completes x fields draft) :
    Field.Fills x fields (written x fields) draft := by
  induction h with
  | done => exact .done
  | written hwrite hstorable hput _ ih =>
      rw [written_cons_of_some hwrite]
      exact .present hstorable hput ih
  | skipped hwrite hmandatory _ ih =>
      rw [written_cons_of_none hwrite]
      exact .missing hmandatory ih

/-! Reading what was written. -/

theorem find?_name {f : Field σ} {before after : List (Field σ)}
    (hnodup : ((before ++ f :: after).map (·.name)).Nodup) :
    (before ++ f :: after).find? (·.name = f.name) = some f := by
  have hbefore : before.find? (·.name = f.name) = none := by
    rw [List.find?_eq_none]
    intro g hg hname
    rw [List.map_append, List.nodup_append] at hnodup
    exact hnodup.2.2 _ (List.mem_map_of_mem hg) f.name (by simp) (of_decide_eq_true hname)
  rw [List.find?_append, hbefore, Option.none_or, List.find?_cons_of_pos (by simp)]

theorem readEntry_eq_ok {d : Dialect α} {depth : Nat} {f : Field σ} {draft : Draft σ} {next : σ}
    {node : Tree α × Tree α} (hname : r.fields.find? (·.name = f.name) = some f)
    (hseen : f.name ∉ draft.seen)
    (hkey : ∃ leaf, node.1 = .leaf leaf ∧ d.Shows leaf (.text f.name))
    (hput : f.put d depth node.2 draft.record = .ok next) :
    r.readEntry d depth draft node = .ok ⟨next, f.name :: draft.seen⟩ := by
  obtain ⟨leaf, hleaf, hshows⟩ := hkey
  have htext := Dialect.readText_leaf "field identifier" hshows
  rw [← hleaf] at htext
  simp only [readEntry, htext, bind, Except.bind, hname, hseen, if_false, hput]
  rfl

theorem foldlM_readEntry {d : Dialect α} {depth : Nat} {rest : List (Field σ)}
    {entries : List (String × Value)} {start : σ} (h : Field.Fills x rest entries start)
    {before : List (Field σ)} (hfields : r.fields = before ++ rest)
    (hnodup : (r.fields.map (·.name)).Nodup) {seen : List String}
    (hseen : seen ⊆ before.map (·.name)) {nodes : List (Tree α × Tree α)}
    (hkeys : List.Forall₂
      (fun node entry => ∃ leaf, node.1 = .leaf leaf ∧ d.Shows leaf (.text entry.1)) nodes entries)
    (hvalues : List.Forall₂ (fun node entry => d.Presents node.2 entry.2) nodes entries)
    (hdepth : ∀ entry ∈ entries, entry.2.NestsWithin depth) :
    ∃ found, nodes.foldlM (r.readEntry d depth) ⟨start, seen⟩ = .ok ⟨x, found⟩ ∧ seen ⊆ found ∧
      ∀ f ∈ rest, f.mandatory = true → f.name ∈ found := by
  induction h generalizing before seen nodes with
  | done =>
      cases hkeys
      exact ⟨seen, rfl, List.Subset.refl _, by simp⟩
  | @present f fields entries draft next value hstorable hput h ih =>
      cases hkeys with
      | @cons node _ nodes _ hkey hkeys =>
          obtain ⟨hvalue, hvalues⟩ := List.forall₂_cons.mp hvalues
          obtain ⟨hfirst, hdepth⟩ := List.forall_mem_cons.mp hdepth
          have hname : r.fields.find? (·.name = f.name) = some f :=
            hfields ▸ find?_name (hfields ▸ hnodup)
          have hnew : f.name ∉ seen := by
            intro hmem
            rw [hfields, List.map_append, List.nodup_append] at hnodup
            exact hnodup.2.2 _ (hseen hmem) f.name (by simp) rfl
          have hentry : r.readEntry d depth ⟨draft, seen⟩ node = .ok ⟨next, f.name :: seen⟩ :=
            readEntry_eq_ok hname hnew hkey (hput d hfirst hvalue)
          have hsubset : f.name :: seen ⊆ (before ++ [f]).map (·.name) := by
            rw [List.map_append]
            exact List.cons_subset.mpr ⟨by simp, List.Subset.trans hseen (List.subset_append_left _ _)⟩
          obtain ⟨found, hfold, hfound, hall⟩ :=
            ih (by simpa using hfields) hsubset hkeys hvalues hdepth
          rw [List.cons_subset] at hfound
          refine ⟨found, ?_, hfound.2, List.forall_mem_cons.mpr ⟨fun _ => hfound.1, hall⟩⟩
          rw [List.foldlM_cons, hentry]
          exact hfold
  | @missing f fields entries draft hmandatory h ih =>
      have hsubset : seen ⊆ (before ++ [f]).map (·.name) := by
        rw [List.map_append]
        exact List.Subset.trans hseen (List.subset_append_left _ _)
      obtain ⟨found, hfold, hfound, hall⟩ :=
        ih (by simpa using hfields) hsubset hkeys hvalues hdepth
      refine ⟨found, hfold, hfound, List.forall_mem_cons.mpr ⟨fun htrue => ?_, hall⟩⟩
      exact absurd (hmandatory.symm.trans htrue) Bool.false_ne_true

theorem represents {entries : List (String × Value)} (hnodup : (r.fields.map (·.name)).Nodup)
    (h : Field.Fills x r.fields entries r.blank) : r.codec.Represents (.dict entries) x where
  storable := .dict (h.keys_sublist.nodup hnodup) h.storable
  read d depth node hdepth hnode := by
    cases depth with
    | zero => exact hdepth.elim
    | succ depth =>
        cases hnode with
        | dict hkeys hvalues =>
            have hfields : r.fields = [] ++ r.fields := rfl
            obtain ⟨found, hfold, -, hmandatory⟩ :=
              foldlM_readEntry h hfields hnodup (List.nil_subset _) hkeys hvalues hdepth
            have hcomplete : r.requireFields ⟨x, found⟩ = .ok x := by
              have hnone : (r.fields.find? fun field =>
                  field.mandatory && decide (field.name ∉ found)) = none := by
                rw [List.find?_eq_none]
                intro f hf hmissing
                rw [Bool.and_eq_true, decide_eq_true_eq] at hmissing
                exact hmissing.2 (hmandatory f hf hmissing.1)
              simp only [requireFields, hnone]
              rfl
            simp only [codec, read, Tree.bare, readEntries, hfold]
            exact congrArg located hcomplete

/-- A record whose fields have different names and complete the blank one is read back. -/
theorem codec_keeps (hnodup : (r.fields.map (·.name)).Nodup)
    (h : Field.Completes x r.fields r.blank) : r.codec.Keeps x :=
  (represents hnodup (fills_written h)).keeps

end Record

/-! Records of several kinds. -/

structure Variant.Keeps (v : Variant σ) (key : String) (x : σ) (entries : List (String × Value)) :
    Prop where
  storable : (Value.dict entries).IsStorable
  key_notMem : key ∉ entries.map Prod.fst
  read_entries : ∀ (wording : Fault.Wording) {depth : Nat} {node : Tree Found},
    (Value.dict entries).NestsWithin depth →
      (Dialect.again wording).Presents node (.dict entries) →
      v.read (.again wording) depth node = .ok x

theorem Codec.Keeps.variant_keeps {r : Record τ} {name key : String} {wrap : τ → σ}
    {unwrap? : σ → Option τ} {y : τ} (hy : r.codec.Keeps y)
    (hkey : key ∉ r.fields.map (·.name)) :
    (r.variant name wrap unwrap?).Keeps key (wrap y) (r.entries y) where
  storable := hy.storable
  key_notMem hmem := hkey ((Record.keys_written_sublist y r.fields).subset hmem)
  read_entries wording depth node hdepth hnode := by
    have hread : r.read (.again wording) depth node = .ok y := hy.read_write _ hdepth hnode
    simp only [Record.variant, hread]
    rfl

namespace Variant

variable {key title : String} {variants : List (Variant σ)} {v : Variant σ} {x : σ}
  {entries : List (String × Value)} {d : Dialect α} {depth : Nat}

theorem readKind_eq_ok (hname : variants.find? (·.name = v.name) = some v) {leaf : α}
    (hshows : d.Shows leaf (.text v.name)) : readKind variants d (.leaf leaf) = .ok v := by
  simp only [readKind, Dialect.readText_leaf _ hshows, bind, Except.bind, hname]
  rfl

theorem readEntry_eq_ok {draft : Draft σ} {node : Tree α × Tree α} {name : String} {value : Value}
    (hname : name ≠ key) (hkey : ∃ leaf, node.1 = .leaf leaf ∧ d.Shows leaf (.text name))
    (hvalue : d.readAny Dialect.buffered depth node.2 = .ok value) :
    readEntry key variants d depth draft node =
      .ok ⟨draft.kind, ((Value.text name).tree, value.tree) :: draft.entries⟩ := by
  obtain ⟨leaf, hleaf, hshows⟩ := hkey
  have htext : d.readAny Dialect.buffered depth node.1 = .ok (.text name) :=
    hleaf ▸ Dialect.readAny_leaf hshows rfl
  simp only [readEntry, htext, hvalue]
  exact if_neg hname

theorem readEntry_key_eq_ok (hname : variants.find? (·.name = v.name) = some v)
    {aside : List (Tree Found × Tree Found)} {node : Tree α × Tree α}
    (hkey : ∃ leaf, node.1 = .leaf leaf ∧ d.Shows leaf (.text key))
    (hkind : d.Presents node.2 (.text v.name)) :
    readEntry key variants d depth ⟨none, aside⟩ node = .ok ⟨some v, aside⟩ := by
  obtain ⟨leaf, hleaf, hshows⟩ := hkey
  have htext : d.readAny Dialect.buffered depth node.1 = .ok (.text key) :=
    hleaf ▸ Dialect.readAny_leaf hshows rfl
  have hread : readKind variants d node.2 = .ok v := by
    generalize node.2 = kind at hkind
    cases hkind with
    | text hshows => exact readKind_eq_ok hname hshows
  simp only [readEntry, htext, hread]
  exact if_pos rfl

theorem foldlM_readEntry {kind : Option (Variant σ)} {aside : List (Tree Found × Tree Found)}
    {nodes : List (Tree α × Tree α)} (hkey : key ∉ entries.map Prod.fst)
    (hstorable : ∀ entry ∈ entries, entry.2.IsStorable)
    (hkeys : List.Forall₂
      (fun node entry => ∃ leaf, node.1 = .leaf leaf ∧ d.Shows leaf (.text entry.1)) nodes entries)
    (hvalues : List.Forall₂ (fun node entry => d.Presents node.2 entry.2) nodes entries)
    (hdepth : ∀ entry ∈ entries, entry.2.NestsWithin depth) :
    nodes.foldlM (readEntry key variants d depth) ⟨kind, aside⟩ =
      .ok ⟨kind, (Value.entryTrees entries).reverse ++ aside⟩ := by
  induction hkeys generalizing aside with
  | nil => rfl
  | @cons node entry nodes entries hfirst hkeys ih =>
      obtain ⟨hvalue, hvalues⟩ := List.forall₂_cons.mp hvalues
      obtain ⟨hstorable, hrest⟩ := List.forall_mem_cons.mp hstorable
      obtain ⟨hnests, hdepth⟩ := List.forall_mem_cons.mp hdepth
      rw [List.map_cons, List.mem_cons, not_or] at hkey
      have hany := Dialect.readAny_presents Dialect.buffered_isFaithful hvalue hstorable hnests
      have hentry : readEntry key variants d depth ⟨kind, aside⟩ node =
          .ok ⟨kind, ((Value.text entry.1).tree, entry.2.tree) :: aside⟩ :=
        readEntry_eq_ok (Ne.symm hkey.1) hfirst hany
      rw [List.foldlM_cons, hentry]
      refine (ih hkey.2 hrest hvalues hdepth).trans ?_
      simp [Value.entryTrees, Value.tree]

theorem readNode_eq_ok (hv : v.Keeps key x entries)
    (hname : variants.find? (·.name = v.name) = some v) {node : Tree α}
    (hdepth : (Value.dict ((key, .text v.name) :: entries)).NestsWithin depth)
    (hnode : d.Presents node (.dict ((key, .text v.name) :: entries))) :
    readNode key title variants d depth node = .ok (v, (Value.dict entries).tree) := by
  cases depth with
  | zero => exact hdepth.elim
  | succ depth =>
      cases hnode with
      | dict hkeys hvalues =>
          cases hkeys with
          | @cons node _ nodes _ hkey hkeys =>
              obtain ⟨hkind, hvalues⟩ := List.forall₂_cons.mp hvalues
              have hfirst : readEntry key variants d depth ⟨none, []⟩ node = .ok ⟨some v, []⟩ :=
                readEntry_key_eq_ok hname hkey hkind
              have hfold : (node :: nodes).foldlM (readEntry key variants d depth) ⟨none, []⟩ =
                  .ok ⟨some v, (Value.entryTrees entries).reverse⟩ := by
                rw [List.foldlM_cons, hfirst]
                refine (foldlM_readEntry hv.key_notMem (Value.isStorable_dict.mp hv.storable).2
                  hkeys hvalues fun entry hentry => ?_).trans (by rw [List.append_nil])
                exact hdepth entry (List.mem_cons_of_mem _ hentry)
              simp only [readNode, Tree.bare, hfold]
              change Except.ok (v, Tree.dict (Value.entryTrees entries).reverse.reverse) = _
              rw [List.reverse_reverse, Value.tree]

theorem codec_keeps (hv : v.Keeps key x entries)
    (hfirst : variants.findSome? (fun v => (v.entries x).map (v.name, ·)) = some (v.name, entries))
    (hname : variants.find? (·.name = v.name) = some v) :
    (Variant.codec key title variants).Keeps x := by
  have hwrite : (Variant.codec key title variants).write x =
      .dict ((key, .text v.name) :: entries) := by
    simp only [Variant.codec, hfirst]
  constructor
  · obtain ⟨hnodup, hentries⟩ := Value.isStorable_dict.mp hv.storable
    rw [hwrite]
    exact .dict (List.nodup_cons.mpr ⟨hv.key_notMem, hnodup⟩)
      (List.forall_mem_cons.mpr ⟨.text _, hentries⟩)
  · intro α d depth node hdepth hnode
    rw [hwrite] at hdepth hnode
    have hrest : (Value.dict entries).NestsWithin depth := by
      cases depth with
      | zero => exact hdepth.elim
      | succ depth => exact fun entry hentry => hdepth entry (List.mem_cons_of_mem _ hentry)
    have hread := hv.read_entries d.wording hrest (Dialect.again_presents d.wording _)
    simp only [Variant.codec, readNode_eq_ok hv hname hdepth hnode]
    change (v.read (.again d.wording) depth (Value.dict entries).tree).mapError _ = _
    rw [hread]
    rfl

end Variant

end DatasetPlan
