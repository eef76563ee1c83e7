import DatasetPlan.Proofs.Storage.Mapping
import DatasetPlan.Proofs.Text
import DatasetPlan.Storage.FileTree
import Mathlib.Data.List.Basic

namespace DatasetPlan.FileTree

variable {t t' : FileTree} {place : Place} {node : Node}

/-! Nodes and files by their places. -/

theorem lookup_cons (place other : Place) (node : Node) (entries : List (Place × Node)) :
    List.lookup other ((place, node) :: entries) =
      if other = place then some node else entries.lookup other := by
  rw [List.lookup_cons]
  by_cases h : other = place
  · rw [if_pos h, beq_iff_eq.mpr h]
  · rw [if_neg h, beq_false_of_ne h]

theorem lookup_filter_ne (place other : Place) (entries : List (Place × Node)) :
    (entries.filter (·.1 ≠ place)).lookup other =
      if other = place then none else entries.lookup other := by
  induction entries with
  | nil => simp
  | cons entry entries ih =>
      by_cases hentry : entry.1 = place
      · rw [List.filter_cons_of_neg (by simpa using hentry), ih, lookup_cons, hentry]
        split <;> rfl
      · rw [List.filter_cons_of_pos (by simpa using hentry), lookup_cons, lookup_cons, ih]
        by_cases hother : other = entry.1
        · rw [if_pos hother, if_pos hother, if_neg (hother ▸ hentry)]
        · rw [if_neg hother, if_neg hother]

theorem node?_remove (hplace : place ≠ []) (other : Place) :
    (t.remove place).node? other = if other = place then none else t.node? other := by
  cases other with
  | nil => exact (if_neg hplace.symm).symm
  | cons name names => exact lookup_filter_ne place (name :: names) t.entries

theorem node?_put (hplace : place ≠ []) (other : Place) :
    (t.put place node).node? other = if other = place then some node else t.node? other := by
  cases other with
  | nil => exact (if_neg hplace.symm).symm
  | cons name names =>
      refine (lookup_cons place (name :: names) node (t.remove place).entries).trans ?_
      split
      · rfl
      · next hother => exact (node?_remove hplace (name :: names)).trans (if_neg hother)

def file? (t : FileTree) (place : Place) : Option ByteArray :=
  match t.node? place with
  | some (.file content) => some content
  | _ => none

theorem file?_put {content : ByteArray} (hplace : place ≠ []) (other : Place) :
    (t.put place (.file content)).file? other =
      if other = place then some content else t.file? other := by
  rw [file?, node?_put hplace]
  by_cases hother : other = place
  · rw [if_pos hother, if_pos hother]
  · rw [if_neg hother, if_neg hother, file?]

theorem file?_remove (hplace : place ≠ []) (other : Place) :
    (t.remove place).file? other = if other = place then none else t.file? other := by
  rw [file?, node?_remove hplace]
  by_cases hother : other = place
  · rw [if_pos hother, if_pos hother]
  · rw [if_neg hother, if_neg hother, file?]

/-! Making directories. -/

structure SameFiles (t t' : FileTree) : Prop where
  workplace : t'.workplace = t.workplace
  file? : ∀ place, t'.file? place = t.file? place

namespace SameFiles

theorem refl (t : FileTree) : SameFiles t t :=
  ⟨rfl, fun _ => rfl⟩

theorem trans {t'' : FileTree} (h : SameFiles t t') (h' : SameFiles t' t'') : SameFiles t t'' :=
  ⟨h'.workplace.trans h.workplace, fun place => (h'.file? place).trans (h.file? place)⟩

theorem put_directory (h : t.node? place = none) : SameFiles t (t.put place .directory) where
  workplace := rfl
  file? other := by
    have hplace : place ≠ [] := by
      rintro rfl
      cases h
    rw [FileTree.file?, FileTree.file?, node?_put hplace]
    by_cases hother : other = place
    · rw [if_pos hother, hother, h]
    · rw [if_neg hother]

theorem of_createDirectory {path : String} (h : t.createDirectory path = .ok t') :
    SameFiles t t' := by
  unfold createDirectory at h
  cases hlocate : t.locate path with
  | error e => simp [hlocate, bind, Except.bind] at h
  | ok target =>
      simp only [hlocate, bind, Except.bind] at h
      cases target with
      | passed place => cases h
      | named place asDirectory =>
          cases hnode : t.node? place with
          | some node => simp [hnode, throw, throwThe, MonadExceptOf.throw] at h
          | none =>
              simp only [hnode] at h
              cases h
              exact put_directory hnode

theorem of_ensureDirectory {path : String} (h : t.ensureDirectory path = .ok t') :
    SameFiles t t' := by
  unfold ensureDirectory at h
  split at h
  · next hcreate =>
      cases h
      exact of_createDirectory hcreate
  · split at h <;> cases h
    exact refl t

theorem createInnermost (t : FileTree) (paths : List String) :
    SameFiles t (t.createInnermost paths).2 := by
  induction paths with
  | nil => exact refl t
  | cons path outer ih =>
      unfold FileTree.createInnermost
      split
      · next hensure => exact of_ensureDirectory hensure
      · split
        · next houter =>
            rw [houter] at ih
            exact ih
        · next made houter =>
            rw [houter] at ih
            split
            · next hensure => exact ih.trans (of_ensureDirectory hensure)
            · exact ih
      · exact refl t

end SameFiles

/-! Paths that are names. -/

def IsName (path : String) : Prop :=
  path ≠ "" ∧ PathName.separator ∉ path.toList ∧ '\x00' ∉ path.toList ∧ path ∉ [".", ".."]

instance (path : String) : Decidable (IsName path) :=
  inferInstanceAs (Decidable (_ ∧ _ ∧ _ ∧ _))

variable {path : String}

theorem names_of_isName (h : IsName path) : names path = [path] := by
  have hchars : path.toList.isEmpty = false := by simpa using h.1
  rw [names, Text.pieces_eq_splitOn, List.splitOn_eq_singleton h.2.1]
  simp [hchars]

theorem locate_of_isName (h : IsName path) :
    t.locate path =
      if longestName < path.utf8ByteSize then .error .nameTooLong
      else .ok (.named (t.workplace ++ [path]) false) := by
  obtain ⟨hempty, hseparator, hnull, hdots⟩ := id h
  have hcontains : path.contains '\x00' = false := by simpa using hnull
  have hisEmpty : path.isEmpty = false := by simpa using hempty
  have hrelative : PathName.isAbsolute path = false :=
    decide_eq_false fun hhead => hseparator (List.mem_of_mem_head? hhead)
  have hend : PathName.endsInSeparator path = false :=
    decide_eq_false fun hlast => hseparator (List.mem_of_mem_getLast? hlast)
  have hname : ¬(path = "." ∨ path = "..") := by simpa using hdots
  simp only [locate, hcontains, hisEmpty, hrelative, hend, names_of_isName h, checkName,
    List.getLast?_singleton, List.dropLast_singleton, List.foldlM_nil, hname, Bool.false_eq_true,
    if_false]
  by_cases hlong : longestName < path.utf8ByteSize
  · rw [if_pos hlong, if_pos hlong]
    split <;> rfl
  · have hshort : ¬longestPath < path.utf8ByteSize := by
      simp only [longestName, longestPath] at *
      omega
    rw [if_neg hlong, if_neg hlong, if_neg hshort]
    rfl

theorem isName_draftPath (h : IsName path) : IsName (Store.draftPath path) := by
  obtain ⟨-, hseparator, hnull, -⟩ := h
  have hchars : (Store.draftPath path).toList = path.toList ++ ['.', 't', 'm', 'p'] := by
    rw [Store.draftPath, String.toList_append]
    rfl
  have hne (other : String) (h : other.toList.length < 4) : Store.draftPath path ≠ other := by
    rintro rfl
    rw [hchars, List.length_append] at h
    exact absurd h (Nat.not_lt.mpr (Nat.le_add_left _ _))
  refine ⟨hne "" (by decide), ?_, ?_, ?_⟩
  · rw [hchars, List.mem_append, not_or]
    exact ⟨hseparator, by decide⟩
  · rw [hchars, List.mem_append, not_or]
    exact ⟨hnull, by decide⟩
  · simp [hne "." (by decide), hne ".." (by decide)]

theorem nodeAt_of_isName (h : IsName path) :
    t.nodeAt path =
      if longestName < path.utf8ByteSize then .error .nameTooLong
      else
        match t.node? (t.workplace ++ [path]) with
        | none => .error .notFound
        | some node => .ok node := by
  rw [nodeAt, locate_of_isName h]
  split
  · rfl
  · simp only [bind, Except.bind]
    cases t.node? (t.workplace ++ [path]) with
    | none => rfl
    | some node => cases node <;> rfl

def textAt? (t : FileTree) (path : String) : Option String :=
  if longestName < path.utf8ByteSize then none
  else (t.file? (t.workplace ++ [path])).bind String.fromUTF8?

theorem toOption_readText (h : IsName path) : (t.readText path).toOption = t.textAt? path := by
  rw [readText, nodeAt_of_isName h, textAt?, file?]
  split
  · rfl
  · cases t.node? (t.workplace ++ [path]) with
    | none => rfl
    | some node =>
        cases node with
        | directory => rfl
        | file content => cases hutf : String.fromUTF8? content <;> simp [bind, Except.bind, hutf] <;> rfl

theorem SameFiles.textAt? (h : SameFiles t t') (path : String) : t'.textAt? path = t.textAt? path := by
  rw [FileTree.textAt?, FileTree.textAt?, h.workplace, h.file?]

theorem place_ne_nil (t : FileTree) (path : String) : t.workplace ++ [path] ≠ [] :=
  List.append_ne_nil_of_right_ne_nil _ (List.cons_ne_nil _ _)

theorem place_eq_iff {other : String} :
    t.workplace ++ [other] = t.workplace ++ [path] ↔ other = path := by
  simp

/-- Only short names can be written to, and none that leads to a directory. -/
theorem write_eq_ok {content : ByteArray} (h : IsName path) :
    t.write path content = .ok t' ↔
      ¬longestName < path.utf8ByteSize ∧ t.node? (t.workplace ++ [path]) ≠ some .directory ∧
        t' = t.put (t.workplace ++ [path]) (.file content) := by
  rw [write, locate_of_isName h]
  by_cases hlong : longestName < path.utf8ByteSize
  · rw [if_pos hlong]
    exact iff_of_false nofun fun ⟨hshort, _⟩ => hshort hlong
  rw [if_neg hlong]
  simp only [bind, Except.bind]
  split
  · next hnode => exact iff_of_false nofun fun ⟨_, hfree, _⟩ => hfree hnode
  · next hfree =>
      exact ⟨fun h => ⟨hlong, hfree, (Except.ok.inj h).symm⟩,
        fun ⟨_, _, hput⟩ => congrArg Except.ok hput.symm⟩

theorem textAt?_write {text : String} (h : IsName path)
    (hwrite : t.write path text.toUTF8 = .ok t') (other : String) :
    t'.textAt? other = if other = path then some text else t.textAt? other := by
  obtain ⟨hshort, -, rfl⟩ := (write_eq_ok h).mp hwrite
  have hworkplace : (t.put (t.workplace ++ [path]) (.file text.toUTF8)).workplace = t.workplace :=
    rfl
  rw [textAt?, hworkplace, file?_put (t.place_ne_nil path)]
  by_cases hother : other = path
  · rw [if_pos hother, if_neg (hother ▸ hshort), if_pos (place_eq_iff.mpr hother)]
    exact dif_pos text.isValidUTF8
  · rw [if_neg hother, if_neg (place_eq_iff.not.mpr hother), textAt?]

theorem rename_eq_ok {source target : String} (h : IsName source) (h' : IsName target) :
    t.rename source target = .ok t' ↔
      ¬longestName < source.utf8ByteSize ∧ ¬longestName < target.utf8ByteSize ∧
        t.node? (t.workplace ++ [target]) ≠ some .directory ∧
          ∃ content, t.node? (t.workplace ++ [source]) = some (.file content) ∧
            t' = (t.remove (t.workplace ++ [source])).put (t.workplace ++ [target])
              (.file content) := by
  rw [rename, locate_of_isName h, locate_of_isName h']
  by_cases hsource : longestName < source.utf8ByteSize
  · rw [if_pos hsource]
    exact iff_of_false nofun fun ⟨hshort, _⟩ => hshort hsource
  by_cases htarget : longestName < target.utf8ByteSize
  · rw [if_neg hsource, if_pos htarget]
    exact iff_of_false nofun fun ⟨_, hshort, _⟩ => hshort htarget
  rw [if_neg hsource, if_neg htarget]
  simp only [bind, Except.bind]
  cases t.node? (t.workplace ++ [source]) with
  | none => exact iff_of_false nofun fun ⟨_, _, _, _, hnode, _⟩ => nomatch hnode
  | some node =>
      cases node with
      | directory => exact iff_of_false nofun fun ⟨_, _, _, _, hnode, _⟩ => nomatch hnode
      | file content =>
          simp only [Bool.or_self, Bool.false_eq_true, if_false]
          split
          · next hnode => exact iff_of_false nofun fun ⟨_, _, hfree, _⟩ => hfree hnode
          · next hfree =>
              constructor
              · exact fun h => ⟨hsource, htarget, hfree, content, rfl, (Except.ok.inj h).symm⟩
              · rintro ⟨-, -, -, _, ⟨⟩, hput⟩
                exact congrArg Except.ok hput.symm

theorem textAt?_rename {source target : String} (h : IsName source) (h' : IsName target)
    (hrename : t.rename source target = .ok t') (other : String) :
    t'.textAt? other =
      if other = target then t.textAt? source
      else if other = source then none else t.textAt? other := by
  obtain ⟨hsource, htarget, -, content, hnode, rfl⟩ := (rename_eq_ok h h').mp hrename
  have hcontent : t.file? (t.workplace ++ [source]) = some content := by rw [file?, hnode]
  have hworkplace : ((t.remove (t.workplace ++ [source])).put (t.workplace ++ [target])
    (.file content)).workplace = t.workplace := rfl
  rw [textAt?, hworkplace, file?_put (t.place_ne_nil target), file?_remove (t.place_ne_nil source)]
  by_cases hother : other = target
  · rw [if_pos hother, if_neg (hother ▸ htarget), if_pos (place_eq_iff.mpr hother), textAt?,
      if_neg hsource, hcontent]
  · rw [if_neg hother, if_neg (place_eq_iff.not.mpr hother)]
    by_cases hleft : other = source
    · rw [if_pos hleft, if_pos (place_eq_iff.mpr hleft)]
      split <;> rfl
    · rw [if_neg hleft, if_neg (place_eq_iff.not.mpr hleft), textAt?]

theorem update_eq_ok (change : FileTree → Except FileError FileTree) :
    update change t = (.ok (), t') ↔ change t = .ok t' := by
  unfold update
  cases change t <;> constructor <;> rintro ⟨⟩ <;> rfl

theorem disk_write_eq_ok {text : String} :
    disk.write path text t = (.ok (), t') ↔ t.write path text.toUTF8 = .ok t' :=
  update_eq_ok (·.write path text.toUTF8)

theorem disk_rename_eq_ok {source target : String} :
    disk.rename source target t = (.ok (), t') ↔ t.rename source target = .ok t' :=
  update_eq_ok (·.rename source target)

def mapping : disk.Mapping IsName where
  text? := textAt?
  isPresent_state _ _ := rfl
  isPresent := by
    intro path t h htext
    rw [← toOption_readText h, readText] at htext
    have hnode : (t.nodeAt path).isOk = true := by
      cases hnode : t.nodeAt path with
      | error e =>
          rw [hnode] at htext
          cases htext
      | ok node => rfl
    exact hnode
  readText_state _ _ := rfl
  readText h := toOption_readText h
  createDirectories := by
    intro directory t t' h path _
    have hsame := SameFiles.createInnermost t (PathName.upwards directory)
    have hresult : (t.createInnermost (PathName.upwards directory)).2 = t' := congrArg Prod.snd h
    exact (hresult ▸ hsame).textAt? path
  write h hwrite path _ := textAt?_write h (disk_write_eq_ok.mp hwrite) path
  rename h h' hrename path _ := textAt?_rename h h' (disk_rename_eq_ok.mp hrename) path

/-! Saving under names. -/

theorem directory?_of_isName (h : IsName path) : Store.directory? path = none := by
  obtain ⟨hempty, hseparator, -, -⟩ := h
  have hchars : path.toList.isEmpty = false := by simpa using hempty
  have hrelative : PathName.isAbsolute path = false :=
    decide_eq_false fun hhead => hseparator (List.mem_of_mem_head? hhead)
  have hpieces : PathName.pieces path = [(path.toList, 0)] := by
    rw [PathName.pieces, Text.pieces_eq_splitOn, List.splitOn_eq_singleton hseparator]
    rfl
  have htail : PathName.withoutTail (PathName.pieces path).reverse = [(path.toList, 0)] := by
    simp [hpieces, PathName.withoutTail, PathName.counts, hchars]
  rw [Store.directory?, PathName.parent?, htail]
  simp [PathName.withoutTail, PathName.joinPieces, hrelative]

def HasRoom (t : FileTree) : Prop :=
  ∀ name, t.node? (t.workplace ++ [name]) ≠ some .directory

theorem HasRoom.put {content : ByteArray} (h : t.HasRoom) (path : String) :
    (t.put (t.workplace ++ [path]) (.file content)).HasRoom := by
  intro name hnode
  have hput := (node?_put (t.place_ne_nil path) (t.workplace ++ [name])).symm.trans hnode
  split at hput
  · cases hput
  · exact h name hput

theorem HasRoom.remove (h : t.HasRoom) (path : String) :
    (t.remove (t.workplace ++ [path])).HasRoom := by
  intro name hnode
  have hremove := (node?_remove (t.place_ne_nil path) (t.workplace ++ [name])).symm.trans hnode
  split at hremove
  · cases hremove
  · exact h name hremove

section Saving

variable (t) (path : String) (p : Pipeline)

def savedContent : ByteArray :=
  (Pipeline.render (.ofPath path) p).toUTF8

def withDraft : FileTree :=
  t.put (t.workplace ++ [Store.draftPath path]) (.file (savedContent path p))

variable {t path}

theorem write_draft (h : IsName path)
    (hshort : (Store.draftPath path).utf8ByteSize ≤ longestName) (hroom : t.HasRoom) :
    t.write (Store.draftPath path) (savedContent path p) = .ok (t.withDraft path p) :=
  (write_eq_ok (isName_draftPath h)).mpr ⟨Nat.not_lt.mpr hshort, hroom _, rfl⟩

theorem rename_draft (h : IsName path)
    (hshort : (Store.draftPath path).utf8ByteSize ≤ longestName) (hroom : t.HasRoom) :
    ∃ t', (t.withDraft path p).rename (Store.draftPath path) path = .ok t' ∧ t'.HasRoom := by
  have hname : path.utf8ByteSize ≤ longestName := by
    rw [Store.draftPath, String.utf8ByteSize_append] at hshort
    exact Nat.le_of_add_right_le hshort
  have hdrafted : (t.withDraft path p).HasRoom := hroom.put (Store.draftPath path)
  have hnode :
      (t.withDraft path p).node? ((t.withDraft path p).workplace ++ [Store.draftPath path]) =
      some (.file (savedContent path p)) :=
    (node?_put (t.place_ne_nil _) _).trans (if_pos rfl)
  have hrename := (rename_eq_ok (isName_draftPath h) h).mpr
    ⟨Nat.not_lt.mpr hshort, Nat.not_lt.mpr hname, hdrafted path, _, hnode, rfl⟩
  exact ⟨_, hrename, (hdrafted.remove (Store.draftPath path)).put path⟩

theorem exists_run_save (h : IsName path)
    (hshort : (Store.draftPath path).utf8ByteSize ≤ longestName) (hroom : t.HasRoom) :
    ∃ t', (Store.save disk path p).run t = (.ok (), t') ∧ t'.HasRoom := by
  obtain ⟨t', hrename, ht'⟩ := rename_draft p h hshort hroom
  refine ⟨t', Store.run_save_eq_ok.mpr ⟨t, t.withDraft path p, ?_, ?_, ?_⟩, ht'⟩
  · rw [directory?_of_isName h]
  · exact disk_write_eq_ok.mpr (write_draft p h hshort hroom)
  · exact disk_rename_eq_ok.mpr hrename

end Saving

theorem exists_run_saveAll (saves : List (String × Pipeline))
    (h : ∀ entry ∈ saves, IsName entry.1 ∧
      (Store.draftPath entry.1).utf8ByteSize ≤ longestName) (hroom : t.HasRoom) :
    ∃ t', (Store.saveAll disk saves).run t = (.ok (), t') := by
  induction saves generalizing t with
  | nil => exact ⟨t, rfl⟩
  | cons entry saves ih =>
      obtain ⟨⟨hname, hshort⟩, hsaves⟩ := List.forall_mem_cons.mp h
      obtain ⟨mid, hsave, hmid⟩ := exists_run_save entry.2 hname hshort hroom
      obtain ⟨t', hlater⟩ := ih hsaves hmid
      exact ⟨t', Store.run_saveAll_cons.mpr ⟨mid, hsave, hlater⟩⟩

theorem hasRoom_empty : FileTree.empty.HasRoom :=
  fun _ h => by cases h

end DatasetPlan.FileTree
