import DatasetPlan.Proofs.Document.Presentation
import DatasetPlan.Proofs.Retyping

namespace DatasetPlan

theorem mapError_eq_ok {f : ε → ε'} {result : Except ε β} {x : β} :
    result.mapError f = .ok x ↔ result = .ok x := by
  cases result <;> simp [Except.mapError]

theorem toOption_mapError (f : ε → ε') (result : Except ε β) :
    (result.mapError f).toOption = result.toOption := by
  cases result <;> rfl

namespace Dialect

variable {d : Dialect α} {depth : Nat} {node : Tree α} {value : Value}

theorem forall_mem_readItemsFrom {read : Tree α → Except Fault β} {P : β → Prop}
    (hread : ∀ node x, read node = .ok x → P x) {index : Nat} {nodes : List (Tree α)}
    {items : List β} (h : readItemsFrom read index nodes = .ok items) : ∀ x ∈ items, P x := by
  induction nodes generalizing index items with
  | nil =>
      obtain rfl := Except.ok.inj h
      exact nofun
  | cons node nodes ih =>
      simp only [readItemsFrom, bind_eq_ok, pure_eq_ok, mapError_eq_ok] at h
      obtain ⟨first, hfirst, rest, hrest, rfl⟩ := h
      exact List.forall_mem_cons.mpr ⟨hread node first hfirst, ih hrest⟩

theorem forall_mem_readEntries {κ : Type} {readKey : Tree α → Except Fault κ}
    {read : Tree α → Except Fault β} {P : β → Prop} (hread : ∀ node x, read node = .ok x → P x)
    {nodes : List (Tree α × Tree α)} {entries : List (κ × β)}
    (h : d.readEntries readKey read nodes = .ok entries) : ∀ entry ∈ entries, P entry.2 := by
  induction nodes generalizing entries with
  | nil =>
      obtain rfl := Except.ok.inj h
      exact nofun
  | cons node nodes ih =>
      simp only [readEntries, bind_eq_ok, pure_eq_ok, mapError_eq_ok] at h
      obtain ⟨name, -, first, hfirst, rest, hrest, rfl⟩ := h
      exact List.forall_mem_cons.mpr ⟨hread node.2 first hfirst, ih hrest⟩

inductive IsScalar : Value → Prop
  | null : IsScalar .null
  | bool (b : Bool) : IsScalar (.bool b)
  | int {n : Int} (h : (Width.isSigned 64 n || Width.isUnsigned 64 n) = true) : IsScalar (.int n)
  | float (x : Float) : IsScalar (.float x)
  | text (s : String) : IsScalar (.text s)

theorem isScalar_of_valueOf {found : Found} (h : valueOf buffered found = .ok value) :
    IsScalar value := by
  cases found with
  | null => obtain rfl := Except.ok.inj h; exact .null
  | bool b => obtain rfl := Except.ok.inj h; exact .bool b
  | int n =>
      rw [valueOf] at h
      split at h
      · rename_i hn
        obtain rfl := Except.ok.inj h
        exact .int hn
      · cases h
  | float x => obtain rfl := Except.ok.inj h; exact .float x
  | text s => obtain rfl := Except.ok.inj h; exact .text s
  | list => cases h
  | dict => cases h
  | tagged => cases h

theorem IsScalar.keeps (h : IsScalar value) : buffered.Keeps value := by
  cases h with
  | null => exact .null
  | bool b => exact .bool b
  | int hn => exact .int hn
  | float x => exact .float rfl
  | text s => exact .text s

theorem IsScalar.nestsWithin (h : IsScalar value) (depth : Nat) : value.NestsWithin depth := by
  cases h <;> cases depth <;> trivial

theorem isScalar_of_readShallow (h : d.readShallow buffered node = .ok value) :
    IsScalar value := by
  unfold readShallow at h
  split at h
  · cases h
  · split at h
    · rw [settle, mapError_eq_ok, bind_eq_ok] at h
      obtain ⟨found, -, hfound⟩ := h
      exact isScalar_of_valueOf hfound
    · cases h

theorem forall_mem_readAnyEntries {read : Tree α → Except Fault Value} {P : Value → Prop}
    (hread : ∀ node x, read node = .ok x → P x) {nodes : List (Tree α × Tree α)}
    {entries : List (String × Value)} (h : d.readAnyEntries buffered read nodes = .ok entries) :
    ∀ entry ∈ entries, P entry.2 := by
  change (d.readEntries read read nodes >>= _) = _ at h
  simp only [bind_eq_ok, pure_eq_ok] at h
  obtain ⟨pairs, hpairs, rfl⟩ := h
  exact List.forall_mem_map.mpr (forall_mem_readEntries hread hpairs)

theorem keeps_of_readAny (h : d.readAny buffered depth node = .ok value) :
    buffered.Keeps value ∧ value.NestsWithin depth := by
  induction depth generalizing node value with
  | zero =>
      rw [readAny, located, mapError_eq_ok] at h
      have hscalar := isScalar_of_readShallow h
      exact ⟨hscalar.keeps, hscalar.nestsWithin 0⟩
  | succ depth ih =>
      rw [readAny, located, mapError_eq_ok] at h
      split at h
      · cases h
      · split at h
        · simp only [bind_eq_ok, pure_eq_ok] at h
          obtain ⟨items, hitems, rfl⟩ := h
          have hboth := forall_mem_readItemsFrom (fun _ _ => ih) hitems
          exact ⟨.list fun item hitem => (hboth item hitem).1, fun item hitem => (hboth item hitem).2⟩
        · simp only [bind_eq_ok, pure_eq_ok] at h
          obtain ⟨entries, hentries, rfl⟩ := h
          have hboth := forall_mem_readAnyEntries (fun _ _ => ih) hentries
          exact ⟨.dict fun entry hentry => (hboth entry hentry).1,
            fun entry hentry => (hboth entry hentry).2⟩
        · have hscalar := isScalar_of_readShallow h
          exact ⟨hscalar.keeps, hscalar.nestsWithin _⟩

theorem readAny_again (wording : Fault.Wording) (hkept : buffered.Keeps value)
    (hdepth : value.NestsWithin depth) :
    (again wording).readAny buffered depth value.tree = .ok value :=
  readAny_of_keeps (again_presents wording value) hkept hdepth

theorem toOption_readLeaf (read : α → Except Fault.Cause β) (wanted : String) (leaf : α) :
    (readLeaf read wanted (.leaf leaf)).toOption = (read leaf).toOption := by
  rw [readLeaf, located, toOption_mapError]
  exact toOption_mapError _ _

theorem toOption_readItemsFrom_cons (read : Tree α → Except Fault β) (index : Nat)
    (node : Tree α) (nodes : List (Tree α)) :
    (readItemsFrom read index (node :: nodes)).toOption =
      (read node).toOption.bind fun first =>
        (readItemsFrom read (index + 1) nodes).toOption.bind fun rest => some (first :: rest) := by
  rw [readItemsFrom]
  cases read node with
  | error fault => rfl
  | ok first => cases readItemsFrom read (index + 1) nodes <;> rfl

end Dialect

end DatasetPlan
