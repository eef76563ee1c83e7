import DatasetPlan.Storage.Store
import Mathlib.Logic.Function.Basic

namespace DatasetPlan

/-! Files whose operations may fail, and a process that may stop at any of them. -/

structure Fate where
  failure? : Option FileError := none
  /-- What a write that fails leaves at its path. -/
  remnant? : Option ByteArray := none
  /-- The process does not get beyond the operation. -/
  isLast : Bool := false

abbrev Files := String → Option ByteArray

/-- Every path is a file of its own. The fates are those of the operations to come; an operation
without one takes effect. -/
structure FaultyFiles where
  files : Files
  fates : List Fate

namespace FaultyFiles

/-- A process that stops gives no result. -/
abbrev Process := OptionT (StateM FaultyFiles)

def readText (path : String) (files : Files) : Except FileError String :=
  match files path with
  | none => throw .notFound
  | some content =>
      match String.fromUTF8? content with
      | some text => pure text
      | none => throw .notText

def move (source target : String) (files : Files) : Except FileError Files :=
  match files source with
  | none => throw .notFound
  | some content =>
      pure (Function.update (Function.update files source none) target (some content))

/-- The change is made as a whole, or else the files are as `spoil` leaves them. -/
def operate (change : Files → Except FileError Files) (spoil : Fate → Files → Files) :
    Process (Except FileError Unit) :=
  OptionT.mk fun s =>
    let fate := s.fates.headD {}
    let (result, left) := match fate.failure?, change s.files with
      | none, .ok changed => (.ok (), changed)
      | none, .error e => (.error e, s.files)
      | some e, _ => (.error e, spoil fate s.files)
    (if fate.isLast then none else some result, ⟨left, s.fates.tail⟩)

def createDirectories : Process (Except FileError Unit) :=
  operate pure fun _ files => files

def write (path text : String) : Process (Except FileError Unit) :=
  operate (fun files => pure (Function.update files path (some text.toUTF8)))
    fun fate files => Function.update files path fate.remnant?

def rename (source target : String) : Process (Except FileError Unit) :=
  operate (move source target) fun _ files => files

def disk : Disk Process where
  isPresent path := OptionT.mk fun s => (some (s.files path).isSome, s)
  readText path := OptionT.mk fun s => (some (readText path s.files), s)
  createDirectories _ := createDirectories
  write := write
  rename := rename

variable {s s' : FaultyFiles} {result : Option (Except FileError Unit)}

/-! What single operations come to, whatever their fates are. -/

theorem operate_cases {change : Files → Except FileError Files} {spoil : Fate → Files → Files}
    (h : (operate change spoil).run s = (result, s')) :
    (change s.files = .ok s'.files ∧ (result = none ∨ result = some (.ok ()))) ∨
      ((s'.files = s.files ∨ ∃ fate, s'.files = spoil fate s.files) ∧
        result ≠ some (.ok ())) := by
  obtain ⟨rfl, rfl⟩ := Prod.mk.inj h
  dsimp only
  generalize s.fates.headD {} = fate
  cases fate.failure? with
  | some e =>
      refine .inr ⟨.inr ⟨fate, rfl⟩, ?_⟩
      cases fate.isLast <;> simp
  | none =>
      cases change s.files with
      | error e =>
          refine .inr ⟨.inl rfl, ?_⟩
          cases fate.isLast <;> simp
      | ok changed =>
          refine .inl ⟨rfl, ?_⟩
          cases fate.isLast <;> simp

theorem operate_faultless {change : Files → Except FileError Files}
    {spoil : Fate → Files → Files} {files changed : Files} (h : change files = .ok changed) :
    (operate change spoil).run ⟨files, []⟩ = (some (.ok ()), ⟨changed, []⟩) := by
  simp only [operate, OptionT.run, OptionT.mk, h]
  rfl

theorem createDirectories_faultless (files : Files) :
    createDirectories.run ⟨files, []⟩ = (some (.ok ()), ⟨files, []⟩) :=
  operate_faultless rfl

theorem write_faultless (path text : String) (files : Files) :
    (write path text).run ⟨files, []⟩ =
      (some (.ok ()), ⟨Function.update files path (some text.toUTF8), []⟩) :=
  operate_faultless rfl

theorem rename_faultless {source : String} {files : Files} {content : ByteArray}
    (h : files source = some content) (target : String) :
    (rename source target).run ⟨files, []⟩ =
      (some (.ok ()),
        ⟨Function.update (Function.update files source none) target (some content), []⟩) := by
  refine operate_faultless ?_
  rw [move, h]
  rfl

theorem createDirectories_files (h : createDirectories.run s = (result, s')) :
    s'.files = s.files := by
  rcases operate_cases h with ⟨hmade, -⟩ | ⟨hleft | ⟨fate, hleft⟩, -⟩
  · exact (Except.ok.inj hmade).symm
  · exact hleft
  · exact hleft

theorem write_frame {path text : String} (h : (write path text).run s = (result, s'))
    {other : String} (hother : other ≠ path) : s'.files other = s.files other := by
  rcases operate_cases h with ⟨hwritten, -⟩ | ⟨hleft | ⟨fate, hleft⟩, -⟩
  · rw [← Except.ok.inj hwritten, Function.update_of_ne hother]
  · rw [hleft]
  · rw [hleft, Function.update_of_ne hother]

theorem write_ok {path text : String}
    (h : (write path text).run s = (some (.ok ()), s')) :
    s'.files path = some text.toUTF8 := by
  rcases operate_cases h with ⟨hwritten, -⟩ | ⟨-, hfailed⟩
  · rw [← Except.ok.inj hwritten, Function.update_self]
  · exact absurd rfl hfailed

theorem move_eq_ok {source target : String} {files moved : Files}
    (h : move source target files = .ok moved) :
    moved = Function.update (Function.update files source none) target (files source) := by
  unfold move at h
  split at h
  · contradiction
  · next hcontent =>
      rw [hcontent]
      exact (Except.ok.inj h).symm

theorem rename_cases {source target : String}
    (h : (rename source target).run s = (result, s')) :
    (s'.files = Function.update (Function.update s.files source none) target (s.files source) ∧
        (result = none ∨ result = some (.ok ()))) ∨
      (s'.files = s.files ∧ result ≠ some (.ok ())) := by
  rcases operate_cases h with ⟨hmoved, hresult⟩ | ⟨hleft | ⟨fate, hleft⟩, hresult⟩
  · exact .inl ⟨move_eq_ok hmoved, hresult⟩
  · exact .inr ⟨hleft, hresult⟩
  · exact .inr ⟨hleft, hresult⟩

end FaultyFiles

namespace Store

open FaultyFiles (Process)

variable {s s' : FaultyFiles} {path text : String}

/-! Processes of several operations. -/

theorem run_process_bind {x : ExceptT ε Process α} {next : α → ExceptT ε Process β} :
    (x >>= next).run.run s =
      match x.run.run s with
      | (some (.ok a), mid) => (next a).run.run mid
      | (some (.error e), mid) => (some (.error e), mid)
      | (none, mid) => (none, mid) := by
  simp only [bind, ExceptT.bind, ExceptT.mk, ExceptT.run, OptionT.run, OptionT.bind, OptionT.mk,
    StateT.bind]
  rcases x s with ⟨_ | _ | a, mid⟩ <;> rfl

theorem run_process_accessing {action : Process (Except FileError β)} :
    (accessing path action).run.run s =
      ((action.run s).1.map (·.mapError fun e => .inaccessible path e.message),
        (action.run s).2) := by
  simp only [accessing, bind, ExceptT.mk, ExceptT.run, OptionT.run, OptionT.bind, OptionT.mk,
    StateT.bind]
  rcases action s with ⟨_ | r, mid⟩ <;> rfl

/-! Saving. -/

structure ReplacesWhole (path : String) (content : ByteArray) (before : Files)
    (outcome : Option (Except PlanError Unit) × FaultyFiles) : Prop where
  whole : outcome.2.files path = before path ∨ outcome.2.files path = some content
  failed : ∀ e, outcome.1 = some (.error e) → outcome.2.files path = before path
  succeeded : outcome.1 = some (.ok ()) →
    outcome.2.files path = some content ∧ outcome.2.files (draftPath path) = none
  others : ∀ other, other ≠ path → other ≠ draftPath path →
    outcome.2.files other = before other

theorem draftPath_ne (path : String) : draftPath path ≠ path := by
  intro h
  have hlength := congrArg String.length h
  rw [draftPath, String.length_append] at hlength
  have hsuffix : ".tmp".length = 4 := rfl
  omega

theorem ReplacesWhole.of_unfinished {content : ByteArray} {before : Files}
    {outcome : Option (Except PlanError Unit) × FaultyFiles}
    (hfiles : ∀ other, other ≠ draftPath path → outcome.2.files other = before other)
    (hresult : outcome.1 ≠ some (.ok ())) : ReplacesWhole path content before outcome where
  whole := .inl (hfiles path (draftPath_ne path).symm)
  failed _ _ := hfiles path (draftPath_ne path).symm
  succeeded hok := absurd hok hresult
  others other _ hother := hfiles other hother

theorem replacesWhole_rename {content : ByteArray} {before : Files}
    (hdraft : s.files (draftPath path) = some content)
    (hfiles : ∀ other, other ≠ draftPath path → s.files other = before other) :
    ReplacesWhole path content before
      ((accessing path (FaultyFiles.rename (draftPath path) path)).run.run s) := by
  rw [run_process_accessing]
  generalize hrename : (FaultyFiles.rename (draftPath path) path).run s = outcome
  obtain ⟨result, s'⟩ := outcome
  rcases FaultyFiles.rename_cases hrename with ⟨hmoved, hresult⟩ | ⟨hleft, hresult⟩
  · have hpath : s'.files path = some content := by
      rw [hmoved, Function.update_self, hdraft]
    refine ⟨.inr hpath, ?_, fun _ => ⟨hpath, ?_⟩, ?_⟩
    · rcases hresult with rfl | rfl <;> nofun
    · rw [hmoved, Function.update_of_ne (draftPath_ne path), Function.update_self]
    · intro other hother hnodraft
      rw [hmoved, Function.update_of_ne hother, Function.update_of_ne hnodraft]
      exact hfiles other hnodraft
  · have hframe : ∀ other, other ≠ draftPath path → s'.files other = before other := by
      intro other hother
      rw [hleft, hfiles other hother]
    refine .of_unfinished hframe ?_
    rcases result with _ | e | ⟨⟨⟩⟩
    · nofun
    · nofun
    · exact absurd rfl hresult

theorem replacesWhole_write {before : Files} (hfiles : s.files = before) :
    ReplacesWhole path text.toUTF8 before
      ((do
        accessing (draftPath path) (FaultyFiles.write (draftPath path) text)
        accessing path (FaultyFiles.rename (draftPath path) path)).run.run s) := by
  rw [run_process_bind, run_process_accessing]
  generalize hwrite : (FaultyFiles.write (draftPath path) text).run s = outcome
  obtain ⟨result, s'⟩ := outcome
  have hframe : ∀ other, other ≠ draftPath path → s'.files other = before other := by
    intro other hother
    rw [FaultyFiles.write_frame hwrite hother, hfiles]
  rcases result with _ | e | ⟨⟨⟩⟩
  · exact .of_unfinished hframe nofun
  · exact .of_unfinished hframe nofun
  · exact replacesWhole_rename (FaultyFiles.write_ok hwrite) hframe

theorem run_write_rename_faultless (files : Files) (path text : String) :
    ((do
      accessing (draftPath path) (FaultyFiles.write (draftPath path) text)
      accessing path (FaultyFiles.rename (draftPath path) path)).run.run ⟨files, []⟩).1 =
        some (.ok ()) := by
  rw [run_process_bind, run_process_accessing, FaultyFiles.write_faultless]
  dsimp only [Option.map_some, Except.mapError]
  rw [run_process_accessing, FaultyFiles.rename_faultless (Function.update_self _ _ _)]
  rfl

theorem run_save_faultless (files : Files) (path : String) (p : Pipeline) :
    ((save FaultyFiles.disk path p).run.run ⟨files, []⟩).1 = some (.ok ()) := by
  unfold save
  cases directory? path with
  | none => exact run_write_rename_faultless files path _
  | some directory =>
      dsimp only [FaultyFiles.disk]
      rw [run_process_bind, run_process_accessing, FaultyFiles.createDirectories_faultless]
      exact run_write_rename_faultless files path _

/-- Whatever fails and wherever the process stops, the path holds what it held or all of the new
text, and which of them is known from the result. Without faults the pipeline is saved. -/
theorem save_atomic (files : Files) (fates : List Fate) (path : String) (p : Pipeline) :
    ReplacesWhole path (Pipeline.render (.ofPath path) p).toUTF8 files
        ((save FaultyFiles.disk path p).run.run ⟨files, fates⟩) ∧
      ((save FaultyFiles.disk path p).run.run ⟨files, []⟩).1 = some (.ok ()) := by
  refine ⟨?_, run_save_faultless files path p⟩
  unfold save
  cases directory? path with
  | none => exact replacesWhole_write rfl
  | some directory =>
      dsimp only
      rw [run_process_bind, run_process_accessing]
      generalize hcreate : (FaultyFiles.disk.createDirectories directory).run ⟨files, fates⟩ =
        outcome
      obtain ⟨result, s'⟩ := outcome
      have hfiles : s'.files = files := FaultyFiles.createDirectories_files hcreate
      rcases result with _ | e | ⟨⟨⟩⟩
      · exact .of_unfinished (fun other _ => congrFun hfiles other) nofun
      · exact .of_unfinished (fun other _ => congrFun hfiles other) nofun
      · exact replacesWhole_write hfiles

end Store

end DatasetPlan
