import DatasetPlan.Storage.Store
import Mathlib.Logic.Basic

namespace DatasetPlan

variable {σ ε α β : Type} {s s' : σ}

/-- On the disk, the paths in `IsPath` are different files, which hold what was written to them.
What is there but is no file holds no text. -/
structure Disk.Mapping (disk : Disk (StateM σ)) (IsPath : String → Prop) where
  text? : σ → String → Option String
  isPresent_state : ∀ path s, (disk.isPresent path s).2 = s
  isPresent : ∀ {path s}, IsPath path → (text? s path).isSome → (disk.isPresent path s).1 = true
  readText_state : ∀ path s, (disk.readText path s).2 = s
  readText : ∀ {path s}, IsPath path → (disk.readText path s).1.toOption = text? s path
  createDirectories : ∀ {directory s s'}, disk.createDirectories directory s = (.ok (), s') →
    ∀ path, IsPath path → text? s' path = text? s path
  write : ∀ {target text s s'}, IsPath target → disk.write target text s = (.ok (), s') →
    ∀ path, IsPath path → text? s' path = if path = target then some text else text? s path
  rename : ∀ {source target s s'}, IsPath source → IsPath target →
    disk.rename source target s = (.ok (), s') → ∀ path, IsPath path →
      text? s' path =
        if path = target then text? s source else if path = source then none else text? s path

namespace Store

theorem run_bind_eq_ok {x : ExceptT ε (StateM σ) α} {f : α → ExceptT ε (StateM σ) β} {b : β} :
    (x >>= f).run s = (.ok b, s') ↔
      ∃ a mid, x.run s = (.ok a, mid) ∧ (f a).run mid = (.ok b, s') := by
  have hrun : (x >>= f).run s = ExceptT.bindCont f (x.run s).1 (x.run s).2 := rfl
  rw [hrun]
  rcases x.run s with ⟨e | a, mid⟩
  · exact iff_of_false nofun fun ⟨_, _, hx, _⟩ => nomatch hx
  · constructor
    · exact fun h => ⟨a, mid, rfl, h⟩
    · rintro ⟨_, _, ⟨⟩, h⟩
      exact h

theorem run_accessing_eq_ok {path : String} {action : StateM σ (Except FileError β)} {b : β} :
    (accessing path action).run s = (.ok b, s') ↔ action s = (.ok b, s') := by
  have hrun : (accessing path action).run s =
      ((action s).1.mapError fun e => .inaccessible path e.message, (action s).2) := rfl
  rw [hrun]
  rcases action s with ⟨e | a, mid⟩
  · exact iff_of_false nofun nofun
  · constructor <;> rintro ⟨⟩ <;> rfl

section

variable {disk : Disk (StateM σ)} {IsPath : String → Prop} {path : String} {p : Pipeline}

theorem run_save_eq_ok :
    (save disk path p).run s = (.ok (), s') ↔
      ∃ ready written,
        (match directory? path with
          | some directory => disk.createDirectories directory s = (.ok (), ready)
          | none => ready = s) ∧
        disk.write (draftPath path) (Pipeline.render (.ofPath path) p) ready = (.ok (), written) ∧
        disk.rename (draftPath path) path written = (.ok (), s') := by
  unfold save
  cases directory? path with
  | none =>
      simp only [run_bind_eq_ok, run_accessing_eq_ok]
      constructor
      · rintro ⟨⟨⟩, written, hwrite, hrename⟩
        exact ⟨s, written, rfl, hwrite, hrename⟩
      · rintro ⟨_, written, rfl, hwrite, hrename⟩
        exact ⟨(), written, hwrite, hrename⟩
  | some directory =>
      simp only [run_bind_eq_ok, run_accessing_eq_ok]
      constructor
      · rintro ⟨⟨⟩, ready, hcreate, ⟨⟩, written, hwrite, hrename⟩
        exact ⟨ready, written, hcreate, hwrite, hrename⟩
      · rintro ⟨ready, written, hcreate, hwrite, hrename⟩
        exact ⟨(), ready, hcreate, (), written, hwrite, hrename⟩

/-- Saving changes two files: the one at the path and the one at its draft. -/
theorem text?_save (m : disk.Mapping IsPath) (hpath : IsPath path)
    (hdraft : IsPath (draftPath path)) (h : (save disk path p).run s = (.ok (), s')) :
    ∀ other, IsPath other → m.text? s' other =
      if other = path then some (Pipeline.render (.ofPath path) p)
      else if other = draftPath path then none
      else m.text? s other := by
  obtain ⟨ready, written, hready, hwrite, hrename⟩ := run_save_eq_ok.mp h
  intro other hother
  have hkept : m.text? ready other = m.text? s other := by
    cases hdirectory : directory? path with
    | none =>
        rw [hdirectory] at hready
        rw [hready]
    | some directory =>
        rw [hdirectory] at hready
        exact m.createDirectories hready other hother
  rw [m.rename hdraft hpath hrename other hother, m.write hdraft hwrite _ hdraft, if_pos rfl,
    m.write hdraft hwrite other hother]
  split
  · rfl
  · split
    · rfl
    · exact hkept

/-- Saves one pipeline after the other, up to the first that fails. -/
def saveAll [Monad m] (disk : Disk m) (saves : List (String × Pipeline)) :
    ExceptT PlanError m Unit :=
  saves.forM fun entry => save disk entry.1 entry.2

theorem run_saveAll_nil : (saveAll disk []).run s = (.ok (), s) := rfl

theorem run_saveAll_cons {entry : String × Pipeline} {later : List (String × Pipeline)} :
    (saveAll disk (entry :: later)).run s = (.ok (), s') ↔
      ∃ mid, (save disk entry.1 entry.2).run s = (.ok (), mid) ∧
        (saveAll disk later).run mid = (.ok (), s') := by
  have hcons : saveAll disk (entry :: later) =
      save disk entry.1 entry.2 >>= fun _ => saveAll disk later := rfl
  rw [hcons, run_bind_eq_ok]
  constructor
  · rintro ⟨⟨⟩, mid, hsave, hlater⟩
    exact ⟨mid, hsave, hlater⟩
  · rintro ⟨mid, hsave, hlater⟩
    exact ⟨(), mid, hsave, hlater⟩

theorem run_saveAll_append {first later : List (String × Pipeline)} :
    (saveAll disk (first ++ later)).run s = (.ok (), s') ↔
      ∃ mid, (saveAll disk first).run s = (.ok (), mid) ∧
        (saveAll disk later).run mid = (.ok (), s') := by
  induction first generalizing s with
  | nil =>
      simp only [List.nil_append, run_saveAll_nil]
      constructor
      · exact fun h => ⟨s, rfl, h⟩
      · rintro ⟨_, ⟨⟩, h⟩
        exact h
  | cons entry first ih =>
      simp only [List.cons_append, run_saveAll_cons, ih]
      constructor
      · rintro ⟨saved, hsave, mid, hfirst, hlater⟩
        exact ⟨mid, ⟨saved, hsave, hfirst⟩, hlater⟩
      · rintro ⟨mid, ⟨saved, hsave, hfirst⟩, hlater⟩
        exact ⟨saved, hsave, mid, hfirst, hlater⟩

/-- A path that is not saved to keeps its text, unless it serves as a draft. -/
theorem text?_saveAll (m : disk.Mapping IsPath) (hpath : IsPath path)
    {saves : List (String × Pipeline)}
    (hsaves : ∀ entry ∈ saves, IsPath entry.1 ∧ IsPath (draftPath entry.1))
    (hother : ∀ entry ∈ saves, entry.1 ≠ path) (h : (saveAll disk saves).run s = (.ok (), s')) :
    m.text? s' path =
      if ∃ entry ∈ saves, draftPath entry.1 = path then none else m.text? s path := by
  induction saves generalizing s with
  | nil =>
      cases h
      simp
  | cons entry saves ih =>
      obtain ⟨mid, hsave, hlater⟩ := run_saveAll_cons.mp h
      obtain ⟨⟨hentry, hdraft⟩, hsaves⟩ := List.forall_mem_cons.mp hsaves
      obtain ⟨hne, hother⟩ := List.forall_mem_cons.mp hother
      rw [ih hsaves hother hlater, text?_save m hentry hdraft hsave path hpath, if_neg hne.symm]
      -- The path may be the draft of this save, of a later one, or of several.
      simp only [List.mem_cons, exists_eq_or_imp, eq_comm (a := path)]
      by_cases hlast : ∃ later ∈ saves, draftPath later.1 = path
      · rw [if_pos hlast, if_pos (.inr hlast)]
      · rw [if_neg hlast]
        simp only [hlast, or_false]

theorem read_eq_ok {text : String} :
    read path text = .ok p ↔ Pipeline.parse (.ofPath path) text = .ok p := by
  unfold read
  cases Pipeline.parse (.ofPath path) text with
  | error reason => exact iff_of_false nofun nofun
  | ok q => constructor <;> rintro ⟨⟩ <;> rfl

theorem run_some_read_eq_ok {text : String} :
    (some <$> (read path text : Except PlanError Pipeline) :
        ExceptT PlanError (StateM σ) (Option Pipeline)).run s = (.ok (some p), s') ↔
      read path text = .ok p ∧ s' = s := by
  have hrun (result : Except PlanError Pipeline) : (some <$> (result : Except PlanError Pipeline) :
      ExceptT PlanError (StateM σ) (Option Pipeline)).run s = (some <$> result, s) := by
    cases result <;> rfl
  rw [hrun]
  cases read path text with
  | error e => exact iff_of_false nofun fun ⟨hread, _⟩ => nomatch hread
  | ok q =>
      constructor
      · rintro ⟨⟩
        exact ⟨rfl, rfl⟩
      · rintro ⟨⟨⟩, rfl⟩
        rfl

theorem run_load_eq_some (m : disk.Mapping IsPath) (hpath : IsPath path) :
    (load disk path).run s = (.ok (some p), s') ↔
      s' = s ∧ ∃ text, m.text? s path = some text ∧ Pipeline.parse (.ofPath path) text = .ok p := by
  have hrun : (load disk path).run s = (if (disk.isPresent path s).1 then (do
        let text ← accessing path (disk.readText path)
        some <$> (read path text : Except PlanError Pipeline))
      else pure none : ExceptT PlanError (StateM σ) _).run (disk.isPresent path s).2 := rfl
  rw [hrun, m.isPresent_state, ← m.readText hpath]
  have hstate := m.readText_state path s
  split
  · simp only [run_bind_eq_ok, run_accessing_eq_ok, run_some_read_eq_ok, read_eq_ok]
    generalize disk.readText path s = outcome at hstate ⊢
    rcases outcome with ⟨e | text, mid⟩
    · exact iff_of_false (fun ⟨_, _, hread, _⟩ => nomatch hread) fun ⟨_, _, htext, _⟩ => nomatch htext
    · obtain rfl : mid = s := hstate
      constructor
      · rintro ⟨_, _, ⟨⟩, hparse, rfl⟩
        exact ⟨rfl, text, rfl, hparse⟩
      · rintro ⟨rfl, _, ⟨⟩, hparse⟩
        exact ⟨text, s', rfl, hparse, rfl⟩
  · next habsent =>
      refine iff_of_false nofun fun ⟨_, text, htext, _⟩ => ?_
      have hsome : (m.text? s path).isSome := by
        rw [← m.readText hpath, htext]
        rfl
      exact habsent (m.isPresent hpath hsome)

end

end Store

end DatasetPlan
