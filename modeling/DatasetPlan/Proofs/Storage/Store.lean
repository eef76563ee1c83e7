import DatasetPlan.Proofs.Pipeline.Stored
import DatasetPlan.Proofs.Storage.FileTree

namespace DatasetPlan.Store

/-- After any saves, a path gives back what was last saved to it, as long as no later save had it
as its draft. -/
theorem load_saveAll {σ : Type} {disk : Disk (StateM σ)} {IsPath : String → Prop}
    (m : disk.Mapping IsPath) {before after : List (String × Pipeline)} {path : String}
    {p : Pipeline} {s s' : σ}
    (hpaths : ∀ entry ∈ before ++ (path, p) :: after, IsPath entry.1 ∧ IsPath (draftPath entry.1))
    (hparse : Pipeline.parse (.ofPath path) (Pipeline.render (.ofPath path) p) = .ok p)
    (hsaves : (saveAll disk (before ++ (path, p) :: after)).run s = (.ok (), s'))
    (hlast : ∀ entry ∈ after, entry.1 ≠ path) :
    (load disk path).run s' = (.ok (some p), s') ↔ ∀ entry ∈ after, draftPath entry.1 ≠ path := by
  obtain ⟨-, hpaths⟩ := List.forall_mem_append.mp hpaths
  obtain ⟨⟨hpath, hdraft⟩, hafter⟩ := List.forall_mem_cons.mp hpaths
  obtain ⟨mid, -, hrest⟩ := run_saveAll_append.mp hsaves
  obtain ⟨saved, hsave, hlater⟩ := run_saveAll_cons.mp hrest
  have hsaved : m.text? saved path = some (Pipeline.render (.ofPath path) p) :=
    (text?_save m hpath hdraft hsave path hpath).trans (if_pos rfl)
  have htext := text?_saveAll m hpath hafter hlast hlater
  rw [run_load_eq_some m hpath, htext, hsaved]
  constructor
  · rintro ⟨-, text, hheld, -⟩ entry hentry hsame
    rw [if_pos ⟨entry, hentry, hsame⟩] at hheld
    cases hheld
  · intro hdrafts
    have hnone : ¬∃ entry ∈ after, draftPath entry.1 = path :=
      fun ⟨entry, hentry, hsame⟩ => hdrafts entry hentry hsame
    exact ⟨rfl, _, if_neg hnone, hparse⟩

open Pipeline.Format (detection detection_finite parse_render readsBack_json readsBack_yaml)

def bare (id : String) : Pipeline :=
  ⟨id, "n", "", [], [], []⟩

/-- The first save is overwritten, the second one's file is the draft of the third, and the last
one has another draft. -/
theorem load_saveAll_detection :
    ∃ t, (saveAll FileTree.disk
        ([("detect.json", bare "old"), ("detect.json.tmp", detection)] ++
          ("detect.json", detection) :: [("detect.yaml", detection)])).run .empty = (.ok (), t) ∧
      (load FileTree.disk "detect.json").run t = (.ok (some detection), t) := by
  obtain ⟨t, hsaves⟩ := FileTree.exists_run_saveAll
    ([("detect.json", bare "old"), ("detect.json.tmp", detection)] ++
      ("detect.json", detection) :: [("detect.yaml", detection)]) (by decide +kernel)
    FileTree.hasRoom_empty
  refine ⟨t, hsaves, ?_⟩
  have hformat : Pipeline.Format.ofPath "detect.json" = .json := by decide +kernel
  have hparse : Pipeline.parse (.ofPath "detect.json")
      (Pipeline.render (.ofPath "detect.json") detection) = .ok detection := by
    rw [hformat]
    exact parse_render detection_finite (by decide +kernel) (readsBack_json (by decide +kernel))
  exact (load_saveAll FileTree.mapping (by decide +kernel) hparse hsaves (by decide +kernel)).mpr
    (by decide +kernel)

theorem load_saveAll_draft :
    ¬∀ (saves before after : List (String × Pipeline)) (path : String) (p : Pipeline)
      (t t' : FileTree),
      (∀ entry ∈ saves, FileTree.IsName entry.1 ∧ FileTree.IsName (draftPath entry.1)) →
      (∀ entry ∈ saves, Pipeline.parse (.ofPath entry.1)
        (Pipeline.render (.ofPath entry.1) entry.2) = .ok entry.2) →
      (saveAll FileTree.disk saves).run t = (.ok (), t') →
      saves = before ++ (path, p) :: after → (∀ entry ∈ after, entry.1 ≠ path) →
        (load FileTree.disk path).run t' = (.ok (some p), t') := by
  intro hrestores
  obtain ⟨t, hsaves⟩ := FileTree.exists_run_saveAll [("p.tmp", bare "first"), ("p", bare "second")]
    (by decide +kernel) FileTree.hasRoom_empty
  have hformats : Pipeline.Format.ofPath "p.tmp" = .yaml ∧ Pipeline.Format.ofPath "p" = .yaml := by
    decide +kernel
  have hparse : ∀ entry ∈ [("p.tmp", bare "first"), ("p", bare "second")],
      Pipeline.parse (.ofPath entry.1) (Pipeline.render (.ofPath entry.1) entry.2) =
        .ok entry.2 := by
    simp only [List.forall_mem_cons, hformats]
    exact ⟨parse_render nofun (by decide +kernel) (readsBack_yaml (by decide +kernel)),
      parse_render nofun (by decide +kernel) (readsBack_yaml (by decide +kernel)), nofun⟩
  have hload := hrestores _ [] _ "p.tmp" _ .empty t (by decide +kernel) hparse hsaves rfl
    (by decide +kernel)
  obtain ⟨-, text, htext, -⟩ := (run_load_eq_some FileTree.mapping (by decide +kernel)).mp hload
  obtain ⟨mid, -, hsecond⟩ := run_saveAll_cons.mp hsaves
  have hgone : FileTree.mapping.text? t "p.tmp" = none :=
    (text?_saveAll FileTree.mapping (by decide +kernel) (by decide +kernel) (by decide +kernel)
      hsecond).trans (if_pos ⟨_, List.mem_singleton_self _, by decide +kernel⟩)
  cases htext.symm.trans hgone

end DatasetPlan.Store
