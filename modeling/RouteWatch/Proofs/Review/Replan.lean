import RouteWatch.Proofs.Annotation.Plan
import RouteWatch.Proofs.Review.Preview

/-!
# Planning again

Annotations that were created from the first drafts of a plan are recognised when the plan is
made again: it then consists of the other drafts.
-/

namespace RouteWatch

open RouteWatch.Diff (FileDiff Hunk)

/-- What is seen of a comment: where it stands and what it says. -/
structure Posting where
  path : String
  line : Option Int
  body : String
  side : Side
  deriving DecidableEq, Repr

/-- What is seen of an annotation. -/
def Annotation.posting (a : Annotation) : Posting := ⟨a.path, a.line, a.body, a.side⟩

/-- What will be seen of a draft. -/
def Draft.posting (d : Draft) : Posting := ⟨d.path, some d.line, d.body, d.side⟩

/-- The key of a comment in a file; one without a line has none. -/
def Posting.key? (hunks : List Hunk) (path : String) (p : Posting) : Option AnnotationKey :=
  if p.path = path then p.line.map fun line ↦ ⟨path, placeOf hunks line p.side, p.side⟩ else none

/-- The key of an annotation depends on what is seen of it. -/
theorem filterMap_key?_eq {hunks : List Hunk} {path : String} (as : List Annotation) :
    as.filterMap (·.key? hunks path) =
      (as.map Annotation.posting).filterMap (·.key? hunks path) := by
  rw [List.filterMap_map]
  rfl

/-- A comment that has a key in a file stands in the file. -/
theorem Posting.path_of_key? {hunks : List Hunk} {path : String} {p : Posting}
    {k : AnnotationKey} (h : p.key? hunks path = some k) : p.path = path := by
  unfold key? at h
  split at h
  · assumption
  · cases h

namespace Reviewer

variable {r : Reviewer} {path : String} {f : Findings} {existing : List Annotation} {d : Draft}

/-- What is planned for a file stands in the file and will be recognised by its key. -/
theorem key?_of_mem_planned (h : d ∈ (f.report r path existing).planned) :
    d.path = path ∧ d.posting.key? f.diff.hunks path = some d.key := by
  rcases List.mem_append.mp h with h | h
  · obtain ⟨c, -, rfl⟩ := exists_of_mem_plan h
    exact ⟨rfl, if_pos rfl⟩
  · obtain ⟨c, -, rfl⟩ := exists_of_mem_plan h
    exact ⟨rfl, if_pos rfl⟩

/-- What a review plans for a file stands in the file. -/
theorem path_of_preview {content base : Option String} {diff : String} {file : FileReport}
    (h : r.preview path content diff existing base = .ok file) (hd : d ∈ file.planned) :
    d.path = path := by
  rw [preview_eq_map_findings] at h
  obtain ⟨f, -, rfl⟩ := except_map_eq_ok_iff.mp h
  exact (key?_of_mem_planned hd).1

/-- What is planned for a file has different keys. -/
theorem nodup_keys_planned : ((f.report r path existing).planned.map Draft.key).Nodup := by
  rw [Findings.report, reportOn, List.map_append, List.nodup_append]
  refine ⟨nodup_keys_planFrom, nodup_keys_planFrom, ?_⟩
  rintro k hk _ hk' rfl
  obtain ⟨d, hd, rfl⟩ := List.mem_map.mp hk
  obtain ⟨e, he, heq⟩ := List.mem_map.mp hk'
  obtain ⟨c, -, rfl⟩ := exists_of_mem_plan hd
  obtain ⟨c', -, rfl⟩ := exists_of_mem_plan he
  cases congrArg AnnotationKey.side heq

/-- Where annotations from the first drafts of a plan have been created, the other drafts are
planned. -/
theorem planned_eq_append {taken : List Draft} {created : List Annotation}
    (htaken : taken <+: (f.report r path existing).planned)
    (hcreated : ∀ k, k ∈ created.filterMap (·.key? f.diff.hunks path) ↔ k ∈ taken.map Draft.key) :
    (f.report r path existing).planned =
      taken ++ (f.report r path (existing ++ created)).planned := by
  obtain ⟨rest, hrest⟩ := htaken
  have hkeys : (created.filterMap (·.key? f.diff.hunks path)).contains =
      (taken.map Draft.key).contains := by
    funext k
    rw [Bool.eq_iff_iff, List.contains_iff_mem, List.contains_iff_mem, hcreated]
  have hagain : (f.report r path (existing ++ created)).planned =
      (f.report r path existing).planned.filter fun d ↦
        !(taken.map Draft.key).contains d.key := by
    rw [← hkeys]
    simp only [Findings.report, reportOn, drafts_plan_append, List.filter_append]
  have hnodup : ((taken ++ rest).map Draft.key).Nodup := hrest ▸ nodup_keys_planned
  rw [hagain, ← hrest, filter_keys_prefix hnodup]

end Reviewer

end RouteWatch
