/-!
# Sets of lines

A set of line numbers is held as its members in ascending order, each once. `ofList` makes it
from any list, and `mem_ofList` says that it has the members of that list and no others.
-/

namespace RouteWatch.Diff

/-- The members of a list that differ from the one before them, the first from `last`. -/
def freshFrom (last : Int) : List Int → List Int
  | [] => []
  | n :: ns => if n = last then freshFrom last ns else n :: freshFrom n ns

/-- A list in which equal neighbours have become one. -/
def fresh : List Int → List Int
  | [] => []
  | n :: ns => n :: freshFrom n ns

/-- What is dropped stands before what is kept. -/
theorem mem_cons_freshFrom {m last : Int} {ns : List Int} :
    m ∈ last :: freshFrom last ns ↔ m ∈ last :: ns := by
  induction ns generalizing last with
  | nil => simp [freshFrom]
  | cons n ns ih =>
    simp only [freshFrom]
    split
    · next h => simp only [ih, h, List.mem_cons]; grind
    · rw [List.mem_cons, ih]
      exact List.mem_cons.symm

/-- A list has the same members after equal neighbours have become one. -/
theorem mem_fresh {m : Int} {ns : List Int} : m ∈ fresh ns ↔ m ∈ ns := by
  cases ns with
  | nil => simp [fresh]
  | cons n ns => exact mem_cons_freshFrom

/-- Of an ascending list strictly ascending members are kept. -/
theorem pairwise_cons_freshFrom {last : Int} {ns : List Int}
    (h : (last :: ns).Pairwise (· ≤ ·)) : (last :: freshFrom last ns).Pairwise (· < ·) := by
  induction ns generalizing last with
  | nil => simp [freshFrom]
  | cons n ns ih =>
    simp only [freshFrom]
    split
    · next hn => exact ih (by subst hn; exact (List.pairwise_cons.1 h).2)
    · next hn =>
      have hs := List.pairwise_cons.1 h
      have hlt : last < n := by
        have := hs.1 n (by simp)
        omega
      refine List.pairwise_cons.2 ⟨fun m hm ↦ ?_, ih hs.2⟩
      rcases List.mem_cons.1 (mem_cons_freshFrom.1 hm) with rfl | hm
      · exact hlt
      · have := (List.pairwise_cons.1 hs.2).1 m hm
        omega

/-- Of an ascending list strictly ascending members are kept. -/
theorem pairwise_fresh {ns : List Int} (h : ns.Pairwise (· ≤ ·)) :
    (fresh ns).Pairwise (· < ·) := by
  cases ns with
  | nil => simp [fresh]
  | cons n ns => exact pairwise_cons_freshFrom h

/-- A set of line numbers. -/
structure LineSet where
  toList : List Int
  ascending : toList.Pairwise (· < ·)

namespace LineSet

instance : Membership Int LineSet := ⟨fun s n ↦ n ∈ s.toList⟩

/-- A set is given by its members. -/
@[ext] theorem ext {s t : LineSet} (h : ∀ n, n ∈ s ↔ n ∈ t) : s = t := by
  obtain ⟨ns, hns⟩ := s
  obtain ⟨ms, hms⟩ := t
  have hperm : ns.Perm ms :=
    (List.perm_ext_iff_of_nodup (hns.imp Int.ne_of_lt) (hms.imp Int.ne_of_lt)).mpr h
  have heq : ns = ms :=
    hperm.eq_of_pairwise (fun m n _ _ hmn hnm ↦ absurd hmn (Int.lt_asymm hnm)) hns hms
  subst heq
  rfl

/-- No line. -/
def empty : LineSet := ⟨[], .nil⟩

/-- The numbers of a list as a set. -/
def ofList (ns : List Int) : LineSet where
  toList := fresh ns.mergeSort
  ascending := pairwise_fresh (by
    have h := @List.pairwise_mergeSort _ (fun (a b : Int) ↦ decide (a ≤ b))
      (by simp only [decide_eq_true_eq]; omega)
      (by simp only [Bool.or_eq_true, decide_eq_true_eq]; omega) ns
    simpa using h)

/-- A set has the members of the list that it was made from. -/
@[simp] theorem mem_ofList {n : Int} {ns : List Int} : n ∈ ofList ns ↔ n ∈ ns := by
  change n ∈ fresh ns.mergeSort ↔ n ∈ ns
  rw [mem_fresh, List.mem_mergeSort]

end LineSet

end RouteWatch.Diff
