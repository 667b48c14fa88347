import Mathlib.Data.List.Sort
import NotebookCleaning.Files.Path

/-!
# The order of paths

Paths are compared by their components (`order_eq_eq_iff`). Putting paths in their places one after
the other keeps them in ascending order and keeps, of each list of components, one spelling. So the
components of `ascending ps` depend only on which components there are in `ps`
(`map_components_ascending`), and not on their order, their number or their spelling.
-/

namespace NotebookCleaning.Path

namespace Component

theorem eq_of_rank_label {a b : Component} (hrank : a.rank = b.rank) (hlabel : a.label = b.label) :
    a = b := by
  cases a <;> cases b <;> simp_all [rank, label]

instance : Std.TransCmp order :=
  inferInstanceAs (Std.TransCmp (compareLex (compareOn rank) (compareOn label)))

instance : Std.LawfulEqCmp order where
  eq_of_compare h := by
    obtain ⟨hrank, hlabel⟩ := Ordering.then_eq_eq.mp h
    exact eq_of_rank_label (Std.LawfulEqOrd.eq_of_compare hrank)
      (Std.LawfulEqOrd.eq_of_compare hlabel)

end Component

/-- One list of components comes before another one. -/
def Before (as bs : List Component) : Prop := List.compareLex Component.order as bs = .lt

theorem Before.trans {as bs cs : List Component} (h : Before as bs) (h' : Before bs cs) :
    Before as cs :=
  Std.TransCmp.lt_trans h h'

instance : Std.Asymm Before where
  asymm _ _ h := Std.OrientedCmp.not_lt_of_lt h

variable {p q : Path} {ps qs : List Path} {cs : List Component}

theorem order_eq_eq_iff : p.order q = .eq ↔ p.components = q.components := by
  rw [order]
  exact Std.LawfulEqCmp.compare_eq_iff_eq

theorem mem_place : cs ∈ (place p qs).map components ↔
    cs = p.components ∨ cs ∈ qs.map components := by
  induction qs with
  | nil => simp [place]
  | cons q qs ih =>
    rw [place]
    split
    · simp
    · next heq =>
      rw [order_eq_eq_iff] at heq
      simp [heq]
    · rw [List.map_cons, List.mem_cons, ih, List.map_cons, List.mem_cons]
      exact or_left_comm

theorem pairwise_place (h : (qs.map components).Pairwise Before) :
    ((place p qs).map components).Pairwise Before := by
  induction qs with
  | nil => exact List.pairwise_singleton ..
  | cons q qs ih =>
    obtain ⟨hq, hqs⟩ := List.pairwise_cons.mp h
    rw [place]
    split
    · next hlt =>
      refine List.pairwise_cons.mpr ⟨fun cs hcs => ?_, h⟩
      rcases List.mem_cons.mp hcs with rfl | hcs
      · exact hlt
      · exact Before.trans hlt (hq cs hcs)
    · exact h
    · next hgt =>
      refine List.pairwise_cons.mpr ⟨fun cs hcs => ?_, ih hqs⟩
      rcases mem_place.mp hcs with rfl | hcs
      · exact Std.OrientedCmp.lt_of_gt hgt
      · exact hq cs hcs

theorem mem_ascending : cs ∈ (ascending ps).map components ↔ cs ∈ ps.map components := by
  have hfold : ∀ qs : List Path, cs ∈ (ps.foldl (fun qs p => place p qs) qs).map components ↔
      cs ∈ ps.map components ∨ cs ∈ qs.map components := by
    induction ps with
    | nil => simp
    | cons p ps ih =>
      intro qs
      rw [List.foldl_cons, ih, mem_place, List.map_cons, List.mem_cons, or_left_comm, or_assoc]
  rw [ascending, hfold]
  simp

theorem pairwise_ascending (ps : List Path) : ((ascending ps).map components).Pairwise Before := by
  have hfold : ∀ qs : List Path, (qs.map components).Pairwise Before →
      ((ps.foldl (fun qs p => place p qs) qs).map components).Pairwise Before := by
    induction ps with
    | nil => exact fun qs hqs => hqs
    | cons p ps ih => exact fun qs hqs => ih _ (pairwise_place hqs)
  exact hfold [] List.Pairwise.nil

/-- The components in a list of paths determine those of the ascending list. -/
theorem map_components_ascending (h : ∀ cs, cs ∈ ps.map components ↔ cs ∈ qs.map components) :
    (ascending ps).map components = (ascending qs).map components :=
  (pairwise_ascending ps).eq_of_mem_iff (pairwise_ascending qs) fun cs => by
    rw [mem_ascending, mem_ascending, h]

end NotebookCleaning.Path
