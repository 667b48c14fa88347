import NotebookCleaning.Proofs.Lines
import NotebookCleaning.Proofs.Outline

/-!
# The directory that holds a file

The path to what is in a directory begins with a path to the directory, so where the longer path
leads somewhere the directory is there (`isDirectory_of_find_join`). Making it, together with the
directories that should hold it, then succeeds and changes nothing
(`makeDirectories_of_isDirectory`).
-/

namespace NotebookCleaning

namespace Path

variable {p : Path} {piece : String}

theorem intercalate_ofList (sep : Char) (ps : List (List Char)) :
    (String.singleton sep).intercalate (ps.map String.ofList) =
      String.ofList (Line.join sep ps) := by
  rw [← String.toList_inj]
  induction ps with
  | nil => rfl
  | cons p ps ih =>
    cases ps with
    | nil => simp [Line.join]
    | cons q qs =>
      simp only [Line.join, List.map_cons, String.intercalate_cons_cons, String.toList_append,
        String.toList_ofList] at ih ⊢
      simp [ih]

/-- The pieces of a path make up the path. -/
theorem intercalate_pieces (p : Path) : "/".intercalate p.pieces = p.text := by
  have h := intercalate_ofList '/' (Line.split '/' p.text.toList)
  rw [Line.join_split, String.ofList_toList] at h
  exact h

theorem text_join (hp : p.text ≠ "") (hlast : p.text.toList.getLast? ≠ some '/') :
    (p.join piece).text = p.text ++ ("/" ++ piece) := by
  rw [join, if_neg (not_or.mpr ⟨hp, hlast⟩), String.append_assoc]

theorem pieces_join (hp : p.text ≠ "") (hlast : p.text.toList.getLast? ≠ some '/')
    (hpiece : '/' ∉ piece.toList) : (p.join piece).pieces = p.pieces ++ [piece] := by
  have hlist : (p.join piece).text.toList = p.text.toList ++ '/' :: piece.toList := by
    rw [text_join hp hlast, String.toList_append, String.toList_append]
    rfl
  rw [pieces, hlist, Line.split_append_cons, Line.split_eq_singleton hpiece, List.map_append,
    List.map_singleton, String.ofList_toList, ← pieces]

end Path

namespace FileTree

variable {t : FileTree} {p : Path} {l m : Location} {n : Node} {purpose : Purpose}

section Walk

variable {follow follow' : Location → List String → Found} {piece : String} {ps : List String}

/-- A walk that goes on from where a shorter one would end has come to a directory there. -/
theorem walkPieces_of_append
    (hfollow : ∀ {m ps}, follow m (ps ++ [piece]) = .node l n →
      ∃ k, follow' m ps = .node k .directory)
    (h : t.walkPieces .target follow m (ps ++ [piece]) = .node l n) :
    ∃ k, t.walkPieces .target follow' m ps = .node k .directory := by
  induction ps generalizing m with
  | nil =>
    obtain ⟨hm, -⟩ := (walkPieces_cons_eq_node_iff (by decide)).mp h
    exact ⟨m, by rw [walkPieces, hm]⟩
  | cons first pieces ih =>
    obtain ⟨hm, hstep⟩ := (walkPieces_cons_eq_node_iff (by decide)).mp h
    have htarget : Purpose.target ≠ .entry := by decide
    simp only [walkPieces_cons_eq_node_iff htarget, hm, true_and]
    rcases hstep with ⟨hhere, hrest⟩ | ⟨hup, hrest⟩ |
      ⟨hname, -, ⟨target, hlink, hrest⟩ | ⟨n', hnext, hn', hrest⟩⟩
    · obtain ⟨k, hk⟩ := ih hrest
      exact ⟨k, .inl ⟨hhere, hk⟩⟩
    · obtain ⟨k, hk⟩ := ih hrest
      exact ⟨k, .inr (.inl ⟨hup, hk⟩)⟩
    · have hrest : follow (linkBase m target) (target.pieces ++ pieces ++ [piece]) = .node l n := by
        rw [List.append_assoc]
        exact hrest
      obtain ⟨k, hk⟩ := hfollow hrest
      exact ⟨k, .inr (.inr ⟨hname, unslashed_target, .inl ⟨target, hlink, hk⟩⟩)⟩
    · obtain ⟨k, hk⟩ := ih hrest
      exact ⟨k, .inr (.inr ⟨hname, unslashed_target, .inr ⟨n', hnext, hn', hk⟩⟩)⟩

theorem walk_of_append {links : Nat} (h : t.walk .target links m (ps ++ [piece]) = .node l n) :
    ∃ k, t.walk .target links m ps = .node k .directory := by
  induction links generalizing m ps with
  | zero => exact walkPieces_of_append (by simp) h
  | succ links ih =>
    have h : t.walkPieces .target (t.walk .target links) m (ps ++ [piece]) = .node l n := h
    exact walkPieces_of_append ih h

/-- Where a walk ends at a node, the walk to what has the last name ends at one too. -/
theorem walkPieces_entry
    (hfollow : ∀ {m ps}, follow m ps = .node l n → ∃ k n', follow' m ps = .node k n')
    (h : t.walkPieces .target follow m ps = .node l n) :
    ∃ k n', t.walkPieces .entry follow' m ps = .node k n' := by
  induction ps generalizing m with
  | nil => exact ⟨l, n, h⟩
  | cons piece pieces ih =>
    obtain ⟨hm, hstep⟩ := (walkPieces_cons_eq_node_iff (by decide)).mp h
    rw [walkPieces, if_neg (not_not_intro hm)]
    rcases hstep with ⟨hhere, hrest⟩ | ⟨rfl, hrest⟩ |
      ⟨hname, -, ⟨target, hlink, hrest⟩ | ⟨n', hnext, hn', hrest⟩⟩
    · rw [if_pos hhere]
      exact ih hrest
    · rw [if_neg (by decide), if_pos rfl]
      exact ih hrest
    · rw [if_neg hname.1, if_neg hname.2.1]
      simp only [hname.2.2, hlink, reduceCtorEq, decide_false, Bool.false_and, Bool.false_eq_true,
        if_false]
      -- The walk may end at the link, and need not follow it.
      split
      · exact ⟨_, _, rfl⟩
      · obtain ⟨k, n', hk⟩ := hfollow hrest
        refine ⟨k, n', ?_⟩
        rw [← hk, linkBase]
        split <;> rfl
    · rw [if_neg hname.1, if_neg hname.2.1]
      simp only [hname.2.2, hnext, reduceCtorEq, decide_false, Bool.false_and, Bool.false_eq_true,
        if_false]
      exact ih hrest

theorem walk_entry {links : Nat} (h : t.walk .target links m ps = .node l n) :
    ∃ k n', t.walk .entry links m ps = .node k n' := by
  induction links generalizing m ps with
  | zero => exact walkPieces_entry (by simp) h
  | succ links ih =>
    have h : t.walkPieces .target (t.walk .target links) m ps = .node l n := h
    exact walkPieces_entry ih h

end Walk

/-- Where the walk along a path begins. -/
def start (t : FileTree) (p : Path) : Location :=
  if p.text.toList.head? = some '/' then [] else t.current

/-- A path that is followed at all. -/
structure Followed (p : Path) : Prop where
  noNul : '\x00' ∉ p.text.toList
  short : ¬isTooLong p
  ne_empty : p.text ≠ ""

theorem findFor_eq_node_iff : t.findFor purpose p = .node l n ↔
    Followed p ∧ t.walk purpose maxLinks (t.start p) p.pieces = .node l n := by
  unfold findFor
  by_cases hp : Followed p
  · rw [and_iff_right hp, if_neg (mt List.contains_iff_mem.mp hp.noNul), if_neg hp.short,
      if_neg hp.ne_empty]
    rfl
  · simp only [hp, false_and, iff_false]
    intro h
    split at h
    · cases h
    split at h
    · cases h
    split at h
    · cases h
    · next hnul hlong hempty =>
      exact hp ⟨fun hmem => hnul (List.contains_iff_mem.mpr hmem), hlong, hempty⟩

theorem isDirectory_iff : t.isDirectory p = true ↔ ∃ l, t.find p = .node l .directory := by
  unfold isDirectory
  split
  · next l hfind => simp [hfind]
  · next hfind => simpa using hfind

variable {piece : String}

theorem Followed.of_join (hp : p.text ≠ "") (hlast : p.text.toList.getLast? ≠ some '/')
    (h : Followed (p.join piece)) : Followed p where
  noNul hnul := by
    refine h.noNul ?_
    rw [Path.text_join hp hlast, String.toList_append]
    exact List.mem_append_left _ hnul
  short hlong := by
    refine h.short ?_
    simp only [isTooLong, decide_eq_true_eq] at hlong ⊢
    rw [Path.text_join hp hlast, String.utf8ByteSize_append]
    omega
  ne_empty := hp

/-- Where a path through a directory leads somewhere, the directory is there. -/
theorem isDirectory_of_find_join (hp : p.text ≠ "") (hlast : p.text.toList.getLast? ≠ some '/')
    (hpiece : '/' ∉ piece.toList) (h : t.find (p.join piece) = .node l n) :
    t.isDirectory p = true := by
  obtain ⟨hfollowed, hwalk⟩ := findFor_eq_node_iff.mp h
  have hstart : t.start (p.join piece) = t.start p := by
    obtain ⟨c, cs, hlist⟩ := List.exists_cons_of_ne_nil (mt String.toList_eq_nil_iff.mp hp)
    simp only [start, Path.text_join hp hlast, String.toList_append, hlist, List.cons_append,
      List.head?_cons]
  rw [Path.pieces_join hp hlast hpiece, hstart] at hwalk
  obtain ⟨k, hk⟩ := walk_of_append hwalk
  exact isDirectory_iff.mpr ⟨k, findFor_eq_node_iff.mpr ⟨hfollowed.of_join hp hlast, hk⟩⟩

theorem makeDirectory_of_isDirectory (h : t.isDirectory p = true) :
    t.makeDirectory p = .error .alreadyThere := by
  obtain ⟨l, hfind⟩ := isDirectory_iff.mp h
  obtain ⟨hfollowed, hwalk⟩ := findFor_eq_node_iff.mp hfind
  obtain ⟨k, n, hentry⟩ := walk_entry hwalk
  rw [makeDirectory, findFor_eq_node_iff.mpr ⟨hfollowed, hentry⟩]

/-- The last of the paths that lead to a path is this path. -/
theorem exists_reverse_ancestors (p : Path) : ∃ ps, (ancestors p).reverse = p :: ps := by
  have hpieces : p.pieces ≠ [] := by
    simpa [Path.pieces] using Line.split_ne_nil '/' p.text.toList
  obtain ⟨n, hn⟩ : ∃ n, p.pieces.length = n + 1 :=
    Nat.exists_eq_succ_of_ne_zero (mt List.length_eq_zero_iff.mp hpieces)
  rw [ancestors, hn, List.range_succ, List.map_append, List.reverse_append, List.map_singleton,
    ← hn, List.take_length, Path.intercalate_pieces]
  exact ⟨_, rfl⟩

/-- A directory that is there need not be made. -/
theorem makeDirectories_of_isDirectory (h : t.isDirectory p = true) :
    t.makeDirectories p = .ok t := by
  obtain ⟨l, hfind⟩ := isDirectory_iff.mp h
  have hp := (findFor_eq_node_iff.mp hfind).1.ne_empty
  obtain ⟨ps, hps⟩ := exists_reverse_ancestors p
  rw [makeDirectories, hps, List.filter_cons_of_pos (by simpa using hp), makeChain,
    makeDirectory_of_isDirectory h]
  exact if_pos h

end FileTree

end NotebookCleaning
