import NotebookCleaning.Proofs.Outline

/-!
# Reading what has been written

Writing at a path replaces the file to which the path leads, or makes one where its last name is
free. No walk to such a place comes through it before, so the walk that found it finds the new file
there, and what has been written is read back at the same path (`read_of_write`).
-/

namespace NotebookCleaning.FileTree

variable {t t' : FileTree} {p : Path} {l m : Location} {content : List UInt8}

/-- A place for a file at `l`: one is there, or the name is free. -/
inductive Found.Place (l : Location) : Found → Prop
  | file (content : List UInt8) : Place l (.node l (.file content))
  | missing : Place l (.missing l)

/-- Nothing but a file stands at a location. -/
def TakesFile (t : FileTree) (l : Location) : Prop :=
  ∀ n, t.get? l = some n → ∃ content, n = .file content

theorem TakesFile.ne_nil (h : t.TakesFile l) : l ≠ [] := by
  rintro rfl
  obtain ⟨content, hdirectory⟩ := h .directory rfl
  cases hdirectory

theorem TakesFile.get?_ne_directory (h : t.TakesFile l) : t.get? l ≠ some .directory := by
  intro hget
  obtain ⟨content, hdirectory⟩ := h .directory hget
  cases hdirectory

theorem TakesFile.get?_ne_link (h : t.TakesFile l) (target : Path) :
    t.get? l ≠ some (.link target) := by
  intro hget
  obtain ⟨content, hlink⟩ := h (.link target) hget
  cases hlink

section Walk

variable {follow follow' : Location → List String → Found} {piece : String} {pieces : List String}

theorem place_of_walkPieces_nil (h : (t.walkPieces .file follow m []).Place l) :
    m = l ∧ ∃ content, t.get? l = some (.file content) := by
  rw [walkPieces] at h
  split at h
  · next n hget =>
    cases h with
    | file content => exact ⟨rfl, content, hget⟩
  · cases h

/-- A walk to a place for a file makes one of these steps, and the rest of it leads to that place,
unless it is the free name itself. -/
theorem place_of_walkPieces_cons (h : (t.walkPieces .file follow m (piece :: pieces)).Place l) :
    t.get? m = some .directory ∧
      ((piece = "" ∨ piece = ".") ∧ (t.walkPieces .file follow m pieces).Place l ∨
        piece = ".." ∧ (t.walkPieces .file follow m.dropLast pieces).Place l ∨
        IsName piece ∧
          ((∃ target, t.get? (m ++ [piece]) = some (.link target) ∧
              (follow (linkBase m target) (target.pieces ++ pieces)).Place l) ∨
            (∃ n, t.get? (m ++ [piece]) = some n ∧ (∀ target, n ≠ .link target) ∧
              (t.walkPieces .file follow (m ++ [piece]) pieces).Place l) ∨
            t.get? (m ++ [piece]) = none ∧ pieces = [] ∧ l = m ++ [piece])) := by
  rw [walkPieces] at h
  by_cases hm : t.get? m = some .directory
  · rw [if_neg (not_not_intro hm)] at h
    refine ⟨hm, ?_⟩
    by_cases hhere : piece = "" ∨ piece = "."
    · rw [if_pos hhere] at h
      exact .inl ⟨hhere, h⟩
    · rw [if_neg hhere] at h
      by_cases hup : piece = ".."
      · rw [if_pos hup] at h
        exact .inr (.inl ⟨hup, h⟩)
      · rw [if_neg hup] at h
        dsimp only at h
        split at h
        · cases h
        · next hslash =>
          split at h
          · cases h
          · next hlength =>
            refine .inr (.inr ⟨⟨hhere, hup, hlength⟩, ?_⟩)
            split at h
            · next hnone =>
              split at h
              · next hlast =>
                cases h
                exact .inr (.inr ⟨hnone, by simpa [hlast] using hslash, rfl⟩)
              · cases h
            · next target hlink =>
              refine .inl ⟨target, hlink, ?_⟩
              simp only [reduceCtorEq, decide_false, Bool.and_false, Bool.false_eq_true,
                if_false] at h
              unfold linkBase
              split at h
              · next habsolute => rwa [if_pos habsolute]
              · next habsolute => rwa [if_neg habsolute]
            · next n hn hnext => exact .inr (.inl ⟨n, hnext, hn, h⟩)
  · rw [if_pos hm] at h
    cases h

theorem takesFile_of_walkPieces (hfollow : ∀ {m ps}, (follow m ps).Place l → t.TakesFile l)
    {ps : List String} (h : (t.walkPieces .file follow m ps).Place l) : t.TakesFile l := by
  induction ps generalizing m with
  | nil =>
    obtain ⟨-, content, hget⟩ := place_of_walkPieces_nil h
    intro n hn
    rw [hget] at hn
    cases hn
    exact ⟨content, rfl⟩
  | cons piece pieces ih =>
    obtain ⟨-, ⟨-, hrest⟩ | ⟨-, hrest⟩ |
      ⟨-, ⟨target, -, hrest⟩ | ⟨n, -, -, hrest⟩ | ⟨hnone, -, rfl⟩⟩⟩ := place_of_walkPieces_cons h
    · exact ih hrest
    · exact ih hrest
    · exact hfollow hrest
    · exact ih hrest
    · intro n hn
      rw [hnone] at hn
      cases hn

/-- After a file has been written at a place, the walk to this place ends at the file. -/
theorem walkPieces_writeAt (hl : t.TakesFile l)
    (hfollow : ∀ {m ps}, (follow m ps).Place l → follow' m ps = .node l (.file content))
    {ps : List String} (h : (t.walkPieces .file follow m ps).Place l) :
    (t.writeAt l content).walkPieces .target follow' m ps = .node l (.file content) := by
  have hself : (t.writeAt l content).get? l = some (.file content) := by
    rw [get?_writeAt hl.ne_nil, if_pos rfl]
  have hother : ∀ k, k ≠ l → (t.writeAt l content).get? k = t.get? k := by
    intro k hk
    rw [get?_writeAt hl.ne_nil, if_neg hk]
  induction ps generalizing m with
  | nil =>
    obtain ⟨rfl, -⟩ := place_of_walkPieces_nil h
    rw [walkPieces, hself]
  | cons piece pieces ih =>
    obtain ⟨hm, hstep⟩ := place_of_walkPieces_cons h
    have hm' : (t.writeAt l content).get? m = some .directory := by
      rw [hother m (fun heq => hl.get?_ne_directory (heq ▸ hm)), hm]
    have hfile : ∀ target, Node.file content ≠ .link target := by
      intro target heq
      cases heq
    rw [walkPieces_cons_eq_node_iff (by decide)]
    refine ⟨hm', ?_⟩
    rcases hstep with ⟨hhere, hrest⟩ | ⟨hup, hrest⟩ |
      ⟨hname, ⟨target, hlink, hrest⟩ | ⟨n, hnext, hn, hrest⟩ | ⟨-, rfl, rfl⟩⟩
    · exact .inl ⟨hhere, ih hrest⟩
    · exact .inr (.inl ⟨hup, ih hrest⟩)
    · have hne : m ++ [piece] ≠ l := fun heq => hl.get?_ne_link target (heq ▸ hlink)
      refine .inr (.inr ⟨hname, unslashed_target, .inl ⟨target, ?_, hfollow hrest⟩⟩)
      rw [hother _ hne, hlink]
    · refine .inr (.inr ⟨hname, unslashed_target, .inr ?_⟩)
      by_cases heq : m ++ [piece] = l
      · exact ⟨.file content, heq ▸ hself, hfile, ih hrest⟩
      · exact ⟨n, (hother _ heq).trans hnext, hn, ih hrest⟩
    · refine .inr (.inr ⟨hname, unslashed_target, .inr ⟨.file content, hself, hfile, ?_⟩⟩)
      rw [walkPieces, hself]

theorem takesFile_of_walk {links : Nat} {ps : List String}
    (h : (t.walk .file links m ps).Place l) : t.TakesFile l := by
  induction links generalizing m ps with
  | zero => exact takesFile_of_walkPieces (by rintro _ _ ⟨⟩) h
  | succ links ih => exact takesFile_of_walkPieces (fun h => ih h) h

theorem walk_writeAt {links : Nat} {ps : List String} (h : (t.walk .file links m ps).Place l) :
    (t.writeAt l content).walk .target links m ps = .node l (.file content) := by
  have hl := takesFile_of_walk h
  induction links generalizing m ps with
  | zero => exact walkPieces_writeAt hl (by rintro _ _ ⟨⟩) h
  | succ links ih => exact walkPieces_writeAt hl (fun h => ih h) h

end Walk

/-- The path at which a file has been written leads to this file. -/
theorem find_writeAt (h : (t.findFor .file p).Place l) :
    (t.writeAt l content).find p = .node l (.file content) := by
  unfold findFor at h
  unfold find findFor
  split_ifs at h ⊢
  · cases h
  · cases h
  · cases h
  · exact walk_writeAt h
  · exact walk_writeAt h

/-- Writing succeeds just where there is a place for a file. -/
theorem exists_place_of_write (h : t.write p content = .ok t') :
    ∃ l, (t.findFor .file p).Place l ∧ t' = t.writeAt l content := by
  unfold write at h
  split at h
  · next l old hfind =>
    cases h
    exact ⟨l, hfind ▸ .file old, rfl⟩
  · cases h
  · next l hfind =>
    cases h
    exact ⟨l, hfind ▸ .missing, rfl⟩
  · cases h

/-- What has been written at a path is read there. -/
theorem read_of_write (h : t.write p content = .ok t') : t'.read p = .ok content := by
  obtain ⟨l, hplace, rfl⟩ := exists_place_of_write h
  exact read_of_find (find_writeAt hplace)

theorem readText_of_write {text : String} (h : t.write p (Utf8.encode text) = .ok t') :
    t'.readText p = .ok text :=
  readText_eq_ok_iff.mpr (read_of_write h)

end NotebookCleaning.FileTree
