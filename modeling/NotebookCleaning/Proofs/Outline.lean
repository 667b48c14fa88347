import Mathlib.Tactic.SplitIfs
import NotebookCleaning.Files.Input
import NotebookCleaning.Proofs.Octets

/-!
# The outline of a file tree

The outline of a file tree is what is left of it if all files are emptied. Where a path leads, and
for which paths a list of arguments stands, depends on the outline only, so it stays the same while
the content of files is replaced. What is read at a path depends on one file besides (`read_congr`).
-/

namespace NotebookCleaning

namespace Node

def outline : Node → Node
  | file _ => file []
  | n => n

theorem outline_eq_directory_iff {n : Node} : n.outline = .directory ↔ n = .directory := by
  cases n <;> simp [outline]

end Node

namespace FileTree

variable {t t' : FileTree} {p : Path} {l m : Location} {n : Node} {purpose : Purpose}
  {content : List UInt8}

def outline (t : FileTree) : FileTree where
  nodes := t.nodes.map fun e => (e.1, e.2.outline)
  current := t.current

def Found.outline : Found → Found
  | .node l n => .node l n.outline
  | found => found

@[simp] theorem Found.outline_node (l : Location) (n : Node) :
    (Found.node l n).outline = .node l n.outline := rfl

@[simp] theorem Found.outline_missing (l : Location) :
    (Found.missing l).outline = .missing l := rfl

@[simp] theorem Found.outline_failed (e : FileError) : (Found.failed e).outline = .failed e := rfl

theorem get?_outline (t : FileTree) (l : Location) :
    t.outline.get? l = (t.get? l).map Node.outline := by
  have hlookup (nodes : List (Location × Node)) :
      (nodes.map fun e => (e.1, e.2.outline)).lookup l = (nodes.lookup l).map Node.outline := by
    induction nodes with
    | nil => rfl
    | cons e nodes ih =>
      rw [List.map_cons, List.lookup_cons, List.lookup_cons, ih]
      split <;> rfl
  cases l with
  | nil => rfl
  | cons name names => exact hlookup t.nodes

theorem get?_outline_eq_directory_iff :
    t.outline.get? l = some .directory ↔ t.get? l = some .directory := by
  rw [get?_outline]
  cases t.get? l <;> simp [Node.outline_eq_directory_iff]

section Walk

theorem walkPieces_outline {follow' : Location → List String → Found}
    (follow : Location → List String → Found) (h : ∀ l ps, follow' l ps = (follow l ps).outline)
    (l : Location) (ps : List String) : t.outline.walkPieces purpose follow' l ps =
      (t.walkPieces purpose follow l ps).outline := by
  induction ps generalizing l with
  | nil =>
    simp only [walkPieces, get?_outline]
    cases t.get? l <;> rfl
  | cons piece pieces ih =>
    rw [walkPieces, walkPieces]
    by_cases hl : t.get? l = some .directory
    · have hl' : t.outline.get? l = some .directory := get?_outline_eq_directory_iff.mpr hl
      rw [if_neg (not_not_intro hl'), if_neg (not_not_intro hl), get?_outline]
      -- The two trees take the same branch, whatever stands under the next name.
      cases t.get? (l ++ [piece]) with
      | none => simp [ih, apply_ite Found.outline]
      | some n => cases n <;> simp [ih, h, apply_ite Found.outline, Node.outline]
    · have hl' : t.outline.get? l ≠ some .directory := mt get?_outline_eq_directory_iff.mp hl
      rw [if_pos hl', if_pos hl]
      rfl

theorem walk_outline (links : Nat) (l : Location) (ps : List String) :
    t.outline.walk purpose links l ps = (t.walk purpose links l ps).outline := by
  induction links generalizing l ps with
  | zero => exact walkPieces_outline (fun _ _ => .failed .tooManyLinks) (fun _ _ => rfl) l ps
  | succ links ih => exact walkPieces_outline _ ih l ps

end Walk

theorem findFor_outline (t : FileTree) (purpose : Purpose) (p : Path) :
    t.outline.findFor purpose p = (t.findFor purpose p).outline := by
  have hcurrent : t.outline.current = t.current := rfl
  unfold findFor
  rw [walk_outline, hcurrent]
  split_ifs <;> rfl

theorem find_outline (t : FileTree) (p : Path) : t.outline.find p = (t.find p).outline :=
  findFor_outline t .target p

theorem isDirectory_outline (t : FileTree) (p : Path) :
    t.outline.isDirectory p = t.isDirectory p := by
  unfold isDirectory
  rw [find_outline]
  cases t.find p with
  | node l n => cases n <;> rfl
  | _ => rfl

theorem notebooksBelow_outline (t : FileTree) (l : Location) :
    t.outline.notebooksBelow l = t.notebooksBelow l := by
  unfold notebooksBelow outline
  rw [List.filterMap_map]
  congr 1
  funext e
  obtain ⟨m, n⟩ := e
  cases n <;> cases hbelow : below? l m <;> simp [Node.outline, hbelow]

theorem notebooksUnder_outline (t : FileTree) (p : Path) :
    t.outline.notebooksUnder p = t.notebooksUnder p := by
  unfold notebooksUnder
  rw [find_outline]
  cases t.find p with
  | node l n =>
    cases n with
    | directory => simp only [Found.outline_node, Node.outline, notebooksBelow_outline]
    | _ => rfl
  | _ => rfl

theorem resolve_outline (t : FileTree) (ps : List Path) : t.outline.resolve ps = t.resolve ps := by
  have hexpand : t.outline.expand = t.expand := by
    funext p
    rw [expand, expand, isDirectory_outline, notebooksUnder_outline]
  rw [resolve, resolve, hexpand]

/-- For which paths arguments stand depends on the outline only. -/
theorem resolve_eq_of_outline_eq (h : t'.outline = t.outline) (ps : List Path) :
    t'.resolve ps = t.resolve ps := by
  rw [← resolve_outline, h, resolve_outline]

section Found

variable {follow follow' : Location → List String → Found} {piece : String} {pieces : List String}

/-- A piece that is looked up in the directory to which a walk has come. -/
def IsName (piece : String) : Prop :=
  ¬(piece = "" ∨ piece = ".") ∧ piece ≠ ".." ∧ ¬piece.utf8ByteSize > maxNameLength

theorem IsName.ne_empty (h : IsName piece) : piece ≠ "" := fun hempty => h.1 (.inl hempty)

/-- Where the target of a link begins. -/
def linkBase (l : Location) (target : Path) : Location :=
  if target.text.toList.head? = some '/' then [] else l

/-- No slash comes behind the name of a file that is to be written. -/
def Unslashed (purpose : Purpose) (pieces : List String) : Prop :=
  purpose = .file → pieces.all (fun piece => piece = "") → pieces = []

theorem unslashed_iff : Unslashed purpose pieces ↔
    (decide (purpose = .file) && pieces.all (fun piece => piece = "") && !pieces.isEmpty) =
      false := by
  cases pieces <;> simp [Unslashed]

theorem unslashed_target : Unslashed .target pieces := by
  intro hfile
  cases hfile

/-- A walk that follows every link ends at a node just if it makes one of these steps and the rest
of it ends there. -/
theorem walkPieces_cons_eq_node_iff (hpurpose : purpose ≠ .entry) :
    t.walkPieces purpose follow l (piece :: pieces) = .node m n ↔ t.get? l = some .directory ∧
      ((piece = "" ∨ piece = ".") ∧ t.walkPieces purpose follow l pieces = .node m n ∨
        piece = ".." ∧ t.walkPieces purpose follow l.dropLast pieces = .node m n ∨
        IsName piece ∧ Unslashed purpose pieces ∧
          ((∃ target, t.get? (l ++ [piece]) = some (.link target) ∧
              follow (linkBase l target) (target.pieces ++ pieces) = .node m n) ∨
            ∃ n', t.get? (l ++ [piece]) = some n' ∧ (∀ target, n' ≠ .link target) ∧
              t.walkPieces purpose follow (l ++ [piece]) pieces = .node m n)) := by
  rw [walkPieces]
  by_cases hl : t.get? l = some .directory
  · rw [if_neg (not_not_intro hl)]
    by_cases hhere : piece = "" ∨ piece = "."
    · have hup : piece ≠ ".." := by rcases hhere with rfl | rfl <;> decide
      simp [hl, hhere, hup, IsName]
    · rw [if_neg hhere]
      by_cases hup : piece = ".."
      · simp [hl, hup, IsName]
      · rw [if_neg hup]
        by_cases hslash : Unslashed purpose pieces
        · by_cases hlength : piece.utf8ByteSize > maxNameLength
          · simp [unslashed_iff.mp hslash, hlength, hhere, hup, IsName]
          · have hname : IsName piece := ⟨hhere, hup, hlength⟩
            simp only [unslashed_iff.mp hslash, hpurpose, hl, hhere, hup, hname, hslash]
            cases hnext : t.get? (l ++ [piece]) with
            | none => cases pieces.all (fun piece => piece = "") <;> simp [hlength]
            | some n' =>
              cases n' with
              | link target =>
                by_cases habsolute : target.text.toList.head? = some '/' <;>
                  simp [hlength, linkBase, habsolute]
              | _ => simp [hlength]
        · have hfailed := Bool.not_eq_false _ ▸ mt unslashed_iff.mpr hslash
          simp [hfailed, hslash, hhere, hup]
  · simp [hl]

theorem get?_of_walkPieces
    (hfollow : ∀ {l ps}, follow l ps = .node m n → t.get? m = some n) {ps : List String}
    (h : t.walkPieces .target follow l ps = .node m n) : t.get? m = some n := by
  induction ps generalizing l with
  | nil =>
    rw [walkPieces] at h
    split at h <;> cases h
    assumption
  | cons piece pieces ih =>
    obtain ⟨-, ⟨-, hrest⟩ | ⟨-, hrest⟩ | ⟨-, -, ⟨target, -, hrest⟩ | ⟨n', -, -, hrest⟩⟩⟩ :=
      (walkPieces_cons_eq_node_iff (by decide)).mp h
    · exact ih hrest
    · exact ih hrest
    · exact hfollow hrest
    · exact ih hrest

theorem get?_of_walk {links : Nat} {ps : List String}
    (h : t.walk .target links l ps = .node m n) : t.get? m = some n := by
  induction links generalizing l ps m n with
  | zero => exact get?_of_walkPieces (by simp) h
  | succ links ih => exact get?_of_walkPieces (fun h => ih h) h

/-- What a path leads to is there. -/
theorem get?_of_find (h : t.find p = .node l n) : t.get? l = some n := by
  unfold find findFor at h
  split_ifs at h
  · exact get?_of_walk h
  · exact get?_of_walk h

theorem getLast?_cons_ne (hpieces : pieces.getLast? ≠ some "") (hpiece : piece ≠ "" ∨ pieces ≠ []) :
    (piece :: pieces).getLast? ≠ some "" := by
  cases pieces with
  | nil => simpa using hpiece
  | cons q qs => rwa [List.getLast?_cons_cons]

theorem unslashed_of_getLast? (h : pieces.getLast? ≠ some "") : Unslashed purpose pieces := by
  intro _ hall
  cases hlast : pieces.getLast? with
  | none => exact List.getLast?_eq_none_iff.mp hlast
  | some piece =>
    have hpiece := List.all_eq_true.mp hall piece (List.mem_of_getLast? hlast)
    simp only [decide_eq_true_eq] at hpiece
    exact absurd (hpiece ▸ hlast) h

/-- A walk that ends at a file has no slash behind the last name, so it goes the same way if it is
made for writing the file. -/
theorem walkPieces_file_of_target
    (hfollow : ∀ {l ps}, follow l ps = .node m (.file content) →
      ps.getLast? ≠ some "" ∧ follow' l ps = .node m (.file content))
    {ps : List String} (h : t.walkPieces .target follow l ps = .node m (.file content)) :
    ps.getLast? ≠ some "" ∧ t.walkPieces .file follow' l ps = .node m (.file content) := by
  induction ps generalizing l with
  | nil => exact ⟨nofun, h⟩
  | cons piece pieces ih =>
    obtain ⟨hl, hstep⟩ := (walkPieces_cons_eq_node_iff (by decide)).mp h
    rw [walkPieces_cons_eq_node_iff (by decide)]
    rcases hstep with ⟨hhere, hrest⟩ | ⟨rfl, hrest⟩ |
      ⟨hname, -, ⟨target, hlink, hrest⟩ | ⟨n', hnext, hn', hrest⟩⟩
    · obtain ⟨hlast, hwalk⟩ := ih hrest
      refine ⟨getLast?_cons_ne hlast (.inr ?_), hl, .inl ⟨hhere, hwalk⟩⟩
      rintro rfl
      simp [walkPieces, hl] at hrest
    · obtain ⟨hlast, hwalk⟩ := ih hrest
      exact ⟨getLast?_cons_ne hlast (.inl (by decide)), hl, .inr (.inl ⟨rfl, hwalk⟩)⟩
    · obtain ⟨htarget, hwalk⟩ := hfollow hrest
      have hlast : pieces.getLast? ≠ some "" :=
        fun hempty => htarget (by rw [List.getLast?_append, hempty, Option.some_or])
      exact ⟨getLast?_cons_ne hlast (.inl hname.ne_empty), hl,
        .inr (.inr ⟨hname, unslashed_of_getLast? hlast, .inl ⟨target, hlink, hwalk⟩⟩)⟩
    · obtain ⟨hlast, hwalk⟩ := ih hrest
      exact ⟨getLast?_cons_ne hlast (.inl hname.ne_empty), hl,
        .inr (.inr ⟨hname, unslashed_of_getLast? hlast, .inr ⟨n', hnext, hn', hwalk⟩⟩)⟩

theorem walk_file_of_target {links : Nat} {ps : List String}
    (h : t.walk .target links l ps = .node m (.file content)) :
    ps.getLast? ≠ some "" ∧ t.walk .file links l ps = .node m (.file content) := by
  induction links generalizing l ps with
  | zero => exact walkPieces_file_of_target (by simp) h
  | succ links ih => exact walkPieces_file_of_target (fun h => ih h) h

/-- A file that a path leads to is written at this path. -/
theorem findFor_file_of_find (h : t.find p = .node l (.file content)) :
    t.findFor .file p = .node l (.file content) := by
  unfold find findFor at h
  unfold findFor
  split_ifs at h ⊢
  · exact (walk_file_of_target h).2
  · exact (walk_file_of_target h).2

end Found

section Files

/-- The location of the file that a path leads to. -/
def file? (t : FileTree) (p : Path) : Option Location :=
  match t.find p with
  | .node l (.file _) => some l
  | _ => none

theorem file?_eq_some_iff :
    t.file? p = some l ↔ ∃ content, t.find p = .node l (.file content) := by
  unfold file?
  split
  · next m content hfind => simp [hfind]
  · next hfind =>
    simp only [reduceCtorEq, false_iff, not_exists]
    exact hfind l

theorem file?_outline (t : FileTree) (p : Path) : t.outline.file? p = t.file? p := by
  unfold file?
  rw [find_outline]
  cases t.find p with
  | node l n => cases n <;> rfl
  | _ => rfl

theorem file?_eq_of_outline_eq (h : t'.outline = t.outline) (p : Path) :
    t'.file? p = t.file? p := by
  rw [← file?_outline, h, file?_outline]

theorem find_of_get? (hfile : t.file? p = some l) (hget : t.get? l = some (.file content)) :
    t.find p = .node l (.file content) := by
  obtain ⟨content', hfind⟩ := file?_eq_some_iff.mp hfile
  have hget' := get?_of_find hfind
  rw [hget] at hget'
  cases hget'
  exact hfind

theorem read_of_find (h : t.find p = .node l (.file content)) : t.read p = .ok content := by
  rw [read, h]

theorem read_of_get? (hfile : t.file? p = some l) (hget : t.get? l = some (.file content)) :
    t.read p = .ok content :=
  read_of_find (find_of_get? hfile hget)

theorem find_of_read (h : t.read p = .ok content) : ∃ l, t.find p = .node l (.file content) := by
  unfold read at h
  split at h <;> cases h
  exact ⟨_, by assumption⟩

/-- What is read at a path is the same in trees of one outline in which the file that the path leads
to is the same. -/
theorem read_congr (h : t'.outline = t.outline)
    (hfile : ∀ l, t.file? p = some l → t'.get? l = t.get? l) : t'.read p = t.read p := by
  cases hp : t.file? p with
  | some l =>
    obtain ⟨content, hfind⟩ := file?_eq_some_iff.mp hp
    have hget := get?_of_find hfind
    have hp' : t'.file? p = some l := by rw [file?_eq_of_outline_eq h, hp]
    rw [read_of_get? hp hget, read_of_get? hp' ((hfile l hp).trans hget)]
  | none =>
    -- Without a file at the path, the outline alone decides which error there is.
    have hnone {t : FileTree} (hp : t.file? p = none) :
        t.read p = t.outline.read p := by
      unfold read
      rw [find_outline]
      cases hfind : t.find p with
      | node l n =>
        cases n with
        | file content => simp [file?, hfind] at hp
        | _ => rfl
      | _ => rfl
    rw [hnone hp, hnone (by rw [file?_eq_of_outline_eq h, hp]), h]

theorem readText_eq_ok_iff {text : String} :
    t.readText p = .ok text ↔ t.read p = .ok (Utf8.encode text) := by
  unfold readText
  cases t.read p with
  | error e => simp
  | ok content =>
    rw [Except.ok.injEq, ← Utf8.decode?_eq_some_iff]
    dsimp only
    cases Utf8.decode? content <;> simp

end Files

section Writing

variable {content' : List UInt8}

theorem lookup_cons (k m : Location) (n : Node) (nodes : List (Location × Node)) :
    ((k, n) :: nodes).lookup m = if m = k then some n else nodes.lookup m := by
  by_cases h : m = k
  · simp [h]
  · simp [List.lookup_cons, beq_eq_false_iff_ne.mpr h, h]

theorem lookup_putNode (l m : Location) (n : Node) (nodes : List (Location × Node)) :
    (putNode l n nodes).lookup m = if m = l then some n else nodes.lookup m := by
  induction nodes with
  | nil => rw [putNode, lookup_cons]
  | cons e nodes ih =>
    obtain ⟨k, n'⟩ := e
    rw [putNode]
    by_cases hk : k = l
    · subst hk
      rw [if_pos rfl, lookup_cons, lookup_cons]
      split <;> rfl
    · rw [if_neg hk, lookup_cons, lookup_cons, ih]
      by_cases h : m = k
      · subst h
        rw [if_pos rfl, if_neg hk, if_pos rfl]
      · rw [if_neg h, if_neg h]

theorem outline_putNode {nodes : List (Location × Node)}
    (h : nodes.lookup l = some (.file content)) :
    (putNode l (.file content') nodes).map (fun e => (e.1, e.2.outline)) =
      nodes.map fun e => (e.1, e.2.outline) := by
  induction nodes with
  | nil => cases h
  | cons e nodes ih =>
    obtain ⟨k, n⟩ := e
    rw [lookup_cons] at h
    rw [putNode]
    by_cases hk : k = l
    · subst hk
      rw [if_pos rfl, Option.some.injEq] at h
      subst h
      rw [if_pos rfl]
      rfl
    · rw [if_neg (Ne.symm hk)] at h
      rw [if_neg hk, List.map_cons, List.map_cons, ih h]

theorem ne_nil_of_get? (h : t.get? l = some (.file content)) : l ≠ [] := by
  rintro rfl
  cases h

theorem outline_writeAt (h : t.get? l = some (.file content)) :
    (t.writeAt l content').outline = t.outline := by
  have hlookup : t.nodes.lookup l = some (.file content) := by
    rw [← h]
    cases l with
    | nil => exact absurd rfl (ne_nil_of_get? h)
    | cons name names => rfl
  simp only [outline, writeAt, put, outline_putNode hlookup]

theorem get?_writeAt (hl : l ≠ []) (m : Location) :
    (t.writeAt l content').get? m = if m = l then some (.file content') else t.get? m := by
  cases m with
  | nil => rw [if_neg (Ne.symm hl)]; rfl
  | cons name names => exact lookup_putNode l _ _ t.nodes

/-- The second tree is the first one with another content of one of its files. -/
structure Replaced (t t' : FileTree) (l : Location) (content : List UInt8) : Prop where
  outline : t'.outline = t.outline
  get?_self : t'.get? l = some (.file content)
  get?_of_ne : ∀ m, m ≠ l → t'.get? m = t.get? m

theorem Replaced.refl (h : t.get? l = some (.file content)) : t.Replaced t l content :=
  ⟨rfl, h, fun _ _ => rfl⟩

theorem replaced_writeAt (h : t.get? l = some (.file content)) :
    t.Replaced (t.writeAt l content') l content' where
  outline := outline_writeAt h
  get?_self := by rw [get?_writeAt (ne_nil_of_get? h), if_pos rfl]
  get?_of_ne m hm := by rw [get?_writeAt (ne_nil_of_get? h), if_neg hm]

/-- Writing at a path that leads to a file replaces the content of that file. -/
theorem write_of_find (h : t.find p = .node l (.file content)) :
    t.write p content' = .ok (t.writeAt l content') := by
  rw [write, findFor_file_of_find h]

end Writing

end FileTree

end NotebookCleaning
