import NotebookCleaning.Proofs.CleanedFiles
import NotebookCleaning.Proofs.HoldingDirectory
import NotebookCleaning.Proofs.PathOrder

/-!
# The paths that arguments stand for

Putting names behind a path puts them behind its components (`Path.components_join`), and the
notebooks below a directory are the files to which names lead from there and whose own name has the
extension of notebooks (`mem_notebooksUnder`). So the paths that arguments stand for are known up to
their spelling, and so is their order (`resolve_exact`). A directory behind a path that is too long
cannot be opened, and what is in it is left out: `windingPath` spells a directory in a way that
hides a notebook.
-/

namespace NotebookCleaning

/-- What stands behind the last dot of a name, unless nothing stands before this dot. -/
def extension? (name : String) : Option String :=
  let reversed := name.toList.reverse
  let stem := (reversed.dropWhile (· ≠ '.')).drop 1
  if stem = [] then none else some (String.ofList (reversed.takeWhile (· ≠ '.')).reverse)

theorem isNotebookName_iff {name : String} :
    isNotebookName name = true ↔ ∃ stem ≠ [], name.toList = stem ++ ".ipynb".toList := by
  rw [isNotebookName, Bool.and_eq_true, List.isSuffixOf_iff_suffix, decide_eq_true_eq]
  constructor
  · rintro ⟨⟨stem, hstem⟩, hlength⟩
    refine ⟨stem, ?_, hstem.symm⟩
    rintro rfl
    rw [← hstem] at hlength
    exact absurd hlength (by decide)
  · rintro ⟨stem, hstem, hname⟩
    refine ⟨⟨stem, hname.symm⟩, ?_⟩
    have hpos := List.length_pos_iff.mpr hstem
    have hlength : ".ipynb".toList.length = 6 := by decide
    rw [hname, List.length_append, hlength]
    omega

/-- The extension of notebooks has no dot in it, so a name has it as soon as it ends in it. -/
theorem extension?_eq_ipynb_iff {name : String} :
    extension? name = some "ipynb" ↔ isNotebookName name = true := by
  rw [isNotebookName_iff, extension?]
  constructor
  · intro h
    split at h
    · cases h
    next hstem =>
    have hcut := List.takeWhile_append_dropWhile (p := (· ≠ '.')) (l := name.toList.reverse)
    have hext : (name.toList.reverse.takeWhile (· ≠ '.')).reverse = "ipynb".toList := by
      rw [← Option.some.inj h, String.toList_ofList]
    cases hdrop : name.toList.reverse.dropWhile (· ≠ '.') with
    | nil => exact absurd (by rw [hdrop, List.drop_nil]) hstem
    | cons c stem =>
      have hc : c = '.' := by
        have hhead := List.head?_dropWhile_not (· ≠ '.') name.toList.reverse
        rw [hdrop] at hhead
        simpa using hhead
      rw [hdrop, List.drop_one, List.tail_cons] at hstem
      refine ⟨stem.reverse, mt List.reverse_eq_nil_iff.mp hstem, ?_⟩
      rw [hdrop, hc] at hcut
      rw [← List.reverse_reverse name.toList, ← hcut, List.reverse_append, hext]
      simp
  · rintro ⟨stem, hstem, hname⟩
    simp [hname, hstem]
namespace Path

variable {p : Path} {s : String} {ss names : List String}

/-- A name that an entry of a directory can have. -/
def IsEntryName (name : String) : Prop :=
  '/' ∉ name.toList ∧ component? name = some (.name name)

instance (name : String) : Decidable (IsEntryName name) := inferInstanceAs (Decidable (_ ∧ _))

theorem filterMap_component? (h : ∀ name ∈ names, IsEntryName name) :
    names.filterMap component? = names.map .name := by
  induction names with
  | nil => rfl
  | cons name names ih =>
    obtain ⟨⟨-, hname⟩, hnames⟩ := List.forall_mem_cons.mp h
    rw [List.filterMap_cons_some hname, ih hnames, List.map_cons]

theorem components_of_pieces (h : p.pieces = s :: ss) (hp : p.text ≠ "") :
    p.components = (first? s).toList ++ ss.filterMap component? := by
  rw [components, h]
  split
  · cases ‹s :: ss = []›
  · next heq =>
    have htext := intercalate_pieces p
    rw [h, heq] at htext
    exact absurd htext.symm hp
  · next heq =>
    cases heq
    rfl

theorem toList_intercalate (names : List String) :
    ("/".intercalate names).toList = Line.join '/' (names.map String.toList) := by
  have h := intercalate_ofList '/' (names.map String.toList)
  have hnames : (names.map String.toList).map String.ofList = names := by simp
  rw [hnames] at h
  exact (congrArg String.toList h).trans String.toList_ofList

/-- The pieces of a path that ends in a slash and names. -/
theorem pieces_of_toList {text : List Char} (hnames : names ≠ [])
    (h : ∀ name ∈ names, IsEntryName name)
    (hp : p.text.toList = text ++ '/' :: ("/".intercalate names).toList) :
    p.pieces = (Line.split '/' text).map String.ofList ++ names := by
  have hslash : ∀ piece ∈ names.map String.toList, '/' ∉ piece := by
    intro piece hpiece
    obtain ⟨name, hname, rfl⟩ := List.mem_map.mp hpiece
    exact (h name hname).1
  rw [pieces, hp, toList_intercalate, Line.split_append_cons,
    Line.split_join (mt List.map_eq_nil_iff.mp hnames) hslash, List.map_append]
  simp

/-- Names that are put behind a path are put behind its components. -/
theorem components_join (hp : p.text ≠ "") (hnames : names ≠ [])
    (h : ∀ name ∈ names, IsEntryName name) :
    (p.join ("/".intercalate names)).components = p.components ++ names.map .name := by
  have hjoined : (p.join ("/".intercalate names)).text ≠ "" := by
    rw [join]
    split <;> simp [hp]
  by_cases hlast : p.text.toList.getLast? = some '/'
  · obtain ⟨text, htext⟩ := List.getLast?_eq_some_iff.mp hlast
    have hpieces : (p.join ("/".intercalate names)).pieces =
        (Line.split '/' text).map String.ofList ++ names := by
      refine pieces_of_toList hnames h ?_
      rw [join, if_pos (.inr hlast), String.toList_append, htext, List.append_assoc]
      rfl
    have hslash : p.pieces = (Line.split '/' text).map String.ofList ++ [""] := by
      rw [pieces, htext, Line.split_append_cons, List.map_append]
      rfl
    obtain ⟨s, ss, hs⟩ := List.exists_cons_of_ne_nil (Line.split_ne_nil '/' text)
    rw [hs, List.map_cons, List.cons_append] at hpieces hslash
    rw [components_of_pieces hpieces hjoined, components_of_pieces hslash hp,
      List.filterMap_append, List.filterMap_append, filterMap_component? h]
    simp [component?]
  · have hpieces : (p.join ("/".intercalate names)).pieces = p.pieces ++ names := by
      refine pieces_of_toList hnames h ?_
      rw [text_join hp hlast, String.toList_append, String.toList_append]
      rfl
    obtain ⟨s, ss, hs⟩ : ∃ s ss, p.pieces = s :: ss :=
      List.exists_cons_of_ne_nil (mt List.map_eq_nil_iff.mp (Line.split_ne_nil '/' _))
    rw [components_of_pieces hs hp]
    rw [hs, List.cons_append] at hpieces
    rw [components_of_pieces hpieces hjoined, List.filterMap_append, filterMap_component? h,
      List.append_assoc]

end Path

namespace FileTree

variable {t : FileTree} {l : Location} {n : Node} {d p : Path} {ps qs : List Path}
  {names : List String} {name : String} {cs : List Path.Component}

/-- Each entry has a location of its own, made of names that entries can have. -/
structure WellFormed (t : FileTree) : Prop where
  distinct : (t.nodes.map Prod.fst).Nodup
  named : ∀ e ∈ t.nodes, ∀ name ∈ e.1, Path.IsEntryName name

instance (t : FileTree) : Decidable t.WellFormed :=
  decidable_of_iff (_ ∧ _) ⟨fun h => ⟨h.1, h.2⟩, fun h => ⟨h.distinct, h.named⟩⟩

theorem lookup_eq_some_iff {nodes : List (Location × Node)} (h : (nodes.map Prod.fst).Nodup) :
    nodes.lookup l = some n ↔ (l, n) ∈ nodes := by
  induction nodes with
  | nil => simp
  | cons e nodes ih =>
    obtain ⟨k, n'⟩ := e
    obtain ⟨hk, hnodes⟩ := List.nodup_cons.mp h
    rw [lookup_cons, List.mem_cons, Prod.mk.injEq]
    split
    · next heq =>
      subst heq
      have hl : (l, n) ∉ nodes := fun hmem => hk (List.mem_map.mpr ⟨_, hmem, rfl⟩)
      simp [hl, eq_comm]
    · next hne => simp [ih hnodes, hne]

theorem WellFormed.get?_eq_some_iff (ht : t.WellFormed) (hl : l ≠ []) :
    t.get? l = some n ↔ (l, n) ∈ t.nodes := by
  rw [← lookup_eq_some_iff ht.distinct]
  cases l with
  | nil => exact absurd rfl hl
  | cons name names => rfl

theorem below?_eq_some_iff {m : Location} :
    below? l m = some names ↔ names ≠ [] ∧ m = l ++ names := by
  constructor
  · intro h
    rw [below?] at h
    split at h
    · next hbelow =>
      rw [Bool.and_eq_true, List.isPrefixOf_iff_prefix, decide_eq_true_eq] at hbelow
      obtain ⟨⟨rest, rfl⟩, hlength⟩ := hbelow
      rw [List.drop_left, Option.some.injEq] at h
      subst h
      refine ⟨?_, rfl⟩
      rintro rfl
      simp at hlength
    · cases h
  · rintro ⟨hnames, rfl⟩
    have hlength := List.length_pos_iff.mpr hnames
    have hbelow : (l.isPrefixOf (l ++ names) && decide (l.length < (l ++ names).length)) =
        true := by
      rw [Bool.and_eq_true, List.isPrefixOf_iff_prefix, decide_eq_true_eq, List.length_append]
      exact ⟨List.prefix_append l names, by omega⟩
    rw [below?, if_pos hbelow, List.drop_left]

/-- A file with the extension of notebooks to which names lead from a directory: those of the
directories on the way and its own. -/
structure NotebookBelow (t : FileTree) (l : Location) (dirs : List String) (name : String) :
    Prop where
  file : ∃ content, t.get? (l ++ (dirs ++ [name])) = some (.file content)
  extension : extension? name = some "ipynb"

theorem mem_notebooksBelow (ht : t.WellFormed) :
    names ∈ t.notebooksBelow l ↔
      ∃ dirs name, names = dirs ++ [name] ∧ t.NotebookBelow l dirs name := by
  rw [notebooksBelow, List.mem_filterMap]
  constructor
  · rintro ⟨⟨m, content | _ | _⟩, hmem, hentry⟩
    · cases hbelow : below? l m with
      | none => simp [hbelow] at hentry
      | some names' =>
        obtain ⟨hnames, rfl⟩ := below?_eq_some_iff.mp hbelow
        obtain ⟨dirs, name, rfl⟩ : ∃ dirs name, names' = dirs ++ [name] :=
          ⟨_, _, (List.dropLast_concat_getLast hnames).symm⟩
        simp only [hbelow, List.getLast?_concat, Option.getD_some, Option.ite_none_right_eq_some,
          Option.some.injEq] at hentry
        obtain ⟨hname, rfl⟩ := hentry
        exact ⟨dirs, name, rfl, ⟨content, (ht.get?_eq_some_iff (by simp)).mpr hmem⟩,
          extension?_eq_ipynb_iff.mpr hname⟩
    · cases hentry
    · cases hentry
  · rintro ⟨dirs, name, rfl, ⟨content, hfile⟩, hextension⟩
    refine ⟨(l ++ (dirs ++ [name]), .file content), (ht.get?_eq_some_iff (by simp)).mp hfile, ?_⟩
    have hbelow : below? l (l ++ (dirs ++ [name])) = some (dirs ++ [name]) :=
      below?_eq_some_iff.mpr ⟨by simp, rfl⟩
    simp [hbelow, extension?_eq_ipynb_iff.mp hextension]

/-- The names that lead to a file of a tree are names of entries. -/
theorem NotebookBelow.named {dirs : List String} (h : t.NotebookBelow l dirs name)
    (ht : t.WellFormed) : ∀ piece ∈ dirs ++ [name], Path.IsEntryName piece := by
  obtain ⟨content, hfile⟩ := h.file
  have hmem := (ht.get?_eq_some_iff (by simp)).mp hfile
  exact fun piece hpiece => ht.named _ hmem piece (List.mem_append_right l hpiece)

theorem components_joinNames (hd : d.text ≠ "") (h : ∀ name ∈ names, Path.IsEntryName name) :
    (joinNames d names).components = d.components ++ names.map .name := by
  rw [joinNames]
  split
  · next hnil => simp [List.isEmpty_iff.mp hnil]
  · next hcons => exact Path.components_join hd (by simpa using hcons) h

theorem mem_notebooksUnder (ht : t.WellFormed) : cs ∈ (t.notebooksUnder d).map Path.components ↔
    ∃ l dirs name, t.find d = .node l .directory ∧ t.NotebookBelow l dirs name ∧
      isTooLong (joinNames d dirs) = false ∧
      cs = d.components ++ (dirs ++ [name]).map .name := by
  have hcomponents {l : Location} {dirs : List String} {name : String}
      (hfind : t.find d = .node l .directory) (h : t.NotebookBelow l dirs name) :
      (joinNames d (dirs ++ [name])).components = d.components ++ (dirs ++ [name]).map .name :=
    components_joinNames (findFor_eq_node_iff.mp hfind).1.ne_empty (h.named ht)
  rw [List.mem_map]
  constructor
  · rintro ⟨p, hp, rfl⟩
    rw [notebooksUnder] at hp
    split at hp
    · next l hfind =>
      obtain ⟨names, hnames, rfl⟩ := List.mem_map.mp hp
      obtain ⟨hmem, hshort⟩ := List.mem_filter.mp hnames
      obtain ⟨dirs, name, rfl, hbelow⟩ := (mem_notebooksBelow ht).mp hmem
      rw [List.dropLast_concat] at hshort
      exact ⟨l, dirs, name, hfind, hbelow, by simpa using hshort, hcomponents hfind hbelow⟩
    · cases hp
  · rintro ⟨l, dirs, name, hfind, hbelow, hshort, rfl⟩
    refine ⟨joinNames d (dirs ++ [name]), ?_, hcomponents hfind hbelow⟩
    rw [notebooksUnder, hfind]
    refine List.mem_map_of_mem (List.mem_filter.mpr ⟨?_, ?_⟩)
    · exact (mem_notebooksBelow ht).mpr ⟨dirs, name, rfl, hbelow⟩
    · rw [List.dropLast_concat, hshort]
      rfl

theorem mem_expand (ht : t.WellFormed) : cs ∈ (t.expand p).map Path.components ↔
    t.isDirectory p = false ∧ p.components = cs ∨
      ∃ l dirs name, t.find p = .node l .directory ∧ t.NotebookBelow l dirs name ∧
        isTooLong (joinNames p dirs) = false ∧
        cs = p.components ++ (dirs ++ [name]).map .name := by
  rw [expand]
  cases hdirectory : t.isDirectory p with
  | true => simp [mem_notebooksUnder ht]
  | false =>
    -- What is no directory has no notebooks below it.
    have hfind (l : Location) : t.find p ≠ .node l .directory := by
      intro hfind
      rw [isDirectory_iff.mpr ⟨l, hfind⟩] at hdirectory
      cases hdirectory
    simp [hfind, eq_comm (a := cs)]

theorem mem_resolve :
    cs ∈ (t.resolve ps).map Path.components ↔ ∃ p ∈ ps, cs ∈ (t.expand p).map Path.components := by
  rw [resolve, Path.mem_ascending, List.map_flatMap, List.mem_flatMap]

theorem mem_resolve_cons : cs ∈ (t.resolve (p :: ps)).map Path.components ↔
    cs ∈ (t.resolve [p]).map Path.components ∨ cs ∈ (t.resolve ps).map Path.components := by
  simp only [mem_resolve, List.exists_mem_cons_iff, List.not_mem_nil, false_and, exists_false,
    or_false]

theorem exists_order_eq_iff : (∃ r ∈ t.resolve ps, r.order p = .eq) ↔
    p.components ∈ (t.resolve ps).map Path.components := by
  simp only [Path.order_eq_eq_iff, List.mem_map]

theorem map_components_resolve (h : ∀ cs, cs ∈ (t.resolve ps).map Path.components ↔
      cs ∈ (t.resolve qs).map Path.components) :
    (t.resolve ps).map Path.components = (t.resolve qs).map Path.components := by
  simp only [resolve, Path.mem_ascending] at h
  exact Path.map_components_ascending h

/-- The paths that arguments stand for are in ascending order, and up to their spelling they are the
arguments that are no directories and the notebooks below those that are. A notebook is left out if
the path to its directory is too long to be opened. Neither the order nor the repetition of the
arguments matters, nor does an argument that adds nothing to what the others stand for. -/
theorem resolve_exact (ht : t.WellFormed) (hps : ps ≠ []) :
    t.inputs ps = (t.resolve ps).map .file ∧
      ((t.resolve ps).Pairwise fun p q => p.order q = .lt) ∧
      (∀ p : Path, (∃ r ∈ t.resolve ps, r.order p = .eq) ↔
        (∃ q ∈ ps, t.isDirectory q = false ∧ q.order p = .eq) ∨
          ∃ d ∈ ps, ∃ l dirs name, t.find d = .node l .directory ∧ t.NotebookBelow l dirs name ∧
            isTooLong (joinNames d dirs) = false ∧
            p.components = d.components ++ (dirs ++ [name]).map .name) ∧
      (∀ qs : List Path, (∀ p, p ∈ qs ↔ p ∈ ps) →
        (t.resolve qs).map Path.components = (t.resolve ps).map Path.components) ∧
      ∀ q : Path, (∀ r ∈ t.resolve [q], ∃ r' ∈ t.resolve ps, r'.order r = .eq) →
        (t.resolve (q :: ps)).map Path.components = (t.resolve ps).map Path.components := by
  refine ⟨Command.inputs_eq_map hps t, ?_, fun p => ?_, fun qs hqs => ?_, fun q hq => ?_⟩
  · exact List.pairwise_map.mp (Path.pairwise_ascending (ps.flatMap t.expand))
  · rw [exists_order_eq_iff, mem_resolve]
    simp only [mem_expand ht, and_or_left, exists_or, Path.order_eq_eq_iff]
  · exact map_components_resolve fun cs => by simp only [mem_resolve, hqs]
  · refine map_components_resolve fun cs => ?_
    rw [mem_resolve_cons, or_iff_right_iff_imp, List.mem_map]
    rintro ⟨r, hr, rfl⟩
    exact exists_order_eq_iff.mp (hq r hr)

/-- Notebooks at several depths, with files among them that are none. -/
def library : FileTree where
  nodes := [(["books"], .directory), (["books", "a.ipynb"], .file []),
    (["books", ".ipynb"], .file []), (["books", "notes.txt"], .file []),
    (["books", "old"], .directory), (["books", "old", "b.ipynb"], .file []),
    (["c.ipynb"], .file [])]
  current := []

/-- Overlapping directories, a notebook below one of them and a missing file. -/
def libraryPaths : List Path :=
  [⟨"books/old"⟩, ⟨"gone.ipynb"⟩, ⟨"books//"⟩, ⟨"c.ipynb"⟩, ⟨"books/./a.ipynb"⟩]

example : (library.resolve libraryPaths).map Path.text =
    ["books//a.ipynb", "books/old/b.ipynb", "c.ipynb", "gone.ipynb"] := by decide +kernel

theorem resolve_exact_library :
    library.WellFormed ∧ libraryPaths ≠ [] ∧
      (∃ r ∈ library.resolve libraryPaths, r.order ⟨"books/old/b.ipynb"⟩ = .eq) ∧
      (library.resolve (libraryPaths.reverse ++ libraryPaths)).map Path.components =
        (library.resolve libraryPaths).map Path.components ∧
      (library.resolve (⟨"books"⟩ :: libraryPaths)).map Path.components =
        (library.resolve libraryPaths).map Path.components := by
  have ht : library.WellFormed := by decide
  have hps : libraryPaths ≠ [] := by decide
  obtain ⟨-, -, hmem, hsame, hcovered⟩ := resolve_exact ht hps
  refine ⟨ht, hps, ?_, hsame _ fun p => ?_, hcovered ⟨"books"⟩ (by decide +kernel)⟩
  · refine (hmem _).mpr (.inr ⟨⟨"books//"⟩, by decide, ["books"], ["old"], "b.ipynb", ?_⟩)
    exact ⟨rfl, ⟨⟨[], rfl⟩, by decide⟩, by decide, by decide⟩
  · rw [List.mem_append, List.mem_reverse, or_self]

/-- The current directory, with this many needless pieces. -/
def windingPath : Nat → Path
  | 0 => ⟨"."⟩
  | k + 1 => ⟨(windingPath k).text ++ "/."⟩

theorem utf8ByteSize_windingPath (k : Nat) : (windingPath k).text.utf8ByteSize = 2 * k + 1 := by
  induction k with
  | zero => rfl
  | succ k ih =>
    have hpiece : "/.".utf8ByteSize = 2 := rfl
    rw [windingPath, String.utf8ByteSize_append, ih, hpiece]
    omega

theorem toList_windingPath (k : Nat) :
    (windingPath k).text.toList = (List.replicate k ['.', '/']).flatten ++ ['.'] := by
  induction k with
  | zero => rfl
  | succ k ih =>
    rw [windingPath, String.toList_append, ih, List.replicate_succ', List.flatten_append]
    simp

theorem pieces_windingPath (k : Nat) : (windingPath k).pieces = List.replicate (k + 1) "." := by
  rw [Path.pieces, toList_windingPath]
  induction k with
  | zero => rfl
  | succ k ih =>
    change (Line.split '/' (['.'] ++ '/' ::
      ((List.replicate k ['.', '/']).flatten ++ ['.']))).map String.ofList = _
    rw [Line.split_append_cons, List.map_append, ih]
    rfl

theorem followed_windingPath {k : Nat} (hk : 2 * k + 1 ≤ maxPathLength) :
    Followed (windingPath k) where
  noNul := by simp [toList_windingPath]
  short := by
    rw [isTooLong, utf8ByteSize_windingPath, decide_eq_true_eq]
    omega
  ne_empty h := by
    have hsize := utf8ByteSize_windingPath k
    rw [h] at hsize
    cases hsize

theorem walkPieces_here {purpose : Purpose} {follow : Location → List String → Found}
    (hl : t.get? l = some .directory) (k : Nat) :
    t.walkPieces purpose follow l (List.replicate k ".") = .node l .directory := by
  induction k with
  | zero => rw [List.replicate_zero, walkPieces, hl]
  | succ k ih =>
    rw [List.replicate_succ, walkPieces, if_neg (not_not_intro hl), if_pos (.inr rfl), ih]

theorem find_windingPath {k : Nat} (hk : 2 * k + 1 ≤ maxPathLength)
    (hcurrent : t.get? t.current = some .directory) :
    t.find (windingPath k) = .node t.current .directory := by
  refine findFor_eq_node_iff.mpr ⟨followed_windingPath hk, ?_⟩
  have hstart : t.start (windingPath k) = t.current := by
    rw [start, toList_windingPath, if_neg]
    cases k <;> simp [List.replicate_succ]
  rw [hstart, pieces_windingPath]
  exact walkPieces_here hcurrent _

/-- A notebook in a directory of the current directory. -/
def sheltered : FileTree where
  nodes := [(["sub"], .directory), (["sub", "a.ipynb"], .file [])]
  current := []

theorem isTooLong_joinNames_windingPath :
    isTooLong (joinNames (windingPath 2046) ["sub"]) = true := by
  have hlast : (windingPath 2046).text.toList.getLast? ≠ some '/' := by
    rw [toList_windingPath, List.getLast?_concat]
    decide
  have hne_empty : (windingPath 2046).text ≠ "" := (followed_windingPath (by decide)).ne_empty
  have hpiece : ("/" ++ "/".intercalate ["sub"]).utf8ByteSize = 4 := by decide
  rw [isTooLong, joinNames, if_neg (by decide), Path.text_join hne_empty hlast,
    String.utf8ByteSize_append, utf8ByteSize_windingPath, hpiece]
  rfl

theorem winding_path_hides_notebook :
    sheltered.WellFormed ∧ (∀ e ∈ sheltered.nodes, ∀ target, e.2 ≠ .link target) ∧
      ¬∀ p : Path, (∃ r ∈ sheltered.resolve [windingPath 2046], r.order p = .eq) ↔
        (∃ q ∈ [windingPath 2046], sheltered.isDirectory q = false ∧ q.order p = .eq) ∨
          ∃ d ∈ [windingPath 2046], ∃ l dirs name,
            sheltered.find d = .node l .directory ∧ sheltered.NotebookBelow l dirs name ∧
              p.components = d.components ++ (dirs ++ [name]).map .name := by
  have ht : sheltered.WellFormed := by decide
  refine ⟨ht, by simp [sheltered], fun h => ?_⟩
  have hfind : sheltered.find (windingPath 2046) = .node [] .directory :=
    find_windingPath (by decide) rfl
  have hne_empty : (windingPath 2046).text ≠ "" := (followed_windingPath (by decide)).ne_empty
  have hbelow : sheltered.NotebookBelow [] ["sub"] "a.ipynb" := ⟨⟨_, rfl⟩, by decide⟩
  have hcomponents : (joinNames (windingPath 2046) ["sub", "a.ipynb"]).components =
      (windingPath 2046).components ++ ["sub", "a.ipynb"].map .name :=
    components_joinNames hne_empty (hbelow.named ht)
  have hlisted := (h (joinNames (windingPath 2046) ["sub", "a.ipynb"])).mpr <| .inr
    ⟨_, List.mem_singleton_self _, [], ["sub"], "a.ipynb", hfind, hbelow, hcomponents⟩
  rw [exists_order_eq_iff, mem_resolve] at hlisted
  obtain ⟨d, hd, hlisted⟩ := hlisted
  rw [List.mem_singleton.mp hd, mem_expand ht, hcomponents] at hlisted
  rcases hlisted with ⟨hdirectory, -⟩ | ⟨l, dirs, name, -, -, hshort, hnames⟩
  · rw [isDirectory_iff.mpr ⟨_, hfind⟩] at hdirectory
    cases hdirectory
  · have hnames : ["sub"] ++ ["a.ipynb"] = dirs ++ [name] :=
      List.map_injective_iff.mpr (fun _ _ => Path.Component.name.inj)
        (List.append_cancel_left hnames)
    obtain ⟨rfl, -⟩ := List.append_inj' hnames rfl
    rw [isTooLong_joinNames_windingPath] at hshort
    cases hshort

end FileTree

end NotebookCleaning
