import AgenticSDLC.Foundations.Separated

/-!
# Resolved POSIX paths

A resolved path is the list of names below the root.  Resolution is lexical: the
file trees it is applied to hold no symbolic links.
-/

/-- The names of an absolute path, none of them empty, `.` or `..`. -/
structure ResolvedPath where
  names : List String
  normal : ∀ name ∈ names, name ≠ "" ∧ name ≠ "." ∧ name ≠ ".."
  deriving DecidableEq

namespace ResolvedPath

def root : ResolvedPath := ⟨[], by simp⟩

def parent (path : ResolvedPath) : ResolvedPath :=
  ⟨path.names.dropLast, fun name h ↦ path.normal name (List.dropLast_subset _ h)⟩

def enter (path : ResolvedPath) (name : String) : ResolvedPath :=
  if h : name = "" ∨ name = "." then path
  else if hup : name = ".." then path.parent
  else
    ⟨path.names ++ [name], by
      intro other hother
      rcases List.mem_append.mp hother with hold | hnew
      · exact path.normal other hold
      · obtain rfl := List.mem_singleton.mp hnew
        exact ⟨fun e ↦ h (Or.inl e), fun e ↦ h (Or.inr e), hup⟩⟩

def components (text : String) : List String :=
  (text.toList.splitOn '/').map String.ofList

def isAbsolute (text : String) : Bool := text.toList.head? = some '/'

/-- `(base / text).resolve()`: an absolute `text` replaces the base. -/
def resolve (base : ResolvedPath) (text : String) : ResolvedPath :=
  (components text).foldl enter (if isAbsolute text then root else base)

def isWithin (path base : ResolvedPath) : Bool := base.names.isPrefixOf path.names

end ResolvedPath

/-- A path as `os.path.realpath` gives it back. -/
structure RealPath extends ResolvedPath where
  slashless : ∀ name ∈ names, '/' ∉ name.toList

namespace RealPath

open Separated

def text (path : RealPath) : String := "/" ++ "/".intercalate path.names

/-- What stands between the slashes of the text. -/
def pieces (path : RealPath) : List (List Char) :=
  [] :: if path.names = [] then [[]] else path.names.map String.toList

theorem toList_text (path : RealPath) : path.text.toList = join '/' path.pieces := by
  rw [text, String.toList_append, String.toList_intercalate, pieces]
  split_ifs with hroot
  · rw [hroot]
    rfl
  · rw [join_cons '/' [] (by simpa using hroot)]
    rfl

theorem slash_notMem_of_mem_pieces (path : RealPath) : ∀ piece ∈ path.pieces, '/' ∉ piece := by
  rw [pieces, List.forall_mem_cons]
  refine ⟨List.not_mem_nil, ?_⟩
  split_ifs
  · simp
  · intro piece hpiece
    obtain ⟨name, hname, rfl⟩ := List.mem_map.mp hpiece
    exact path.slashless name hname

theorem map_toList_inj {names others : List String} :
    names.map String.toList = others.map String.toList ↔ names = others :=
  List.map_inj_right fun _ _ ↦ String.toList_inj.mp

theorem pieces_injective {path other : RealPath} (h : path.pieces = other.pieces) :
    path.names = other.names := by
  have hempty : ∀ p : RealPath, [[]] ≠ p.names.map String.toList := by
    intro p hp
    obtain ⟨name, hname, htext⟩ := List.map_eq_singleton_iff.mp hp.symm
    exact (p.normal name (by simp [hname])).1 (String.toList_eq_nil_iff.mp htext)
  simp only [pieces, List.cons.injEq, true_and] at h
  split_ifs at h with hpath hother hother
  · rw [hpath, hother]
  · exact absurd h (hempty other)
  · exact absurd h.symm (hempty path)
  · exact map_toList_inj.mp h

theorem text_inj {path other : RealPath} : path.text = other.text ↔ path.names = other.names := by
  constructor
  · intro h
    apply pieces_injective
    rw [← splitOn_join path.slash_notMem_of_mem_pieces (List.cons_ne_nil _ _), ← toList_text, h,
      toList_text, splitOn_join other.slash_notMem_of_mem_pieces (List.cons_ne_nil _ _)]
  · intro h
    rw [text, text, h]

/-- With a slash after it, the text of a path other than the root begins those below it. -/
theorem text_append_prefix_iff {path other : RealPath} (hroot : path.names ≠ []) :
    (path.text ++ "/").toList <+: other.text.toList ↔
      path.names <+: other.names ∧ path.names ≠ other.names := by
  rw [String.toList_append, toList_text, toList_text]
  refine (join_append_prefix_iff path.slash_notMem_of_mem_pieces (List.cons_ne_nil _ _)
    other.slash_notMem_of_mem_pieces (List.cons_ne_nil _ _)).trans ?_
  simp only [pieces, if_neg hroot, List.cons_append, List.cons.injEq, true_and]
  by_cases hother : other.names = []
  · have hlong : ∀ next rest, [[]] ≠ path.names.map String.toList ++ next :: rest := by
      intro next rest hsplit
      have hlength := congrArg List.length hsplit
      simp only [List.length_append, List.length_map, List.length_cons, List.length_nil] at hlength
      exact hroot (List.length_eq_zero_iff.mp (by omega))
    simp [hother, hroot, hlong]
  · rw [if_neg hother]
    constructor
    · rintro ⟨next, rest, hsplit⟩
      obtain ⟨names, below, hnames, hpath, hbelow⟩ := List.map_eq_append_iff.mp hsplit
      rw [map_toList_inj] at hpath
      rw [hnames, hpath]
      refine ⟨List.prefix_append _ _, fun hsame ↦ ?_⟩
      rw [List.self_eq_append_right.mp hsame] at hbelow
      exact absurd hbelow (by simp)
    · rintro ⟨⟨below, hnames⟩, hne⟩
      cases below with
      | nil => exact absurd (by simpa using hnames) hne
      | cons name below => exact ⟨name.toList, below.map String.toList, by simp [← hnames]⟩

/-- No path begins with two slashes. -/
theorem not_text_prefix_of_root {path other : RealPath} (hroot : path.names = []) :
    ¬(path.text ++ "/").toList <+: other.text.toList := by
  rw [String.toList_append, toList_text, toList_text]
  intro hprefix
  obtain ⟨next, rest, hsplit⟩ := (join_append_prefix_iff path.slash_notMem_of_mem_pieces
    (List.cons_ne_nil _ _) other.slash_notMem_of_mem_pieces (List.cons_ne_nil _ _)).mp hprefix
  simp only [pieces, if_pos hroot, List.cons_append, List.nil_append, List.cons.injEq, true_and]
    at hsplit
  split_ifs at hsplit with hother
  · simp at hsplit
  · have hmem : [] ∈ other.names.map String.toList := by
      rw [hsplit]
      exact List.mem_cons_self
    obtain ⟨name, hname, htext⟩ := List.mem_map.mp hmem
    exact (other.normal name hname).1 (String.toList_eq_nil_iff.mp htext)

end RealPath
